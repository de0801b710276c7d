import BattleCloud.Fleet.Queue

/-!
# Bounded attempts

`claim_job` has no cap of its own. In a fleet whose workers all have `max_attempts ≤ M`, a job is
back in `queued` only with `attempts < M`, because both `CASE` expressions that requeue it test
the value the claim incremented (`AttemptsOk`). `attempts` is also exactly the number of claims in
the history (`ClaimsCounted`), and every engine call follows a claim (`InvocationsCounted`),
which bounds both by `M` over any run.
-/

namespace BattleCloud

/-- A run whose workers are all started with `max_attempts ≤ M`. -/
def Capped (M : Nat) (_ : Fleet) : Action → Prop
  | .spawn _ config => config.maxAttempts ≤ M
  | _ => True

instance (M : Nat) (s : Fleet) (a : Action) : Decidable (Capped M s a) :=
  match a with
  | .spawn _ config => inferInstanceAs (Decidable (config.maxAttempts ≤ M))
  | .submit .. | .submission .. | .worker .. | .heartbeat .. => inferInstanceAs (Decidable True)

def Event.isClaim (id : Uuid) : Event → Bool
  | .claimed _ job => job = id
  | _ => false

def Event.isInvocation (id : Uuid) : Event → Bool
  | .invoked _ job _ => job = id
  | _ => false

/-- How often a job was claimed. -/
def claims (id : Uuid) (log : List Event) : Nat := log.countP (Event.isClaim id)

/-- How often the engine was invoked for a job. -/
def invocations (id : Uuid) (log : List Event) : Nat := log.countP (Event.isInvocation id)

/-- The attempts of a row under a cap of `M`. -/
structure AttemptsOk (M : Nat) (j : JobRow) : Prop where
  le : j.attempts ≤ M
  queued : j.status = .queued → j.attempts < M
  running : j.status = .running → 1 ≤ j.attempts

/-- `attempts` counts the claims, and a job that is not there was never claimed. -/
structure ClaimsCounted (s : Fleet) : Prop where
  row : ∀ j ∈ s.db.jobs, claims j.id s.log = j.attempts
  absent : ∀ id, (∀ j ∈ s.db.jobs, j.id ≠ id) → claims id s.log = 0

variable {s s' : Fleet} {M : Nat}

/-! ## One row -/

namespace AttemptsOk

variable {j : JobRow}

theorem claim (h : AttemptsOk M j) (hq : j.status = .queued) (w : String) (l : Nat)
    (now : Timestamptz) : AttemptsOk M (j.claim w l now) where
  le := h.queued hq
  queued := by
    intro hs
    cases hs
  running := fun _ => Nat.le_add_left 1 _

theorem heartbeat (h : AttemptsOk M j) (l : Nat) (now : Timestamptz) :
    AttemptsOk M (j.heartbeat l now) :=
  ⟨h.le, h.queued, h.running⟩

theorem complete (h : AttemptsOk M j) (a : Uuid) (now : Timestamptz) :
    AttemptsOk M (j.complete a now) where
  le := h.le
  queued := by
    intro hs
    cases hs
  running := by
    intro hs
    cases hs

/-- Back to `queued` only below the worker's own cap. -/
theorem fail (h : AttemptsOk M j) {m : Nat} (hm : m ≤ M) (r : Bool) (k : ErrorKind) (d : String)
    (now : Timestamptz) : AttemptsOk M (j.fail r m k d now) where
  le := h.le
  queued := by
    intro hs
    by_cases hc : (r && decide (j.attempts < m)) = true
    · rw [Bool.and_eq_true, decide_eq_true_eq] at hc
      exact Nat.lt_of_lt_of_le hc.2 hm
    · simp only [JobRow.fail, hc] at hs
      cases hs
  running := by
    intro hs
    simp only [JobRow.fail] at hs
    split at hs <;> cases hs

theorem reclaim (h : AttemptsOk M j) {m : Nat} (hm : m ≤ M) (now : Timestamptz) :
    AttemptsOk M (j.reclaim m now) where
  le := h.le
  queued := by
    intro hs
    by_cases hc : j.attempts < m
    · exact Nat.lt_of_lt_of_le hc hm
    · simp only [JobRow.reclaim, hc, if_false] at hs
      cases hs
  running := by
    intro hs
    simp only [JobRow.reclaim] at hs
    split at hs <;> cases hs

theorem fresh (hM : 1 ≤ M) (i : Uuid) (c : IdentityColumns) (p : Profile) (t m : Int)
    (now : Timestamptz) : AttemptsOk M (JobRow.fresh i c p t m now) where
  le := Nat.zero_le M
  queued := fun _ => hM
  running := by
    intro hs
    cases hs

/-- A claim takes a queued row, whatever id it names. -/
theorem claimed {db : Db} (hv : db.Valid) (h : ∀ j ∈ db.jobs, AttemptsOk M j) (hj : j ∈ db.jobs)
    (hq : j.status = .queued) (w : String) (l : Nat) (now : Timestamptz) :
    ∀ k ∈ ((JobUpdate.claim j.id w l now).apply db).jobs, AttemptsOk M k := by
  refine Table.forall_updateWhere h fun k hk hok hs => ?_
  have hid : k.id = j.id := by simpa [JobUpdate.sel] using hs
  rw [hv.job_eq hk hj hid] at hok ⊢
  exact hok.claim hq _ _ _

end AttemptsOk

/-! ## One statement -/

/-- **Every statement keeps the rows under the cap.** -/
theorem Effect.attemptsOk (hM : 1 ≤ M) (hv : s.db.Valid)
    (hcap : ∀ w ∈ s.workers, w.config.maxAttempts ≤ M) (h : ∀ j ∈ s.db.jobs, AttemptsOk M j)
    {e : Event} {db : Db} (heff : Effect s e db) : ∀ j ∈ db.jobs, AttemptsOk M j := by
  cases heff with
  | readOnly _ => exact h
  | present i => exact h
  | upserted i _ => exact h
  | created newId now _ _ _ =>
    exact List.forall_mem_append.mpr ⟨h, List.forall_mem_singleton.mpr (.fresh hM _ _ _ _ _ _)⟩
  | claimed now _ _ hj hc =>
    exact AttemptsOk.claimed hv h hj (JobRow.claimable_iff.mp hc).1 _ _ _
  | renewed now _ _ => exact Table.forall_updateWhere h fun k _ hok _ => hok.heartbeat _ _
  | failed now hw _ _ =>
    exact Table.forall_updateWhere h fun k _ hok _ =>
      hok.fail (hcap _ (List.mem_of_getElem? hw)) _ _ _ _
  | reclaimed now hw =>
    exact Table.forall_updateWhere h fun k _ hok _ =>
      hok.reclaim (hcap _ (List.mem_of_getElem? hw)) _
  | completed _ _ _ _ => exact Table.forall_updateWhere h fun k _ hok _ => hok.complete _ _

/-- Only a claim changes `attempts`. -/
theorem JobUpdate.set_attempts {u : JobUpdate} (hu : u.isClaim = false) (j : JobRow) :
    (u.set j).attempts = j.attempts := by
  cases u with
  | claim => cases hu
  | _ => rfl

/-- An update that is no claim, row by row. -/
theorem apply_attempts {u : JobUpdate} (hu : u.isClaim = false) {d : Db} {j' : JobRow}
    (hj' : j' ∈ (u.apply d).jobs) :
    ∃ j ∈ d.jobs, j'.id = j.id ∧ j'.attempts = j.attempts := by
  obtain ⟨j, hj, ⟨-, rfl⟩ | ⟨-, rfl⟩⟩ := Table.mem_updateWhere.mp hj'
  · exact ⟨j, hj, u.set_id j, JobUpdate.set_attempts hu j⟩
  · exact ⟨j, hj, rfl, rfl⟩

/-- **`attempts` moves with the claims**: a row was there with the attempts it has now less the
claim this step made of it, or it is new. -/
theorem Effect.attempts {e : Event} {db : Db} (hv' : db.Valid) (h : Effect s e db) {j' : JobRow}
    (hj' : j' ∈ db.jobs) :
    (∃ j ∈ s.db.jobs, j'.id = j.id ∧
      j'.attempts = j.attempts + if e.isClaim j.id then 1 else 0) ∨
    ((∀ j ∈ s.db.jobs, j.id ≠ j'.id) ∧ j'.attempts = 0 ∧ e.isClaim j'.id = false) := by
  cases h with
  | readOnly he =>
    refine Or.inl ⟨j', hj', rfl, ?_⟩
    cases e <;> first | rfl | cases he
  | present i => exact Or.inl ⟨j', hj', rfl, rfl⟩
  | upserted i _ => exact Or.inl ⟨j', hj', rfl, rfl⟩
  | created newId now _ _ _ =>
    rcases List.mem_append.mp hj' with hj | hj
    · exact Or.inl ⟨j', hj, rfl, rfl⟩
    · rw [List.mem_singleton.mp hj]
      exact Or.inr ⟨fun _ => hv'.ne_last_job, rfl, rfl⟩
  | @claimed i w j locked now _ _ hj hc =>
    obtain ⟨k, hk, ⟨hs, rfl⟩ | ⟨hs, rfl⟩⟩ := Table.mem_updateWhere.mp hj'
    · have hid : k.id = j.id := by simpa [JobUpdate.sel] using hs
      refine Or.inl ⟨k, hk, rfl, ?_⟩
      rw [if_pos (by simp [Event.isClaim, hid])]
      rfl
    · have hid : k.id ≠ j.id := by simpa [JobUpdate.sel] using hs
      refine Or.inl ⟨k, hk, rfl, ?_⟩
      rw [if_neg (by simpa [Event.isClaim] using hid.symm)]
      rfl
  | renewed now _ _ => exact Or.inl (apply_attempts rfl hj')
  | failed now _ _ _ => exact Or.inl (apply_attempts rfl hj')
  | reclaimed now _ => exact Or.inl (apply_attempts rfl hj')
  | completed _ _ _ _ => exact Or.inl (apply_attempts (d := s.db.putAnalysis _) rfl hj')

/-- An event claims a job of the table. -/
theorem Effect.mem_of_isClaim {e : Event} {db : Db} (h : Effect s e db) {id : Uuid}
    (he : e.isClaim id = true) : ∃ j ∈ s.db.jobs, j.id = id := by
  cases h with
  | claimed now _ _ hj _ => exact ⟨_, hj, by simpa [Event.isClaim] using he⟩
  | readOnly hr => cases e <;> first | cases he | cases hr
  | _ => cases he

/-- **The claims stay counted.** -/
theorem ClaimsCounted.step (hv : s.db.Valid) (hc : ClaimsCounted s) {a : Action}
    (h : s.step a = some s') : ClaimsCounted s' := by
  obtain ⟨e, hlog, hs⟩ := step_spec hv h
  have hcount : ∀ id, claims id s'.log = claims id s.log + if e.isClaim id then 1 else 0 := by
    intro id
    unfold claims
    rw [hlog, List.countP_cons]
  constructor
  · intro j' hj'
    rw [hcount]
    rcases hs.effect.attempts (hs.valid hv) hj' with ⟨j, hj, hid, ha⟩ | ⟨hn, ha, he⟩
    · rw [hid, hc.row j hj, ha]
    · rw [hc.absent _ hn, ha, he]
      rfl
  · intro id hn
    have hold : ∀ j ∈ s.db.jobs, j.id ≠ id := by
      intro j hj
      obtain ⟨j', hj', hid, -⟩ := hs.effect.jobs j hj
      rw [← hid]
      exact hn j' hj'
    rw [hcount, hc.absent id hold]
    by_cases he : e.isClaim id = true
    · obtain ⟨j, hj, hid⟩ := hs.effect.mem_of_isClaim he
      exact absurd hid (hold j hj)
    · rw [if_neg he]

/-! ## Engine calls -/

/-- The worker holds a claim it has not yet taken to the engine. -/
def Worker.loads (id : Uuid) (w : Worker) : Bool :=
  match w.phase with
  | .loading job => job.id = id
  | _ => false

/-- Every engine call follows a claim of its own. -/
def InvocationsCounted (s : Fleet) : Prop :=
  ∀ id, invocations id s.log + s.workers.countP (Worker.loads id) ≤ claims id s.log

theorem loads_start (id : Uuid) (workerId : String) (c : WorkerConfig) (m : Mode) :
    Worker.loads id ⟨workerId, c, Worker.start m⟩ = false := by
  cases m <;> rfl

/-- A worker comes to hold a claim by claiming, and invokes the engine only for the claim it
holds. -/
theorem WorkerStep.loads {db db' : Db} {hbs : List Heartbeat} {i : Nat} {w : Worker}
    {act : WorkerAction} {ph : WorkerPhase} {e : Event} (id : Uuid)
    (h : WorkerStep db hbs i w act db' ph e) :
    (Worker.loads id { w with phase := ph } = true → e.isClaim id = true) ∧
      (e.isInvocation id = true → w.loads id = true) := by
  have hloop : ∀ {m : Mode} {p : Prop}, Worker.loads id { w with phase := Worker.start m } = true →
      p := by
    intro m p hl
    rw [loads_start] at hl
    cases hl
  cases h with
  | claimed hph hok =>
    exact ⟨fun hl => by simpa [Worker.loads, Event.isClaim] using hl, by rintro ⟨⟩⟩
  | empty hph hok =>
    refine ⟨fun hl => ?_, by rintro ⟨⟩⟩
    unfold Worker.loads Worker.afterEmpty at hl
    cases hm : w.config.mode <;> simp [hm] at hl
  | invoked hph hok =>
    exact ⟨by rintro ⟨⟩, fun hi => by simpa [Worker.loads, hph, Event.isInvocation] using hi⟩
  | discarded run hph => exact ⟨hloop, by rintro ⟨⟩⟩
  | failed hph hok hown => exact ⟨hloop, by rintro ⟨⟩⟩
  | failedStale hph => exact ⟨hloop, by rintro ⟨⟩⟩
  | completed hph hok => exact ⟨hloop, by rintro ⟨⟩⟩
  | rolledBack hph hok => exact ⟨hloop, by rintro ⟨⟩⟩
  | _ => exact ⟨by rintro ⟨⟩, by rintro ⟨⟩⟩

/-- Only a worker's own step invokes the engine. -/
theorem not_isInvocation {e : Event} (he : e.ofWorker = false) (id : Uuid) :
    e.isInvocation id = false := by
  cases e with
  | invoked => cases he
  | _ => rfl

theorem InvocationsCounted.step (hc : InvocationsCounted s) {a : Action}
    (h : s.step a = some s') : InvocationsCounted s' := by
  intro id
  have hid := hc id
  cases FleetStep.of_eq h with
  | submit request build => exact hid
  | submission hsub hst =>
    have he := not_isInvocation hst.event id
    simp only [invocations, claims, List.countP_cons, he, Bool.false_eq_true, if_false] at hid ⊢
    omega
  | spawn hfree =>
    simp only [invocations, claims, List.countP_cons, List.countP_append, List.countP_nil,
      loads_start, Event.isInvocation, Event.isClaim] at hid ⊢
    exact hid
  | @worker i w act db ph e hw hst =>
    obtain ⟨hnew, hold⟩ := hst.loads id
    have hset := Table.countP_set_add (p := Worker.loads id) (y := { w with phase := ph }) hw
    simp only [invocations, claims, List.countP_cons] at hid ⊢
    by_cases hl : Worker.loads id { w with phase := ph } = true
    · rw [if_pos (hnew hl)]
      rw [if_pos hl] at hset
      by_cases hi : e.isInvocation id = true
      · rw [if_pos hi]
        rw [if_pos (hold hi)] at hset
        omega
      · rw [if_neg hi]
        omega
    · rw [if_neg hl] at hset
      by_cases hi : e.isInvocation id = true
      · rw [if_pos hi]
        rw [if_pos (hold hi)] at hset
        omega
      · rw [if_neg hi]
        omega
  | heartbeat hhb hw hst =>
    have he := not_isInvocation hst.event.2 id
    simp only [invocations, claims, List.countP_cons, he, Bool.false_eq_true, if_false] at hid ⊢
    omega

/-! ## Runs -/

/-- What a capped run keeps. -/
structure Bounded (M : Nat) (s : Fleet) : Prop where
  caps : ∀ w ∈ s.workers, w.config.maxAttempts ≤ M
  rows : ∀ j ∈ s.db.jobs, AttemptsOk M j
  counted : ClaimsCounted s
  invoked : InvocationsCounted s

theorem bounded_of_reach (hM : 1 ≤ M) (h : StepSystem.Reach Fleet.step (Capped M) Fleet.init s) :
    Bounded M s := by
  have hinit : Bounded M Fleet.init :=
    ⟨fun w hw => (List.not_mem_nil hw).elim, fun j hj => (List.not_mem_nil hj).elim,
      ⟨fun j hj => (List.not_mem_nil hj).elim, fun _ _ => rfl⟩, fun _ => Nat.le_refl 0⟩
  refine StepSystem.Reach.invariant_of hinit ?_ h
  intro s a s' hr hb hcap hst
  have hv := valid_of_reachable hr.reachable
  obtain ⟨e, -, hs⟩ := step_spec hv hst
  refine ⟨?_, hs.effect.attemptsOk hM hv hb.caps hb.rows, hb.counted.step hv hst,
    hb.invoked.step hst⟩
  intro w' hw'
  obtain ⟨i, hi⟩ := List.mem_iff_getElem?.mp hw'
  rcases step_workers hst hi with
    hw | ⟨workerId, config, rfl, -, rfl, -⟩ | ⟨w, _, _, _, -, hw, -, rfl, -⟩
  · exact hb.caps w' (List.mem_of_getElem? hw)
  · exact hcap
  · exact hb.caps w (List.mem_of_getElem? hw)

/-- **Bounded attempts.** With every worker's `max_attempts` at most `M`: a queued job has been
claimed fewer than `M` times, a running one between once and `M` times, `attempts` never
decreases, and over the whole run a job is claimed, and the engine invoked for it, at most `M`
times. -/
theorem bounded_attempts (hM : 1 ≤ M)
    (h : StepSystem.Reach Fleet.step (Capped M) Fleet.init s) :
    (∀ j ∈ s.db.jobs, (j.status = .queued → j.attempts < M) ∧
      (j.status = .running → 1 ≤ j.attempts ∧ j.attempts ≤ M)) ∧
    (∀ a s', s.step a = some s' → ∀ j ∈ s.db.jobs,
      ∃ j' ∈ s'.db.jobs, j'.id = j.id ∧ j.attempts ≤ j'.attempts) ∧
    (∀ id, claims id s.log ≤ M ∧ invocations id s.log ≤ M) := by
  have hb := bounded_of_reach hM h
  have hv := valid_of_reachable h.reachable
  refine ⟨fun j hj => ?_, fun a s' hst j hj => ?_, fun id => ?_⟩
  · have hok := hb.rows j hj
    exact ⟨hok.queued, fun hs => ⟨hok.running hs, hok.le⟩⟩
  · obtain ⟨e, -, hs⟩ := step_spec hv hst
    obtain ⟨j', hj', hid, -⟩ := hs.effect.jobs j hj
    refine ⟨j', hj', hid, ?_⟩
    rcases hs.effect.attempts (hs.valid hv) hj' with ⟨k, hk, hidk, ha⟩ | ⟨hn, -, -⟩
    · rw [hv.job_eq hk hj (hidk.symm.trans hid)] at ha
      rw [ha]
      exact Nat.le_add_right _ _
    · exact absurd hid.symm (hn j hj)
  · have hclaims : claims id s.log ≤ M := by
      by_cases hex : ∃ j ∈ s.db.jobs, j.id = id
      · obtain ⟨j, hj, rfl⟩ := hex
        rw [hb.counted.row j hj]
        exact (hb.rows j hj).le
      · rw [hb.counted.absent id fun j hj he => hex ⟨j, hj, he⟩]
        exact Nat.zero_le M
    exact ⟨hclaims, Nat.le_trans (Nat.le_of_add_right_le (hb.invoked id)) hclaims⟩

theorem bounded_attempts_reported :
    claims 7 (Fleet.afterIf (Capped 3) Sample.reported).log = 1 ∧
    invocations 7 (Fleet.afterIf (Capped 3) Sample.reported).log ≤ 3 :=
  ⟨by decide, ((bounded_attempts (by decide) (Fleet.reach_afterIf _ _)).2.2 7).2⟩

end BattleCloud
