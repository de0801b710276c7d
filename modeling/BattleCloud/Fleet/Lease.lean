import BattleCloud.Fleet.Queue
import BattleCloud.Lib.Lease

/-!
# Lease fencing

The history of one job, read as the moves of a lease (`Event.move`): a claim takes it, a
`reclaim_expired` or `fail_job` that reached the row releases it, a completion finishes it.
`Leased` ties the lease to the row: the job is `running` exactly while some worker holds the
lease, and `claimed_by` is that worker's id. The fence in the statements is that string alone, so
it also takes `distinct`: no live worker that ever claimed the job shares the holder's id.

**`lease_fencing`** is then read off the automaton of `Lib.Lease`.
-/

namespace BattleCloud

/-! ## The history as moves -/

/-- A release of the job: a `reclaim_expired` or a `fail_job` that reached its row. -/
def Event.releases (job : Uuid) : Event → Prop
  | .reclaimed jobs => job ∈ jobs
  | .failed _ j => j = job
  | _ => False

instance (job : Uuid) (e : Event) : Decidable (e.releases job) :=
  match e with
  | .reclaimed jobs => inferInstanceAs (Decidable (job ∈ jobs))
  | .failed _ j => inferInstanceAs (Decidable (j = job))
  | .quiet | .missed .. | .served .. | .upserted .. | .created .. | .joined .. | .claimed ..
  | .renewed .. | .invoked .. | .returned .. | .completed .. | .replayNotFound ..
  | .rejected .. => inferInstanceAs (Decidable False)

/-- What an event does to the lease of a job. -/
def Event.move (job : Uuid) : Event → Lease.Move Nat
  | .claimed w j => if j = job then .take w else .other
  | .failed _ j => if j = job then .release else .other
  | .reclaimed jobs => if job ∈ jobs then .release else .other
  | .completed w j _ => if j = job then .finish w else .other
  | _ => .other

/-- The lease of a job after a history. -/
def lease (job : Uuid) (log : List Event) : Option (Lease.Holder Nat) :=
  Lease.holder (log.map (Event.move job))

def Event.isCompletion (job : Uuid) : Event → Bool
  | .completed _ j _ => j = job
  | _ => false

/-- The claim of the job by the worker was released, and the worker has not claimed it again. -/
def Released (w : Nat) (job : Uuid) (log : List Event) : Prop :=
  ∃ l₁ l₂, log = l₁ ++ .claimed w job :: l₂ ∧ .claimed w job ∉ l₁ ∧ ∃ e ∈ l₁, e.releases job

/-- The worker claimed the job last, and the claim was neither released nor completed. -/
def CurrentOwner (w : Nat) (job : Uuid) (log : List Event) : Prop :=
  ∃ l₁ l₂, log = l₁ ++ .claimed w job :: l₂ ∧
    ∀ e ∈ l₁, (∀ v, e ≠ .claimed v job) ∧ ¬ e.releases job ∧ e.isCompletion job = false

/-- The claim a statement belongs to. -/
def statementOf (s : Fleet) : Action → Option (Nat × Uuid)
  | .heartbeat h _ => (s.heartbeats[h]?).map fun hb => (hb.worker, hb.job)
  | .worker i (.fail _) =>
    match (s.workers[i]?).map Worker.phase with
    | some (.failing job _) => some (i, job)
    | _ => none
  | .worker i (.insert _ _) =>
    match (s.workers[i]?).map Worker.phase with
    | some (.reporting job _) => some (i, job.id)
    | _ => none
  | .worker i .complete =>
    match (s.workers[i]?).map Worker.phase with
    | some (.completing job _ _ _) => some (i, job.id)
    | _ => none
  | _ => none

variable {s s' : Fleet} {job : Uuid}

theorem move_eq_take {e : Event} {w : Nat} : e.move job = .take w ↔ e = .claimed w job := by
  cases e <;> simp only [Event.move, reduceCtorEq]
  · split
    · rename_i h
      simp [h]
    · rename_i h
      simp [h]
  · split <;> simp
  · split <;> simp
  · split <;> simp

theorem move_eq_release {e : Event} : e.move job = .release ↔ e.releases job := by
  cases e <;> simp only [Event.move, Event.releases, reduceCtorEq]
  · split <;> simp
  · split <;> simp [*]
  · split <;> simp [*]
  · split <;> simp

theorem isFinish_move (e : Event) : (e.move job).isFinish = e.isCompletion job := by
  unfold Event.move Event.isCompletion
  cases e with
  | claimed w j => by_cases h : j = job <;> simp [Lease.Move.isFinish, h]
  | failed w j => by_cases h : j = job <;> simp [Lease.Move.isFinish, h]
  | reclaimed js => by_cases h : job ∈ js <;> simp [Lease.Move.isFinish, h]
  | completed w j row => by_cases h : j = job <;> simp [Lease.Move.isFinish, h]
  | _ => rfl

/-- The lease after one more event. -/
theorem lease_cons {e : Event} {log : List Event} {h h' : Lease.Holder Nat}
    (hl : lease job log = some h) (hn : h.next (e.move job) = some h') :
    lease job (e :: log) = some h' := by
  unfold lease at *
  rw [List.map_cons, Lease.holder, hl]
  exact hn

/-! ## The row under the lease -/

/-- A row of `jobs` while its lease is in a state. -/
def RowLease (s : Fleet) (j : JobRow) : Lease.Holder Nat → Prop
  | .free => j.status = .queued ∨ j.status = .failed
  | .held w => j.status = .running ∧ ∃ v, s.workers[w]? = some v ∧ j.claimedBy = some v.workerId
  | .done => j.status = .succeeded

/-- What a step can do to one row, as a move of its lease. -/
inductive RowMove (s : Fleet) (j j' : JobRow) : Lease.Move Nat → Prop
  | other (hs : j'.status = j.status) (hc : j'.claimedBy = j.claimedBy) : RowMove s j j' .other
  | take {i : Nat} {w : Worker} (hw : s.workers[i]? = some w) (hq : j.status = .queued)
      (hs : j'.status = .running) (hc : j'.claimedBy = some w.workerId) : RowMove s j j' (.take i)
  | release (hr : j.status = .running) (hs : j'.status = .queued ∨ j'.status = .failed) :
      RowMove s j j' .release
  | finish {i : Nat} {w : Worker} (hw : s.workers[i]? = some w) (ha : w.alive = true)
      (hl : .claimed i j.id ∈ s.log) (hr : j.status = .running)
      (hc : j.claimedBy = some w.workerId) (hs : j'.status = .succeeded) :
      RowMove s j j' (.finish i)

theorem RowMove.refl (j : JobRow) : RowMove s j j .other := .other rfl rfl

/-- An update either skips a row, or makes the move its event says. -/
theorem rowMove_of_apply {u : JobUpdate} {d : Db} {m : JobRow → Lease.Move Nat}
    (hskip : ∀ j ∈ d.jobs, u.sel j = false → m j = .other)
    (htake : ∀ j ∈ d.jobs, u.sel j = true → RowMove s j (u.set j) (m j)) {j' : JobRow}
    (hj' : j' ∈ (u.apply d).jobs) : ∃ j ∈ d.jobs, j'.id = j.id ∧ RowMove s j j' (m j) := by
  obtain ⟨j, hj, ⟨hs, rfl⟩ | ⟨hs, rfl⟩⟩ := Table.mem_updateWhere.mp hj'
  · exact ⟨j, hj, u.set_id j, htake j hj hs⟩
  · refine ⟨j, hj, rfl, ?_⟩
    rw [hskip j hj hs]
    exact .refl j

/-- The rows a statement of one owner skips do not bear its job's id. -/
theorem not_id_of_not_owned (hv : s.db.Valid) {id : Uuid} {w : String}
    (ho : ∃ j ∈ s.db.jobs, j.ownedBy id w = true) {j : JobRow} (hj : j ∈ s.db.jobs)
    (hn : j.ownedBy id w = false) : id ≠ j.id := by
  rintro rfl
  obtain ⟨k, hk, hko⟩ := ho
  rw [hv.job_eq hk hj (JobRow.ownedBy_iff.mp hko).1] at hko
  rw [hn] at hko
  cases hko

/-- **What a step does to each row is a move of its lease.** -/
theorem Effect.rowMove (hv : s.db.Valid) (hp : ProcessesOk s) {e : Event} {db : Db}
    (hv' : db.Valid) (h : Effect s e db) {j' : JobRow} (hj' : j' ∈ db.jobs) :
    (∃ j ∈ s.db.jobs, j'.id = j.id ∧ RowMove s j j' (e.move j.id)) ∨
    (j'.status = .queued ∧ (∀ j ∈ s.db.jobs, j.id ≠ j'.id) ∧ e.move j'.id = .other) := by
  cases h with
  | readOnly he =>
    refine Or.inl ⟨j', hj', rfl, ?_⟩
    cases e <;> first | exact .refl j' | cases he
  | present i => exact Or.inl ⟨j', hj', rfl, .refl j'⟩
  | upserted i _ => exact Or.inl ⟨j', hj', rfl, .refl j'⟩
  | created newId now _ _ _ =>
    rcases List.mem_append.mp hj' with hj | hj
    · exact Or.inl ⟨j', hj, rfl, .refl j'⟩
    · rw [List.mem_singleton.mp hj]
      exact Or.inr ⟨rfl, fun _ => hv'.ne_last_job, rfl⟩
  | @claimed i w j locked now hw _ hj hc =>
    refine Or.inl (rowMove_of_apply (m := fun k => Event.move k.id (.claimed i j.id)) ?_ ?_ hj')
    · intro k hk hs
      have hne : j.id ≠ k.id := by simpa [JobUpdate.sel, eq_comm] using hs
      simp only [Event.move, if_neg hne]
    · intro k hk hs
      have hid : k.id = j.id := by simpa [JobUpdate.sel] using hs
      obtain rfl := hv.job_eq hk hj hid
      simp only [Event.move, if_true]
      exact .take hw (JobRow.claimable_iff.mp hc).1 rfl rfl
  | renewed now _ _ =>
    exact Or.inl (rowMove_of_apply (m := fun _ => .other) (fun _ _ _ => rfl)
      (fun _ _ _ => .other rfl rfl) hj')
  | @failed i w id f now hw _ ho =>
    refine Or.inl (rowMove_of_apply (m := fun k => Event.move k.id (.failed i id)) ?_ ?_ hj')
    · intro k hk hs
      simp only [Event.move, if_neg (not_id_of_not_owned hv ho hk hs)]
    · intro k hk hs
      obtain ⟨hid, hr, -⟩ := JobRow.ownedBy_iff.mp hs
      simp only [Event.move, hid, if_true]
      exact .release hr (k.fail_status ..)
  | @reclaimed i w now hw =>
    refine Or.inl (rowMove_of_apply (m := fun k => Event.move k.id
      (.reclaimed ((s.db.jobs.filter (·.expired now)).map JobRow.id))) ?_ ?_ hj')
    · intro k hk hs
      simp only [Event.move]
      rw [if_neg]
      intro hm
      obtain ⟨l, hl, hid⟩ := List.mem_map.mp hm
      obtain ⟨hlm, hle⟩ := List.mem_filter.mp hl
      obtain rfl := hv.job_eq hlm hk hid
      have hle' : l.expired now = false := hs
      rw [hle'] at hle
      cases hle
    · intro k hk hs
      have hmem : k.id ∈ (s.db.jobs.filter (·.expired now)).map JobRow.id :=
        List.mem_map_of_mem (List.mem_filter.mpr ⟨hk, hs⟩)
      simp only [Event.move, if_pos hmem]
      exact .release (JobRow.expired_running hs) ((k.reclaim_status ..).imp_right And.left)
  | @completed i w cj run newId now p hw hph hpr ho =>
    have hok := hp.workers i w hw
    simp only [WorkerOk, hph] at hok
    have ha : w.alive = true := by simp [Worker.alive, hph]
    refine Or.inl (rowMove_of_apply (d := s.db.putAnalysis (written s.db p))
      (m := fun k => Event.move k.id (.completed i cj.id (written s.db p))) ?_ ?_ hj')
    · intro k hk hs
      simp only [Event.move, if_neg (not_id_of_not_owned hv ho hk hs)]
    · intro k hk hs
      obtain ⟨hid, hr, hcl⟩ := JobRow.ownedBy_iff.mp hs
      simp only [Event.move, hid, if_true]
      refine .finish hw ha ?_ hr hcl rfl
      rw [hid]
      exact hok.1.claimed

/-- An event that moves the lease of a job is about a job of the table. -/
theorem Effect.mem_of_move {e : Event} {db : Db} (h : Effect s e db)
    (he : e.move job ≠ .other) : ∃ j ∈ s.db.jobs, j.id = job := by
  cases h with
  | readOnly hr =>
    cases e <;> first | exact absurd rfl he | cases hr
  | @claimed i w j locked now _ _ hj _ =>
    by_cases hid : j.id = job
    · exact ⟨j, hj, hid⟩
    · simp only [Event.move, if_neg hid, ne_eq, not_true_eq_false] at he
  | @failed i w id f now _ _ ho =>
    obtain ⟨j, hj, hjo⟩ := ho
    by_cases hid : id = job
    · exact ⟨j, hj, (JobRow.ownedBy_iff.mp hjo).1.trans hid⟩
    · simp only [Event.move, if_neg hid, ne_eq, not_true_eq_false] at he
  | @reclaimed i w now _ =>
    by_cases hm : job ∈ (s.db.jobs.filter (·.expired now)).map JobRow.id
    · obtain ⟨j, hj, hid⟩ := List.mem_map.mp hm
      exact ⟨j, (List.mem_filter.mp hj).1, hid⟩
    · simp only [Event.move, if_neg hm, ne_eq, not_true_eq_false] at he
  | @completed i w cj run newId now p _ _ _ ho =>
    obtain ⟨j, hj, hjo⟩ := ho
    by_cases hid : cj.id = job
    · exact ⟨j, hj, (JobRow.ownedBy_iff.mp hjo).1.trans hid⟩
    · simp only [Event.move, if_neg hid, ne_eq, not_true_eq_false] at he
  | _ => exact absurd rfl he

/-! ## The invariant -/

structure Leased (s : Fleet) : Prop where
  row : ∀ j ∈ s.db.jobs, ∃ h, lease j.id s.log = some h ∧ RowLease s j h
  absent : ∀ id, (∀ j ∈ s.db.jobs, j.id ≠ id) → lease id s.log = some .free
  claimer : ∀ w id, .claimed w id ∈ s.log → w < s.workers.length
  /-- Live processes have ids of their own. -/
  liveIds : ∀ (p q : Nat) (v w : Worker), s.workers[p]? = some v → s.workers[q]? = some w →
    v.alive = true → w.alive = true → v.workerId = w.workerId → p = q
  /-- So does a live one that ever claimed a job, against the job's holder. -/
  distinct : ∀ (id : Uuid) (p q : Nat) (v w : Worker), lease id s.log = some (.held q) →
    .claimed p id ∈ s.log → s.workers[p]? = some v → v.alive = true → s.workers[q]? = some w →
    v.workerId = w.workerId → p = q

theorem RowLease.free_of_queued {j : JobRow} {h : Lease.Holder Nat} (hr : RowLease s j h)
    (hq : j.status = .queued) : h = .free := by
  cases h with
  | free => rfl
  | held w =>
    have hrun := hr.1
    rw [hq] at hrun
    cases hrun
  | done =>
    have hdone : j.status = .succeeded := hr
    rw [hq] at hdone
    cases hdone

theorem RowLease.held_of_running {j : JobRow} {h : Lease.Holder Nat} (hr : RowLease s j h)
    (hs : j.status = .running) :
    ∃ w v, h = .held w ∧ s.workers[w]? = some v ∧ j.claimedBy = some v.workerId := by
  cases h with
  | free =>
    rcases hr with hr | hr <;> rw [hs] at hr <;> cases hr
  | held w =>
    obtain ⟨-, v, hv, hc⟩ := hr
    exact ⟨w, v, rfl, hv, hc⟩
  | done =>
    have hdone : j.status = .succeeded := hr
    rw [hs] at hdone
    cases hdone

/-- One row through one step. -/
theorem Leased.row_step (hl : Leased s) {a : Action} (h : s.step a = some s') {j j' : JobRow}
    (hj : j ∈ s.db.jobs) {e : Event} (hm : RowMove s j j' (e.move j.id)) :
    ∃ h', lease j.id (e :: s.log) = some h' ∧ RowLease s' j' h' := by
  obtain ⟨h₀, hlease, hrow⟩ := hl.row j hj
  generalize hmv : e.move j.id = m at hm
  cases hm with
  | other hs hc =>
    refine ⟨h₀, lease_cons hlease (by rw [hmv]; rfl), ?_⟩
    cases h₀ with
    | free =>
      show j'.status = .queued ∨ j'.status = .failed
      rw [hs]
      exact hrow
    | held w =>
      obtain ⟨hr, v, hv, hcb⟩ := hrow
      obtain ⟨v', hv', hid, -, -⟩ := step_worker_persists h hv
      exact ⟨hs.trans hr, v', hv', by rw [hc, hcb, hid]⟩
    | done => exact hs.trans hrow
  | @take i w hw hq hs hc =>
    obtain rfl := hrow.free_of_queued hq
    obtain ⟨w', hw', hid, -, -⟩ := step_worker_persists h hw
    exact ⟨.held i, lease_cons hlease (by rw [hmv]; rfl), hs, w', hw', by rw [hc, hid]⟩
  | release hr hs =>
    obtain ⟨w, v, rfl, -, -⟩ := hrow.held_of_running hr
    exact ⟨.free, lease_cons hlease (by rw [hmv]; rfl), hs⟩
  | @finish i w hw ha hcl hr hc hs =>
    obtain ⟨q, v, rfl, hv, hcb⟩ := hrow.held_of_running hr
    have hid : w.workerId = v.workerId := Option.some.inj (hc.symm.trans hcb)
    obtain rfl := hl.distinct j.id i q w v hlease hcl hw ha hv hid
    refine ⟨.done, lease_cons hlease ?_, hs⟩
    rw [hmv]
    simp [Lease.Holder.next]

/-- Who holds a lease after a step took it in that step, or held it before. -/
theorem held_cons {e : Event} {log : List Event} {q : Nat}
    (h : lease job (e :: log) = some (.held q)) :
    e = .claimed q job ∨ (lease job log = some (.held q) ∧ ∀ p, e ≠ .claimed p job) := by
  unfold lease at h
  rw [List.map_cons] at h
  obtain ⟨h₀, hl, hn⟩ := Lease.holder_cons h
  generalize hmv : e.move job = m at hn
  cases m with
  | take p =>
    obtain ⟨-, hq⟩ := Lease.next_take hn
    cases hq
    exact Or.inl (move_eq_take.mp hmv)
  | release => cases Lease.next_release hn
  | finish p => cases (Lease.next_finish hn).2
  | other =>
    obtain rfl := Option.some.inj hn
    refine Or.inr ⟨hl, fun p he => ?_⟩
    rw [move_eq_take.mpr he] at hmv
    cases hmv

/-- The holder of a lease claimed the job. -/
theorem claimed_of_held {log : List Event} {q : Nat} (h : lease job log = some (.held q)) :
    .claimed q job ∈ log := by
  obtain ⟨l₁, l₂, hsplit, -⟩ := Lease.held_last h
  have hm : Lease.Move.take q ∈ log.map (Event.move job) := by
    rw [hsplit]
    exact List.mem_append_right _ List.mem_cons_self
  obtain ⟨e, he, hmv⟩ := List.mem_map.mp hm
  rw [← move_eq_take.mp hmv]
  exact he

/-- A claim is made by a live worker. -/
theorem Effect.claimer {i : Nat} {db : Db} (h : Effect s (.claimed i job) db) :
    ∃ w, s.workers[i]? = some w ∧ w.alive = true := by
  cases h with
  | claimed now hw ha _ _ => exact ⟨_, hw, ha⟩
  | readOnly hr => cases hr

/-- Whoever claims in a step was there before it. -/
theorem Leased.claimer_lt (hl : Leased s) {e : Event} {db : Db} (h : Effect s e db) {p : Nat}
    {id : Uuid} (hm : .claimed p id ∈ e :: s.log) : p < s.workers.length := by
  rcases List.mem_cons.mp hm with rfl | hm
  · obtain ⟨w, hw, -⟩ := h.claimer
    exact (List.getElem?_eq_some_iff.mp hw).1
  · exact hl.claimer p id hm

/-- A new process takes an id that no live one has. -/
theorem Leased.liveIds_step (hl : Leased s) {a : Action} (h : s.step a = some s') {p q : Nat}
    {v w : Worker} (hpv : s'.workers[p]? = some v) (hqw : s'.workers[q]? = some w)
    (hva : v.alive = true) (hwa : w.alive = true) (hid : v.workerId = w.workerId) : p = q := by
  rcases step_worker_back h hpv with ⟨v₀, hv₀, hvid, -, hal⟩ | ⟨rfl, hnv⟩
  · rcases step_worker_back h hqw with ⟨w₀, hw₀, hwid, -, hbl⟩ | ⟨rfl, hnw⟩
    · exact hl.liveIds p q v₀ w₀ hv₀ hw₀ (hal hva) (hbl hwa) (by rw [← hvid, ← hwid, hid])
    · exact absurd (hvid.symm.trans hid) (hnw v₀ (List.mem_of_getElem? hv₀) (hal hva))
  · rcases step_worker_back h hqw with ⟨w₀, hw₀, hwid, -, hbl⟩ | ⟨rfl, -⟩
    · exact absurd (hwid.symm.trans hid.symm) (hnv w₀ (List.mem_of_getElem? hw₀) (hbl hwa))
    · rfl

/-- A claim is made by one of the live workers, whose ids differ. -/
theorem Leased.distinct_step (hl : Leased s) {a : Action} (h : s.step a = some s') {e : Event}
    {db : Db} (heff : Effect s e db) {id : Uuid} {p q : Nat} {v w : Worker}
    (hheld : lease id (e :: s.log) = some (.held q)) (hcl : .claimed p id ∈ e :: s.log)
    (hpv : s'.workers[p]? = some v) (hva : v.alive = true) (hqw : s'.workers[q]? = some w)
    (hid : v.workerId = w.workerId) : p = q := by
  rcases step_worker_back h hpv with ⟨v₀, hv₀, hvid, -, hal⟩ | ⟨hnew, -⟩
  · rcases held_cons hheld with rfl | ⟨hheld, hne⟩
    · -- the step is the claim, by a worker that was alive beside the other one
      obtain ⟨w₀, hw₀, hwa⟩ := heff.claimer
      obtain ⟨w₁, hw₁, hwid, -, -⟩ := step_worker_persists h hw₀
      obtain rfl : w₁ = w := Option.some.inj (hw₁.symm.trans hqw)
      exact hl.liveIds p q v₀ w₀ hv₀ hw₀ (hal hva) hwa (by rw [← hvid, ← hwid, hid])
    · have hcl' : .claimed p id ∈ s.log := by
        rcases List.mem_cons.mp hcl with he | hcl
        · exact absurd he.symm (hne p)
        · exact hcl
      rcases step_worker_back h hqw with ⟨w₀, hw₀, hwid, -, -⟩ | ⟨rfl, -⟩
      · exact hl.distinct id p q v₀ w₀ hheld hcl' hv₀ (hal hva) hw₀ (by rw [← hvid, ← hwid, hid])
      · exact absurd (hl.claimer _ id (claimed_of_held hheld)) (Nat.lt_irrefl _)
  · -- a worker that starts now has claimed nothing
    exact absurd (hl.claimer_lt heff hcl) (hnew ▸ Nat.lt_irrefl _)

theorem Leased.step (hv : s.db.Valid) (hp : ProcessesOk s) (hl : Leased s) {a : Action}
    (h : s.step a = some s') : Leased s' := by
  obtain ⟨e, hlog, hs⟩ := step_spec hv h
  refine ⟨fun j' hj' => ?_, fun id hn => ?_, fun w id hm => ?_, fun p q v w => hl.liveIds_step h,
    fun id p q v w hheld hcl hpv hva hqw hid => ?_⟩
  · rw [hlog]
    rcases hs.effect.rowMove hv hp (hs.valid hv) hj' with ⟨j, hj, hid, hm⟩ | ⟨hq, hn, hm⟩
    · rw [hid]
      exact hl.row_step h hj hm
    · exact ⟨.free, lease_cons (hl.absent _ hn) (by rw [hm]; rfl), Or.inl hq⟩
  · have hold : ∀ j ∈ s.db.jobs, j.id ≠ id := by
      intro j hj
      obtain ⟨j', hj', hid, -⟩ := hs.effect.jobs j hj
      rw [← hid]
      exact hn j' hj'
    have hother : e.move id = .other := by
      by_contra hne
      obtain ⟨j, hj, hid⟩ := hs.effect.mem_of_move hne
      exact hold j hj hid
    rw [hlog]
    exact lease_cons (hl.absent id hold) (by rw [hother]; rfl)
  · rw [hlog] at hm
    obtain ⟨v', hv', -, -, -⟩ :=
      step_worker_persists h (List.getElem?_eq_getElem (hl.claimer_lt hs.effect hm))
    exact (List.getElem?_eq_some_iff.mp hv').1
  · rw [hlog] at hheld hcl
    exact hl.distinct_step h hs.effect hheld hcl hpv hva hqw hid

theorem leased_of_reachable (h : s.Reachable) : Leased s := by
  have hinit : Leased Fleet.init :=
    ⟨fun j hj => (List.not_mem_nil hj).elim, fun _ _ => rfl,
      fun w id h => (List.not_mem_nil h).elim, fun p q v w h => by simp [Fleet.init] at h,
      fun id p q v w _ h => (List.not_mem_nil h).elim⟩
  refine StepSystem.Reach.invariant_of hinit ?_ h
  intro s a s' hr hl _ hst
  exact hl.step (valid_of_reachable hr) (processesOk_of_reachable hr) hst

/-! ## Stale statements -/

/-- Who holds the lease owns the row. -/
theorem Leased.owned_of_held (hl : Leased s) {i : Nat} {w : Worker} (hw : s.workers[i]? = some w)
    (hheld : lease job s.log = some (.held i)) :
    ∃ j ∈ s.db.jobs, j.ownedBy job w.workerId = true := by
  obtain ⟨j, hj, hid⟩ : ∃ j ∈ s.db.jobs, j.id = job := by
    by_contra hno
    have hfree := hl.absent job fun j hj hid => hno ⟨j, hj, hid⟩
    rw [hheld] at hfree
    cases hfree
  obtain ⟨h, hlease, hrow⟩ := hl.row j hj
  rw [hid, hheld] at hlease
  obtain rfl := Option.some.inj hlease
  obtain ⟨hrun, v, hv, hc⟩ := hrow
  obtain rfl : v = w := Option.some.inj (hv.symm.trans hw)
  exact ⟨j, hj, JobRow.ownedBy_iff.mpr ⟨hid, hrun, hc⟩⟩

/-- A live worker that claimed the job and owns the row holds the lease. -/
theorem Leased.held_of_owned (hl : Leased s) {i : Nat} {w : Worker} (hw : s.workers[i]? = some w)
    (ha : w.alive = true) (hcl : .claimed i job ∈ s.log) {j : JobRow} (hj : j ∈ s.db.jobs)
    (ho : j.ownedBy job w.workerId = true) : lease job s.log = some (.held i) := by
  obtain ⟨hid, hr, hc⟩ := JobRow.ownedBy_iff.mp ho
  obtain ⟨h, hlease, hrow⟩ := hl.row j hj
  obtain ⟨q, v, rfl, hv, hcb⟩ := hrow.held_of_running hr
  rw [hid] at hlease
  have hids : w.workerId = v.workerId := Option.some.inj (hc.symm.trans hcb)
  obtain rfl := hl.distinct job i q w v hlease hcl hw ha hv hids
  exact hlease

/-- **The fence.** A live worker whose claim of a job was released does not own its row. -/
theorem Leased.not_owned (hl : Leased s) {i : Nat} {w : Worker} (hw : s.workers[i]? = some w)
    (ha : w.alive = true) (hrel : Released i job s.log) :
    ∀ j ∈ s.db.jobs, j.ownedBy job w.workerId = false := by
  intro j hj
  by_contra ho
  obtain ⟨l₁, l₂, hsplit, hno, e, he, hre⟩ := hrel
  have hcl : .claimed i job ∈ s.log := by
    rw [hsplit]
    exact List.mem_append_right _ List.mem_cons_self
  have hlease := hl.held_of_owned hw ha hcl hj (Bool.eq_true_of_not_eq_false ho)
  have hlease' : Lease.holder (l₁.map (Event.move job) ++
      (.claimed i job :: l₂).map (Event.move job)) = some (.held i) := by
    rw [← List.map_append, ← hsplit]
    exact hlease
  refine Lease.not_held_of_released hlease' ?_ ?_ rfl
  · rw [← move_eq_release.mpr hre]
    exact List.mem_map_of_mem he
  · intro hm
    obtain ⟨e', he', hmv⟩ := List.mem_map.mp hm
    rw [move_eq_take.mp hmv] at he'
    exact hno he'

/-- A renewal by an owner that owns nothing leaves the tables as they were. -/
theorem HeartbeatStep.stale {db db' : Db} {hb : Heartbeat} {w : Worker} {now : Timestamptz}
    {st : HeartbeatState} {e : Event} (hn : ∀ j ∈ db.jobs, j.ownedBy hb.job w.workerId = false)
    (h : HeartbeatStep db hb w now db' st e) : db' = db := by
  cases h with
  | renewed ha hok =>
    rw [(JobUpdate.run_ok hok).1]
    exact JobUpdate.apply_eq_self hn
  | _ => rfl

/-- **A stale statement changes nothing**; a report is rolled back, upsert included. -/
theorem Leased.stale (hl : Leased s) {a : Action} (h : s.step a = some s') {i : Nat}
    (hst : statementOf s a = some (i, job)) (hrel : Released i job s.log) : s'.db = s.db := by
  cases FleetStep.of_eq h with
  | submit request build => cases hst
  | submission hsub hstep => cases hst
  | spawn hfree => cases hst
  | heartbeat hhb hw hstep =>
    simp only [statementOf, hhb, Option.map_some, Option.some.injEq, Prod.mk.injEq] at hst
    obtain ⟨rfl, rfl⟩ := hst
    exact hstep.stale (hl.not_owned hw hstep.alive hrel)
  | worker hw hstep =>
    have ha := hstep.alive
    cases hstep with
    | reclaimed hph hok => cases hst
    | claimed hph hok => cases hst
    | failed hph hok hown =>
      simp only [statementOf, hw, Option.map_some, hph, Option.some.injEq, Prod.mk.injEq] at hst
      obtain ⟨rfl, rfl⟩ := hst
      obtain ⟨j, hj, ho⟩ := hown
      rw [hl.not_owned hw ha hrel j hj] at ho
      cases ho
    | completed hph hok =>
      simp only [statementOf, hw, Option.map_some, hph, Option.some.injEq, Prod.mk.injEq] at hst
      obtain ⟨rfl, rfl⟩ := hst
      obtain ⟨p, -, ⟨hnone, -⟩ | ⟨_, -, ⟨j, hj, ho⟩, -, -⟩⟩ := reportSuccess_ok hok
      · cases hnone
      · rw [hl.not_owned hw ha hrel j hj] at ho
        cases ho
    | _ => rfl

/-! ## The history -/

/-- Every job's history is lawful. -/
theorem Leased.lawful (hl : Leased s) (job : Uuid) : ∃ h, lease job s.log = some h := by
  by_cases hex : ∃ j ∈ s.db.jobs, j.id = job
  · obtain ⟨j, hj, rfl⟩ := hex
    obtain ⟨h, hlease, -⟩ := hl.row j hj
    exact ⟨h, hlease⟩
  · exact ⟨.free, hl.absent job fun j hj he => hex ⟨j, hj, he⟩⟩

theorem currentOwner_of_held {log : List Event} {w : Nat}
    (h : lease job log = some (.held w)) : CurrentOwner w job log := by
  obtain ⟨m₁, m₂, hsplit, hother⟩ := Lease.held_last h
  obtain ⟨l₁, l₂', rfl, rfl, hl₂⟩ := List.map_eq_append_iff.mp hsplit
  obtain ⟨e, l₂, rfl, he, rfl⟩ := List.map_eq_cons_iff.mp hl₂
  rw [move_eq_take.mp he]
  refine ⟨l₁, l₂, rfl, fun e' he' => ?_⟩
  have hmv := hother _ (List.mem_map_of_mem he')
  refine ⟨fun v hc => ?_, fun hr => ?_, ?_⟩
  · rw [move_eq_take.mpr hc] at hmv
    cases hmv
  · rw [move_eq_release.mpr hr] at hmv
    cases hmv
  · rw [← isFinish_move, hmv]
    rfl

/-- **Lease fencing.** Between two claims of a job it was released; after a release, no statement
of the released claim changes `jobs` or `analyses` before its worker claims the job again; a job
is completed at most once, by its current owner. -/
theorem lease_fencing (h : s.Reachable) :
    (∀ job p q l₁ l₂ l₃, s.log = l₁ ++ .claimed q job :: (l₂ ++ .claimed p job :: l₃) →
      ∃ e ∈ l₂, e.releases job) ∧
    (∀ a s' i job, s.step a = some s' → statementOf s a = some (i, job) →
      Released i job s.log → s'.db.jobs = s.db.jobs ∧ s'.db.analyses = s.db.analyses) ∧
    (∀ job, s.log.countP (Event.isCompletion job) ≤ 1) ∧
    (∀ job i row l₁ l₂, s.log = l₁ ++ .completed i job row :: l₂ → CurrentOwner i job l₂) := by
  have hl := leased_of_reachable h
  refine ⟨?_, ?_, ?_, ?_⟩
  · intro job p q l₁ l₂ l₃ hlog
    obtain ⟨h₀, hlease⟩ := hl.lawful job
    unfold lease at hlease
    rw [hlog, List.map_append, List.map_cons, List.map_append, List.map_cons,
      move_eq_take.mpr rfl, move_eq_take.mpr rfl] at hlease
    obtain ⟨e, he, hmv⟩ := List.mem_map.mp (Lease.release_between hlease)
    exact ⟨e, he, move_eq_release.mp hmv⟩
  · intro a s' i job hst hsm hrel
    rw [hl.stale hst hsm hrel]
    exact ⟨rfl, rfl⟩
  · intro job
    obtain ⟨h₀, hlease⟩ := hl.lawful job
    have hcount := Lease.countP_finish hlease
    rw [List.countP_map] at hcount
    have hfun : (Lease.Move.isFinish ∘ Event.move job) = Event.isCompletion job := by
      funext e
      exact isFinish_move e
    rw [hfun] at hcount
    rw [hcount]
    exact h₀.finishes_le
  · intro job i row l₁ l₂ hlog
    obtain ⟨h₀, hlease⟩ := hl.lawful job
    have hmv : Event.move job (.completed i job row) = .finish i := by simp [Event.move]
    unfold lease at hlease
    rw [hlog, List.map_append, List.map_cons, hmv] at hlease
    exact currentOwner_of_held (Lease.held_of_finish hlease)

theorem lease_fencing_fenced :
    (Fleet.after Sample.fenced).db.jobs.map JobRow.claimedBy = [some "host/2"] ∧
    ((Fleet.after Sample.fenced).step (.worker 0 .complete)).map
      (fun s => s.db.jobs.map JobRow.claimedBy) = some [some "host/2"] ∧
    ∀ job, (Fleet.after Sample.fenced).log.countP (Event.isCompletion job) ≤ 1 :=
  ⟨by decide, by decide, (lease_fencing (Fleet.reachable_after Sample.fenced)).2.2.1⟩

end BattleCloud
