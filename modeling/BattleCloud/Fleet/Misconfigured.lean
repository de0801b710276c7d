import BattleCloud.Fleet.Lease
import BattleCloud.Fleet.Queue

/-!
# A worker that can serve no job

The engine calls of one worker all raise a retryable kind. Its report queues the job again under
its old `created_at`, so the job is the first one its next claim finds, and nothing between the two
leaves it to anybody else: `Sample.alone` is a drain that claims one job three times and
dead-letters it.

`misconfigured_spares`: as long as the worker claims only jobs with an attempt to spare after its
own, none of its claims and reports makes a job `failed`, and what it reports is queued below the
cap. What its attempt costs a job is an attempt (`Held`).
-/

namespace BattleCloud

/-- The call raised a kind of `RETRYABLE`. -/
def raisesRetryable : Except EngineFailure AnalysisRun → Bool
  | .error failure => retryableKinds.contains failure.kind
  | .ok _ => false

/-- Every engine call of the worker at `i` raises a retryable kind. -/
def Misconfigured (i : Nat) (_ : Fleet) (a : Action) : Prop :=
  match a with
  | .worker k (.analyze outcome) => k = i → raisesRetryable outcome = true
  | _ => True

/-- The job a claim of the worker at `i` finds has an attempt to spare. -/
def ClaimsSpare (i : Nat) (s : Fleet) (a : Action) : Prop :=
  match a with
  | .worker k (.claim locked _) => k = i →
    ((s.workers[i]?).all fun w => (nextClaimable s.db w.build locked).all fun j =>
      decide (j.attempts + 1 < w.config.maxAttempts)) = true
  | _ => True

/-- A claim or a report of the worker at `i`. -/
def Action.ofAttempt (i : Nat) : Action → Prop
  | .worker k (.claim _ _) | .worker k (.fail _) => k = i
  | _ => False

/-- A job has become `failed`. -/
def DeadLetters (s s' : Fleet) : Prop :=
  ∃ j ∈ s.db.jobs, ∃ j' ∈ s'.db.jobs, j'.id = j.id ∧ j.status ≠ .failed ∧ j'.status = .failed

/-- The job a worker has claimed and not yet analyzed. -/
def WorkerPhase.pending : WorkerPhase → Option Uuid
  | .loading job => some job.id
  | .analyzing job _ _ => some job.id
  | .failing job _ => some job
  | _ => none

variable {s s' : Fleet} {i : Nat}

/-- **The invariant**: while the worker has a job, the job has an attempt to spare. -/
structure Spares (i : Nat) (s : Fleet) : Prop where
  attempts : ∀ w, s.workers[i]? = some w → ∀ job, w.phase.pending = some job →
    ∀ j ∈ s.db.jobs, j.ownedBy job w.workerId = true → j.attempts < w.config.maxAttempts
  kind : ∀ w, s.workers[i]? = some w → ∀ job f, w.phase = .failing job f →
    retryableKinds.contains f.kind = true

theorem alive_of_pending {w : Worker} {job : Uuid} (h : w.phase.pending = some job) :
    w.alive = true := by
  unfold WorkerPhase.pending at h
  unfold Worker.alive
  split at h <;> simp_all

/-! ## The rows a worker owns -/

/-- **An owned row was owned before**, with as many attempts, or its owner has just claimed it. -/
theorem Effect.owned_back {e : Event} {db : Db} (h : Effect s e db) {j' : JobRow}
    (hj' : j' ∈ db.jobs) {job : Uuid} {workerId : String}
    (ho : j'.ownedBy job workerId = true) :
    (∃ j ∈ s.db.jobs, j.ownedBy job workerId = true ∧ j.attempts = j'.attempts) ∨
      ∃ k w, e = .claimed k job ∧ s.workers[k]? = some w ∧ w.alive = true ∧
        w.workerId = workerId := by
  have hsame : j' ∈ s.db.jobs → ∃ j ∈ s.db.jobs, j.ownedBy job workerId = true ∧
      j.attempts = j'.attempts := fun hj => ⟨j', hj, ho, rfl⟩
  have hrunning := (JobRow.ownedBy_iff.mp ho).2.1
  cases h with
  | readOnly => exact .inl (hsame hj')
  | present => exact .inl (hsame hj')
  | upserted => exact .inl (hsame hj')
  | created =>
    rcases List.mem_append.mp hj' with hj' | hj'
    · exact .inl (hsame hj')
    · rw [List.mem_singleton.mp hj'] at hrunning
      cases hrunning
  | @claimed k w j locked now hw ha hj hc =>
    obtain ⟨r, hr, ⟨hsel, rfl⟩ | ⟨-, rfl⟩⟩ := Table.mem_updateWhere.mp hj'
    · have hid : r.id = j.id := by simpa [JobUpdate.sel] using hsel
      obtain ⟨hjob, -, hclaimed⟩ := JobRow.ownedBy_iff.mp ho
      have hjob : r.id = job := hjob
      exact .inr ⟨k, w, by rw [← hid, hjob], hw, ha, Option.some.inj hclaimed⟩
    · exact .inl (hsame hr)
  | renewed =>
    obtain ⟨r, hr, ⟨hsel, rfl⟩ | ⟨-, rfl⟩⟩ := Table.mem_updateWhere.mp hj'
    · exact .inl ⟨r, hr, ho, rfl⟩
    · exact .inl (hsame hr)
  | failed =>
    obtain ⟨r, hr, ⟨hsel, rfl⟩ | ⟨-, rfl⟩⟩ := Table.mem_updateWhere.mp hj'
    · rcases r.fail_status _ _ _ _ _ with hs | hs <;>
        exact absurd (hs.symm.trans hrunning) (by decide)
    · exact .inl (hsame hr)
  | reclaimed =>
    obtain ⟨r, hr, ⟨hsel, rfl⟩ | ⟨-, rfl⟩⟩ := Table.mem_updateWhere.mp hj'
    · rcases r.reclaim_status _ _ with hs | ⟨hs, -⟩ <;>
        exact absurd (hs.symm.trans hrunning) (by decide)
    · exact .inl (hsame hr)
  | completed =>
    obtain ⟨r, hr, ⟨hsel, rfl⟩ | ⟨-, rfl⟩⟩ := Table.mem_updateWhere.mp hj'
    · cases hrunning
    · exact .inl (hsame hr)

/-- A claim takes the first claimable row, and counts the attempt. -/
theorem claimJob_attempts {db db' : Db} (hv : db.Valid) {w : String} {l : Nat} {build : EngineBuild}
    {locked : List Uuid} {now : Timestamptz} {job : ClaimedJob}
    (h : claimJob db w l build locked now = .ok (db', some job)) :
    ∃ j, nextClaimable db build locked = some j ∧ j ∈ db.jobs ∧ job.id = j.id ∧
      db' = (JobUpdate.claim j.id w l now).apply db ∧
      ∀ r ∈ db'.jobs, r.id = j.id → r = j.claim w l now := by
  unfold claimJob at h
  split at h
  · cases h
  · rename_i j hnext
    obtain ⟨hj, -⟩ := nextClaimable_some hnext
    obtain ⟨⟨d, rows⟩, hrun, he⟩ := except_map_ok.mp h
    obtain ⟨rfl, -, hrows⟩ := JobUpdate.run_ok hrun
    rw [hrows, returning_claim (hv .jobsPkey) hj] at he
    cases he
    refine ⟨j, hnext, hj, rfl, rfl, fun r hr hid => ?_⟩
    obtain ⟨k, hk, ⟨hsel, rfl⟩ | ⟨hsel, rfl⟩⟩ := Table.mem_updateWhere.mp hr
    · rw [hv.job_eq hk hj (by simpa [JobUpdate.sel] using hsel)]
      rfl
    · rw [JobUpdate.sel, decide_eq_false_iff_not] at hsel
      exact absurd hid hsel

/-! ## One step -/

/-- A step of another process, or of the worker away from its job. -/
theorem Spares.owned_step (h : Spares i s) (hr : s.Reachable) {a : Action}
    (hst : s.step a = some s') {w : Worker} (hw : s.workers[i]? = some w) {job : Uuid}
    (hp : w.phase.pending = some job) :
    ∀ j' ∈ s'.db.jobs, j'.ownedBy job w.workerId = true → j'.attempts < w.config.maxAttempts := by
  intro j' hj' ho
  obtain ⟨e, hlog, hs⟩ := step_spec (valid_of_reachable hr) hst
  rcases hs.effect.owned_back hj' ho with ⟨j, hj, hoj, ha⟩ | ⟨k, v, rfl, hv, hva, hid⟩
  · rw [← ha]
    exact h.attempts w hw job hp j hj hoj
  · -- nobody else has its id, and it does not claim now
    obtain rfl := (leased_of_reachable hr).liveIds k i v w hv hw hva (alive_of_pending hp) hid
    obtain ⟨k', act, v', ph, rfl, hv', hws⟩ := step_ofWorker hst hlog rfl
    generalize s'.db = db' at hws
    cases hws with
    | claimed hph =>
      obtain rfl : v' = w := Option.some.inj (hv'.symm.trans hw)
      rw [hph] at hp
      cases hp

/-- Between jobs a worker has none. -/
theorem pending_start (mode : Mode) : (Worker.start mode).pending = none := by
  cases mode <;> rfl

theorem pending_afterEmpty (w : Worker) : w.afterEmpty.pending = none := by
  unfold Worker.afterEmpty
  cases w.config.mode <;> rfl

theorem Spares.step (h : Spares i s) (hr : s.Reachable) {a : Action}
    (hm : Misconfigured i s a) (hc : ClaimsSpare i s a) (hst : s.step a = some s') :
    Spares i s' := by
  have hv := valid_of_reachable hr
  have hback : ∀ w', s'.workers[i]? = some w' →
      (∀ job, w'.phase.pending = some job → ∀ j ∈ s'.db.jobs,
        j.ownedBy job w'.workerId = true → j.attempts < w'.config.maxAttempts) ∧
      ∀ job f, w'.phase = .failing job f → retryableKinds.contains f.kind = true := by
    intro w' hw'
    have hnone : w'.phase.pending = none → (∀ job, w'.phase.pending = some job →
        ∀ j ∈ s'.db.jobs, j.ownedBy job w'.workerId = true →
          j.attempts < w'.config.maxAttempts) ∧
        ∀ job f, w'.phase = .failing job f → retryableKinds.contains f.kind = true := by
      intro hn
      constructor
      · intro job hp
        rw [hn] at hp
        cases hp
      · intro job f hp
        rw [hp] at hn
        cases hn
    rcases step_workers hst hw' with hw | ⟨workerId, config, -, -, rfl, -⟩ |
      ⟨w, act, ph, e, rfl, hw, hws, rfl, -⟩
    · exact ⟨fun job hp => h.owned_step hr hst hw hp, h.kind w' hw⟩
    · exact hnone (pending_start _)
    · have howned := fun job hp => @Spares.owned_step s s' i h hr _ hst w hw job hp
      generalize s'.db = db' at hws howned hnone ⊢
      cases hws with
      | @claimed locked now db' job hph hok =>
        obtain ⟨j, hnext, -, hjob, -, hrow⟩ := claimJob_attempts hv hok
        refine ⟨fun id hp r hr' ho => ?_, fun id f hp => by cases hp⟩
        obtain rfl : job.id = id := Option.some.inj hp
        rw [hrow r hr' ((JobRow.ownedBy_iff.mp ho).1.trans hjob)]
        have hspare := hc rfl
        simp only [hw, Option.all_some, hnext, decide_eq_true_eq] at hspare
        exact hspare
      | invoked hph hok =>
        exact ⟨fun job hp => howned job (by rw [hph]; exact hp), fun job f hp => by cases hp⟩
      | notFound hph hok =>
        exact absurd hok (replay_of_loading (processesOk_of_reachable hr)
          (queue_of_reachable hr).1 hw hph)
      | raised failure hph =>
        refine ⟨fun job hp => howned job (by rw [hph]; exact hp), fun job f hp => ?_⟩
        obtain ⟨-, rfl⟩ := WorkerPhase.failing.inj hp
        exact hm rfl
      | returned run hph => exact absurd (hm rfl) Bool.false_ne_true
      | discarded run hph => exact absurd (hm rfl) Bool.false_ne_true
      | empty hph hok => exact hnone (pending_afterEmpty w)
      | failed hph hok hown => exact hnone (pending_start _)
      | failedStale hph => exact hnone (pending_start _)
      | completed hph hok => exact hnone (pending_start _)
      | rolledBack hph hok => exact hnone (pending_start _)
      | _ => exact hnone rfl
  exact ⟨fun w' hw' => (hback w' hw').1, fun w' hw' => (hback w' hw').2⟩

theorem spares_of_reach
    (h : StepSystem.Reach Fleet.step (fun s a => Misconfigured i s a ∧ ClaimsSpare i s a)
      Fleet.init s) : Spares i s := by
  refine StepSystem.Reach.invariant_of (I := Spares i) ?_ ?_ h
  · constructor <;> intro w hw <;> cases hw
  · rintro s a s' hr hs ⟨hm, hc⟩ hst
    exact hs.step hr.reachable hm hc hst

/-! ## Claims and reports -/

/-- An update that makes no row `failed` dead-letters nothing. -/
theorem not_deadLetters_of_apply (hv : s.db.Valid) {u : JobUpdate} (hdb : s'.db = u.apply s.db)
    (hu : ∀ j ∈ s.db.jobs, u.sel j = true → (u.set j).status ≠ .failed) : ¬ DeadLetters s s' := by
  rintro ⟨j, hj, j', hj', hid, hne, hf⟩
  rw [hdb] at hj'
  obtain ⟨r, hr, ⟨hsel, rfl⟩ | ⟨-, rfl⟩⟩ := Table.mem_updateWhere.mp hj'
  · exact hu r hr hsel hf
  · rw [hv.job_eq hr hj hid] at hf
    exact hne hf

theorem not_deadLetters_of_eq (hv : s.db.Valid) (hdb : s'.db = s.db) : ¬ DeadLetters s s' := by
  rintro ⟨j, hj, j', hj', hid, hne, hf⟩
  rw [hdb] at hj'
  rw [hv.job_eq hj' hj hid] at hf
  exact hne hf

/-- A claim never does. -/
theorem not_deadLetters_claim (hv : s.db.Valid) {locked : List Uuid} {now : Timestamptz}
    (hst : s.step (.worker i (.claim locked now)) = some s') : ¬ DeadLetters s s' := by
  cases FleetStep.of_eq hst with
  | worker hw hws =>
    cases hws with
    | claimed hph hok =>
      obtain ⟨j, -, -, -, hdb, -⟩ := claimJob_attempts hv hok
      refine not_deadLetters_of_apply hv hdb fun r _ _ hf => ?_
      cases hf
    | empty hph hok => exact not_deadLetters_of_eq hv rfl
    | claimRefused hph herr => exact not_deadLetters_of_eq hv rfl

/-- What a report runs, and when it is refused. -/
theorem step_report {now : Timestamptz} (hst : s.step (.worker i (.fail now)) = some s') :
    ∃ w job f, s.workers[i]? = some w ∧ w.phase = .failing job f ∧
      ((∃ rows, reportFailure s.db w.workerId job w.config.maxAttempts f now =
          .ok (s'.db, rows)) ∨
        ∃ e, reportFailure s.db w.workerId job w.config.maxAttempts f now = .error e ∧
          s'.db = s.db) := by
  simp only [Fleet.step, Option.bind_eq_some_iff, Option.map_eq_some_iff] at hst
  obtain ⟨w, hw, r, hr, rfl⟩ := hst
  simp only [workerStep] at hr
  split at hr
  · rename_i job f hph
    split at hr
    · rename_i db' rows hok
      cases hr
      exact ⟨w, job, f, hw, hph, .inl ⟨rows, hok⟩⟩
    · rename_i e herr
      cases hr
      exact ⟨w, job, f, hw, hph, .inr ⟨e, herr, rfl⟩⟩
  · cases hr

/-- Only a text with a U+0000 is refused. -/
theorem reportFailure_of_nulFree {db : Db} (hv : db.Valid) (hq : QueueInv db) (workerId : String)
    (job : Uuid) (maxAttempts : Nat) {f : EngineFailure} (hn : nulFree f.errorDetail = true)
    (now : Timestamptz) :
    ∃ r, reportFailure db workerId job maxAttempts f now = .ok r := by
  unfold reportFailure
  rw [pgText_of_nulFree hn]
  refine ⟨_, JobUpdate.run_eq (hv.apply hq (JobUpdate.next_of_sel rfl) fun j hj _ => ?_)⟩
  exact hv .jobsAnalysisIdFkey j hj

/-- The job of the report is available: below the cap, and queued if its text was taken. -/
def LeavesAvailable (i : Nat) (s s' : Fleet) : Prop :=
  ∀ w job f, s.workers[i]? = some w → w.phase = .failing job f →
    ∀ j ∈ s.db.jobs, j.ownedBy job w.workerId = true →
      ∃ j' ∈ s'.db.jobs, j'.id = job ∧ j'.attempts < w.config.maxAttempts ∧
        (nulFree f.errorDetail = true → j'.status = .queued)

/-- **A report** of a job with an attempt to spare queues it. -/
theorem Spares.report (h : Spares i s) (hr : s.Reachable) {now : Timestamptz}
    (hst : s.step (.worker i (.fail now)) = some s') :
    ¬ DeadLetters s s' ∧ LeavesAvailable i s s' := by
  have hv := valid_of_reachable hr
  obtain ⟨w, job, f, hw, hph, hrun⟩ := step_report hst
  have hpending : w.phase.pending = some job := by rw [hph]; rfl
  have hkind := h.kind w hw job f hph
  have hspare := h.attempts w hw job hpending
  have hsame : LeavesAvailable i s s' ↔ ∀ j ∈ s.db.jobs, j.ownedBy job w.workerId = true →
      ∃ j' ∈ s'.db.jobs, j'.id = job ∧ j'.attempts < w.config.maxAttempts ∧
        (nulFree f.errorDetail = true → j'.status = .queued) := by
    constructor
    · intro hall
      exact hall w job f hw hph
    · intro hall w' job' f' hw' hph'
      obtain rfl : w = w' := Option.some.inj (hw.symm.trans hw')
      rw [hph] at hph'
      obtain ⟨rfl, rfl⟩ := WorkerPhase.failing.inj hph'
      exact hall
  rw [hsame]
  rcases hrun with ⟨rows, hok⟩ | ⟨e, herr, hdb⟩
  · obtain ⟨u, rfl, hdb, -, -⟩ := reportFailure_ok hok
    have hqueued : ∀ j ∈ s.db.jobs, j.ownedBy job w.workerId = true →
        (j.fail (retryableKinds.contains f.kind) w.config.maxAttempts f.kind f.errorDetail
          now).status = .queued := by
      intro j hj ho
      unfold JobRow.fail
      rw [hkind]
      exact if_pos (by simpa using hspare j hj ho)
    constructor
    · refine not_deadLetters_of_apply hv hdb fun j hj ho => ?_
      rw [show ((JobUpdate.fail job w.workerId _ _ _ _ now).set j).status = .queued from
        hqueued j hj ho]
      decide
    · intro j hj ho
      refine ⟨j.fail (retryableKinds.contains f.kind) w.config.maxAttempts f.kind f.errorDetail now,
        ?_, (JobRow.ownedBy_iff.mp ho).1, hspare j hj ho, fun _ => hqueued j hj ho⟩
      rw [hdb]
      exact Table.mem_updateWhere.mpr ⟨j, hj, .inl ⟨ho, rfl⟩⟩
  · refine ⟨not_deadLetters_of_eq hv hdb, fun j hj ho => ?_⟩
    refine ⟨j, hdb ▸ hj, (JobRow.ownedBy_iff.mp ho).1, hspare j hj ho, fun hn => ?_⟩
    obtain ⟨r, hok⟩ := reportFailure_of_nulFree hv (queue_of_reachable hr).1 w.workerId job
      w.config.maxAttempts hn now
    rw [herr] at hok
    cases hok

/-- **When a misconfigured worker dead-letters no job.** In a run in which all engine calls of the
worker at `i` raise a retryable kind, and in which it claims only jobs with an attempt to spare
after its own: no claim and no report of it makes a job `failed`, and every job it reports is left
below the cap, and queued unless the text of the failure has a U+0000. -/
theorem misconfigured_spares
    (h : StepSystem.Reach Fleet.step (fun s a => Misconfigured i s a ∧ ClaimsSpare i s a)
      Fleet.init s) {a : Action} (ha : a.ofAttempt i) (hst : s.step a = some s') :
    ¬ DeadLetters s s' ∧ ∀ now, a = .worker i (.fail now) → LeavesAvailable i s s' := by
  have hr := h.reachable
  cases a with
  | worker k act =>
    cases act with
    | claim locked now =>
      obtain rfl : k = i := ha
      refine ⟨not_deadLetters_claim (valid_of_reachable hr) hst, fun now' he => ?_⟩
      cases he
    | fail now =>
      obtain rfl : k = i := ha
      have hreport := (spares_of_reach h).report hr hst
      exact ⟨hreport.1, fun _ _ => hreport.2⟩
    | _ => exact ha.elim
  | _ => exact ha.elim

namespace Sample

/-- The data file is not there. -/
def noData : Except EngineFailure AnalysisRun :=
  .error ⟨.engineDataMissing, "engine data file missing under /data: stats"⟩

/-- A pass of a drain: it claims the job and the engine call raises. -/
def attempt : List Action :=
  [.worker 0 (.reclaim noon), .worker 0 (.claim [] noon), .worker 0 .load,
    .worker 0 (.analyze noData)]

/-- A drain that is alone with a job, before its first report. -/
def onceAlone : List Action := submitFirst 7 ++ [.spawn "host/1" config] ++ attempt

/-- And before its third. -/
def alone : List Action :=
  onceAlone ++ [.worker 0 (.fail noon)] ++ attempt ++ [.worker 0 (.fail noon)] ++ attempt

end Sample

instance decidableMisconfigured (i : Nat) (s : Fleet) (a : Action) :
    Decidable (Misconfigured i s a) :=
  match a with
  | .worker k (.analyze outcome) =>
    inferInstanceAs (Decidable (k = i → raisesRetryable outcome = true))
  | .worker _ (.reclaim _) | .worker _ (.claim ..) | .worker _ .load | .worker _ (.fail _)
  | .worker _ (.insert ..) | .worker _ .complete | .worker _ .exit | .worker _ .crash
  | .submit .. | .submission .. | .spawn .. | .heartbeat .. => inferInstanceAs (Decidable True)

instance decidableClaimsSpare (i : Nat) (s : Fleet) (a : Action) : Decidable (ClaimsSpare i s a) :=
  match a with
  | .worker k (.claim locked _) =>
    inferInstanceAs (Decidable (k = i →
      ((s.workers[i]?).all fun w => (nextClaimable s.db w.build locked).all fun j =>
        decide (j.attempts + 1 < w.config.maxAttempts)) = true))
  | .worker _ (.reclaim _) | .worker _ (.analyze _) | .worker _ .load | .worker _ (.fail _)
  | .worker _ (.insert ..) | .worker _ .complete | .worker _ .exit | .worker _ .crash
  | .submit .. | .submission .. | .spawn .. | .heartbeat .. => inferInstanceAs (Decidable True)

/-- Of three attempts the first one costs the job nothing else. -/
theorem misconfigured_spares_once :
    let s := Fleet.afterIf (fun s a => Misconfigured 0 s a ∧ ClaimsSpare 0 s a) Sample.onceAlone
    s.db.jobs.map JobRow.status = [.running] ∧
      ∃ s', s.step (.worker 0 (.fail Sample.noon)) = some s' ∧ ¬ DeadLetters s s' := by
  have hreports : ((Fleet.afterIf (fun s a => Misconfigured 0 s a ∧ ClaimsSpare 0 s a)
      Sample.onceAlone).step (.worker 0 (.fail Sample.noon))).isSome = true := by decide
  obtain ⟨s', hst⟩ := Option.isSome_iff_exists.mp hreports
  have hreach := Fleet.reach_afterIf (fun s a => Misconfigured 0 s a ∧ ClaimsSpare 0 s a)
    Sample.onceAlone
  exact ⟨by decide, s', hst, (@misconfigured_spares _ _ 0 hreach
    (.worker 0 (.fail Sample.noon)) rfl hst).1⟩

/-- The third dead-letters it. -/
theorem misconfigured_dead_letters : ¬ ∀ (i : Nat) (s : Fleet),
    StepSystem.Reach Fleet.step (Misconfigured i) Fleet.init s →
    (∀ w, s.workers[i]? = some w → 2 ≤ w.config.maxAttempts) →
    ∀ a s', a.ofAttempt i → s.step a = some s' → ¬ DeadLetters s s' := by
  intro h
  have hfails : ((Fleet.afterIf (Misconfigured 0) Sample.alone).step
      (.worker 0 (.fail Sample.noon))).any (fun s' => s'.db.jobs.any fun j' =>
        decide (j'.id = 7 ∧ j'.status = .failed)) = true := by decide
  obtain ⟨hsome, hfails⟩ := (Option.any_eq_true_iff_get _ _).mp hfails
  obtain ⟨j', hj', hfailed⟩ := List.any_eq_true.mp hfails
  obtain ⟨hid, hfailed⟩ := of_decide_eq_true hfailed
  have hruns : (Fleet.afterIf (Misconfigured 0) Sample.alone).db.jobs.any (fun j =>
      decide (j.id = 7 ∧ j.status = .running)) = true := by decide
  obtain ⟨j, hj, hrunning⟩ := List.any_eq_true.mp hruns
  obtain ⟨hid', hrunning⟩ := of_decide_eq_true hrunning
  have hcap : ((Fleet.afterIf (Misconfigured 0) Sample.alone).workers[0]?).all (fun w =>
      decide (2 ≤ w.config.maxAttempts)) = true := by decide
  refine h 0 _ (Fleet.reach_afterIf (Misconfigured 0) Sample.alone) ?_
    (.worker 0 (.fail Sample.noon)) _ rfl (Option.some_get hsome).symm
    ⟨j, hj, j', hj', hid.trans hid'.symm, ?_, hfailed⟩
  · intro w hw
    rw [hw, Option.all_some, decide_eq_true_eq] at hcap
    exact hcap
  · rw [hrunning]
    decide

end BattleCloud
