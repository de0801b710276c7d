import BattleCloud.Fleet.Frame
import BattleCloud.Worker.Loop

/-!
# The loops in the fleet's steps

`Worker/Loop` has a loop as one process runs it, an iteration in one go; `Fleet/Model` has it
statement by statement, among other processes. `loops_run` connects the two: what a process does
while nobody else writes is a run of its own steps in the fleet, in either mode, to the same
tables, through every iteration, to the end of a drain with the count it returns and to a refused
statement that is raised out of the loop.
-/

namespace BattleCloud

/-- The API writes nothing during the turn. -/
structure Turn.Alone (t : Turn) : Prop where
  beforeReclaim : t.beforeReclaim = []
  beforeClaim : t.beforeClaim = []
  beforeLoad : t.beforeLoad = []
  renewals : ∀ r ∈ t.renewals, r.arrivals = []
  lateRenewals : ∀ r ∈ t.lateRenewals, r.arrivals = []
  beforeReport : t.beforeReport = []

/-- Steps of the worker at an index and of its heartbeat threads. -/
def Own (i : Nat) (s : Fleet) : Action → Prop
  | .worker k _ => k = i
  | .heartbeat h _ => ∃ hb ∈ s.heartbeats[h]?, hb.worker = i
  | _ => False

def Event.claimedBy (i : Nat) : Event → Bool
  | .claimed k _ => k = i
  | _ => false

/-- How often a worker has claimed. -/
def Fleet.claimsBy (s : Fleet) (i : Nat) : Nat := s.log.countP (Event.claimedBy i)

theorem Event.claimedBy_of_not {e : Event} (h : e.ofWorker = false) (i : Nat) :
    e.claimedBy i = false := by
  cases e with
  | claimed k job => cases h
  | _ => rfl

/-- From `s` the worker has come, by its own steps, to these tables and this phase, and has claimed
`n` times on the way. -/
structure Stands (i : Nat) (w : Worker) (s s' : Fleet) (db : Db) (ph : WorkerPhase) (n : Nat) :
    Prop where
  run : StepSystem.Reach Fleet.step (Own i) s s'
  db : s'.db = db
  worker : s'.workers[i]? = some { w with phase := ph }
  claims : s'.claimsBy i = s.claimsBy i + n

variable {i : Nat} {w : Worker} {s s₁ : Fleet} {db : Db} {ph : WorkerPhase} {n : Nat} {t : Turn}
  {job : ClaimedJob}

theorem Stands.worker_step (h : Stands i w s s₁ db ph n) (act : WorkerAction) {db' : Db}
    {ph' : WorkerPhase} {e : Event}
    (hst : workerStep db s₁.heartbeats i { w with phase := ph } act = some (db', ph', e)) :
    ∃ s₂, Stands i w s s₂ db' ph' (n + if e.claimedBy i then 1 else 0) ∧
      s₂.heartbeats = s₁.heartbeats ++ e.thread := by
  have hstep : s₁.step (.worker i act) = some { s₁ with
      db := db'
      workers := s₁.workers.set i { w with phase := ph' }
      heartbeats := s₁.heartbeats ++ e.thread
      log := e :: s₁.log } := by
    simp only [Fleet.step, h.worker, Option.bind_some, h.db, hst, Option.map_some]
  obtain ⟨hlt, -⟩ := List.getElem?_eq_some_iff.mp h.worker
  refine ⟨_, ⟨.next h.run (show Own i s₁ (.worker i act) from rfl) hstep, rfl,
    List.getElem?_set_self hlt, ?_⟩, rfl⟩
  show (e :: s₁.log).countP (Event.claimedBy i) = _
  rw [List.countP_cons, ← Nat.add_assoc, ← h.claims]
  rfl

/-- A step whose event is no claim. -/
theorem Stands.worker_step_quiet (h : Stands i w s s₁ db ph n) (act : WorkerAction) {db' : Db}
    {ph' : WorkerPhase} {e : Event}
    (hst : workerStep db s₁.heartbeats i { w with phase := ph } act = some (db', ph', e))
    (he : e.claimedBy i = false) :
    ∃ s₂, Stands i w s s₂ db' ph' n ∧ s₂.heartbeats = s₁.heartbeats ++ e.thread := by
  have hnext := h.worker_step act hst
  rw [he] at hnext
  exact hnext

theorem Stands.ends (h : Stands i w s s₁ db ph n) (act : WorkerAction) {db' : Db}
    {ph' : WorkerPhase} {e : Event}
    (hst : workerStep db s₁.heartbeats i { w with phase := ph } act = some (db', ph', e))
    (he : e.claimedBy i = false) : ∃ s', Stands i w s s' db' ph' n :=
  (h.worker_step_quiet act hst he).imp fun _ => And.left

/-- A refused statement is raised. -/
theorem Stands.crashes (h : Stands i w s s₁ db ph n) (act : WorkerAction) {db' : Db} {e : Event}
    (hst : workerStep db s₁.heartbeats i { w with phase := ph } act = some (db', .crashed, e))
    (he : e.claimedBy i = false) : ∃ s' db' m, Stands i w s s' db' .crashed m :=
  (h.ends act hst he).imp fun _ hs => ⟨db', n, hs⟩

theorem Stands.heartbeat_step (h : Stands i w s s₁ db ph n) (now : Timestamptz) {k : Nat}
    {id : Uuid} {st st' : HeartbeatState} (hhb : s₁.heartbeats[k]? = some ⟨i, id, st⟩) {db' : Db}
    {e : Event}
    (hst : heartbeatStep db ⟨i, id, st⟩ { w with phase := ph } now = some (db', st', e)) :
    ∃ s₂, Stands i w s s₂ db' ph n ∧ s₂.heartbeats[k]? = some ⟨i, id, st'⟩ := by
  have hstep : s₁.step (.heartbeat k now) = some { s₁ with
      db := db'
      heartbeats := s₁.heartbeats.set k ⟨i, id, st'⟩
      log := e :: s₁.log } := by
    simp only [Fleet.step, hhb, Option.bind_some, h.worker, h.db, hst, Option.map_some]
  have hown : Own i s₁ (.heartbeat k now) := ⟨_, hhb, rfl⟩
  have hquiet := Event.claimedBy_of_not (HeartbeatStep.of_eq hst).event.2 i
  obtain ⟨hlt, -⟩ := List.getElem?_eq_some_iff.mp hhb
  refine ⟨_, ⟨.next h.run hown hstep, rfl, h.worker, ?_⟩, List.getElem?_set_self hlt⟩
  show (e :: s₁.log).countP (Event.claimedBy i) = _
  rw [List.countP_cons_of_neg (by simp [hquiet])]
  exact h.claims

/-- The renewals of a thread. -/
theorem Stands.renewals (ha : Worker.alive { w with phase := ph } = true) {k : Nat} {id : Uuid}
    {rs : List Renewal} (h : Stands i w s s₁ db ph n)
    (hhb : s₁.heartbeats[k]? = some ⟨i, id, .beating⟩) (hrs : ∀ r ∈ rs, r.arrivals = []) :
    ∃ s₂, Stands i w s s₂ (renew w.workerId w.config id rs db).1 ph n ∧
      s₂.heartbeats[k]? = some ⟨i, id, (renew w.workerId w.config id rs db).2⟩ := by
  induction rs generalizing s₁ db with
  | nil => exact ⟨s₁, h, hhb⟩
  | cons r rs ih =>
    simp only [renew, hrs r List.mem_cons_self, arrive]
    cases hrun : (JobUpdate.heartbeat id w.workerId w.config.leaseSeconds r.now).run db with
    | error e =>
      exact h.heartbeat_step r.now hhb (by simp only [heartbeatStep, ha, hrun]; rfl)
    | ok res =>
      obtain ⟨db', rows⟩ := res
      cases hrows : rows.isEmpty with
      | true =>
        exact h.heartbeat_step r.now hhb
          (by simp only [heartbeatStep, ha, hrun, hrows]; rfl)
      | false =>
        obtain ⟨s₂, h₂, hhb₂⟩ := h.heartbeat_step r.now hhb
          (by simp only [heartbeatStep, ha, hrun, hrows]; rfl)
        simp only [hrows, Bool.false_eq_true, if_false]
        exact ih h₂ hhb₂ fun r' hr' => hrs r' (List.mem_cons_of_mem _ hr')

/-! ## The end of a job -/

/-- Where a call leaves its worker: in a phase of the loop, or with a refused statement raised. -/
def Ends (i : Nat) (w : Worker) (s : Fleet) (ph : WorkerPhase) (n : Nat) :
    Except DbError Db → Prop
  | .ok db => ∃ s', Stands i w s s' db ph n
  | .error _ => ∃ s' db m, Stands i w s s' db .crashed m

theorem Stands.failure {f : EngineFailure} (hal : t.Alone)
    (h : Stands i w s s₁ db (.failing job.id f) n) :
    Ends i w s w.afterJob n (runFailure w.workerId w.config t job f db) := by
  simp only [runFailure, hal.beforeReport, arrive]
  cases hrep : reportFailure db w.workerId job.id w.config.maxAttempts f t.reportAt with
  | error e =>
    have hst : workerStep db s₁.heartbeats i { w with phase := .failing job.id f }
        (.fail t.reportAt) = some (db, .crashed, .rejected e) := by
      simp only [workerStep, hrep]
    exact h.crashes (.fail t.reportAt) hst rfl
  | ok r =>
    have hst : workerStep db s₁.heartbeats i { w with phase := .failing job.id f }
        (.fail t.reportAt) =
          some (r.1, w.afterJob, if r.2.isEmpty then .quiet else .failed i job.id) := by
      simp only [workerStep, hrep]
      rfl
    exact h.ends (.fail t.reportAt) hst (by split <;> rfl)

theorem Stands.success {run : AnalysisRun} (hal : t.Alone)
    (h : Stands i w s s₁ db (.reporting job run) n) :
    Ends i w s w.afterJob n (runSuccess w.workerId t job run db) := by
  simp only [runSuccess, hal.beforeReport, arrive]
  cases hins : insertAnalysis db job run t.newId t.reportAt with
  | error e =>
    have hrep : reportSuccess db w.workerId job run t.newId t.reportAt = .error e := by
      simp only [reportSuccess, hins, Except.bind]
    have hst : workerStep db s₁.heartbeats i { w with phase := .reporting job run }
        (.insert t.newId t.reportAt) = some (db, .crashed, .rejected e) := by
      simp only [workerStep, hins]
    rw [hrep]
    exact h.crashes (.insert t.newId t.reportAt) hst rfl
  | ok r =>
    have hst : workerStep db s₁.heartbeats i { w with phase := .reporting job run }
        (.insert t.newId t.reportAt) =
          some (db, .completing job run t.newId t.reportAt, .quiet) := by
      simp only [workerStep, hins]
    obtain ⟨s₂, h₂⟩ := h.ends (.insert t.newId t.reportAt) hst rfl
    cases hrep : reportSuccess db w.workerId job run t.newId t.reportAt with
    | error e =>
      have hst : workerStep db s₂.heartbeats i
          { w with phase := .completing job run t.newId t.reportAt } .complete =
            some (db, .crashed, .rejected e) := by
        simp only [workerStep, hrep]
      exact h₂.crashes .complete hst rfl
    | ok done =>
      cases done with
      | none =>
        have hst : workerStep db s₂.heartbeats i
            { w with phase := .completing job run t.newId t.reportAt } .complete =
              some (db, w.afterJob, .quiet) := by
          simp only [workerStep, hrep]
          rfl
        exact h₂.ends .complete hst rfl
      | some done =>
        have hst : workerStep db s₂.heartbeats i
            { w with phase := .completing job run t.newId t.reportAt } .complete =
              some (done.1, w.afterJob, .completed i job.id done.2) := by
          simp only [workerStep, hrep]
          rfl
        exact h₂.ends .complete hst rfl

/-- **The processing of a claimed job.** -/
theorem Stands.processed (hal : t.Alone) (h : Stands i w s s₁ db (.loading job) n) :
    Ends i w s w.afterJob n (process w.workerId w.config t job db) := by
  unfold process
  cases hload : loadReplay db job.replayId with
  | none =>
    have hst : workerStep db s₁.heartbeats i { w with phase := .loading job } .load =
        some (db, .failing job.id ⟨.replayNotFound, "no stored replay " ++ job.replayId⟩,
          .replayNotFound i job.id) := by
      simp only [workerStep, hload]
    simp only
    generalize EngineFailure.mk .replayNotFound ("no stored replay " ++ job.replayId) = failure
      at hst ⊢
    obtain ⟨s', hs'⟩ := h.ends .load hst rfl
    exact hs'.failure hal
  | some payload =>
    have hst : workerStep db s₁.heartbeats i { w with phase := .loading job } .load =
        some (db, .analyzing job payload s₁.heartbeats.length,
          .invoked i job.id job.columns) := by
      simp only [workerStep, hload]
    obtain ⟨s₂, h₂, hhbs⟩ := h.worker_step_quiet .load hst rfl
    have hhb₂ : s₂.heartbeats[s₁.heartbeats.length]? = some ⟨i, job.id, .beating⟩ := by
      rw [hhbs]
      exact List.getElem?_concat_length
    obtain ⟨s₃, h₃, hhb₃⟩ := h₂.renewals rfl hhb₂ hal.renewals
    simp only
    generalize renew w.workerId w.config job.id t.renewals db = beaten at h₃ hhb₃ ⊢
    -- the renewals after the test, in whatever phase it leads to
    have hlate : ∀ {s₄ : Fleet} {ph : WorkerPhase}, Stands i w s s₄ beaten.1 ph n →
        s₄.heartbeats = s₃.heartbeats ++ [] → Worker.alive { w with phase := ph } = true →
        ∃ s₅, Stands i w s s₅ (if beaten.2 = .beating then
          (renew w.workerId w.config job.id t.lateRenewals beaten.1).1 else beaten.1) ph n := by
      intro s₄ ph h₄ hhbs₄ ha
      rw [List.append_nil] at hhbs₄
      by_cases hb : beaten.2 = .beating
      · have hhb₄ : s₄.heartbeats[s₁.heartbeats.length]? = some ⟨i, job.id, .beating⟩ := by
          rw [hhbs₄, hhb₃, hb]
        obtain ⟨s₅, h₅, -⟩ := h₄.renewals ha hhb₄ hal.lateRenewals
        rw [if_pos hb]
        exact ⟨s₅, h₅⟩
      · rw [if_neg hb]
        exact ⟨s₄, h₄⟩
    cases hout : t.outcome with
    | error failure =>
      have hst : workerStep beaten.1 s₃.heartbeats i
          { w with phase := .analyzing job payload s₁.heartbeats.length }
            (.analyze (.error failure)) =
            some (beaten.1, .failing job.id failure, .quiet) := rfl
      obtain ⟨s₄, h₄, hhbs₄⟩ := h₃.worker_step_quiet (.analyze (.error failure)) hst rfl
      obtain ⟨s₅, h₅⟩ := hlate h₄ hhbs₄ rfl
      exact h₅.failure hal
    | ok run =>
      have hst : workerStep beaten.1 s₃.heartbeats i
          { w with phase := .analyzing job payload s₁.heartbeats.length } (.analyze (.ok run)) =
            some (beaten.1, if beaten.2 = .lost then w.afterJob else .reporting job run,
              .returned i ⟨payload, analyzeKwargs job.identity, run.document⟩) := by
        simp only [workerStep, hhb₃, Option.any_some, decide_eq_true_eq]
        rfl
      obtain ⟨s₄, h₄, hhbs₄⟩ := h₃.worker_step_quiet (.analyze (.ok run)) hst rfl
      simp only
      by_cases hl : beaten.2 = .lost
      · have hnb : ¬ beaten.2 = .beating := by
          rw [hl]
          decide
        rw [if_pos hl] at h₄
        rw [if_pos hl, if_neg hnb]
        exact ⟨s₄, h₄⟩
      · rw [if_neg hl] at h₄
        rw [if_neg hl]
        obtain ⟨s₅, h₅⟩ := hlate h₄ hhbs₄ rfl
        exact h₅.success hal

/-! ## Iterations -/

theorem Stands.reclaimed (hal : t.Alone) (h : Stands i w s s₁ db .reclaiming n) :
    Ends i w s .claiming n (reclaimExpired w.config t db) := by
  simp only [reclaimExpired, hal.beforeReclaim, arrive]
  cases hrun : (JobUpdate.reclaim w.config.maxAttempts t.reclaimAt).run db with
  | error e =>
    have hst : workerStep db s₁.heartbeats i { w with phase := .reclaiming }
        (.reclaim t.reclaimAt) = some (db, .crashed, .rejected e) := by
      simp only [workerStep, hrun]
    exact h.crashes (.reclaim t.reclaimAt) hst rfl
  | ok r =>
    have hst : workerStep db s₁.heartbeats i { w with phase := .reclaiming }
        (.reclaim t.reclaimAt) = some (r.1, .claiming, .reclaimed (r.2.map JobRow.id)) := by
      simp only [workerStep, hrun]
    exact h.ends (.reclaim t.reclaimAt) hst rfl

/-- Where a call of `run_once` leaves its worker: past a job, or past an empty claim. -/
def EndsCall (i : Nat) (w : Worker) (s : Fleet) (n : Nat) : Except DbError (Db × Bool) → Prop
  | .ok (db, true) => ∃ s', Stands i w s s' db w.afterJob (n + 1)
  | .ok (db, false) => ∃ s', Stands i w s s' db w.afterEmpty n
  | .error _ => ∃ s' db m, Stands i w s s' db .crashed m

theorem Stands.once (hr : s.Reachable) (hal : t.Alone) (h : Stands i w s s₁ db .claiming n) :
    EndsCall i w s n (runOnce w.workerId w.config t db) := by
  have hu : Table.Unique JobRow.id db.jobs := by
    rw [← h.db]
    exact valid_of_reachable (hr.trans h.run.reachable) .jobsPkey
  have hbuild : Worker.build { w with phase := .claiming } = w.config.build := rfl
  simp only [runOnce, hal.beforeClaim, hal.beforeLoad, arrive]
  cases hjob : claimJob db w.workerId w.config.leaseSeconds w.config.build t.locked t.claimAt with
  | error e =>
    have hst : workerStep db s₁.heartbeats i { w with phase := .claiming }
        (.claim t.locked t.claimAt) = some (db, .crashed, .rejected e) := by
      simp only [workerStep, hbuild, hjob]
    exact h.crashes (.claim t.locked t.claimAt) hst rfl
  | ok r =>
    obtain ⟨db', found⟩ := r
    cases found with
    | none =>
      have hst : workerStep db s₁.heartbeats i { w with phase := .claiming }
          (.claim t.locked t.claimAt) = some (db, w.afterEmpty, .quiet) := by
        simp only [workerStep, hbuild, hjob]
        rfl
      rcases claimJob_ok hu hjob with ⟨rfl, -, -⟩ | ⟨j, -, -, hsome, -⟩
      · exact h.ends (.claim t.locked t.claimAt) hst rfl
      · cases hsome
    | some job =>
      have hst : workerStep db s₁.heartbeats i { w with phase := .claiming }
          (.claim t.locked t.claimAt) = some (db', .loading job, .claimed i job.id) := by
        simp only [workerStep, hbuild, hjob]
      obtain ⟨s₂, h₂, -⟩ := h.worker_step (.claim t.locked t.claimAt) hst
      rw [if_pos (by simp [Event.claimedBy])] at h₂
      have hend := h₂.processed hal
      simp only [Except.bind]
      cases hproc : process w.workerId w.config t job db' with
      | error e =>
        rw [hproc] at hend
        exact hend
      | ok db'' =>
        rw [hproc] at hend
        exact hend

theorem Stands.drained (hr : s.Reachable) (hal : t.Alone)
    (h : Stands i w s s₁ db .reclaiming n) :
    EndsCall i w s n (drainIteration w.workerId w.config t db) := by
  have hend := h.reclaimed hal
  unfold drainIteration
  cases hrec : reclaimExpired w.config t db with
  | error e =>
    rw [hrec] at hend
    exact hend
  | ok db' =>
    rw [hrec] at hend
    obtain ⟨s', hs'⟩ := hend
    exact hs'.once hr hal

/-- An iteration of `run_forever` goes on, or is left by a refused statement. -/
theorem Stands.polled (hr : s.Reachable) (hal : t.Alone) (hmode : w.config.mode = .forever)
    (h : Stands i w s s₁ db .claiming n) :
    (∀ db' goesOn, foreverIteration w.workerId w.config t db = .ok (db', goesOn) →
      ∃ s' m, Stands i w s s' db' .claiming m) ∧
    ∀ e, foreverIteration w.workerId w.config t db = .error e →
      ∃ s' db' m, Stands i w s s' db' .crashed m := by
  have hend := h.once hr hal
  unfold foreverIteration
  cases honce : runOnce w.workerId w.config t db with
  | error e =>
    rw [honce] at hend
    exact ⟨fun _ _ hc => (by cases hc), fun _ _ => hend⟩
  | ok r =>
    obtain ⟨db₁, found⟩ := r
    rw [honce] at hend
    cases found with
    | true =>
      obtain ⟨s', hs'⟩ := hend
      rw [Worker.afterJob, hmode] at hs'
      refine ⟨fun db' goesOn hc => ?_, fun _ hc => by cases hc⟩
      cases hc
      exact ⟨s', _, hs'⟩
    | false =>
      obtain ⟨s', hs'⟩ := hend
      have hempty : w.afterEmpty = .reclaiming := by
        unfold Worker.afterEmpty
        rw [hmode]
      rw [hempty] at hs'
      have hrec := hs'.reclaimed hal
      simp only [Except.bind, Bool.false_eq_true, if_false]
      cases hre : reclaimExpired w.config t db₁ with
      | error e =>
        rw [hre] at hrec
        exact ⟨fun _ _ hc => (by cases hc), fun _ _ => hrec⟩
      | ok db₂ =>
        rw [hre] at hrec
        obtain ⟨s'', hs''⟩ := hrec
        refine ⟨fun db' goesOn hc => ?_, fun _ hc => by cases hc⟩
        cases hc
        exact ⟨s'', n, hs''⟩

/-! ## Loops -/

/-- An iteration that goes on brings its worker back to where it started. -/
theorem Stands.iteration (hr : s.Reachable) (hal : t.Alone) {db' : Db}
    (h : Stands i w s s₁ db (Worker.start w.config.mode) n)
    (hit : iteration w.workerId w.config t db = .ok (db', true)) :
    ∃ s' m, Stands i w s s' db' (Worker.start w.config.mode) m := by
  cases hmode : w.config.mode with
  | drain =>
    rw [hmode] at h
    simp only [BattleCloud.iteration, hmode] at hit
    have hend := h.drained hr hal
    rw [hit] at hend
    obtain ⟨s', hs'⟩ := hend
    rw [Worker.afterJob, hmode] at hs'
    exact ⟨s', _, hs'⟩
  | forever =>
    rw [hmode] at h
    simp only [BattleCloud.iteration, hmode] at hit
    exact (h.polled hr hal hmode).1 db' true hit

/-- A drain ends with as many claims as it counts. -/
theorem Stands.runs (hr : s.Reachable) {turns : Nat → Turn} (hal : ∀ k, (turns k).Alone)
    (hmode : w.config.mode = .drain) :
    ∀ {fuel k : Nat} {s₁ : Fleet} {db : Db}, Stands i w s s₁ db .reclaiming k →
      (∀ m db', Loop.run (drainIteration w.workerId w.config) turns fuel k db =
        some (.ok (m, db')) → ∃ s', Stands i w s s' db' .drained m) ∧
      ∀ e, Loop.run (drainIteration w.workerId w.config) turns fuel k db = some (.error e) →
        ∃ s' db' m, Stands i w s s' db' .crashed m
  | 0, _, _, _, _ => ⟨fun _ _ hrun => (by cases hrun), fun _ hrun => (by cases hrun)⟩
  | fuel + 1, k, s₁, db, h => by
    have hend := h.drained hr (hal k)
    unfold Loop.run
    cases hit : drainIteration w.workerId w.config (turns k) db with
    | error e =>
      rw [hit] at hend
      exact ⟨fun _ _ hrun => (by cases hrun), fun _ _ => hend⟩
    | ok r =>
      obtain ⟨db₁, found⟩ := r
      rw [hit] at hend
      cases found with
      | true =>
        obtain ⟨s', hs'⟩ := hend
        rw [Worker.afterJob, hmode] at hs'
        exact Stands.runs hr hal hmode hs'
      | false =>
        obtain ⟨s', hs'⟩ := hend
        have hempty : w.afterEmpty = .drained := by
          unfold Worker.afterEmpty
          rw [hmode]
        rw [hempty] at hs'
        refine ⟨fun m db' hrun => ?_, fun _ hrun => by cases hrun⟩
        cases hrun
        exact ⟨s', hs'⟩

/-- **The loops are runs of the fleet.** From any reachable state, for a worker at the start of its
loop while the API writes nothing: the state in which any iteration of the loop starts, in either
mode, is one its own steps lead to in the fleet; where `run_until_empty` returns, they lead to the
same tables with the worker drained, and its count is the number of its claims; where a refused
statement is raised out of it, they lead to the worker's end. -/
theorem loops_run (hr : s.Reachable) (hw : s.workers[i]? = some w)
    (hstart : w.phase = Worker.start w.config.mode) {turns : Nat → Turn}
    (hal : ∀ k, (turns k).Alone) :
    (∀ k db, Loop.Iterates (iteration w.workerId w.config) turns s.db k db →
      ∃ s', StepSystem.Reach Fleet.step (Own i) s s' ∧ s'.db = db ∧ s'.workers[i]? = some w) ∧
    (w.config.mode = .drain → ∀ fuel m db,
      runUntilEmpty w.workerId w.config turns fuel s.db = some (.ok (m, db)) →
      ∃ s', StepSystem.Reach Fleet.step (Own i) s s' ∧ s'.db = db ∧
        s'.workers[i]? = some { w with phase := .drained } ∧
        s'.claimsBy i = s.claimsBy i + m) ∧
    (w.config.mode = .drain → ∀ fuel e,
      runUntilEmpty w.workerId w.config turns fuel s.db = some (.error e) →
      ∃ s', StepSystem.Reach Fleet.step (Own i) s s' ∧
        s'.workers[i]? = some { w with phase := .crashed }) := by
  have hself : { w with phase := Worker.start w.config.mode } = w := by rw [← hstart]
  have h₀ : Stands i w s s s.db (Worker.start w.config.mode) 0 :=
    ⟨.init, rfl, by rw [hself]; exact hw, rfl⟩
  refine ⟨fun k db hit => ?_, fun hmode fuel m db hrun => ?_, fun hmode fuel e hrun => ?_⟩
  · have hstands : ∃ s' n, Stands i w s s' db (Worker.start w.config.mode) n := by
      induction hit with
      | start => exact ⟨s, 0, h₀⟩
      | next _ hbody ih =>
        obtain ⟨s', n, hs'⟩ := ih
        exact hs'.iteration hr (hal _) hbody
    obtain ⟨s', n, hs'⟩ := hstands
    exact ⟨s', hs'.run, hs'.db, by rw [hs'.worker, hself]⟩
  · rw [hmode] at h₀
    obtain ⟨s', hs'⟩ := (Stands.runs hr hal hmode h₀).1 m db hrun
    exact ⟨s', hs'.run, hs'.db, hs'.worker, hs'.claims⟩
  · rw [hmode] at h₀
    obtain ⟨s', db, m, hs'⟩ := (Stands.runs hr hal hmode h₀).2 e hrun
    exact ⟨s', hs'.run, hs'.worker⟩

namespace Sample

/-- The queue of a first submission, seen by a worker that has just started. -/
def idleTask : Fleet := Fleet.after (submitFirst 7 ++ [.spawn "host/1" config])

/-- The engine returns after two renewals. -/
def noonTurn : Turn :=
  { begins := noon.us, beforeReclaim := [], reclaimAt := noon, beforeClaim := [], locked := [],
    claimAt := noon, beforeLoad := [], renewals := [⟨[], noon⟩, ⟨[], later⟩], lateRenewals := [],
    outcome := .ok ⟨document 2 2, 1200, false⟩, beforeReport := [], newId := 9, reportAt := later,
    begins_le := Int.le_refl _ }

end Sample

theorem loops_run_waiting :
    ∃ db, runUntilEmpty "host/1" Sample.config (fun _ => Sample.noonTurn) 3 Sample.idleTask.db =
        some (.ok (1, db)) ∧
      ∃ s', StepSystem.Reach Fleet.step (Own 0) Sample.idleTask s' ∧ s'.db = db ∧
        s'.claimsBy 0 = Sample.idleTask.claimsBy 0 + 1 := by
  have halone : Sample.noonTurn.Alone := by
    constructor <;> simp [Sample.noonTurn]
  have hcount : (runUntilEmpty "host/1" Sample.config (fun _ => Sample.noonTurn) 3
      Sample.idleTask.db).map (fun r => r.toOption.map Prod.fst) = some (some 1) := by
    decide +kernel
  have hw : Sample.idleTask.workers[0]? = some ⟨"host/1", Sample.config, .reclaiming⟩ := rfl
  have hreach : Sample.idleTask.Reachable := Fleet.reachable_after _
  generalize Sample.idleTask = s at hcount hw hreach
  obtain ⟨r, hrun, hr⟩ := Option.map_eq_some_iff.mp hcount
  cases r with
  | error e => cases hr
  | ok r =>
    obtain ⟨m, db⟩ := r
    obtain rfl : m = 1 := Option.some.inj hr
    obtain ⟨s', hown, hdb, -, hclaims⟩ :=
      (loops_run hreach hw rfl fun _ => halone).2.1 rfl 3 1 db hrun
    exact ⟨db, hrun, s', hown, hdb, hclaims⟩

end BattleCloud
