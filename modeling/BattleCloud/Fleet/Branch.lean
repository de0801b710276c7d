import BattleCloud.Fleet.Model

/-!
# The branches of a step

`SubmissionStep`, `WorkerStep` and `HeartbeatStep` are the step functions of the three kinds of
process as relations: one constructor for each branch, with where the process stood, what its
statement answered and what that leads to. `FleetStep` says the same of a step of the fleet: which
process moved, and that the others stand where they were. Later proofs are by cases on these and
do not unfold the functions.
-/

namespace BattleCloud

/-- The branches of `submissionStep`. -/
inductive SubmissionStep (db : Db) (i : Nat) (s : Submission) :
    SubmissionAction → Db → SubmissionPhase → Event → Prop
  | hit {a : StoredAnalysis} (hph : s.phase = .received)
      (hok : analysisByIdentity db s.identity = .ok (some a)) :
      SubmissionStep db i s .lookup db (.answered (.ok a)) (.served i a)
  | miss (hph : s.phase = .received) (hok : analysisByIdentity db s.identity = .ok none) :
      SubmissionStep db i s .lookup db .limiting (.missed i s.columns)
  | lookupRefused {err : DbError} (hph : s.phase = .received)
      (herr : analysisByIdentity db s.identity = .error err) :
      SubmissionStep db i s .lookup db (.answered .internal) (.rejected err)
  | allowed (hph : s.phase = .limiting) :
      SubmissionStep db i s (.tryConsume true) db .acquiring .quiet
  | limited (hph : s.phase = .limiting) :
      SubmissionStep db i s (.tryConsume false) db (.answered (.error .rateLimited)) .quiet
  | stored {log : String} (hph : s.phase = .acquiring)
      (hok : replayLog db s.request.replayId = some log) :
      SubmissionStep db i s .replayLog db (.enqueueing (estimateTurns log)) .quiet
  | absent (hph : s.phase = .acquiring) (hok : replayLog db s.request.replayId = none) :
      SubmissionStep db i s .replayLog db .fetching .quiet
  | fetched (log : String) (raw : Json) (hph : s.phase = .fetching) :
      SubmissionStep db i s (.fetch (.ok (log, raw))) db
        (.storing ⟨s.request.replayId, log, raw⟩) .quiet
  | fetchFailed (kind : ErrorKind) (hph : s.phase = .fetching) :
      SubmissionStep db i s (.fetch (.error kind)) db (.answered (.error kind)) .quiet
  | upserted {payload : ReplayPayload} {db' : Db} (hph : s.phase = .storing payload)
      (hok : upsertReplay db payload = .ok db') :
      SubmissionStep db i s .upsertReplay db' (.enqueueing (estimateTurns payload.log))
        (.upserted i)
  | upsertRefused {payload : ReplayPayload} {err : DbError} (hph : s.phase = .storing payload)
      (herr : upsertReplay db payload = .error err) :
      SubmissionStep db i s .upsertReplay db (.answered .internal) (.rejected err)
  | created {turns : Nat} {newId : Uuid} {now : Timestamptz} {db' : Db} {job : JobRow}
      (hph : s.phase = .enqueueing turns)
      (hok : enqueue db s.identity s.request.profile turns
        (estimateDuration turns s.request.profile) newId now = .ok (db', job, true)) :
      SubmissionStep db i s (.enqueue newId now) db' (.launching (toJob job) true)
        (.created i job.id job.columns)
  | joined {turns : Nat} {newId : Uuid} {now : Timestamptz} {db' : Db} {job : JobRow}
      (hph : s.phase = .enqueueing turns)
      (hok : enqueue db s.identity s.request.profile turns
        (estimateDuration turns s.request.profile) newId now = .ok (db', job, false))
      (hq : job.status = .queued) :
      SubmissionStep db i s (.enqueue newId now) db' (.launching (toJob job) false)
        (.joined i job.id)
  | joinedRunning {turns : Nat} {newId : Uuid} {now : Timestamptz} {db' : Db} {job : JobRow}
      (hph : s.phase = .enqueueing turns)
      (hok : enqueue db s.identity s.request.profile turns
        (estimateDuration turns s.request.profile) newId now = .ok (db', job, false))
      (hq : job.status ≠ .queued) :
      SubmissionStep db i s (.enqueue newId now) db' (.answered (.accepted (toJob job) false))
        (.joined i job.id)
  | enqueueRefused {turns : Nat} {newId : Uuid} {now : Timestamptz} {err : DbError}
      (hph : s.phase = .enqueueing turns)
      (herr : enqueue db s.identity s.request.profile turns
        (estimateDuration turns s.request.profile) newId now = .error err) :
      SubmissionStep db i s (.enqueue newId now) db (.answered .internal) (.rejected err)
  | responded {job : StoredJob} {created : Bool} (hph : s.phase = .launching job created) :
      SubmissionStep db i s .respond db (.answered (.accepted job created)) .quiet
  | aborted (hph : ∀ r, s.phase ≠ .answered r) :
      SubmissionStep db i s .abort db (.answered .internal) .quiet

/-- The branches of `workerStep`. -/
inductive WorkerStep (db : Db) (hbs : List Heartbeat) (i : Nat) (w : Worker) :
    WorkerAction → Db → WorkerPhase → Event → Prop
  | reclaimed {now : Timestamptz} {db' : Db} {rows : List JobRow} (hph : w.phase = .reclaiming)
      (hok : (JobUpdate.reclaim w.config.maxAttempts now).run db = .ok (db', rows)) :
      WorkerStep db hbs i w (.reclaim now) db' .claiming (.reclaimed (rows.map JobRow.id))
  | reclaimRefused {now : Timestamptz} {err : DbError} (hph : w.phase = .reclaiming)
      (herr : (JobUpdate.reclaim w.config.maxAttempts now).run db = .error err) :
      WorkerStep db hbs i w (.reclaim now) db .crashed (.rejected err)
  | claimed {locked : List Uuid} {now : Timestamptz} {db' : Db} {job : ClaimedJob}
      (hph : w.phase = .claiming)
      (hok : claimJob db w.workerId w.config.leaseSeconds w.build locked now =
        .ok (db', some job)) :
      WorkerStep db hbs i w (.claim locked now) db' (.loading job) (.claimed i job.id)
  | empty {locked : List Uuid} {now : Timestamptz} {db' : Db} (hph : w.phase = .claiming)
      (hok : claimJob db w.workerId w.config.leaseSeconds w.build locked now = .ok (db', none)) :
      WorkerStep db hbs i w (.claim locked now) db w.afterEmpty .quiet
  | claimRefused {locked : List Uuid} {now : Timestamptz} {err : DbError}
      (hph : w.phase = .claiming)
      (herr : claimJob db w.workerId w.config.leaseSeconds w.build locked now = .error err) :
      WorkerStep db hbs i w (.claim locked now) db .crashed (.rejected err)
  | invoked {job : ClaimedJob} {payload : EnginePayload} (hph : w.phase = .loading job)
      (hok : loadReplay db job.replayId = some payload) :
      WorkerStep db hbs i w .load db (.analyzing job payload hbs.length)
        (.invoked i job.id job.columns)
  | notFound {job : ClaimedJob} (hph : w.phase = .loading job)
      (hok : loadReplay db job.replayId = none) :
      WorkerStep db hbs i w .load db
        (.failing job.id ⟨.replayNotFound, "no stored replay " ++ job.replayId⟩)
        (.replayNotFound i job.id)
  | raised {job : ClaimedJob} {payload : EnginePayload} {h : Nat} (failure : EngineFailure)
      (hph : w.phase = .analyzing job payload h) :
      WorkerStep db hbs i w (.analyze (.error failure)) db (.failing job.id failure) .quiet
  | returned {job : ClaimedJob} {payload : EnginePayload} {h : Nat} (run : AnalysisRun)
      (hph : w.phase = .analyzing job payload h) :
      WorkerStep db hbs i w (.analyze (.ok run)) db (.reporting job run)
        (.returned i ⟨payload, analyzeKwargs job.identity, run.document⟩)
  | discarded {job : ClaimedJob} {payload : EnginePayload} {h : Nat} (run : AnalysisRun)
      (hph : w.phase = .analyzing job payload h) :
      WorkerStep db hbs i w (.analyze (.ok run)) db w.afterJob
        (.returned i ⟨payload, analyzeKwargs job.identity, run.document⟩)
  | failed {job : Uuid} {f : EngineFailure} {now : Timestamptz} {db' : Db} {rows : List JobRow}
      (hph : w.phase = .failing job f)
      (hok : reportFailure db w.workerId job w.config.maxAttempts f now = .ok (db', rows))
      (hown : ∃ j ∈ db.jobs, j.ownedBy job w.workerId = true) :
      WorkerStep db hbs i w (.fail now) db' w.afterJob (.failed i job)
  | failedStale {job : Uuid} {f : EngineFailure} {now : Timestamptz}
      (hph : w.phase = .failing job f) :
      WorkerStep db hbs i w (.fail now) db w.afterJob .quiet
  | failRefused {job : Uuid} {f : EngineFailure} {now : Timestamptz} {err : DbError}
      (hph : w.phase = .failing job f)
      (herr : reportFailure db w.workerId job w.config.maxAttempts f now = .error err) :
      WorkerStep db hbs i w (.fail now) db .crashed (.rejected err)
  | inserted {job : ClaimedJob} {run : AnalysisRun} {newId : Uuid} {now : Timestamptz}
      (hph : w.phase = .reporting job run) :
      WorkerStep db hbs i w (.insert newId now) db (.completing job run newId now) .quiet
  | insertRefused {job : ClaimedJob} {run : AnalysisRun} {newId : Uuid} {now : Timestamptz}
      {err : DbError} (hph : w.phase = .reporting job run)
      (herr : insertAnalysis db job run newId now = .error err) :
      WorkerStep db hbs i w (.insert newId now) db .crashed (.rejected err)
  | completed {job : ClaimedJob} {run : AnalysisRun} {newId : Uuid} {now : Timestamptz} {db' : Db}
      {row : AnalysisRow} (hph : w.phase = .completing job run newId now)
      (hok : reportSuccess db w.workerId job run newId now = .ok (some (db', row))) :
      WorkerStep db hbs i w .complete db' w.afterJob (.completed i job.id row)
  | rolledBack {job : ClaimedJob} {run : AnalysisRun} {newId : Uuid} {now : Timestamptz}
      (hph : w.phase = .completing job run newId now)
      (hok : reportSuccess db w.workerId job run newId now = .ok none) :
      WorkerStep db hbs i w .complete db w.afterJob .quiet
  | completeRefused {job : ClaimedJob} {run : AnalysisRun} {newId : Uuid} {now : Timestamptz}
      {err : DbError} (hph : w.phase = .completing job run newId now)
      (herr : reportSuccess db w.workerId job run newId now = .error err) :
      WorkerStep db hbs i w .complete db .crashed (.rejected err)
  | exited (hph : w.phase = .drained) : WorkerStep db hbs i w .exit db .exited .quiet
  | crashed (ha : w.alive = true) : WorkerStep db hbs i w .crash db .crashed .quiet

/-- The branches of `heartbeatStep`. -/
inductive HeartbeatStep (db : Db) (hb : Heartbeat) (w : Worker) :
    Timestamptz → Db → HeartbeatState → Event → Prop
  | renewed {now : Timestamptz} {db' : Db} {rows : List JobRow} (ha : w.alive = true)
      (hok : (JobUpdate.heartbeat hb.job w.workerId w.config.leaseSeconds now).run db =
        .ok (db', rows)) :
      HeartbeatStep db hb w now db' .beating (.renewed hb.worker hb.job)
  | lost {now : Timestamptz} (ha : w.alive = true) : HeartbeatStep db hb w now db .lost .quiet
  | refused {now : Timestamptz} {err : DbError} (ha : w.alive = true)
      (herr : (JobUpdate.heartbeat hb.job w.workerId w.config.leaseSeconds now).run db =
        .error err) :
      HeartbeatStep db hb w now db .stopped (.rejected err)

/-- The process that moved in a step of the fleet. -/
inductive FleetStep (s : Fleet) : Action → Fleet → Prop
  | submit (request : SubmitRequest) (build : EngineBuild) :
      FleetStep s (.submit request build)
        { s with submissions := s.submissions ++ [⟨request, build, .received⟩]
                 log := .quiet :: s.log }
  | submission {i : Nat} {sub : Submission} {act : SubmissionAction} {db : Db}
      {ph : SubmissionPhase} {e : Event} (hsub : s.submissions[i]? = some sub)
      (hst : SubmissionStep s.db i sub act db ph e) :
      FleetStep s (.submission i act)
        { s with db := db
                 submissions := s.submissions.set i { sub with phase := ph }
                 log := e :: s.log }
  | spawn {workerId : String} {config : WorkerConfig}
      (hfree : ∀ w ∈ s.workers, w.alive = true → w.workerId ≠ workerId) :
      FleetStep s (.spawn workerId config)
        { s with workers := s.workers ++ [⟨workerId, config, Worker.start config.mode⟩]
                 log := .quiet :: s.log }
  | worker {i : Nat} {w : Worker} {act : WorkerAction} {db : Db} {ph : WorkerPhase} {e : Event}
      (hw : s.workers[i]? = some w) (hst : WorkerStep s.db s.heartbeats i w act db ph e) :
      FleetStep s (.worker i act)
        { s with db := db
                 workers := s.workers.set i { w with phase := ph }
                 heartbeats := s.heartbeats ++ e.thread
                 log := e :: s.log }
  | heartbeat {h : Nat} {hb : Heartbeat} {w : Worker} {now : Timestamptz} {db : Db}
      {st : HeartbeatState} {e : Event} (hhb : s.heartbeats[h]? = some hb)
      (hw : s.workers[hb.worker]? = some w) (hst : HeartbeatStep s.db hb w now db st e) :
      FleetStep s (.heartbeat h now)
        { s with db := db
                 heartbeats := s.heartbeats.set h { hb with state := st }
                 log := e :: s.log }

/-! ## Every step is one of them -/

/-- An update that gives no row back took none and left the tables alone. -/
theorem JobUpdate.run_isEmpty {u : JobUpdate} {db db' : Db} {rows : List JobRow}
    (h : u.run db = .ok (db', rows)) (he : rows.isEmpty = true) : db' = db := by
  obtain ⟨rfl, -, hrows⟩ := JobUpdate.run_ok h
  rw [hrows, List.isEmpty_iff, Table.returning_eq_nil] at he
  exact JobUpdate.apply_eq_self he

/-- An update that gives a row back took one. -/
theorem JobUpdate.run_not_isEmpty {u : JobUpdate} {db db' : Db} {rows : List JobRow}
    (h : u.run db = .ok (db', rows)) (he : ¬ rows.isEmpty = true) :
    ∃ j ∈ db.jobs, u.sel j = true := by
  obtain ⟨-, -, hrows⟩ := JobUpdate.run_ok h
  have hne : rows ≠ [] := by simpa using he
  obtain ⟨j', hj'⟩ := List.exists_mem_of_ne_nil rows hne
  obtain ⟨j, hj, hs, -⟩ := Table.mem_returning.mp (hrows ▸ hj')
  exact ⟨j, hj, hs⟩

theorem SubmissionStep.of_eq {db db' : Db} {i : Nat} {s : Submission} {a : SubmissionAction}
    {ph : SubmissionPhase} {e : Event} (h : submissionStep db i s a = some (db', ph, e)) :
    SubmissionStep db i s a db' ph e := by
  cases a with
  | lookup =>
    simp only [submissionStep] at h
    split at h
    · rename_i hph
      split at h <;> rename_i hok <;> cases h
      · exact .hit hph hok
      · exact .miss hph hok
      · exact .lookupRefused hph hok
    · cases h
  | tryConsume allowed =>
    simp only [submissionStep] at h
    split at h
    · rename_i hph
      cases allowed <;> cases h
      · exact .limited hph
      · exact .allowed hph
    · cases h
  | replayLog =>
    simp only [submissionStep] at h
    split at h
    · rename_i hph
      split at h <;> rename_i hok <;> cases h
      · exact .stored hph hok
      · exact .absent hph hok
    · cases h
  | fetch outcome =>
    simp only [submissionStep] at h
    split at h
    · rename_i hph
      split at h <;> cases h
      · exact .fetched _ _ hph
      · exact .fetchFailed _ hph
    · cases h
  | upsertReplay =>
    simp only [submissionStep] at h
    split at h
    · rename_i hph
      split at h <;> rename_i hok <;> cases h
      · exact .upserted hph hok
      · exact .upsertRefused hph hok
    · cases h
  | enqueue newId now =>
    simp only [submissionStep] at h
    split at h
    · rename_i hph
      split at h <;> rename_i hok <;> cases h
      · rename_i job created
        cases created with
        | true =>
          obtain ⟨-, ⟨hf, -⟩ | ⟨-, -, hj, -⟩⟩ := enqueue_ok hok
          · cases hf
          · rw [if_pos (by rw [hj]; rfl)]
            exact .created hph hok
        | false =>
          by_cases hq : job.status = .queued
          · rw [if_pos hq]
            exact .joined hph hok hq
          · rw [if_neg hq]
            exact .joinedRunning hph hok hq
      · exact .enqueueRefused hph hok
    · cases h
  | respond =>
    simp only [submissionStep] at h
    split at h
    · rename_i hph
      cases h
      exact .responded hph
    · cases h
  | abort =>
    simp only [submissionStep] at h
    split at h
    · cases h
    · rename_i hph
      cases h
      exact .aborted hph

theorem WorkerStep.of_eq {db db' : Db} {hbs : List Heartbeat} {i : Nat} {w : Worker}
    {a : WorkerAction} {ph : WorkerPhase} {e : Event}
    (h : workerStep db hbs i w a = some (db', ph, e)) : WorkerStep db hbs i w a db' ph e := by
  cases a with
  | reclaim now =>
    simp only [workerStep] at h
    split at h
    · rename_i hph
      split at h <;> rename_i hok <;> cases h
      · exact .reclaimed hph hok
      · exact .reclaimRefused hph hok
    · cases h
  | claim locked now =>
    simp only [workerStep] at h
    split at h
    · rename_i hph
      split at h <;> rename_i hok <;> cases h
      · exact .claimed hph hok
      · exact .empty hph hok
      · exact .claimRefused hph hok
    · cases h
  | load =>
    simp only [workerStep] at h
    split at h
    · rename_i hph
      split at h <;> rename_i hok <;> cases h
      · exact .invoked hph hok
      · exact .notFound hph hok
    · cases h
  | analyze outcome =>
    simp only [workerStep] at h
    split at h
    · rename_i hph
      split at h <;> cases h
      · exact .raised _ hph
      · split
        · exact .discarded _ hph
        · exact .returned _ hph
    · cases h
  | fail now =>
    simp only [workerStep] at h
    split at h
    · rename_i hph
      split at h <;> rename_i hok <;> cases h
      · obtain ⟨d, -, hrun⟩ := except_bind_ok.mp hok
        split
        · rename_i he
          rw [JobUpdate.run_isEmpty hrun he]
          exact .failedStale hph
        · rename_i he
          exact .failed hph hok (JobUpdate.run_not_isEmpty hrun he)
      · exact .failRefused hph hok
    · cases h
  | insert newId now =>
    simp only [workerStep] at h
    split at h
    · rename_i hph
      split at h <;> rename_i hok <;> cases h
      · exact .inserted hph
      · exact .insertRefused hph hok
    · cases h
  | complete =>
    simp only [workerStep] at h
    split at h
    · rename_i hph
      split at h <;> rename_i hok <;> cases h
      · exact .completed hph hok
      · exact .rolledBack hph hok
      · exact .completeRefused hph hok
    · cases h
  | exit =>
    simp only [workerStep] at h
    split at h
    · rename_i hph
      cases h
      exact .exited hph
    · cases h
  | crash =>
    simp only [workerStep] at h
    split at h
    · rename_i ha
      cases h
      exact .crashed ha
    · cases h

theorem HeartbeatStep.of_eq {db db' : Db} {hb : Heartbeat} {w : Worker} {now : Timestamptz}
    {st : HeartbeatState} {e : Event} (h : heartbeatStep db hb w now = some (db', st, e)) :
    HeartbeatStep db hb w now db' st e := by
  unfold heartbeatStep at h
  split at h
  · rename_i hc
    split at h <;> rename_i hok <;> cases h
    · rename_i rows
      by_cases he : rows.isEmpty = true
      · rw [if_pos he, if_pos he, JobUpdate.run_isEmpty hok he]
        exact .lost hc.2
      · rw [if_neg he, if_neg he]
        exact .renewed hc.2 hok
    · exact .refused hc.2 hok
  · cases h

/-- **One process moves in a step of the fleet, by one of its branches.** -/
theorem FleetStep.of_eq {s s' : Fleet} {a : Action} (h : s.step a = some s') :
    FleetStep s a s' := by
  cases a with
  | submit request build =>
    cases h
    exact .submit request build
  | submission i act =>
    simp only [Fleet.step, Option.bind_eq_some_iff, Option.map_eq_some_iff] at h
    obtain ⟨sub, hsub, ⟨db, ph, e⟩, hst, rfl⟩ := h
    exact .submission hsub (.of_eq hst)
  | spawn workerId config =>
    simp only [Fleet.step] at h
    split at h
    · cases h
    · rename_i hany
      cases h
      refine .spawn fun w hw ha he => hany (List.any_eq_true.mpr ⟨w, hw, ?_⟩)
      simp [ha, he]
  | worker i act =>
    simp only [Fleet.step, Option.bind_eq_some_iff, Option.map_eq_some_iff] at h
    obtain ⟨w, hw, ⟨db, ph, e⟩, hst, rfl⟩ := h
    exact .worker hw (.of_eq hst)
  | heartbeat k now =>
    simp only [Fleet.step, Option.bind_eq_some_iff, Option.map_eq_some_iff] at h
    obtain ⟨hb, hhb, w, hw, ⟨db, st, e⟩, hst, rfl⟩ := h
    exact .heartbeat hhb hw (.of_eq hst)

/-! ## Taking a step -/

theorem Fleet.step_submission {s : Fleet} {i : Nat} {sub : Submission}
    (hsub : s.submissions[i]? = some sub) (act : SubmissionAction) {db : Db}
    {ph : SubmissionPhase} {e : Event} (h : submissionStep s.db i sub act = some (db, ph, e)) :
    ∃ s', s.step (.submission i act) = some s' ∧ s'.db = db ∧
      s'.submissions[i]? = some { sub with phase := ph } ∧ s'.workers = s.workers ∧
      s'.heartbeats = s.heartbeats := by
  refine ⟨{ s with db := db
                   submissions := s.submissions.set i { sub with phase := ph }
                   log := e :: s.log }, ?_, rfl, ?_, rfl, rfl⟩
  · simp only [Fleet.step, hsub, Option.bind_some, h, Option.map_some]
  · obtain ⟨hlt, -⟩ := List.getElem?_eq_some_iff.mp hsub
    exact List.getElem?_set_self hlt

theorem Fleet.step_worker {s : Fleet} {i : Nat} {w : Worker} (hw : s.workers[i]? = some w)
    (act : WorkerAction) {db : Db} {ph : WorkerPhase} {e : Event}
    (h : workerStep s.db s.heartbeats i w act = some (db, ph, e)) :
    ∃ s', s.step (.worker i act) = some s' ∧ s'.db = db ∧
      s'.workers[i]? = some { w with phase := ph } ∧
      s'.heartbeats = s.heartbeats ++ e.thread := by
  refine ⟨{ s with db := db
                   workers := s.workers.set i { w with phase := ph }
                   heartbeats := s.heartbeats ++ e.thread
                   log := e :: s.log }, ?_, rfl, ?_, rfl⟩
  · simp only [Fleet.step, hw, Option.bind_some, h, Option.map_some]
  · obtain ⟨hlt, -⟩ := List.getElem?_eq_some_iff.mp hw
    exact List.getElem?_set_self hlt

end BattleCloud
