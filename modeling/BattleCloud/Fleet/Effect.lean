import BattleCloud.Fleet.Branch

/-!
# What a step does to the tables

`Effect s e db` lists everything a step that logs `e` can leave in the tables, guards included,
and `Refused s err` why a statement can have been refused. `step_spec` derives both from the
branches of a step once; every invariant of the tables and of the history is proved by cases on
`Effect`, without the step function.
-/

namespace BattleCloud

/-- Events of steps that leave the tables alone. -/
def Event.readOnly : Event → Bool
  | .quiet | .missed .. | .served .. | .joined .. | .invoked .. | .returned .. | .replayNotFound ..
  | .rejected .. => true
  | _ => false

/-- The tables after a step of `s`, by the event it logs. -/
inductive Effect (s : Fleet) : Event → Db → Prop
  | readOnly {e : Event} (he : e.readOnly = true) : Effect s e s.db
  | present (i : Nat) : Effect s (.upserted i) s.db
  | upserted (i : Nat) {r : ReplayRow} (hr : ∀ r' ∈ s.db.replays, r'.id ≠ r.id) :
      Effect s (.upserted i) { s.db with replays := s.db.replays ++ [r] }
  | created {i : Nat} {sub : Submission} {turns : Nat} (newId : Uuid) (now : Timestamptz)
      (hsub : s.submissions[i]? = some sub) (hph : sub.phase = .enqueueing turns)
      (hl : NoLiveJob s.db sub.columns) :
      Effect s (.created i newId sub.columns)
        { s.db with jobs := s.db.jobs ++ [JobRow.fresh newId sub.columns sub.request.profile turns
          (estimateDuration turns sub.request.profile) now] }
  | claimed {i : Nat} {w : Worker} {j : JobRow} {locked : List Uuid} (now : Timestamptz)
      (hw : s.workers[i]? = some w) (ha : w.alive = true) (hj : j ∈ s.db.jobs)
      (hc : j.claimable w.build locked = true) :
      Effect s (.claimed i j.id)
        ((JobUpdate.claim j.id w.workerId w.config.leaseSeconds now).apply s.db)
  | renewed {hb : Heartbeat} {w : Worker} (now : Timestamptz)
      (hw : s.workers[hb.worker]? = some w) (ha : w.alive = true) :
      Effect s (.renewed hb.worker hb.job)
        ((JobUpdate.heartbeat hb.job w.workerId w.config.leaseSeconds now).apply s.db)
  | failed {i : Nat} {w : Worker} {job : Uuid} {f : EngineFailure} (now : Timestamptz)
      (hw : s.workers[i]? = some w) (hph : w.phase = .failing job f)
      (ho : ∃ j ∈ s.db.jobs, j.ownedBy job w.workerId = true) :
      Effect s (.failed i job)
        ((JobUpdate.fail job w.workerId (retryableKinds.contains f.kind) w.config.maxAttempts
          f.kind f.errorDetail now).apply s.db)
  | reclaimed {i : Nat} {w : Worker} (now : Timestamptz) (hw : s.workers[i]? = some w) :
      Effect s (.reclaimed ((s.db.jobs.filter (·.expired now)).map JobRow.id))
        ((JobUpdate.reclaim w.config.maxAttempts now).apply s.db)
  | completed {i : Nat} {w : Worker} {job : ClaimedJob} {run : AnalysisRun} {newId : Uuid}
      {now : Timestamptz} {p : AnalysisRow} (hw : s.workers[i]? = some w)
      (hph : w.phase = .completing job run newId now)
      (hp : proposedAnalysis job run newId now = .ok p)
      (ho : ∃ j ∈ s.db.jobs, j.ownedBy job.id w.workerId = true) :
      Effect s (.completed i job.id (written s.db p))
        ((JobUpdate.complete job.id w.workerId (written s.db p).id now).apply
          (s.db.putAnalysis (written s.db p)))

/-- The `CHECK`s tried on a proposed row. -/
def rowChecks : List Constraint := .jobsIdentityChecks :: .jobsEstimatesCheck :: analysisChecks

/-- Why a statement of a step from `s` is refused. -/
inductive Refused (s : Fleet) : DbError → Prop
  | badValue : Refused s .badValue
  | check {c : Constraint} (hc : c ∈ rowChecks) : Refused s (.violates c)
  | upsert {r : ReplayRow} {e : DbError}
      (he : ({ s.db with replays := s.db.replays ++ [r] } : Db).commit = .error e) : Refused s e
  | create {i : Nat} {sub : Submission} {turns : Nat} {newId : Uuid} {now : Timestamptz}
      {e : DbError} (hsub : s.submissions[i]? = some sub) (hph : sub.phase = .enqueueing turns)
      (hl : NoLiveJob s.db sub.columns)
      (he : ({ s.db with jobs := s.db.jobs ++ [JobRow.fresh newId sub.columns sub.request.profile
        turns (estimateDuration turns sub.request.profile) now] } : Db).commit = .error e) :
      Refused s e
  | update {u : JobUpdate} {e : DbError}
      (hu : ∀ j ∈ s.db.jobs, u.sel j = true → j.Next (u.set j))
      (he : (u.apply s.db).commit = .error e) : Refused s e
  | insert {i : Nat} {w : Worker} {job : ClaimedJob} {run : AnalysisRun} {p : AnalysisRow}
      {e : DbError} (hw : s.workers[i]? = some w)
      (hph : w.phase = .reporting job run ∨ ∃ newId now, w.phase = .completing job run newId now)
      (hp : p.columns = job.columns)
      (he : (s.db.putAnalysis (written s.db p)).commit = .error e) : Refused s e
  | complete {i : Nat} {w : Worker} {job : ClaimedJob} {run : AnalysisRun} {newId : Uuid}
      {now : Timestamptz} {p : AnalysisRow} {u : JobUpdate} {e : DbError}
      (hw : s.workers[i]? = some w) (hph : w.phase = .completing job run newId now)
      (hp : p.columns = job.columns)
      (hu : ∀ j ∈ s.db.jobs, u.sel j = true → j.Next (u.set j))
      (he : (u.apply (s.db.putAnalysis (written s.db p))).commit = .error e) : Refused s e

/-- What was the case when an event that reads the tables was logged. -/
def Recorded (s : Fleet) : Event → Prop
  | .missed i c =>
    (∃ sub, s.submissions[i]? = some sub ∧ sub.columns = c) ∧ ∀ a ∈ s.db.analyses, a.columns ≠ c
  | .served i r =>
    ∃ sub, s.submissions[i]? = some sub ∧ analysisByIdentity s.db sub.identity = .ok (some r)
  | .invoked i j c =>
    ∃ w job, s.workers[i]? = some w ∧ w.phase = .loading job ∧ job.id = j ∧ job.columns = c
  | .returned i call =>
    ∃ w job payload h, s.workers[i]? = some w ∧ w.phase = .analyzing job payload h ∧
      call.payload = payload ∧ call.kwargs = analyzeKwargs job.identity
  | .replayNotFound i j =>
    ∃ w job, s.workers[i]? = some w ∧ w.phase = .loading job ∧ job.id = j ∧
      loadReplay s.db job.replayId = none
  | .rejected err => Refused s err
  | _ => True

/-- Everything later proofs use of a step, about the tables. -/
structure StepSpec (s : Fleet) (e : Event) (db : Db) : Prop where
  effect : Effect s e db
  recorded : Recorded s e
  valid : s.db.Valid → db.Valid

variable {s s' : Fleet}

/-- A step that leaves the tables alone. -/
theorem StepSpec.of_readOnly {e : Event} (he : e.readOnly = true) (hr : Recorded s e) :
    StepSpec s e s.db :=
  ⟨.readOnly he, hr, id⟩

theorem StepSpec.of_refused {err : DbError} (h : Refused s err) :
    StepSpec s (.rejected err) s.db :=
  .of_readOnly rfl h

theorem StepSpec.of_effect {e : Event} {db : Db} (h : Effect s e db) (hr : Recorded s e)
    (hv : db.Valid) : StepSpec s e db :=
  ⟨h, hr, fun _ => hv⟩

theorem SubmissionStep.spec {i : Nat} {sub : Submission} {a : SubmissionAction} {db : Db}
    {ph : SubmissionPhase} {e : Event} (hsub : s.submissions[i]? = some sub)
    (h : SubmissionStep s.db i sub a db ph e) : StepSpec s e db := by
  cases h with
  | hit hph hok => exact .of_readOnly rfl ⟨sub, hsub, hok⟩
  | miss hph hok => exact .of_readOnly rfl ⟨⟨sub, hsub, rfl⟩, analysisByIdentity_none hok⟩
  | lookupRefused hph herr =>
    rw [analysisByIdentity_bad _ _ _ herr]
    exact .of_refused .badValue
  | upserted hph hok =>
    rcases upsertReplay_ok hok with ⟨rfl, -⟩ | ⟨r, -, hr, rfl, hv⟩
    · exact ⟨.present i, trivial, id⟩
    · exact .of_effect (.upserted i hr) trivial hv
  | upsertRefused hph herr =>
    rcases upsertReplay_error herr with rfl | ⟨r, he⟩
    · exact .of_refused .badValue
    · exact .of_refused (.upsert he)
  | @created turns newId now db' job hph hok =>
    obtain ⟨-, ⟨hf, -⟩ | ⟨-, hl, hj, rfl, hv⟩⟩ := enqueue_ok hok
    · cases hf
    · have heff := Effect.created (s := s) newId now hsub hph hl
      subst hj
      exact .of_effect heff trivial hv
  | joined hph hok _ =>
    obtain ⟨-, ⟨-, rfl, -⟩ | ⟨hf, -⟩⟩ := enqueue_ok hok
    · exact .of_readOnly rfl trivial
    · cases hf
  | joinedRunning hph hok _ =>
    obtain ⟨-, ⟨-, rfl, -⟩ | ⟨hf, -⟩⟩ := enqueue_ok hok
    · exact .of_readOnly rfl trivial
    · cases hf
  | enqueueRefused hph herr =>
    rcases enqueue_error herr with rfl | rfl | rfl | ⟨hl, hc⟩
    · exact .of_refused .badValue
    · exact .of_refused (.check (by decide))
    · exact .of_refused (.check (by decide))
    · exact .of_refused (.create hsub hph hl hc)
  | _ => exact .of_readOnly rfl trivial

/-- The ids `reclaim_expired` returns are those of the expired rows. -/
theorem returning_reclaim_ids (m : Nat) (now : Timestamptz) (jobs : List JobRow) :
    (Table.returning (JobUpdate.reclaim m now).sel (JobUpdate.reclaim m now).set jobs).map
      JobRow.id = (jobs.filter (·.expired now)).map JobRow.id := by
  unfold Table.returning
  rw [List.map_map]
  exact List.map_congr_left fun j _ => JobUpdate.set_id _ j

theorem WorkerStep.spec (hv : s.db.Valid) {i : Nat} {w : Worker} {a : WorkerAction} {db : Db}
    {ph : WorkerPhase} {e : Event} (hw : s.workers[i]? = some w)
    (h : WorkerStep s.db s.heartbeats i w a db ph e) : StepSpec s e db := by
  cases h with
  | reclaimed hph hok =>
    obtain ⟨rfl, hv', rfl⟩ := JobUpdate.run_ok hok
    rw [returning_reclaim_ids]
    exact .of_effect (.reclaimed _ hw) trivial hv'
  | reclaimRefused hph herr =>
    exact .of_refused (.update (JobUpdate.next_of_sel rfl) (JobUpdate.run_error herr))
  | @claimed locked now db' job hph hok =>
    have ha : w.alive = true := by simp [Worker.alive, hph]
    rcases claimJob_ok (hv .jobsPkey) hok with ⟨-, hn, -⟩ | ⟨j, hj, hc, hr, rfl, hv'⟩
    · cases hn
    · cases hr
      have heff := Effect.claimed now hw ha hj hc
      exact .of_effect heff trivial hv'
  | claimRefused hph herr =>
    obtain ⟨j, hj, hc, he⟩ := claimJob_error herr
    exact .of_refused (.update (hv.next_of_claim hj (JobRow.claimable_iff.mp hc).1 _ _ _) he)
  | invoked hph hok => exact .of_readOnly rfl ⟨w, _, hw, hph, rfl, rfl⟩
  | notFound hph hok => exact .of_readOnly rfl ⟨w, _, hw, hph, rfl, hok⟩
  | returned run hph => exact .of_readOnly rfl ⟨w, _, _, _, hw, hph, rfl, rfl⟩
  | discarded run hph => exact .of_readOnly rfl ⟨w, _, _, _, hw, hph, rfl, rfl⟩
  | failed hph hok hown =>
    obtain ⟨u, rfl, rfl, hv', -⟩ := reportFailure_ok hok
    exact .of_effect (.failed _ hw hph hown) trivial hv'
  | failRefused hph herr =>
    rcases reportFailure_error herr with rfl | he
    · exact .of_refused .badValue
    · exact .of_refused (.update (JobUpdate.next_of_sel rfl) he)
  | insertRefused hph herr =>
    rcases insertAnalysis_error herr with rfl | ⟨c, hc, rfl⟩ | ⟨p, hp, he⟩
    · exact .of_refused .badValue
    · exact .of_refused (.check (List.mem_cons_of_mem _ (List.mem_cons_of_mem _ hc)))
    · exact .of_refused (.insert hw (Or.inl hph) (proposedAnalysis_ok hp).2.1 he)
  | completed hph hok =>
    obtain ⟨p, hp, ⟨hn, -⟩ | ⟨db', hr, ho, rfl, hv'⟩⟩ := reportSuccess_ok hok
    · cases hn
    · cases hr
      exact .of_effect (.completed hw hph hp ho) trivial hv'
  | completeRefused hph herr =>
    rcases reportSuccess_error herr with rfl | ⟨c, hc, rfl⟩ | ⟨p, hp, he | he⟩
    · exact .of_refused .badValue
    · exact .of_refused (.check (List.mem_cons_of_mem _ (List.mem_cons_of_mem _ hc)))
    · exact .of_refused (.insert hw (Or.inr ⟨_, _, hph⟩) (proposedAnalysis_ok hp).2.1 he)
    · exact .of_refused
        (.complete hw hph (proposedAnalysis_ok hp).2.1 (JobUpdate.next_of_sel rfl) he)
  | _ => exact .of_readOnly rfl trivial

theorem HeartbeatStep.spec {hb : Heartbeat} {w : Worker} {now : Timestamptz} {db : Db}
    {st : HeartbeatState} {e : Event} (hw : s.workers[hb.worker]? = some w)
    (h : HeartbeatStep s.db hb w now db st e) : StepSpec s e db := by
  cases h with
  | renewed ha hok =>
    obtain ⟨rfl, hv, -⟩ := JobUpdate.run_ok hok
    exact .of_effect (.renewed now hw ha) trivial hv
  | lost ha => exact .of_readOnly rfl trivial
  | refused ha herr =>
    exact .of_refused (.update (JobUpdate.next_of_sel rfl) (JobUpdate.run_error herr))

/-- **What a step does to the tables and to the history.** -/
theorem step_spec (hv : s.db.Valid) {a : Action} (h : s.step a = some s') :
    ∃ e, s'.log = e :: s.log ∧ StepSpec s e s'.db := by
  cases FleetStep.of_eq h with
  | submit request build => exact ⟨.quiet, rfl, .of_readOnly rfl trivial⟩
  | submission hsub hst => exact ⟨_, rfl, hst.spec hsub⟩
  | spawn hfree => exact ⟨.quiet, rfl, .of_readOnly rfl trivial⟩
  | worker hw hst => exact ⟨_, rfl, hst.spec hv hw⟩
  | heartbeat hhb hw hst => exact ⟨_, rfl, hst.spec hw⟩

/-- Every constraint holds in every reachable state. -/
theorem valid_of_reachable (h : s.Reachable) : s.db.Valid := by
  refine StepSystem.Reach.invariant (I := fun s => s.db.Valid) Db.valid_empty ?_ h
  intro s a s' hv _ hst
  obtain ⟨e, -, hs⟩ := step_spec hv hst
  exact hs.valid hv

end BattleCloud
