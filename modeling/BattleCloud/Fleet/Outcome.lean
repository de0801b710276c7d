import BattleCloud.Fleet.Lease
import BattleCloud.Fleet.Provenance
import BattleCloud.Fleet.Resubmit
import BattleCloud.Worker.Python

/-!
# Outcomes of the engine that reach the job

What becomes of a claimed job when the engine answers, in any reachable state of the fleet and for
any Python document or exception text. `run_once` catches `EngineFailure` around the engine call
only: a report that is refused is raised out of it and out of the loop.

Two facts about the fleet carry the result. The identity of a job went through the same bindings
when it was enqueued (`JobsBound`), so no column of it is refused; and a heartbeat that has found
its lease lost stays right (`BeatsOk`), so a discarded run leaves no claim behind. What is left to
refuse is in the outcome itself: `outcome_recorded_iff`.
-/

namespace BattleCloud

/-- The heartbeat thread has set `lost`. -/
def Fleet.Lost (s : Fleet) (heartbeat : Nat) : Prop :=
  ∃ hb, s.heartbeats[heartbeat]? = some hb ∧ hb.state = .lost

/-- The job is not left running under a claim of this id: it is queued again, failed, succeeded
with an analysis of its identity, or running for someone else. -/
def JobRow.Settled (j : JobRow) (workerId : String) (db : Db) : Prop :=
  match j.status with
  | .queued | .failed => True
  | .succeeded => ∃ a ∈ db.analyses, j.analysisId = some a.id ∧ a.columns = j.columns
  | .running => ∃ v, j.claimedBy = some v ∧ v ≠ workerId
  | .cancelled => False

variable {s s' : Fleet}

/-! ## The identity of a job -/

/-- The values of the identity are ones their columns take. -/
def AnalysisIdentity.Bound (id : AnalysisIdentity) : Prop :=
  IdentityColumns.ofBindings (identityColumns.zip (identityValues id)) = .ok id.columns

theorem bound_of_enqueue {db db' : Db} {id : AnalysisIdentity} {profile : Profile} {t m : Int}
    {newId : Uuid} {now : Timestamptz} {j : JobRow} {created : Bool}
    (h : enqueue db id profile t m newId now = .ok (db', j, created)) : id.Bound := by
  unfold enqueue proposedJob at h
  obtain ⟨_, hp, -⟩ := except_bind_ok.mp h
  obtain ⟨c, hc, -⟩ := except_bind_ok.mp hp
  unfold AnalysisIdentity.Bound
  rw [hc, insertBindings_ok hc]

theorem SubmissionStep.bound {db db' : Db} {k i : Nat} {sub : Submission}
    {act : SubmissionAction} {ph : SubmissionPhase} {job : Uuid} {c : IdentityColumns}
    (h : SubmissionStep db k sub act db' ph (.created i job c)) : sub.identity.Bound := by
  cases h with
  | created hph hok => exact bound_of_enqueue hok

/-- The named parameters of the worker bind what the positional ones of the API bound. -/
theorem ofBindings_of_bound {job : ClaimedJob} (h : job.identity.Bound) :
    IdentityColumns.ofBindings (insertBindings job) = .ok job.columns := by
  have hlookup : ∀ c, (insertBindings job).lookup c =
      (identityColumns.zip (identityValues job.identity)).lookup c := by
    intro c
    cases c <;> rfl
  have htext : ∀ c, textOf (insertBindings job) c =
      textOf (identityColumns.zip (identityValues job.identity)) c := by
    intro c
    unfold textOf
    rw [hlookup]
  have hint : ∀ c, int4Of (insertBindings job) c =
      int4Of (identityColumns.zip (identityValues job.identity)) c := by
    intro c
    unfold int4Of
    rw [hlookup]
  unfold AnalysisIdentity.Bound at h
  rw [ClaimedJob.columns, ← h]
  unfold IdentityColumns.ofBindings perspectiveOf
  simp only [htext, hint]

/-- The identity of every job was bound. -/
def JobsBound (s : Fleet) : Prop :=
  ∀ j ∈ s.db.jobs, ∃ id : AnalysisIdentity, id.columns = j.columns ∧ id.Bound

theorem JobsBound.step (hv : s.db.Valid) (hb : JobsBound s) {a : Action}
    (h : s.step a = some s') : JobsBound s' := by
  obtain ⟨e, hlog, hs⟩ := step_spec hv h
  intro j' hj'
  by_cases hn : ∀ j ∈ s.db.jobs, j.id ≠ j'.id
  · obtain ⟨i, sub, _, rfl, hsub, -, -, hc⟩ := hs.effect.new_job hj' hn
    obtain ⟨k, act, sub', ph, -, hsub', hst⟩ := step_ofSubmission h hlog rfl
    obtain ⟨rfl, -⟩ := hst.of_created
    obtain rfl : sub' = sub := Option.some.inj (hsub'.symm.trans hsub)
    exact ⟨sub'.identity, hc.symm, hst.bound⟩
  · obtain ⟨j, hj, hid⟩ : ∃ j ∈ s.db.jobs, j.id = j'.id := by simpa using hn
    obtain ⟨k, hk, hkid, hkc⟩ := hs.effect.jobs j hj
    rw [← (hs.valid hv).job_eq hk hj' (hkid.trans hid), hkc]
    exact hb j hj

theorem jobsBound_of_reachable (h : s.Reachable) : JobsBound s := by
  refine StepSystem.Reach.invariant_of (fun j hj => (List.not_mem_nil hj).elim) ?_ h
  intro s a s' hr hb _ hst
  exact hb.step (valid_of_reachable hr) hst

/-- A claimed job's identity is bound again without a refusal. -/
theorem Holds.bound (h : s.Reachable) {i : Nat} {c : WorkerConfig} {job : ClaimedJob}
    (hh : Holds s.db s.log i c job) :
    IdentityColumns.ofBindings (insertBindings job) = .ok job.columns ∧ job.columns.Checks := by
  obtain ⟨j, hj, -, hc⟩ := hh.row
  obtain ⟨id, hid, hb⟩ := jobsBound_of_reachable h j hj
  have hcols : id.columns = job.identity.columns := hid.trans hc
  have hsame : id = job.identity := by
    cases id
    simp only [AnalysisIdentity.columns, IdentityColumns.mk.injEq] at hcols
    simp only [ClaimedJob.identity, AnalysisIdentity.mk.injEq]
    exact hcols
  refine ⟨ofBindings_of_bound (hsame ▸ hb), ?_⟩
  rw [← hc]
  exact valid_of_reachable h .jobsIdentityChecks j hj

/-! ## The heartbeat of a running analysis -/

/-- Each running analysis has a heartbeat of its own, and one that has set `lost` was right. -/
def BeatsOk (s : Fleet) : Prop :=
  ∀ (i : Nat) (w : Worker) (job : ClaimedJob) (payload : EnginePayload) (heartbeat : Nat),
    s.workers[i]? = some w → w.phase = .analyzing job payload heartbeat →
    ∃ state, s.heartbeats[heartbeat]? = some ⟨i, job.id, state⟩ ∧
      (state = .lost → lease job.id s.log ≠ some (.held i))

theorem start_not_analyzing {m : Mode} {job : ClaimedJob} {payload : EnginePayload} {n : Nat} :
    Worker.start m ≠ .analyzing job payload n := by
  cases m <;> simp [Worker.start]

theorem afterEmpty_not_analyzing {w : Worker} {job : ClaimedJob} {payload : EnginePayload}
    {n : Nat} : w.afterEmpty ≠ .analyzing job payload n := by
  unfold Worker.afterEmpty
  cases w.config.mode <;> simp

/-- An analysis begins with a heartbeat thread. -/
theorem WorkerStep.of_analyzing {db db' : Db} {hbs : List Heartbeat} {i : Nat} {w : Worker}
    {act : WorkerAction} {ph : WorkerPhase} {e : Event} (h : WorkerStep db hbs i w act db' ph e)
    {job : ClaimedJob} {payload : EnginePayload} {n : Nat} (hph : ph = .analyzing job payload n) :
    n = hbs.length ∧ e = .invoked i job.id job.columns := by
  cases h with
  | invoked _ _ =>
    cases hph
    exact ⟨rfl, rfl⟩
  | empty _ _ => exact absurd hph afterEmpty_not_analyzing
  | discarded _ _ => exact absurd hph start_not_analyzing
  | failed _ _ _ => exact absurd hph start_not_analyzing
  | failedStale _ => exact absurd hph start_not_analyzing
  | completed _ _ => exact absurd hph start_not_analyzing
  | rolledBack _ _ => exact absurd hph start_not_analyzing
  | _ => cases hph

theorem WorkerStep.of_claimed {db db' : Db} {hbs : List Heartbeat} {k i : Nat} {w : Worker}
    {act : WorkerAction} {ph : WorkerPhase} {job : Uuid}
    (h : WorkerStep db hbs k w act db' ph (.claimed i job)) : k = i ∧ w.phase = .claiming := by
  cases h with
  | claimed hph hok => exact ⟨rfl, hph⟩

/-- A worker in an analysis does not claim. -/
theorem not_claimed_of_analyzing {a : Action} (h : s.step a = some s') {i : Nat} {w : Worker}
    (hw : s.workers[i]? = some w) {job : ClaimedJob} {payload : EnginePayload} {n : Nat}
    (hph : w.phase = .analyzing job payload n) {e : Event} (hlog : s'.log = e :: s.log)
    (id : Uuid) : e ≠ .claimed i id := by
  rintro rfl
  obtain ⟨k, act, v, ph, rfl, hv, hst⟩ := step_ofWorker h hlog rfl
  obtain ⟨rfl, hclaiming⟩ := hst.of_claimed
  rw [Option.some.inj (hw.symm.trans hv), hclaiming] at hph
  cases hph

/-- A renewal that finds the lease lost found no row of its worker. -/
theorem heartbeatStep_lost {db db' : Db} {hb : Heartbeat} {w : Worker} {now : Timestamptz}
    {e : Event} (h : heartbeatStep db hb w now = some (db', .lost, e)) :
    ∀ j ∈ db.jobs, j.ownedBy hb.job w.workerId = false := by
  unfold heartbeatStep at h
  split at h
  · split at h
    · rename_i rows hok
      cases hrows : rows.isEmpty with
      | true =>
        obtain ⟨-, -, hret⟩ := JobUpdate.run_ok hok
        rw [hret, List.isEmpty_iff, Table.returning_eq_nil] at hrows
        exact hrows
      | false =>
        rw [hrows] at h
        cases h
    · cases h
  · cases h

/-- **One heartbeat thread moved, or none did.** -/
theorem step_heartbeats {a : Action} (h : s.step a = some s') {n : Nat} {hb : Heartbeat}
    (hn : s.heartbeats[n]? = some hb) :
    s'.heartbeats[n]? = some hb ∨
    ∃ w now db state e, s.workers[hb.worker]? = some w ∧
      heartbeatStep s.db hb w now = some (db, state, e) ∧
      s'.heartbeats[n]? = some { hb with state := state } := by
  cases a with
  | submit request build =>
    cases h
    exact Or.inl hn
  | submission k act =>
    simp only [Fleet.step, Option.bind_eq_some_iff, Option.map_eq_some_iff] at h
    obtain ⟨_, _, _, _, rfl⟩ := h
    exact Or.inl hn
  | spawn workerId config =>
    simp only [Fleet.step] at h
    split at h
    · cases h
    · cases h
      exact Or.inl hn
  | worker k act =>
    simp only [Fleet.step, Option.bind_eq_some_iff, Option.map_eq_some_iff] at h
    obtain ⟨_, _, r, _, rfl⟩ := h
    obtain ⟨hlt, -⟩ := List.getElem?_eq_some_iff.mp hn
    exact Or.inl ((List.getElem?_append_left hlt).trans hn)
  | heartbeat k now =>
    simp only [Fleet.step, Option.bind_eq_some_iff, Option.map_eq_some_iff] at h
    obtain ⟨beat, hbeat, w, hw, ⟨db, state, e⟩, hst, rfl⟩ := h
    rcases getElem?_set_cases (k := k) (y := { beat with state := state }) hn with hn' | ⟨rfl, hn'⟩
    · exact Or.inl hn'
    · obtain rfl : beat = hb := Option.some.inj (hbeat.symm.trans hn)
      exact Or.inr ⟨w, now, db, state, e, hw, hst, hn'⟩

theorem BeatsOk.step (hv : s.db.Valid) (hl : Leased s) (hb : BeatsOk s) {a : Action}
    (h : s.step a = some s') : BeatsOk s' := by
  obtain ⟨e, hlog, -⟩ := step_spec hv h
  intro i w' job payload n hw' hph
  rcases step_workers h hw' with
    hw | ⟨_, c, -, -, rfl, -⟩ | ⟨w, act, ph, e', rfl, hw, hst, rfl, hlog'⟩
  · obtain ⟨state, hn, hlost⟩ := hb i w' job payload n hw hph
    have hback : lease job.id s'.log = some (.held i) → lease job.id s.log = some (.held i) := by
      intro hheld
      rw [hlog] at hheld
      rcases held_cons hheld with rfl | ⟨hheld, -⟩
      · exact absurd rfl (not_claimed_of_analyzing h hw hph hlog job.id)
      · exact hheld
    rcases step_heartbeats h hn with hn' | ⟨v, now, db, st, e₁, hv', hst, hn'⟩
    · exact ⟨state, hn', fun hs hheld => hlost hs (hback hheld)⟩
    · -- this thread moved: what it found now is what counts
      obtain rfl : v = w' := Option.some.inj (hv'.symm.trans hw)
      refine ⟨st, hn', ?_⟩
      rintro rfl hheld
      obtain ⟨j, hj, ho⟩ := hl.owned_of_held hw (hback hheld)
      rw [heartbeatStep_lost hst j hj] at ho
      cases ho
  · exact absurd hph start_not_analyzing
  · obtain ⟨rfl, rfl⟩ := hst.of_analyzing hph
    simp only [Fleet.step, hw, Option.bind_some, Option.map_eq_some_iff] at h
    obtain ⟨r, -, rfl⟩ := h
    refine ⟨.beating, ?_, fun h => by cases h⟩
    show (s.heartbeats ++ r.2.2.thread)[s.heartbeats.length]? = _
    rw [(List.cons.inj hlog').1, List.getElem?_append_right (Nat.le_refl _), Nat.sub_self]
    rfl

theorem beatsOk_of_reachable (h : s.Reachable) : BeatsOk s := by
  have hinit : BeatsOk Fleet.init := by
    intro i w job payload n hw
    simp [Fleet.init] at hw
  refine StepSystem.Reach.invariant_of hinit ?_ h
  intro s a s' hr hb _ hst
  exact hb.step (valid_of_reachable hr) (leased_of_reachable hr) hst

/-- **A run is discarded only when the claim is gone.** -/
theorem not_owned_of_lost (h : s.Reachable) {i : Nat} {w : Worker} {job : ClaimedJob}
    {payload : EnginePayload} {n : Nat} (hw : s.workers[i]? = some w)
    (hph : w.phase = .analyzing job payload n) (hlost : s.Lost n) :
    ∀ j ∈ s.db.jobs, j.ownedBy job.id w.workerId = false := by
  obtain ⟨state, hn, hheld⟩ := beatsOk_of_reachable h i w job payload n hw hph
  obtain ⟨hb, hb', hstate⟩ := hlost
  obtain rfl : hb = ⟨i, job.id, state⟩ := Option.some.inj (hb'.symm.trans hn)
  have hok := (processesOk_of_reachable h).workers i w hw
  simp only [WorkerOk, hph] at hok
  have ha : w.alive = true := by simp [Worker.alive, hph]
  intro j hj
  by_contra ho
  exact hheld hstate ((leased_of_reachable h).held_of_owned hw ha hok.1.claimed hj
    (Bool.eq_true_of_not_eq_false ho))

/-! ## The job afterwards -/

/-- A row its worker does not own is settled. -/
theorem settled_of_not_owned (h : s.Reachable) {j : JobRow} (hj : j ∈ s.db.jobs) {workerId : String}
    (hn : j.ownedBy j.id workerId = false) : j.Settled workerId s.db := by
  obtain ⟨l, -, hrow⟩ := (leased_of_reachable h).row j hj
  unfold JobRow.Settled
  cases l with
  | free => rcases hrow with hs | hs <;> rw [hs] <;> trivial
  | held q =>
    obtain ⟨hs, v, -, hc⟩ := hrow
    rw [hs]
    refine ⟨v.workerId, hc, fun he => ?_⟩
    rw [JobRow.ownedBy_iff.mpr ⟨rfl, hs, he ▸ hc⟩] at hn
    cases hn
  | done =>
    have hs : j.status = .succeeded := hrow
    rw [hs]
    exact (provenance_of_reachable h).2.1.job j hj hs

/-- `fail_job` leaves the job settled, whoever has it. -/
theorem settled_fail (h : s.Reachable) {j : JobRow} (hj : j ∈ s.db.jobs) (workerId : String)
    (r : Bool) (m : Nat) (k : ErrorKind) (d : String) (now : Timestamptz) :
    ∃ j' ∈ ((JobUpdate.fail j.id workerId r m k d now).apply s.db).jobs, j'.id = j.id ∧
      j'.Settled workerId ((JobUpdate.fail j.id workerId r m k d now).apply s.db) := by
  cases ho : j.ownedBy j.id workerId with
  | true =>
    refine ⟨j.fail r m k d now, Table.mem_updateWhere.mpr ⟨j, hj, Or.inl ⟨ho, rfl⟩⟩, rfl, ?_⟩
    unfold JobRow.Settled
    rcases j.fail_status r m k d now with hs | hs <;> rw [hs] <;> trivial
  | false =>
    exact ⟨j, Table.mem_updateWhere.mpr ⟨j, hj, Or.inr ⟨ho, rfl⟩⟩, rfl,
      settled_of_not_owned h hj ho⟩

/-- A completed job points at the row that was written for its identity. -/
theorem settled_complete {j : JobRow} {p : AnalysisRow} (hc : p.columns = j.columns)
    {workerId : String} (ho : j.ownedBy j.id workerId = true) (hj : j ∈ s.db.jobs)
    (now : Timestamptz) :
    ∃ j' ∈ ((JobUpdate.complete j.id workerId (written s.db p).id now).apply
        (s.db.putAnalysis (written s.db p))).jobs, j'.id = j.id ∧
      j'.Settled workerId ((JobUpdate.complete j.id workerId (written s.db p).id now).apply
        (s.db.putAnalysis (written s.db p))) := by
  refine ⟨j.complete (written s.db p).id now,
    Table.mem_updateWhere.mpr ⟨j, hj, Or.inl ⟨ho, rfl⟩⟩, rfl, ?_⟩
  exact ⟨written s.db p, Table.mem_put_self, rfl, (written_columns s.db p).trans hc⟩

/-! ## The outcome -/

/-- What returns normally was recordable, or discarded. -/
theorem recordable_of_conclude {db db' : Db} {workerId : String} {m : Nat} {job : ClaimedJob}
    {lostSeen : Bool} {outcome : Except PyFailure PyRun} {newId : Uuid} {now : Timestamptz}
    (hb : IdentityColumns.ofBindings (insertBindings job) = .ok job.columns)
    (hc : job.columns.Checks)
    (h : conclude db workerId m job lostSeen outcome newId now = .ok db') :
    (lostSeen = true ∧ ∃ run, outcome = .ok run) ∨ Recordable outcome := by
  unfold conclude at h
  cases outcome with
  | error failure =>
    obtain ⟨r, hr⟩ := exists_map_ok.mp ⟨db', h⟩
    obtain ⟨d, hd, -⟩ := except_bind_ok.mp hr
    exact Or.inr (PyStr.param_ok_iff.mp ⟨d, hd⟩)
  | ok run =>
    cases lostSeen with
    | true => exact Or.inl ⟨rfl, run, rfl⟩
    | false =>
      obtain ⟨r, hr⟩ := exists_map_ok.mp ⟨db', h⟩
      obtain ⟨p, hp, hs⟩ := except_bind_ok.mp hr
      obtain ⟨u, hcheck, -⟩ := except_bind_ok.mp hs
      exact Or.inr ((PyRun.recordable_iff hb hc _ _).mp ⟨p, hp, hcheck⟩)

theorem bound_of_analyzing (hr : s.Reachable) {i : Nat} {w : Worker} {job : ClaimedJob}
    {payload : EnginePayload} {heartbeat : Nat} (hw : s.workers[i]? = some w)
    (hph : w.phase = .analyzing job payload heartbeat) :
    Holds s.db s.log i w.config job ∧
      IdentityColumns.ofBindings (insertBindings job) = .ok job.columns ∧ job.columns.Checks := by
  have hok := (processesOk_of_reachable hr).workers i w hw
  simp only [WorkerOk, hph] at hok
  exact ⟨hok.1, hok.1.bound hr⟩

/-- A claimed job is settled once its worker does not own it any more. -/
theorem settled_of_holds (hr : s.Reachable) {i : Nat} {c : WorkerConfig} {job : ClaimedJob}
    (hh : Holds s.db s.log i c job) {workerId : String}
    (hno : ∀ k ∈ s.db.jobs, k.ownedBy job.id workerId = false) :
    ∃ k ∈ s.db.jobs, k.id = job.id ∧ k.Settled workerId s.db := by
  obtain ⟨j, hj, hid, -⟩ := hh.row
  refine ⟨j, hj, hid, settled_of_not_owned hr hj ?_⟩
  rw [hid]
  exact hno j hj

theorem failure_recorded (hr : s.Reachable) {i : Nat} {c : WorkerConfig} {job : ClaimedJob}
    (hh : Holds s.db s.log i c job) (workerId : String) (maxAttempts : Nat) {failure : PyFailure}
    (h : failure.Recordable) (lostSeen : Bool) (newId : Uuid) (now : Timestamptz) :
    ∃ db', conclude s.db workerId maxAttempts job lostSeen (.error failure) newId now = .ok db' ∧
      ∃ j ∈ db'.jobs, j.id = job.id ∧ j.Settled workerId db' := by
  obtain ⟨hq, -⟩ := queue_of_reachable hr
  obtain ⟨j, hj, hid, -⟩ := hh.row
  obtain ⟨d, rows, hrep⟩ :=
    PyFailure.report_ok workerId now (valid_of_reachable hr) hq h job.id maxAttempts
  refine ⟨_, ?_, hid ▸ settled_fail hr hj workerId (retryableKinds.contains failure.kind)
    maxAttempts failure.kind d now⟩
  show (failure.report s.db workerId job.id maxAttempts now).map Prod.fst = _
  rw [hrep]
  rfl

theorem run_recorded (hr : s.Reachable) {i : Nat} {c : WorkerConfig} {job : ClaimedJob}
    (hh : Holds s.db s.log i c job) (workerId : String) (maxAttempts : Nat) {run : PyRun}
    (h : run.Recordable) {newId : Uuid} (hnew : ∀ a ∈ s.db.analyses, a.id ≠ newId)
    (now : Timestamptz) :
    ∃ db', conclude s.db workerId maxAttempts job false (.ok run) newId now = .ok db' ∧
      ∃ j ∈ db'.jobs, j.id = job.id ∧ j.Settled workerId db' := by
  have hv := valid_of_reachable hr
  obtain ⟨hq, -⟩ := queue_of_reachable hr
  obtain ⟨hb, hc⟩ := hh.bound hr
  obtain ⟨j, hj, hid, hcols⟩ := hh.row
  obtain ⟨p, hp, hcheck⟩ := (PyRun.recordable_iff hb hc newId now).mpr h
  obtain ⟨rfl, hpc⟩ := PyRun.proposed_ok hp
  have hrep : ∃ r ∈ s.db.replays, r.id = p.columns.replayId := by
    rw [hpc, ← hcols]
    exact hq.replay j hj
  have hrun : conclude s.db workerId maxAttempts job false (.ok run) p.id now =
      (storeAnalysis s.db workerId job.id now p).map fun r => (r.map Prod.fst).getD s.db := by
    rw [← PyRun.report_eq _ _ hp]
    rfl
  rcases storeAnalysis_ok workerId now hv hq hcheck hrep hnew job.id with
    ⟨hs, hno⟩ | ⟨hs, k, hk, ho⟩
  · exact ⟨s.db, by rw [hrun, hs]; rfl, settled_of_holds hr hh hno⟩
  · obtain rfl : k = j := hv.job_eq hk hj ((JobRow.ownedBy_iff.mp ho).1.trans hid.symm)
    refine ⟨_, by rw [hrun, hs]; rfl, ?_⟩
    rw [← hid] at ho ⊢
    exact settled_complete (hpc.trans hcols.symm) ho hk now

/-- **Which outcomes are recorded.** With any job a worker has claimed and any answer of the
engine, `run_once` returns and leaves the job settled exactly if the run is discarded for a lost
lease or the outcome is recordable. -/
theorem outcome_recorded_iff (hr : s.Reachable) {i : Nat} {w : Worker} {job : ClaimedJob}
    {payload : EnginePayload} {heartbeat : Nat} (hw : s.workers[i]? = some w)
    (hph : w.phase = .analyzing job payload heartbeat) {lostSeen : Bool}
    (hlost : lostSeen = true → s.Lost heartbeat) (outcome : Except PyFailure PyRun) {newId : Uuid}
    (hnew : ∀ a ∈ s.db.analyses, a.id ≠ newId) (now : Timestamptz) :
    (∃ db', conclude s.db w.workerId w.config.maxAttempts job lostSeen outcome newId now =
        .ok db' ∧ ∃ j ∈ db'.jobs, j.id = job.id ∧ j.Settled w.workerId db') ↔
      (lostSeen = true ∧ ∃ run, outcome = .ok run) ∨ Recordable outcome := by
  obtain ⟨hh, hb, hc⟩ := bound_of_analyzing hr hw hph
  constructor
  · rintro ⟨db', h, -⟩
    exact recordable_of_conclude hb hc h
  intro h
  cases outcome with
  | error failure =>
    rcases h with ⟨-, run, hrun⟩ | h
    · cases hrun
    · exact failure_recorded hr hh _ _ h _ _ _
  | ok run =>
    cases lostSeen with
    | true =>
      exact ⟨s.db, rfl, settled_of_holds hr hh (not_owned_of_lost hr hw hph (hlost rfl))⟩
    | false =>
      rcases h with ⟨hl, -⟩ | h
      · cases hl
      · exact run_recorded hr hh _ _ h hnew now

namespace Sample

/-- A drain task has claimed the job, and the engine is at work on it. -/
def engineRunning : Fleet :=
  Fleet.after (submitFirst 7 ++ [.spawn "host/1" config, .worker 0 (.reclaim noon),
    .worker 0 (.claim [] noon), .worker 0 .load])

theorem engineRunning_analyzing :
    ∃ w job payload, engineRunning.workers[0]? = some w ∧
      w.phase = .analyzing job payload 0 ∧ w.workerId = "host/1" ∧ job.id = 7 :=
  ⟨_, _, _, rfl, rfl, rfl, rfl⟩

/-- A document of one turn with this win probability. -/
def probability (p : PyValue) : PyRun :=
  { document :=
      { fields := [(.str (pyStr "totalTurns"), .int 1), (.str (pyStr "gradableTurns"), .int 1),
          (.str (pyStr "turns"), .list [.dict [(.str (pyStr "winProbability"), p)]])]
        distinct := by
          show [pyStr "totalTurns", pyStr "gradableTurns", pyStr "turns"].Nodup
          decide }
    wallMs := 1200
    degraded := false }

/-- The message of a panic that quotes a C string with its end. -/
def panicked : PyFailure := ⟨.engineCrashed, pyStr "PanicException: species \x00"⟩

end Sample

theorem outcome_recorded_probability :
    ∃ w job payload, Sample.engineRunning.workers[0]? = some w ∧
      w.phase = .analyzing job payload 0 ∧
      ∃ db', conclude Sample.engineRunning.db w.workerId w.config.maxAttempts job false
          (.ok (Sample.probability (.float 53 2))) 9 Sample.later = .ok db' ∧
        ∃ j ∈ db'.jobs, j.id = job.id ∧ j.Settled w.workerId db' := by
  obtain ⟨w, job, payload, hw, hph, -, -⟩ := Sample.engineRunning_analyzing
  have hr : Sample.engineRunning.Reachable := Fleet.reachable_after _
  have hnew : ∀ a ∈ Sample.engineRunning.db.analyses, a.id ≠ 9 := by decide
  have hlost : false = true → Sample.engineRunning.Lost 0 := fun h => absurd h (by decide)
  have hrec : Recordable (.ok (Sample.probability (.float 53 2))) :=
    ⟨by decide +kernel, ⟨1, rfl, by decide⟩, ⟨1, rfl, by decide⟩, by decide⟩
  exact ⟨w, job, payload, hw, hph,
    (outcome_recorded_iff hr hw hph hlost _ hnew Sample.later).mpr (Or.inr hrec)⟩

/-- A win probability that is not a number, or a message with U+0000, is raised out of the loop,
and the job is left running under the claim of the process that ends. -/
theorem outcome_escapes :
    Sample.engineRunning.Reachable ∧
    ∃ w job payload, Sample.engineRunning.workers[0]? = some w ∧
      w.phase = .analyzing job payload 0 ∧
      (∀ db', conclude Sample.engineRunning.db w.workerId w.config.maxAttempts job false
        (.ok (Sample.probability .nonfinite)) 9 Sample.later ≠ .ok db') ∧
      (∀ db', conclude Sample.engineRunning.db w.workerId w.config.maxAttempts job false
        (.error Sample.panicked) 9 Sample.later ≠ .ok db') ∧
      ∃ j ∈ Sample.engineRunning.db.jobs, j.ownedBy job.id w.workerId = true := by
  obtain ⟨w, job, payload, hw, hph, hid, hjob⟩ := Sample.engineRunning_analyzing
  obtain ⟨-, hb, hc⟩ := bound_of_analyzing (Fleet.reachable_after _) hw hph
  have howned : ∃ j ∈ Sample.engineRunning.db.jobs, j.ownedBy 7 "host/1" = true := by decide
  refine ⟨Fleet.reachable_after _, w, job, payload, hw, hph, fun db' h => ?_, fun db' h => ?_, ?_⟩
  · rcases recordable_of_conclude hb hc h with ⟨hl, -⟩ | hrec
    · cases hl
    · have hdoc : (PyValue.dict (Sample.probability .nonfinite).document.fields).storable = false :=
        by decide +kernel
      rw [hrec.document] at hdoc
      cases hdoc
  · rcases recordable_of_conclude hb hc h with ⟨hl, -⟩ | hrec
    · cases hl
    · have hzero : (0 : Fin 0x110000) ∈ Sample.panicked.detail.take 2000 := by decide
      exact (hrec 0 hzero).1 rfl
  · rw [hid, hjob]
    exact howned

end BattleCloud
