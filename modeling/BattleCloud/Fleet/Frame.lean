import BattleCloud.Fleet.Effect

/-!
# What a step leaves in place

The tables and the history only grow (`Grows`): no statement of the program deletes a replay or a
job, or changes a job's identity. `step_workers` and `step_submissions` say that at most one
process moved. `SubmissionOk` and `WorkerOk` collect what a process holds in its hands and where
it took it from; both are monotone in `Grows`, so a step has to be looked at for its own process
only.
-/

namespace BattleCloud

variable {s s' : Fleet}

/-! ## Growing -/

structure Grows (s s' : Fleet) : Prop where
  replays : ∀ r ∈ s.db.replays, r ∈ s'.db.replays
  jobs : ∀ j ∈ s.db.jobs, ∃ j' ∈ s'.db.jobs, j'.id = j.id ∧ j'.columns = j.columns
  log : ∀ e ∈ s.log, e ∈ s'.log

theorem Effect.replays {e : Event} {db : Db} (h : Effect s e db) :
    ∀ r ∈ s.db.replays, r ∈ db.replays := by
  intro r hr
  cases h with
  | upserted i _ => exact List.mem_append_left _ hr
  | _ => exact hr

/-- An update keeps every row under its id and identity. -/
theorem JobUpdate.exists_apply (u : JobUpdate) {db : Db} {j : JobRow} (hj : j ∈ db.jobs) :
    ∃ j' ∈ (u.apply db).jobs, j'.id = j.id ∧ j'.columns = j.columns := by
  refine ⟨_, Table.exists_mem_updateWhere hj, ?_⟩
  split
  · exact ⟨u.set_id j, u.set_columns j⟩
  · exact ⟨rfl, rfl⟩

theorem Effect.jobs {e : Event} {db : Db} (h : Effect s e db) :
    ∀ j ∈ s.db.jobs, ∃ j' ∈ db.jobs, j'.id = j.id ∧ j'.columns = j.columns := by
  intro j hj
  cases h with
  | readOnly _ => exact ⟨j, hj, rfl, rfl⟩
  | present i => exact ⟨j, hj, rfl, rfl⟩
  | upserted i _ => exact ⟨j, hj, rfl, rfl⟩
  | created newId now _ _ _ => exact ⟨j, List.mem_append_left _ hj, rfl, rfl⟩
  | claimed now _ _ _ _ => exact JobUpdate.exists_apply _ hj
  | renewed now _ _ => exact JobUpdate.exists_apply _ hj
  | failed now _ _ _ => exact JobUpdate.exists_apply _ hj
  | reclaimed now _ => exact JobUpdate.exists_apply _ hj
  | completed _ _ _ _ => exact JobUpdate.exists_apply _ hj

/-- **A step only adds.** -/
theorem step_grows (hv : s.db.Valid) {a : Action} (h : s.step a = some s') : Grows s s' := by
  obtain ⟨e, hlog, hs⟩ := step_spec hv h
  refine ⟨hs.effect.replays, hs.effect.jobs, fun e' he' => ?_⟩
  rw [hlog]
  exact List.mem_cons_of_mem _ he'

/-! ## The processes -/

section List

variable {α : Type} {l : List α} {i k : Nat} {x y z : α}

/-- An entry of a list with a new last one is an old entry or the new one. -/
theorem getElem?_concat_cases (h : (l ++ [x])[i]? = some y) :
    l[i]? = some y ∨ (i = l.length ∧ y = x) := by
  by_cases hi : i < l.length
  · rw [List.getElem?_append_left hi] at h
    exact Or.inl h
  · rw [List.getElem?_append_right (Nat.le_of_not_lt hi)] at h
    obtain ⟨hlt, hy⟩ := List.getElem?_eq_some_iff.mp h
    obtain rfl : i = l.length := by
      rw [List.length_singleton] at hlt
      omega
    exact Or.inr ⟨rfl, by simpa using hy.symm⟩

/-- An old entry keeps its place. -/
theorem getElem?_concat_of_some (h : l[i]? = some y) : (l ++ [x])[i]? = some y := by
  obtain ⟨hlt, -⟩ := List.getElem?_eq_some_iff.mp h
  rw [List.getElem?_append_left hlt]
  exact h

/-- An entry of a list with one entry overwritten is an old entry or the new one. -/
theorem getElem?_set_back (hx : l[k]? = some x) (h : (l.set k y)[i]? = some z) :
    l[i]? = some z ∨ (k = i ∧ z = y) := by
  obtain ⟨hlt, -⟩ := List.getElem?_eq_some_iff.mp hx
  by_cases hik : k = i
  · subst hik
    rw [List.getElem?_set_self hlt] at h
    exact Or.inr ⟨rfl, (Option.some.inj h).symm⟩
  · rw [List.getElem?_set_ne hik] at h
    exact Or.inl h

/-- Setting one entry leaves an entry at every index, the same or the new one. -/
theorem getElem?_set_cases (h : l[i]? = some x) :
    (l.set k y)[i]? = some x ∨ (k = i ∧ (l.set k y)[i]? = some y) := by
  by_cases hik : k = i
  · subst hik
    obtain ⟨hlt, -⟩ := List.getElem?_eq_some_iff.mp h
    exact Or.inr ⟨rfl, List.getElem?_set_self hlt⟩
  · rw [List.getElem?_set_ne hik]
    exact Or.inl h

end List

/-- **One worker moved, or one is new.** -/
theorem step_workers {a : Action} (h : s.step a = some s') {i : Nat} {w' : Worker}
    (hw' : s'.workers[i]? = some w') :
    s.workers[i]? = some w' ∨
    (∃ workerId config, a = .spawn workerId config ∧ i = s.workers.length ∧
      w' = ⟨workerId, config, Worker.start config.mode⟩ ∧
      ∀ w ∈ s.workers, w.alive = true → w.workerId ≠ workerId) ∨
    ∃ w act ph e, a = .worker i act ∧ s.workers[i]? = some w ∧
      WorkerStep s.db s.heartbeats i w act s'.db ph e ∧ w' = { w with phase := ph } ∧
      s'.log = e :: s.log := by
  cases FleetStep.of_eq h with
  | submit request build => exact Or.inl hw'
  | submission hsub hst => exact Or.inl hw'
  | @spawn workerId config hfree =>
    rcases getElem?_concat_cases hw' with hw | ⟨hi, rfl⟩
    · exact Or.inl hw
    · exact Or.inr (Or.inl ⟨workerId, config, rfl, hi, rfl, hfree⟩)
  | @worker k w act db ph e hw hst =>
    rcases getElem?_set_back hw hw' with hw' | ⟨rfl, rfl⟩
    · exact Or.inl hw'
    · exact Or.inr (Or.inr ⟨w, act, ph, e, rfl, hw, hst, rfl, rfl⟩)
  | heartbeat hhb hw hst => exact Or.inl hw'

/-- **One submission moved, or one is new.** -/
theorem step_submissions {a : Action} (h : s.step a = some s') {i : Nat} {sub' : Submission}
    (hsub' : s'.submissions[i]? = some sub') :
    s.submissions[i]? = some sub' ∨
    (∃ request build, a = .submit request build ∧ i = s.submissions.length ∧
      sub' = ⟨request, build, .received⟩) ∨
    ∃ sub act ph e, a = .submission i act ∧ s.submissions[i]? = some sub ∧
      SubmissionStep s.db i sub act s'.db ph e ∧ sub' = { sub with phase := ph } ∧
      s'.log = e :: s.log := by
  cases FleetStep.of_eq h with
  | submit request build =>
    rcases getElem?_concat_cases hsub' with hsub | ⟨hi, rfl⟩
    · exact Or.inl hsub
    · exact Or.inr (Or.inl ⟨request, build, rfl, hi, rfl⟩)
  | @submission k sub act db ph e hsub hst =>
    rcases getElem?_set_back hsub hsub' with hsub' | ⟨rfl, rfl⟩
    · exact Or.inl hsub'
    · exact Or.inr (Or.inr ⟨sub, act, ph, e, rfl, hsub, hst, rfl, rfl⟩)
  | spawn hfree => exact Or.inl hsub'
  | worker hw hst => exact Or.inl hsub'
  | heartbeat hhb hw hst => exact Or.inl hsub'

/-- Only a live worker takes a step. -/
theorem WorkerStep.alive {db db' : Db} {hbs : List Heartbeat} {i : Nat} {w : Worker}
    {act : WorkerAction} {ph : WorkerPhase} {e : Event}
    (h : WorkerStep db hbs i w act db' ph e) : w.alive = true := by
  cases h with
  | crashed ha => exact ha
  | _ => simp [Worker.alive, *]

theorem HeartbeatStep.alive {db db' : Db} {hb : Heartbeat} {w : Worker} {now : Timestamptz}
    {st : HeartbeatState} {e : Event} (h : HeartbeatStep db hb w now db' st e) :
    w.alive = true := by
  cases h <;> assumption

/-- Events of a submission's own statements. -/
def Event.ofSubmission : Event → Bool
  | .missed .. | .served .. | .upserted .. | .created .. | .joined .. => true
  | _ => false

/-- Events of the main thread of a worker. -/
def Event.ofWorker : Event → Bool
  | .claimed .. | .invoked .. | .returned .. | .failed .. | .reclaimed .. | .completed ..
  | .replayNotFound .. => true
  | _ => false

theorem SubmissionStep.event {db db' : Db} {i : Nat} {sub : Submission} {act : SubmissionAction}
    {ph : SubmissionPhase} {e : Event} (h : SubmissionStep db i sub act db' ph e) :
    e.ofWorker = false := by
  cases h <;> rfl

theorem WorkerStep.event {db db' : Db} {hbs : List Heartbeat} {i : Nat} {w : Worker}
    {act : WorkerAction} {ph : WorkerPhase} {e : Event}
    (h : WorkerStep db hbs i w act db' ph e) : e.ofSubmission = false := by
  cases h <;> rfl

theorem HeartbeatStep.event {db db' : Db} {hb : Heartbeat} {w : Worker} {now : Timestamptz}
    {st : HeartbeatState} {e : Event} (h : HeartbeatStep db hb w now db' st e) :
    e.ofSubmission = false ∧ e.ofWorker = false := by
  cases h <;> exact ⟨rfl, rfl⟩

/-- Such an event is logged by a step of a submission. -/
theorem step_ofSubmission {a : Action} (h : s.step a = some s') {e : Event}
    (hlog : s'.log = e :: s.log) (he : e.ofSubmission = true) :
    ∃ i act sub ph, a = .submission i act ∧ s.submissions[i]? = some sub ∧
      SubmissionStep s.db i sub act s'.db ph e := by
  cases FleetStep.of_eq h with
  | submission hsub hst =>
    cases hlog
    exact ⟨_, _, _, _, rfl, hsub, hst⟩
  | worker hw hst =>
    cases hlog
    rw [hst.event] at he
    cases he
  | heartbeat hhb hw hst =>
    cases hlog
    rw [hst.event.1] at he
    cases he
  | _ =>
    cases hlog
    cases he

/-- Such an event is logged by a step of a worker. -/
theorem step_ofWorker {a : Action} (h : s.step a = some s') {e : Event}
    (hlog : s'.log = e :: s.log) (he : e.ofWorker = true) :
    ∃ i act w ph, a = .worker i act ∧ s.workers[i]? = some w ∧
      WorkerStep s.db s.heartbeats i w act s'.db ph e := by
  cases FleetStep.of_eq h with
  | worker hw hst =>
    cases hlog
    exact ⟨_, _, _, _, rfl, hw, hst⟩
  | submission hsub hst =>
    cases hlog
    rw [hst.event] at he
    cases he
  | heartbeat hhb hw hst =>
    cases hlog
    rw [hst.event.2] at he
    cases he
  | _ =>
    cases hlog
    cases he

/-- A worker keeps its id and configuration, and does not come back to life. -/
theorem step_worker_persists {a : Action} (h : s.step a = some s') {i : Nat} {w : Worker}
    (hw : s.workers[i]? = some w) :
    ∃ w', s'.workers[i]? = some w' ∧ w'.workerId = w.workerId ∧ w'.config = w.config ∧
      (w'.alive = true → w.alive = true) := by
  cases FleetStep.of_eq h with
  | spawn hfree => exact ⟨w, getElem?_concat_of_some hw, rfl, rfl, id⟩
  | @worker k v act db ph e hv hst =>
    rcases getElem?_set_cases (k := k) (y := { v with phase := ph }) hw with h | ⟨rfl, h⟩
    · exact ⟨w, h, rfl, rfl, id⟩
    · obtain rfl : v = w := Option.some.inj (hv.symm.trans hw)
      exact ⟨_, h, rfl, rfl, fun _ => hst.alive⟩
  | _ => exact ⟨w, hw, rfl, rfl, id⟩

/-- A worker after a step was there with its id and configuration, or it is new and no live
worker had its id. -/
theorem step_worker_back {a : Action} (h : s.step a = some s') {i : Nat} {w' : Worker}
    (hw' : s'.workers[i]? = some w') :
    (∃ w, s.workers[i]? = some w ∧ w'.workerId = w.workerId ∧ w'.config = w.config ∧
      (w'.alive = true → w.alive = true)) ∨
    (i = s.workers.length ∧ ∀ w ∈ s.workers, w.alive = true → w.workerId ≠ w'.workerId) := by
  rcases step_workers h hw' with hw | ⟨_, _, -, hi, rfl, hn⟩ | ⟨w, _, _, _, -, hw, hst, rfl, -⟩
  · exact Or.inl ⟨w', hw, rfl, rfl, id⟩
  · exact Or.inr ⟨hi, hn⟩
  · exact Or.inl ⟨w, hw, rfl, rfl, fun _ => hst.alive⟩

/-! ## What a process holds -/

/-- What a submission in flight relies on. -/
def SubmissionOk (db : Db) (sub : Submission) : Prop :=
  match sub.phase with
  | .storing payload => payload.id = sub.request.replayId
  | .enqueueing _ => ∃ r ∈ db.replays, r.id = sub.request.replayId
  | _ => True

/-- A job the worker at an index claimed is one of the table, for the worker's own build. -/
structure Holds (db : Db) (log : List Event) (i : Nat) (config : WorkerConfig) (job : ClaimedJob) :
    Prop where
  claimed : .claimed i job.id ∈ log
  row : ∃ j ∈ db.jobs, j.id = job.id ∧ j.columns = job.columns
  pokeEngineTag : job.pokeEngineTag = config.pokeEngineTag
  usageStatsDataset : job.usageStatsDataset = config.usageStatsDataset

/-- The document of a run is what an engine call on the stored replay returned. -/
def Computed (db : Db) (log : List Event) (i : Nat) (job : ClaimedJob) (run : AnalysisRun) :
    Prop :=
  ∃ r ∈ db.replays, r.id = job.replayId ∧
    .returned i ⟨r.payload, analyzeKwargs job.identity, run.document⟩ ∈ log

/-- What the worker at an index relies on. -/
def WorkerOk (db : Db) (log : List Event) (i : Nat) (w : Worker) : Prop :=
  match w.phase with
  | .loading job => Holds db log i w.config job
  | .analyzing job payload _ =>
    Holds db log i w.config job ∧ ∃ r ∈ db.replays, r.id = job.replayId ∧ payload = r.payload
  | .reporting job run => Holds db log i w.config job ∧ Computed db log i job run
  | .completing job run _ _ => Holds db log i w.config job ∧ Computed db log i job run
  | _ => True

theorem Holds.mono (hg : Grows s s') {i : Nat} {c : WorkerConfig} {job : ClaimedJob}
    (h : Holds s.db s.log i c job) : Holds s'.db s'.log i c job := by
  obtain ⟨hcl, ⟨j, hj, hid, hc⟩, htag, hds⟩ := h
  obtain ⟨j', hj', hid', hc'⟩ := hg.jobs j hj
  exact ⟨hg.log _ hcl, ⟨j', hj', hid'.trans hid, hc'.trans hc⟩, htag, hds⟩

theorem Computed.mono (hg : Grows s s') {i : Nat} {job : ClaimedJob} {run : AnalysisRun}
    (h : Computed s.db s.log i job run) : Computed s'.db s'.log i job run := by
  obtain ⟨r, hr, hid, hret⟩ := h
  exact ⟨r, hg.replays r hr, hid, hg.log _ hret⟩

theorem SubmissionOk.mono (hg : Grows s s') {sub : Submission} (h : SubmissionOk s.db sub) :
    SubmissionOk s'.db sub := by
  unfold SubmissionOk at *
  cases hph : sub.phase <;> simp only [hph] at h ⊢
  · exact h
  · obtain ⟨r, hr, hid⟩ := h
    exact ⟨r, hg.replays r hr, hid⟩

theorem WorkerOk.mono (hg : Grows s s') {i : Nat} {w : Worker} (h : WorkerOk s.db s.log i w) :
    WorkerOk s'.db s'.log i w := by
  unfold WorkerOk at *
  cases hph : w.phase <;> simp only [hph] at h ⊢
  · exact h.mono hg
  · obtain ⟨hh, r, hr, hid, hp⟩ := h
    exact ⟨hh.mono hg, r, hg.replays r hr, hid, hp⟩
  · exact ⟨h.1.mono hg, h.2.mono hg⟩
  · exact ⟨h.1.mono hg, h.2.mono hg⟩

/-- **A submission enqueues only with its replay stored.** -/
theorem SubmissionStep.ok {db db' : Db} {i : Nat} {sub : Submission} {a : SubmissionAction}
    {ph : SubmissionPhase} {e : Event} (hok : SubmissionOk db sub)
    (h : SubmissionStep db i sub a db' ph e) : SubmissionOk db' { sub with phase := ph } := by
  cases h with
  | stored hph hlog => exact replayLog_some hlog
  | fetched log raw hph => rfl
  | upserted hph hup =>
    simp only [SubmissionOk, hph] at hok
    rcases upsertReplay_ok hup with ⟨rfl, r, hr, hid⟩ | ⟨r, hid, -, rfl, -⟩
    · exact ⟨r, hr, hid.trans hok⟩
    · exact ⟨r, List.mem_append_right _ (List.mem_singleton.mpr rfl), hid.trans hok⟩
  | _ => trivial

/-- **A worker reports only what the engine computed for the job it holds.** -/
theorem WorkerStep.ok (hv : s.db.Valid) {i : Nat} {w : Worker} {act : WorkerAction}
    {ph : WorkerPhase} {e : Event} (hok : WorkerOk s.db s.log i w) (hg : Grows s s')
    (h : WorkerStep s.db s.heartbeats i w act s'.db ph e) (hlog : s'.log = e :: s.log) :
    WorkerOk s'.db s'.log i { w with phase := ph } := by
  obtain ⟨db', submissions', workers', heartbeats', log'⟩ := s'
  simp only at h hlog ⊢
  have hloop : ∀ m, WorkerOk db' log' i { w with phase := Worker.start m } := by
    intro m
    cases m <;> trivial
  cases h with
  | @claimed locked now _ job hph hcl =>
    rcases claimJob_ok (hv .jobsPkey) hcl with ⟨-, hn, -⟩ | ⟨j, hj, hc, hr, hdb, -⟩
    · cases hn
    · cases hr
      obtain ⟨-, htag, hds, -⟩ := JobRow.claimable_iff.mp hc
      have hrow := JobUpdate.exists_apply
        (JobUpdate.claim j.id w.workerId w.config.leaseSeconds now) hj
      rw [← hdb] at hrow
      refine ⟨?_, hrow, htag, hds⟩
      rw [hlog]
      exact List.mem_cons_self
  | empty hph hcl =>
    unfold WorkerOk Worker.afterEmpty
    cases w.config.mode <;> trivial
  | invoked hph hp =>
    simp only [WorkerOk, hph] at hok
    obtain ⟨r, hr, hid, hpay⟩ := loadReplay_some hp
    exact ⟨hok.mono hg, r, hg.replays r hr, hid, hpay⟩
  | returned run hph =>
    simp only [WorkerOk, hph] at hok
    obtain ⟨hh, r, hr, hid, hpay⟩ := hok
    refine ⟨hh.mono hg, r, hg.replays r hr, hid, ?_⟩
    rw [hlog, hpay]
    exact List.mem_cons_self
  | discarded run hph => exact hloop _
  | failed hph hfail hown => exact hloop _
  | failedStale hph => exact hloop _
  | inserted hph =>
    simp only [WorkerOk, hph] at hok
    exact ⟨hok.1.mono hg, hok.2.mono hg⟩
  | completed hph hrep => exact hloop _
  | rolledBack hph hrep => exact hloop _
  | _ => trivial

/-! ## The invariant of the processes -/

/-- Every process relies on what is there. -/
structure ProcessesOk (s : Fleet) : Prop where
  submissions : ∀ (i : Nat) (sub : Submission), s.submissions[i]? = some sub → SubmissionOk s.db sub
  workers : ∀ (i : Nat) (w : Worker), s.workers[i]? = some w → WorkerOk s.db s.log i w

theorem processesOk_step (hv : s.db.Valid) (hok : ProcessesOk s) {a : Action}
    (h : s.step a = some s') : ProcessesOk s' := by
  have hg := step_grows hv h
  constructor
  · intro i sub' hsub'
    rcases step_submissions h hsub' with
      hsub | ⟨_, _, -, -, rfl⟩ | ⟨sub, act, ph, e, -, hsub, hst, rfl, -⟩
    · exact (hok.submissions i sub' hsub).mono hg
    · trivial
    · exact hst.ok (hok.submissions i sub hsub)
  · intro i w' hw'
    rcases step_workers h hw' with
      hw | ⟨_, config, -, -, rfl, -⟩ | ⟨w, act, ph, e, -, hw, hst, rfl, hlog⟩
    · exact (hok.workers i w' hw).mono hg
    · unfold WorkerOk Worker.start
      cases config.mode <;> trivial
    · exact hst.ok hv (hok.workers i w hw) hg hlog

theorem processesOk_of_reachable (h : s.Reachable) : ProcessesOk s := by
  refine StepSystem.Reach.invariant_of ?_ ?_ h
  · exact ⟨fun i sub h => by simp [Fleet.init] at h, fun i w h => by simp [Fleet.init] at h⟩
  · intro s a s' hr hok _ hst
    exact processesOk_step (valid_of_reachable hr) hok hst

end BattleCloud
