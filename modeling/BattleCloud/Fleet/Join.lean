import BattleCloud.Db.Operations
import BattleCloud.Fleet.Resubmit

/-!
# Submissions of one identity join one job

Any number of submissions enqueue concurrently, in any interleaving with each other and with the
workers. `Enqueues` is one enqueue with what it returned. `CreatedOnce` ties the history to the
table: an id was returned with `created = true` exactly as often as the table has a row under it,
which the primary key makes at most once. `NoTerminal` is the condition under which two enqueues
of an identity return the same job: its job does not leave the partial index between them.
-/

namespace BattleCloud

/-- The submission's enqueue is executed and returns the job with the flag. -/
structure Enqueues (s : Fleet) (i : Nat) (sub : Submission) (job : JobRow) (created : Bool)
    (s' : Fleet) : Prop where
  submission : s.submissions[i]? = some sub
  executed : ∃ turns newId now, sub.phase = .enqueueing turns ∧
    enqueue s.db sub.identity sub.request.profile turns
      (estimateDuration turns sub.request.profile) newId now = .ok (s'.db, job, created) ∧
    s.step (.submission i (.enqueue newId now)) = some s'

/-- An enqueue that returned this id with `created = true`. -/
def Event.creates (id : Uuid) : Event → Bool
  | .created _ job _ => job = id
  | _ => false

/-- The step does not bring the job to a terminal state. -/
def NoTerminal (id : Uuid) (s : Fleet) (a : Action) : Prop :=
  ∀ s' ∈ s.step a, ∀ j ∈ s.db.jobs, j.id = id → j.status.terminal = false →
    ∀ j' ∈ s'.db.jobs, j'.id = id → j'.status.terminal = false

instance (id : Uuid) (s : Fleet) (a : Action) : Decidable (NoTerminal id s a) :=
  inferInstanceAs (Decidable (∀ s' ∈ s.step a, ∀ j ∈ s.db.jobs, j.id = id →
    j.status.terminal = false → ∀ j' ∈ s'.db.jobs, j'.id = id → j'.status.terminal = false))

variable {s s' : Fleet}

/-! ## One enqueue -/

/-- Why an enqueue is refused: a value Postgres does not take, a `CHECK` of the row, or an id that
is taken. -/
def EnqueueRefusal (db : Db) (newId : Uuid) (err : DbError) : Prop :=
  err = .badValue ∨ err = .violates .jobsIdentityChecks ∨ err = .violates .jobsEstimatesCheck ∨
    (err = .violates .jobsPkey ∧ ∃ j ∈ db.jobs, j.id = newId)

/-- A fresh row of an identity without a live job breaks no other constraint. -/
theorem refusal_of_commit {db : Db} (hv : db.Valid) {newId : Uuid} {c : IdentityColumns}
    {profile : Profile} {turns ms : Int} {now : Timestamptz} (hl : NoLiveJob db c) {err : DbError}
    (h : ({ db with jobs := db.jobs ++ [JobRow.fresh newId c profile turns ms now] } : Db).commit =
      .error err) : EnqueueRefusal db newId err := by
  obtain ⟨constraint, rfl, hc⟩ := Db.commit_error h
  cases constraint with
  | jobsIdentityChecks => exact Or.inr (Or.inl rfl)
  | jobsEstimatesCheck => exact Or.inr (Or.inr (Or.inl rfl))
  | jobsPkey =>
    refine Or.inr (Or.inr (Or.inr ⟨rfl, ?_⟩))
    by_contra hno
    push Not at hno
    exact hc (Table.Unique.append (hv .jobsPkey) hno)
  | jobsActiveIdentityKey =>
    have hnone : ∀ j ∈ db.jobs, j.live = true →
        j.columns ≠ (JobRow.fresh newId c profile turns ms now).columns := hl
    exact absurd (Table.uniqueWhere_append (hv .jobsActiveIdentityKey) hnone) hc
  | jobsAnalysisIdFkey =>
    have hfresh : JobRow.AnalysisStored (JobRow.fresh newId c profile turns ms now) db := rfl
    exact absurd (List.forall_mem_append.mpr
      ⟨hv .jobsAnalysisIdFkey, List.forall_mem_singleton.mpr hfresh⟩) hc
  | jobsClaimIsAllOrNothing =>
    have hfresh : (JobRow.fresh newId c profile turns ms now).ClaimIsAllOrNothing :=
      Or.inl ⟨rfl, rfl, rfl⟩
    exact absurd (List.forall_mem_append.mpr
      ⟨hv .jobsClaimIsAllOrNothing, List.forall_mem_singleton.mpr hfresh⟩) hc
  | jobsSucceededHasAnalysis =>
    have hfresh : (JobRow.fresh newId c profile turns ms now).SucceededHasAnalysis :=
      Or.inl (fun h => by cases h)
    exact absurd (List.forall_mem_append.mpr
      ⟨hv .jobsSucceededHasAnalysis, List.forall_mem_singleton.mpr hfresh⟩) hc
  | jobsFailedHasKind =>
    have hfresh : (JobRow.fresh newId c profile turns ms now).FailedHasKind :=
      Or.inl (fun h => by cases h)
    exact absurd (List.forall_mem_append.mpr
      ⟨hv .jobsFailedHasKind, List.forall_mem_singleton.mpr hfresh⟩) hc
  | replaysPkey => exact absurd (hv .replaysPkey) hc
  | replaysPayloadBytesCheck => exact absurd (hv .replaysPayloadBytesCheck) hc
  | analysesPkey => exact absurd (hv .analysesPkey) hc
  | analysesReplayIdFkey => exact absurd (hv .analysesReplayIdFkey) hc
  | analysesIdentityKey => exact absurd (hv .analysesIdentityKey) hc
  | analysesIdentityChecks => exact absurd (hv .analysesIdentityChecks) hc
  | analysesTotalTurnsCheck => exact absurd (hv .analysesTotalTurnsCheck) hc
  | analysesGradableTurnsCheck => exact absurd (hv .analysesGradableTurnsCheck) hc
  | analysesWallMsCheck => exact absurd (hv .analysesWallMsCheck) hc

/-- An enqueue is refused and nothing changes, or it is an `Enqueues`. -/
theorem enqueue_step (hv : s.db.Valid) {i : Nat} {newId : Uuid} {now : Timestamptz}
    (h : s.step (.submission i (.enqueue newId now)) = some s') :
    (∃ err, EnqueueRefusal s.db newId err ∧ s'.db = s.db ∧ s'.log = .rejected err :: s.log) ∨
    ∃ sub job created, Enqueues s i sub job created s' := by
  have hstep := h
  simp only [Fleet.step, Option.bind_eq_some_iff, Option.map_eq_some_iff] at h
  obtain ⟨sub, hsub, ⟨db, ph, e⟩, hst, rfl⟩ := h
  simp only [submissionStep] at hst
  split at hst
  · rename_i hph
    split at hst <;> rename_i hok <;> cases hst
    · exact Or.inr ⟨sub, _, _, hsub, _, _, _, hph, hok, hstep⟩
    · refine Or.inl ⟨_, ?_, rfl, rfl⟩
      rcases enqueue_error hok with rfl | rfl | rfl | ⟨hl, hc⟩
      · exact Or.inl rfl
      · exact Or.inr (Or.inl rfl)
      · exact Or.inr (Or.inr (Or.inl rfl))
      · exact refusal_of_commit hv hl hc
  · cases hst

/-- **What an enqueue returns**: a live job of exactly its identity. A join leaves the tables as
they are, a creation adds the job under an id no job had. -/
theorem Enqueues.spec {i : Nat} {sub : Submission} {job : JobRow} {created : Bool}
    (h : Enqueues s i sub job created s') :
    job ∈ s'.db.jobs ∧ job.live = true ∧ job.columns = sub.columns ∧
    (created = false → s'.db = s.db) ∧
    (created = true → s'.db.jobs = s.db.jobs ++ [job] ∧ ∀ j ∈ s.db.jobs, j.id ≠ job.id) ∧
    (created = true → NoLiveJob s.db sub.columns) := by
  obtain ⟨turns, newId, now, -, hok, -⟩ := h.executed
  obtain ⟨hcol, ⟨rfl, hdb, hj, hl⟩ | ⟨rfl, hno, hfresh, hdb, hv⟩⟩ := enqueue_ok hok
  · refine ⟨hdb ▸ hj, hl, hcol, fun _ => hdb, ?_, ?_⟩ <;> rintro ⟨⟩
  · have hjobs : s'.db.jobs = s.db.jobs ++ [job] := by rw [hdb]
    refine ⟨?_, ?_, hcol, ?_, fun _ => ⟨hjobs, fun j hj => ?_⟩, fun _ => hno⟩
    · rw [hjobs]
      exact List.mem_append_right _ List.mem_cons_self
    · rw [hfresh]
      rfl
    · rintro ⟨⟩
    · rw [hdb] at hv
      exact hv.ne_last_job hj

/-- What the client is told, and what the history says of it. -/
theorem Enqueues.answered {i : Nat} {sub : Submission} {job : JobRow} {created : Bool}
    (h : Enqueues s i sub job created s') :
    s'.submissions[i]? = some { sub with
      phase := if job.status = .queued then .launching (toJob job) created
        else .answered (.accepted (toJob job) created) } ∧
    s'.log = (if created then .created i job.id job.columns else .joined i job.id) :: s.log := by
  obtain ⟨turns, newId, now, hph, hok, hst⟩ := h.executed
  obtain ⟨hlt, -⟩ := List.getElem?_eq_some_iff.mp h.submission
  simp only [Fleet.step, h.submission, Option.bind_some, submissionStep, hph, hok,
    Option.map_some, Option.some.injEq] at hst
  rw [← hst]
  exact ⟨List.getElem?_set_self hlt, rfl⟩

/-! ## The history of creations -/

/-- An update moves no row to another id. -/
theorem JobUpdate.countP_id (u : JobUpdate) (db : Db) (id : Uuid) :
    (u.apply db).jobs.countP (fun j => j.id = id) = db.jobs.countP fun j => j.id = id := by
  rw [JobUpdate.apply_jobs, Table.updateWhere, List.countP_map]
  congr 1
  funext j
  simp only [Function.comp_apply]
  split
  · rw [u.set_id]
  · rfl

/-- **A row under an id appears with the enqueue that returns it as created.** -/
theorem Effect.countP_id {e : Event} {db : Db} (h : Effect s e db) (id : Uuid) :
    db.jobs.countP (fun j => j.id = id) =
      s.db.jobs.countP (fun j => j.id = id) + if e.creates id then 1 else 0 := by
  cases h with
  | @readOnly e he =>
    cases e with
    | created i job c => cases he
    | _ => rfl
  | present i => rfl
  | upserted i hr => rfl
  | created newId now hsub hph hl =>
    rw [List.countP_append, List.countP_singleton]
    rfl
  | claimed now hw ha hj hc => exact JobUpdate.countP_id _ _ id
  | renewed now hw ha => exact JobUpdate.countP_id _ _ id
  | failed now hw hph ho => exact JobUpdate.countP_id _ _ id
  | reclaimed now hw => exact JobUpdate.countP_id _ _ id
  | completed hw hph hp ho => exact JobUpdate.countP_id _ (s.db.putAnalysis _) id

/-- An id was returned as created exactly as often as there is a row under it. -/
def CreatedOnce (s : Fleet) : Prop :=
  ∀ id, s.log.countP (Event.creates id) = s.db.jobs.countP fun j => j.id = id

theorem CreatedOnce.step (hv : s.db.Valid) (hc : CreatedOnce s) {a : Action}
    (h : s.step a = some s') : CreatedOnce s' := by
  obtain ⟨e, hlog, hs⟩ := step_spec hv h
  intro id
  rw [hlog, List.countP_cons, hs.effect.countP_id id, hc id]

/-- Every join comes after the creation of the job it returns. -/
def JoinsCreated (log : List Event) : Prop :=
  ∀ l₁ i id l₂, log = l₁ ++ .joined i id :: l₂ → ∃ k c, .created k id c ∈ l₂

/-- A join returns a job of the table. -/
theorem SubmissionStep.of_joined {db db' : Db} {k i : Nat} {sub : Submission}
    {act : SubmissionAction} {ph : SubmissionPhase} {id : Uuid}
    (h : SubmissionStep db k sub act db' ph (.joined i id)) : ∃ j ∈ db.jobs, j.id = id := by
  cases h with
  | joined hph hok hq =>
    obtain ⟨-, ⟨-, -, hj, -⟩ | ⟨hf, -⟩⟩ := enqueue_ok hok
    · exact ⟨_, hj, rfl⟩
    · cases hf
  | joinedRunning hph hok hq =>
    obtain ⟨-, ⟨-, -, hj, -⟩ | ⟨hf, -⟩⟩ := enqueue_ok hok
    · exact ⟨_, hj, rfl⟩
    · cases hf

theorem JoinsCreated.step (hv : s.db.Valid) (hcr : JobsCreated s) (hc : JoinsCreated s.log)
    {a : Action} (h : s.step a = some s') : JoinsCreated s'.log := by
  obtain ⟨e, hlog, -⟩ := step_spec hv h
  intro l₁ i id l₂ hsplit
  rw [hlog] at hsplit
  rcases List.cons_eq_append_iff.mp hsplit with ⟨rfl, hjoin⟩ | ⟨l, rfl, hrest⟩
  · obtain ⟨rfl, rfl⟩ := List.cons.inj hjoin
    obtain ⟨k, act, sub, ph, -, -, hst⟩ := step_ofSubmission h hlog rfl
    obtain ⟨j, hj, rfl⟩ := hst.of_joined
    obtain ⟨n, hn⟩ := hcr j hj
    exact ⟨n, _, hn⟩
  · exact hc l i id l₂ hrest

theorem joins_of_reachable (h : s.Reachable) : CreatedOnce s ∧ JoinsCreated s.log := by
  have hinit : CreatedOnce Fleet.init ∧ JoinsCreated Fleet.init.log := by
    refine ⟨fun id => rfl, fun l₁ i id l₂ hl => ?_⟩
    simp [Fleet.init] at hl
  refine StepSystem.Reach.invariant_of
    (I := fun s : Fleet => CreatedOnce s ∧ JoinsCreated s.log) hinit ?_ h
  rintro s a s' hr ⟨hc, hj⟩ - hst
  have hv := valid_of_reachable hr
  exact ⟨hc.step hv hst, hj.step hv (cacheHistory_of_reachable hr).created hst⟩

/-! ## Two enqueues of one identity -/

/-- The job an enqueue returned stays live while no step brings it to a terminal state. -/
theorem stays_live {s₁ s₂ : Fleet} (h₁ : s₁.Reachable) {job : JobRow} (hj : job ∈ s₁.db.jobs)
    (hl : job.live = true)
    (h : StepSystem.Reach Fleet.step (NoTerminal job.id) s₁ s₂) :
    s₂.Reachable ∧
      ∃ j ∈ s₂.db.jobs, j.id = job.id ∧ j.columns = job.columns ∧ j.live = true := by
  refine StepSystem.Reach.invariant (I := fun s : Fleet => s.Reachable ∧
    ∃ j ∈ s.db.jobs, j.id = job.id ∧ j.columns = job.columns ∧ j.live = true)
    ⟨h₁, job, hj, rfl, rfl, hl⟩ ?_ h
  rintro s a s' ⟨hr, j, hjm, hid, hcol, hlive⟩ hno hst
  obtain ⟨e, -, hs⟩ := step_spec (valid_of_reachable hr) hst
  obtain ⟨j', hj', hid', hcol'⟩ := hs.effect.jobs j hjm
  refine ⟨.next hr trivial hst, j', hj', hid'.trans hid, hcol'.trans hcol, ?_⟩
  rw [j.live_eq, Bool.not_eq_true'] at hlive
  rw [j'.live_eq, hno s' hst j hjm hid hlive j' hj' (hid'.trans hid)]
  rfl

/-- An enqueue of an identity with a live job returns that job. -/
theorem Enqueues.of_live (hr : s.Reachable) {i : Nat} {sub : Submission} {job : JobRow}
    {created : Bool} (h : Enqueues s i sub job created s') {j : JobRow} (hj : j ∈ s.db.jobs)
    (hl : j.live = true) (hc : j.columns = sub.columns) : job.id = j.id := by
  obtain ⟨hmem, hlive, hcol, hjoin, -, hnew⟩ := h.spec
  cases created with
  | true => exact absurd hc (hnew rfl j hj hl)
  | false =>
    rw [hjoin rfl] at hmem
    have hu := (queue_of_reachable hr).1.unique
    exact congrArg JobRow.id (hu.eq hmem hj hlive hl (hcol.trans hc.symm))

/-- **Submissions join atomically.** In every reachable state of the fleet: an enqueue is refused,
for a value, a `CHECK` or a taken id, and changes nothing, or returns a live job of exactly the
identity, which a join leaves as it is with every other row; every id was returned as created
exactly as often as the table has a row under it, that is by the one enqueue that inserted it, and
joined only after that; and two enqueues of an identity return the same id as long as its job
reaches no terminal state between them. -/
theorem submissions_join (h : s.Reachable) :
    (∀ i newId now s', s.step (.submission i (.enqueue newId now)) = some s' →
      (∃ err, EnqueueRefusal s.db newId err ∧ s'.db = s.db ∧
        s'.log = .rejected err :: s.log) ∨
      ∃ sub job created, Enqueues s i sub job created s' ∧
        job ∈ s'.db.jobs ∧ job.live = true ∧ job.columns = sub.columns ∧
        (created = false → s'.db = s.db) ∧
        (created = true → s'.db.jobs = s.db.jobs ++ [job] ∧ ∀ j ∈ s.db.jobs, j.id ≠ job.id) ∧
        s'.submissions[i]? = some { sub with
          phase := if job.status = .queued then .launching (toJob job) created
            else .answered (.accepted (toJob job) created) } ∧
        s'.log =
          (if created then .created i job.id job.columns else .joined i job.id) :: s.log) ∧
    (∀ id, s.log.countP (Event.creates id) = s.db.jobs.countP (fun j => j.id = id) ∧
      s.log.countP (Event.creates id) ≤ 1) ∧
    (∀ l₁ i id l₂, s.log = l₁ ++ .joined i id :: l₂ → ∃ k c, .created k id c ∈ l₂) ∧
    (∀ i sub job created s₁, Enqueues s i sub job created s₁ →
      ∀ s₂, StepSystem.Reach Fleet.step (NoTerminal job.id) s₁ s₂ →
      ∀ k sub' job' created' s₃, Enqueues s₂ k sub' job' created' s₃ →
        sub'.columns = sub.columns → job'.id = job.id) := by
  obtain ⟨hc, hj⟩ := joins_of_reachable h
  refine ⟨fun i newId now s' hst => ?_, fun id => ⟨hc id, ?_⟩, hj, ?_⟩
  · refine (enqueue_step (valid_of_reachable h) hst).imp_right ?_
    rintro ⟨sub, job, created, henq⟩
    obtain ⟨hmem, hl, hcol, hjoin, hnew, -⟩ := henq.spec
    exact ⟨sub, job, created, henq, hmem, hl, hcol, hjoin, hnew, henq.answered⟩
  · rw [hc id]
    exact Table.Unique.countP_le (valid_of_reachable h .jobsPkey) id
  · intro i sub job created s₁ h₁ s₂ hrun k sub' job' created' s₃ h₃ hsame
    obtain ⟨turns, newId, now, -, -, hst⟩ := h₁.executed
    obtain ⟨hmem, hl, hcol, -⟩ := h₁.spec
    obtain ⟨hr₂, j, hj, hid, hcol', hlive⟩ := stays_live (.next h trivial hst) hmem hl hrun
    rw [h₃.of_live hr₂ hj hlive ((hcol'.trans hcol).trans hsame.symm), hid]

namespace Sample

/-- Two submissions of one identity have both missed the cache and stand before their enqueue. -/
def bothWaiting : List Action :=
  [.submit request build, .submit request build, .submission 0 .lookup, .submission 1 .lookup,
    .submission 0 (.tryConsume true), .submission 1 (.tryConsume true), .submission 0 .replayLog,
    .submission 0 (.fetch (.ok ("|turn|1\n|turn|2", .obj [("formatid", .str "gen9ou")]))),
    .submission 0 .upsertReplay, .submission 1 .replayLog]

def firstCreates : Fleet := Fleet.after (bothWaiting ++ [.submission 0 (.enqueue 7 noon)])

/-- The first job is claimed before the second enqueue. -/
def claimedBetween : Fleet :=
  StepSystem.afterIf Fleet.step (NoTerminal 7) firstCreates
    [.spawn "host/1" config, .worker 0 (.reclaim noon), .worker 0 (.claim [] noon)]

def secondJoins : Fleet :=
  (claimedBetween.step (.submission 1 (.enqueue 8 later))).getD claimedBetween

end Sample

theorem submissions_join_claimed :
    Sample.claimedBetween.db.jobs.map JobRow.status = [.running] ∧
    ∃ sub job, Enqueues Sample.claimedBetween 1 sub job false Sample.secondJoins ∧ job.id = 7 := by
  have hjoin := (submissions_join (Fleet.reachable_after Sample.bothWaiting)).2.2.2
  have hsecond : Enqueues Sample.claimedBetween 1 ⟨Sample.request, Sample.build, .enqueueing 2⟩
      _ false Sample.secondJoins := ⟨rfl, 2, 8, Sample.later, rfl, rfl, rfl⟩
  refine ⟨by decide, _, _, hsecond, ?_⟩
  exact hjoin 0 ⟨Sample.request, Sample.build, .enqueueing 2⟩ _ true Sample.firstCreates
    ⟨rfl, 2, 7, Sample.noon, rfl, rfl, rfl⟩ _ (StepSystem.reach_afterIf _) 1 _ _ _ _ hsecond rfl

end BattleCloud
