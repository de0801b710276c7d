import BattleCloud.Fleet.Frame

/-!
# The queue's representation invariant over runs

`QueueInv` holds in every reachable state of the fleet. Each statement is followed to the tables
it would leave (`Effect.queueInv`), so the same argument covers the statements that were refused:
`Refused.not_queue` says they were refused for something else.
-/

namespace BattleCloud

variable {s s' : Fleet}

/-- The replay a submission enqueues for is stored. -/
theorem replay_of_enqueueing (hp : ProcessesOk s) {i : Nat} {sub : Submission} {turns : Nat}
    (hsub : s.submissions[i]? = some sub) (hph : sub.phase = .enqueueing turns) :
    ∃ r ∈ s.db.replays, r.id = sub.columns.replayId := by
  have hok := hp.submissions i sub hsub
  simp only [SubmissionOk, hph] at hok
  exact hok

/-- The job a worker reports on is one of the table. -/
theorem holds_of_reporting (hp : ProcessesOk s) {i : Nat} {w : Worker} {job : ClaimedJob}
    {run : AnalysisRun} (hw : s.workers[i]? = some w)
    (hph : w.phase = .reporting job run ∨ ∃ newId now, w.phase = .completing job run newId now) :
    Holds s.db s.log i w.config job := by
  have hok := hp.workers i w hw
  rcases hph with hph | ⟨newId, now, hph⟩
  · simp only [WorkerOk, hph] at hok
    exact hok.1
  · simp only [WorkerOk, hph] at hok
    exact hok.1

/-- The row a report writes references a stored replay. -/
theorem fkey_putAnalysis (hv : s.db.Valid) (hq : QueueInv s.db) {i : Nat} {c : WorkerConfig}
    {job : ClaimedJob} (hh : Holds s.db s.log i c job) {p : AnalysisRow}
    (hp : p.columns = job.columns) :
    ∀ a ∈ (s.db.putAnalysis (written s.db p)).analyses,
      ∃ r ∈ s.db.replays, r.id = a.columns.replayId := by
  intro a ha
  rcases Table.mem_put ha with rfl | ⟨ha, -⟩
  · obtain ⟨j, hj, -, hc⟩ := hh.row
    rw [written_columns, hp, ← hc]
    exact hq.replay j hj
  · exact hv .analysesReplayIdFkey a ha

/-- **One statement keeps the invariant.** -/
theorem Effect.queueInv (hv : s.db.Valid) (hp : ProcessesOk s) (hq : QueueInv s.db) {e : Event}
    {db : Db} (h : Effect s e db) : QueueInv db := by
  cases h with
  | readOnly _ => exact hq
  | present i => exact hq
  | upserted i _ => exact hq.appendReplay _
  | created newId now hsub hph hl => exact hq.append hl (replay_of_enqueueing hp hsub hph)
  | claimed now hw ha hj hc =>
    exact hq.apply (hv.next_of_claim hj (JobRow.claimable_iff.mp hc).1 _ _ _)
  | renewed now hw ha => exact hq.apply (JobUpdate.next_of_sel rfl)
  | failed now hw hph ho => exact hq.apply (JobUpdate.next_of_sel rfl)
  | reclaimed now hw => exact hq.apply (JobUpdate.next_of_sel rfl)
  | completed hw hph hpr ho => exact (hq.putAnalysis _).apply (JobUpdate.next_of_sel rfl)

theorem rowChecks_disjoint : ∀ c ∈ rowChecks, ∀ c' ∈ queueConstraints, c ≠ c' := by decide

/-- **A refused statement was refused for something else.** -/
theorem Refused.not_queue (hv : s.db.Valid) (hp : ProcessesOk s) (hq : QueueInv s.db)
    {err : DbError} (h : Refused s err) : ∀ c ∈ queueConstraints, err ≠ .violates c := by
  have hfk : ∀ a ∈ s.db.analyses, ∃ r ∈ s.db.replays, r.id = a.columns.replayId :=
    hv .analysesReplayIdFkey
  cases h with
  | badValue =>
    intro c _ h
    cases h
  | check hc =>
    intro c hc' h
    rw [DbError.violates.injEq] at h
    exact rowChecks_disjoint _ hc c hc' h
  | upsert he =>
    refine (hq.appendReplay _).not_refused (fun a ha => ?_) he
    obtain ⟨r, hr, hid⟩ := hfk a ha
    exact ⟨r, List.mem_append_left _ hr, hid⟩
  | create hsub hph hl he =>
    exact (hq.append hl (replay_of_enqueueing hp hsub hph)).not_refused hfk he
  | update hu he => exact (hq.apply hu).not_refused hfk he
  | insert hw hph hpc he =>
    exact (hq.putAnalysis _).not_refused
      (fkey_putAnalysis hv hq (holds_of_reporting hp hw hph) hpc) he
  | complete hw hph hpc hu he =>
    exact ((hq.putAnalysis _).apply hu).not_refused
      (fkey_putAnalysis hv hq (holds_of_reporting hp hw (Or.inr ⟨_, _, hph⟩)) hpc) he

/-- `_load_replay` finds the replay of the job its worker holds. -/
theorem replay_of_loading (hp : ProcessesOk s) (hq : QueueInv s.db) {i : Nat} {w : Worker}
    {job : ClaimedJob} (hw : s.workers[i]? = some w) (hph : w.phase = .loading job) :
    loadReplay s.db job.replayId ≠ none := by
  have hok := hp.workers i w hw
  simp only [WorkerOk, hph] at hok
  obtain ⟨j, hj, -, hc⟩ := hok.row
  refine loadReplay_isSome ?_
  have hrep := hq.replay j hj
  rw [hc] at hrep
  exact hrep

/-- The queue's part of the history: nothing it guarantees was ever found broken. -/
structure QueueHistory (log : List Event) : Prop where
  notRefused : ∀ c ∈ queueConstraints, .rejected (.violates c) ∉ log
  replayFound : ∀ w j, .replayNotFound w j ∉ log

theorem queue_of_reachable (h : s.Reachable) : QueueInv s.db ∧ QueueHistory s.log := by
  refine StepSystem.Reach.invariant_of (I := fun s : Fleet => QueueInv s.db ∧ QueueHistory s.log)
    ⟨QueueInv.empty, ⟨fun _ _ => List.not_mem_nil, fun _ _ => List.not_mem_nil⟩⟩ ?_ h
  rintro s a s' hr ⟨hq, hh⟩ - hst
  have hv := valid_of_reachable hr
  have hp := processesOk_of_reachable hr
  obtain ⟨e, hlog, hs⟩ := step_spec hv hst
  refine ⟨hs.effect.queueInv hv hp hq, ⟨?_, ?_⟩⟩
  · intro c hc hm
    rw [hlog] at hm
    rcases List.mem_cons.mp hm with he | hm
    · have hrec := hs.recorded
      rw [← he] at hrec
      exact hrec.not_queue hv hp hq c hc rfl
    · exact hh.notRefused c hc hm
  · intro w j hm
    rw [hlog] at hm
    rcases List.mem_cons.mp hm with he | hm
    · have hrec := hs.recorded
      rw [← he] at hrec
      obtain ⟨v, job, hw, hph, -, hn⟩ := hrec
      exact replay_of_loading hp hq hw hph hn
    · exact hh.replayFound w j hm

/-- **The representation invariant of the queue**, in every reachable state and for every
statement of every run. -/
theorem queue_representation (h : s.Reachable) :
    (∀ j ∈ s.db.jobs,
      (j.status = .running ↔ j.claimedBy.isSome ∧ j.claimedAt.isSome ∧ j.leaseExpiresAt.isSome) ∧
      (j.status = .succeeded ↔ j.analysisId.isSome) ∧
      (j.status = .succeeded → j.errorKind = none) ∧
      (j.status = .failed → j.errorKind.isSome)) ∧
    s.db.jobs.Pairwise (fun j k => ¬ (j.live ∧ k.live ∧ j.columns = k.columns)) ∧
    (∀ j ∈ s.db.jobs, ∃ r ∈ s.db.replays, r.id = j.columns.replayId) ∧
    (∀ c ∈ queueConstraints, .rejected (.violates c) ∉ s.log) ∧
    (∀ w j, .replayNotFound w j ∉ s.log) := by
  obtain ⟨hq, hh⟩ := queue_of_reachable h
  refine ⟨fun j hj => ?_, ?_, hq.replay, hh.notRefused, hh.replayFound⟩
  · have hok := hq.rows j hj
    exact ⟨hok.running_iff, hok.succeeded_iff, hok.succeeded_errorKind, hok.failed_errorKind⟩
  · have hu := hq.unique
    unfold Table.UniqueWhere List.Nodup at hu
    rw [List.pairwise_map, List.pairwise_filter] at hu
    refine hu.imp ?_
    rintro j k hne ⟨hj, hk, hc⟩
    exact hne hj hk hc

theorem queue_representation_reported :
    (Fleet.after Sample.reported).db.jobs.map JobRow.status = [.succeeded] ∧
    (∀ c ∈ queueConstraints, .rejected (.violates c) ∉ (Fleet.after Sample.reported).log) :=
  ⟨by decide, (queue_representation (Fleet.reachable_after Sample.reported)).2.2.2.1⟩

end BattleCloud
