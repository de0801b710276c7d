import BattleCloud.Db.Invariant
import BattleCloud.Lib.System

/-!
# Runs of the queue's operations

`Store.enqueue`, `claim_job`, `heartbeat`, `complete_job`, `fail_job` and `reclaim_expired` as the
steps of one system over the tables, with arbitrary arguments: no caller has to own the job it
names, to exist, or to wait for anybody. Statements on the other two tables are `elsewhere`. A
refused statement changes nothing.

`QueueOp.Does` says once what an operation can do to `jobs`, guards included, and everything about
runs is derived from it by cases. `RowsKept` is its reading for a single row: every row is still
there, as itself or after a `JobRow.Next`. `terminal_states_final`: the status of a job moves along
four arrows only, and a terminal row is never written again.
-/

namespace BattleCloud

inductive QueueOp where
  | enqueue (id : AnalysisIdentity) (profile : Profile) (estimatedTurns estimatedSearchMs : Int)
      (newId : Uuid) (now : Timestamptz)
  | claim (workerId : String) (leaseSeconds : Nat) (build : EngineBuild) (locked : List Uuid)
      (now : Timestamptz)
  | heartbeat (jobId : Uuid) (workerId : String) (leaseSeconds : Nat) (now : Timestamptz)
  | complete (jobId : Uuid) (workerId : String) (analysisId : Uuid) (now : Timestamptz)
  | fail (jobId : Uuid) (workerId : String) (retryable : Bool) (maxAttempts : Nat)
      (errorKind : ErrorKind) (errorDetail : String) (now : Timestamptz)
  | reclaim (maxAttempts : Nat) (now : Timestamptz)
  /-- Any statement that leaves `jobs` alone. -/
  | elsewhere (replays : List ReplayRow) (analyses : List AnalysisRow)

namespace QueueOp

/-- The tables after the statement, unless it is refused. -/
def exec (db : Db) : QueueOp → Except DbError Db
  | enqueue id profile turns searchMs newId now =>
    (BattleCloud.enqueue db id profile turns searchMs newId now).map Prod.fst
  | claim workerId leaseSeconds build locked now =>
    (claimJob db workerId leaseSeconds build locked now).map Prod.fst
  | heartbeat jobId workerId leaseSeconds now =>
    ((JobUpdate.heartbeat jobId workerId leaseSeconds now).run db).map Prod.fst
  | complete jobId workerId analysisId now =>
    ((JobUpdate.complete jobId workerId analysisId now).run db).map Prod.fst
  | fail jobId workerId retryable maxAttempts errorKind errorDetail now =>
    ((JobUpdate.fail jobId workerId retryable maxAttempts errorKind errorDetail now).run db).map
      Prod.fst
  | reclaim maxAttempts now => ((JobUpdate.reclaim maxAttempts now).run db).map Prod.fst
  | elsewhere replays analyses => ({ db with replays, analyses } : Db).commit

def step (db : Db) (op : QueueOp) : Option Db :=
  match op.exec db with
  | .ok db' => some db'
  | .error _ => some db

/-- The update an operation is, where its `WHERE` names the status it expects. -/
def update? : QueueOp → Option JobUpdate
  | heartbeat jobId workerId leaseSeconds now => some (.heartbeat jobId workerId leaseSeconds now)
  | complete jobId workerId analysisId now => some (.complete jobId workerId analysisId now)
  | fail jobId workerId retryable maxAttempts errorKind errorDetail now =>
    some (.fail jobId workerId retryable maxAttempts errorKind errorDetail now)
  | reclaim maxAttempts now => some (.reclaim maxAttempts now)
  | enqueue .. | claim .. | elsewhere .. => none

/-- What an operation can do to `jobs`. -/
inductive Does (db : Db) : QueueOp → Db → Prop
  | nothing {op : QueueOp} {db' : Db} (h : db'.jobs = db.jobs) : Does db op db'
  | created {id : AnalysisIdentity} {profile : Profile} {turns searchMs : Int} {newId : Uuid}
      {now : Timestamptz} (hl : NoLiveJob db id.columns) :
      Does db (.enqueue id profile turns searchMs newId now)
        { db with jobs := db.jobs ++ [JobRow.fresh newId id.columns profile turns searchMs now] }
  | claimed {workerId : String} {leaseSeconds : Nat} {build : EngineBuild} {locked : List Uuid}
      {now : Timestamptz} {j : JobRow} (hj : j ∈ db.jobs)
      (hc : j.claimable build locked = true) :
      Does db (.claim workerId leaseSeconds build locked now)
        ((JobUpdate.claim j.id workerId leaseSeconds now).apply db)
  | updated {op : QueueOp} {u : JobUpdate} (hu : op.update? = some u) : Does db op (u.apply db)

end QueueOp

/-- The arrows between states of a job. -/
inductive JobStatus.Moves : JobStatus → JobStatus → Prop
  | claimed : Moves .queued .running
  | requeued : Moves .running .queued
  | succeeded : Moves .running .succeeded
  | failed : Moves .running .failed

def JobStatus.terminal : JobStatus → Bool
  | .succeeded | .failed | .cancelled => true
  | .queued | .running => false

/-! ## One operation -/

theorem JobRow.Next.moves {j j' : JobRow} (h : j.Next j') :
    j'.status = j.status ∨ JobStatus.Moves j.status j'.status := by
  cases h with
  | claim w l now hs =>
    rw [hs]
    exact Or.inr .claimed
  | heartbeat l now hs => exact Or.inl rfl
  | complete a now hs =>
    rw [hs]
    exact Or.inr .succeeded
  | fail r m k d now hs =>
    rw [hs]
    rcases j.fail_status r m k d now with hq | hf
    · rw [hq]
      exact Or.inr .requeued
    · rw [hf]
      exact Or.inr .failed
  | reclaim m now hs =>
    rw [hs]
    rcases j.reclaim_status m now with hq | ⟨hf, -⟩
    · rw [hq]
      exact Or.inr .requeued
    · rw [hf]
      exact Or.inr .failed

theorem JobRow.live_eq (j : JobRow) : j.live = !j.status.terminal := by
  unfold JobRow.live JobStatus.terminal
  cases j.status <;> rfl

theorem JobUpdate.run_of_valid {u : JobUpdate} {db : Db} (hv : (u.apply db).Valid) :
    (u.run db).map Prod.fst = .ok (u.apply db) := by
  rw [JobUpdate.run_eq hv]
  rfl

theorem JobUpdate.apply_of_run {u : JobUpdate} {db db' : Db}
    (h : (u.run db).map Prod.fst = .ok db') : db' = u.apply db ∧ db'.Valid := by
  obtain ⟨⟨d, rows⟩, hr, rfl⟩ := except_map_ok.mp h
  obtain ⟨hd, hv, -⟩ := JobUpdate.run_ok hr
  exact ⟨hd, hv⟩

theorem JobUpdate.mem_apply_of_not {u : JobUpdate} {db : Db} {j : JobRow} (hj : j ∈ db.jobs)
    (hs : u.sel j = false) : j ∈ (u.apply db).jobs :=
  Table.mem_updateWhere_of_not hj hs

/-- **What an executed operation does.** -/
theorem QueueOp.exec_does {db db' : Db} (hv : db.Valid) {op : QueueOp}
    (h : op.exec db = .ok db') : db'.Valid ∧ QueueOp.Does db op db' := by
  have hupdate : ∀ {u : JobUpdate}, op.update? = some u →
      (u.run db).map Prod.fst = .ok db' → db'.Valid ∧ QueueOp.Does db op db' := by
    intro u hu hr
    obtain ⟨rfl, hv'⟩ := JobUpdate.apply_of_run hr
    exact ⟨hv', .updated hu⟩
  cases op with
  | enqueue id p t m newId now =>
    obtain ⟨⟨d, j, created⟩, he, rfl⟩ := except_map_ok.mp h
    obtain ⟨-, ⟨-, rfl, -⟩ | ⟨-, hl, rfl, rfl, hv'⟩⟩ := enqueue_ok he
    · exact ⟨hv, .nothing rfl⟩
    · exact ⟨hv', .created hl⟩
  | claim w l build locked now =>
    obtain ⟨⟨d, job⟩, hc, rfl⟩ := except_map_ok.mp h
    rcases claimJob_ok (hv .jobsPkey) hc with ⟨rfl, -⟩ | ⟨j, hj, hcl, -, rfl, hv'⟩
    · exact ⟨hv, .nothing rfl⟩
    · exact ⟨hv', .claimed hj hcl⟩
  | heartbeat i w l now => exact hupdate rfl h
  | complete i w a now => exact hupdate rfl h
  | fail i w r m k d now => exact hupdate rfl h
  | reclaim m now => exact hupdate rfl h
  | elsewhere replays analyses =>
    obtain ⟨hv', rfl⟩ := Db.commit_ok.mp h
    exact ⟨hv', .nothing rfl⟩

theorem QueueOp.step_does {db db' : Db} (hv : db.Valid) {op : QueueOp}
    (h : QueueOp.step db op = some db') : db'.Valid ∧ QueueOp.Does db op db' := by
  unfold QueueOp.step at h
  split at h
  · rename_i hok
    cases h
    exact QueueOp.exec_does hv hok
  · cases h
    exact ⟨hv, .nothing rfl⟩

theorem QueueOp.isClaim_of_update {op : QueueOp} {u : JobUpdate} (hu : op.update? = some u) :
    u.isClaim = false := by
  cases op <;> cases hu <;> rfl

/-! ## The rows an operation leaves -/

/-- Every row is still there, as itself or moved. -/
structure RowsKept (db db' : Db) : Prop where
  valid : db'.Valid
  kept : ∀ j ∈ db.jobs, ∃ j' ∈ db'.jobs, j'.id = j.id ∧ (j' = j ∨ j.Next j')

theorem RowsKept.apply {db : Db} {u : JobUpdate} (hv : (u.apply db).Valid)
    (hu : ∀ j ∈ db.jobs, u.sel j = true → j.Next (u.set j)) : RowsKept db (u.apply db) := by
  refine ⟨hv, fun j hj => ⟨_, Table.exists_mem_updateWhere hj, ?_⟩⟩
  split
  · rename_i hs
    exact ⟨u.set_id j, Or.inr (hu j hj hs)⟩
  · exact ⟨rfl, Or.inl rfl⟩

theorem QueueOp.step_rows {db db' : Db} (hv : db.Valid) {op : QueueOp}
    (h : QueueOp.step db op = some db') : RowsKept db db' := by
  obtain ⟨hv', hd⟩ := QueueOp.step_does hv h
  cases hd with
  | nothing hj => exact ⟨hv', fun j hm => ⟨j, hj ▸ hm, rfl, Or.inl rfl⟩⟩
  | created hl => exact ⟨hv', fun j hj => ⟨j, List.mem_append_left _ hj, rfl, Or.inl rfl⟩⟩
  | claimed hj hc =>
    exact .apply hv' (hv.next_of_claim hj (JobRow.claimable_iff.mp hc).1 _ _ _)
  | updated hu => exact .apply hv' (JobUpdate.next_of_sel (QueueOp.isClaim_of_update hu))

/-! ## Runs -/

variable {db₀ db : Db}

theorem valid_of_ops (hv : db₀.Valid) (h : StepSystem.Reachable QueueOp.step db₀ db) :
    db.Valid := by
  refine StepSystem.Reach.invariant (I := Db.Valid) hv ?_ h
  intro s op s' hs _ hst
  exact (QueueOp.step_rows hs hst).valid

/-- A terminal row is passed over by an operation. -/
theorem RowsKept.terminal {db' : Db} (h : RowsKept db db') {j : JobRow} (hj : j ∈ db.jobs)
    (ht : j.status.terminal = true) : j ∈ db'.jobs := by
  obtain ⟨j', hj', -, rfl | hn⟩ := h.kept j hj
  · exact hj'
  · have hl := hn.live
    rw [j.live_eq, ht] at hl
    cases hl

theorem terminal_kept (hv : db.Valid) {db' : Db}
    (h : StepSystem.Reachable QueueOp.step db db') {j : JobRow} (hj : j ∈ db.jobs)
    (ht : j.status.terminal = true) : j ∈ db'.jobs := by
  refine StepSystem.Reach.invariant_of (I := fun d => j ∈ d.jobs) hj ?_ h
  intro s op s' hr hs _ hst
  exact (QueueOp.step_rows (valid_of_ops hv hr) hst).terminal hs ht

/-- **Terminal states are final.** In every state of every run from tables that satisfy the
schema: an operation keeps each job and leaves its status or moves it along one of the four
arrows, and once a job is succeeded, failed or cancelled its row stays as it is, whatever
follows. -/
theorem terminal_states_final (hv : db₀.Valid) (h : StepSystem.Reachable QueueOp.step db₀ db) :
    (∀ op db', QueueOp.step db op = some db' → ∀ j ∈ db.jobs, ∃ j' ∈ db'.jobs, j'.id = j.id ∧
      (j'.status = j.status ∨ JobStatus.Moves j.status j'.status)) ∧
    (∀ db', StepSystem.Reachable QueueOp.step db db' →
      ∀ j ∈ db.jobs, j.status.terminal = true → ∀ j' ∈ db'.jobs, j'.id = j.id → j' = j) ∧
    (∀ db', StepSystem.Reachable QueueOp.step db db' →
      ∀ j ∈ db.jobs, ∃ j' ∈ db'.jobs, j'.id = j.id) := by
  have hvd := valid_of_ops hv h
  refine ⟨fun op db' hst j hj => ?_, fun db' hr j hj ht j' hj' hid => ?_, fun db' hr j hj => ?_⟩
  · obtain ⟨j', hj', hid, rfl | hn⟩ := (QueueOp.step_rows hvd hst).kept j hj
    · exact ⟨j', hj', hid, Or.inl rfl⟩
    · exact ⟨j', hj', hid, hn.moves⟩
  · exact (valid_of_ops hvd hr).job_eq hj' (terminal_kept hvd hr hj ht) hid
  · refine StepSystem.Reach.invariant_of
      (I := fun d => ∃ j' ∈ d.jobs, j'.id = j.id) ⟨j, hj, rfl⟩ ?_ hr
    rintro s op s' hs ⟨k, hk, hid⟩ - hst
    obtain ⟨k', hk', hid', -⟩ := (QueueOp.step_rows (valid_of_ops hvd hs) hst).kept k hk
    exact ⟨k', hk', hid'.trans hid⟩

namespace Sample

def dawn : Timestamptz := ⟨1788757200000000, by decide⟩

def quick : AnalysisIdentity :=
  deriveIdentity ⟨"gen9ou-2672927430", .p2, .quick⟩ ⟨"v0.0.47", "2026-07"⟩

/-- The job is enqueued, claimed and rejected by the engine. -/
def rejectedOps : List QueueOp :=
  [.enqueue quick .quick 2 400 7 dawn, .claim "host/1" 900 ⟨"v0.0.47", "2026-07"⟩ [] dawn,
    .fail 7 "host/1" false 3 .analysisRejected "no turns" dawn]

def rejected : Db := StepSystem.after QueueOp.step Db.empty rejectedOps

end Sample

theorem terminal_states_final_rejected :
    Sample.rejected.jobs.map JobRow.status = [.failed] ∧
    ∀ db', StepSystem.Reachable QueueOp.step Sample.rejected db' →
      ∀ j ∈ Sample.rejected.jobs, j.status.terminal = true → ∀ j' ∈ db'.jobs, j'.id = j.id →
      j' = j :=
  ⟨by decide, (terminal_states_final Db.valid_empty (StepSystem.reachable_after _)).2.1⟩

end BattleCloud
