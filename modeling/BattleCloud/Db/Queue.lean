import BattleCloud.Db.Schema

/-!
# The five `UPDATE`s of the queue

`db/queries/`: `claim_job`, `heartbeat`, `complete_job`, `fail_job` and `reclaim_expired` are
each one `UPDATE jobs SET .. WHERE .. RETURNING ..`. A `JobUpdate` names one with its parameters;
`sel` is its `WHERE`, `set` its `SET`, and `run` executes it and checks the constraints.

`JobRow.Next` says what one of them can do to one row, guards included, and is the only thing
later proofs about the `jobs` table use: `JobUpdate.set_next` derives it for every row an update
takes in the status it expects (for `claim_job`, whose `WHERE` names only an id, this is what its
sub-select provides).
-/

namespace BattleCloud

/-! ## `SET` clauses -/

/-- `now() + make_interval(secs => n)`. -/
def leaseUntil (now : Timestamptz) (leaseSeconds : Nat) : Int :=
  now.us + leaseSeconds * 1000000

namespace JobRow

/-- `claim_job`. -/
def claim (j : JobRow) (workerId : String) (leaseSeconds : Nat) (now : Timestamptz) : JobRow :=
  { j with
    status := .running
    attempts := j.attempts + 1
    claimedBy := some workerId
    claimedAt := some now
    leaseExpiresAt := some (leaseUntil now leaseSeconds)
    updatedAt := now }

/-- `heartbeat`. -/
def heartbeat (j : JobRow) (leaseSeconds : Nat) (now : Timestamptz) : JobRow :=
  { j with leaseExpiresAt := some (leaseUntil now leaseSeconds), updatedAt := now }

/-- `complete_job`. -/
def complete (j : JobRow) (analysisId : Uuid) (now : Timestamptz) : JobRow :=
  { j with
    status := .succeeded
    analysisId := some analysisId
    errorKind := none
    errorDetail := none
    claimedBy := none
    claimedAt := none
    leaseExpiresAt := none
    updatedAt := now }

/-- `fail_job`. -/
def fail (j : JobRow) (retryable : Bool) (maxAttempts : Nat) (errorKind : ErrorKind)
    (errorDetail : String) (now : Timestamptz) : JobRow :=
  { j with
    status := if retryable && decide (j.attempts < maxAttempts) then .queued else .failed
    errorKind := some errorKind
    errorDetail := some errorDetail
    claimedBy := none
    claimedAt := none
    leaseExpiresAt := none
    updatedAt := now }

/-- The dead-letter text of `reclaim_expired`. -/
def expiredDetail (j : JobRow) : String :=
  "lease expired after " ++ toString j.attempts ++ " attempt(s); last worker: " ++
    j.claimedBy.getD "unknown"

/-- `reclaim_expired`. -/
def reclaim (j : JobRow) (maxAttempts : Nat) (now : Timestamptz) : JobRow :=
  { j with
    status := if j.attempts < maxAttempts then .queued else .failed
    errorKind := if j.attempts < maxAttempts then j.errorKind else some .engineInternalError
    errorDetail := if j.attempts < maxAttempts then j.errorDetail else some j.expiredDetail
    claimedBy := none
    claimedAt := none
    leaseExpiresAt := none
    updatedAt := now }

/-- `id = $job_id AND status = 'running' AND claimed_by = $worker_id`. -/
def ownedBy (j : JobRow) (jobId : Uuid) (workerId : String) : Bool :=
  j.id = jobId && j.status = .running && j.claimedBy = some workerId

/-- `status = 'running' AND lease_expires_at < now()`; a null lease compares to neither. -/
def expired (j : JobRow) (now : Timestamptz) : Bool :=
  j.status = .running && j.leaseExpiresAt.any (· < now.us)

end JobRow

/-! ## The updates -/

inductive JobUpdate where
  | claim (jobId : Uuid) (workerId : String) (leaseSeconds : Nat) (now : Timestamptz)
  | heartbeat (jobId : Uuid) (workerId : String) (leaseSeconds : Nat) (now : Timestamptz)
  | complete (jobId : Uuid) (workerId : String) (analysisId : Uuid) (now : Timestamptz)
  | fail (jobId : Uuid) (workerId : String) (retryable : Bool) (maxAttempts : Nat)
      (errorKind : ErrorKind) (errorDetail : String) (now : Timestamptz)
  | reclaim (maxAttempts : Nat) (now : Timestamptz)

namespace JobUpdate

/-- `WHERE`. -/
def sel : JobUpdate → JobRow → Bool
  | claim jobId _ _ _, j => j.id = jobId
  | heartbeat jobId workerId _ _, j => j.ownedBy jobId workerId
  | complete jobId workerId _ _, j => j.ownedBy jobId workerId
  | fail jobId workerId _ _ _ _ _, j => j.ownedBy jobId workerId
  | reclaim _ now, j => j.expired now

/-- `SET`. -/
def set : JobUpdate → JobRow → JobRow
  | claim _ workerId leaseSeconds now, j => j.claim workerId leaseSeconds now
  | heartbeat _ _ leaseSeconds now, j => j.heartbeat leaseSeconds now
  | complete _ _ analysisId now, j => j.complete analysisId now
  | fail _ _ retryable maxAttempts errorKind errorDetail now, j =>
    j.fail retryable maxAttempts errorKind errorDetail now
  | reclaim maxAttempts now, j => j.reclaim maxAttempts now

def isClaim : JobUpdate → Bool
  | claim .. => true
  | _ => false

/-- The tables the update would leave. -/
def apply (u : JobUpdate) (db : Db) : Db :=
  { db with jobs := Table.updateWhere u.sel u.set db.jobs }

/-- Execute the update: the tables after it and the rows `RETURNING` gives back. -/
def run (u : JobUpdate) (db : Db) : Except DbError (Db × List JobRow) :=
  (u.apply db).commit.map fun db' => (db', Table.returning u.sel u.set db.jobs)

theorem run_ok {u : JobUpdate} {db db' : Db} {rows : List JobRow}
    (h : u.run db = .ok (db', rows)) :
    db' = u.apply db ∧ db'.Valid ∧ rows = Table.returning u.sel u.set db.jobs := by
  obtain ⟨d, hc, hd⟩ := except_map_ok.mp h
  obtain ⟨hv, rfl⟩ := Db.commit_ok.mp hc
  cases hd
  exact ⟨rfl, hv, rfl⟩

/-- An update that leaves valid tables is executed. -/
theorem run_eq {u : JobUpdate} {db : Db} (hv : (u.apply db).Valid) :
    u.run db = .ok (u.apply db, Table.returning u.sel u.set db.jobs) := by
  unfold run
  rw [Db.commit_ok.mpr ⟨hv, rfl⟩]
  rfl

theorem run_error {u : JobUpdate} {db : Db} {e : DbError} (h : u.run db = .error e) :
    (u.apply db).commit = .error e :=
  except_map_error.mp h

/-- An update whose `WHERE` takes no row changes nothing. -/
theorem apply_eq_self {u : JobUpdate} {db : Db} (h : ∀ j ∈ db.jobs, u.sel j = false) :
    u.apply db = db := by
  unfold apply
  rw [Table.updateWhere_eq_self h]

@[simp] theorem apply_replays (u : JobUpdate) (db : Db) : (u.apply db).replays = db.replays := rfl

@[simp] theorem apply_jobs (u : JobUpdate) (db : Db) :
    (u.apply db).jobs = Table.updateWhere u.sel u.set db.jobs := rfl

@[simp] theorem set_id (u : JobUpdate) (j : JobRow) : (u.set j).id = j.id := by cases u <;> rfl

@[simp] theorem set_columns (u : JobUpdate) (j : JobRow) : (u.set j).columns = j.columns := by
  cases u <;> rfl

end JobUpdate

/-! ## What a row can become -/

/-- One step of a row under one of the updates, with the state its `WHERE` found it in. -/
inductive JobRow.Next : JobRow → JobRow → Prop
  | claim {j : JobRow} (workerId : String) (leaseSeconds : Nat) (now : Timestamptz)
      (hs : j.status = .queued) : Next j (j.claim workerId leaseSeconds now)
  | heartbeat {j : JobRow} (leaseSeconds : Nat) (now : Timestamptz)
      (hs : j.status = .running) : Next j (j.heartbeat leaseSeconds now)
  | complete {j : JobRow} (analysisId : Uuid) (now : Timestamptz)
      (hs : j.status = .running) : Next j (j.complete analysisId now)
  | fail {j : JobRow} (retryable : Bool) (maxAttempts : Nat) (errorKind : ErrorKind)
      (errorDetail : String) (now : Timestamptz) (hs : j.status = .running) :
      Next j (j.fail retryable maxAttempts errorKind errorDetail now)
  | reclaim {j : JobRow} (maxAttempts : Nat) (now : Timestamptz)
      (hs : j.status = .running) : Next j (j.reclaim maxAttempts now)

theorem JobRow.ownedBy_iff {j : JobRow} {jobId : Uuid} {workerId : String} :
    j.ownedBy jobId workerId = true ↔
      j.id = jobId ∧ j.status = .running ∧ j.claimedBy = some workerId := by
  simp [ownedBy, and_assoc]

/-- A reported failure queues the job again or is final. -/
theorem JobRow.fail_status (j : JobRow) (r : Bool) (m : Nat) (k : ErrorKind) (d : String)
    (now : Timestamptz) :
    (j.fail r m k d now).status = .queued ∨ (j.fail r m k d now).status = .failed := by
  unfold JobRow.fail
  split
  · exact Or.inl rfl
  · exact Or.inr rfl

/-- A reclaimed job is queued again, or dead-lettered with a kind. -/
theorem JobRow.reclaim_status (j : JobRow) (m : Nat) (now : Timestamptz) :
    (j.reclaim m now).status = .queued ∨ ((j.reclaim m now).status = .failed ∧
      (j.reclaim m now).errorKind = some .engineInternalError) := by
  unfold JobRow.reclaim
  split
  · exact Or.inl rfl
  · exact Or.inr ⟨rfl, rfl⟩

theorem JobRow.expired_running {j : JobRow} {now : Timestamptz} (h : j.expired now = true) :
    j.status = .running := by
  simp only [expired, Bool.and_eq_true, decide_eq_true_eq] at h
  exact h.1

/-- **What an update does to a row it takes.** Only `claim_job` needs to be told that the row is
queued; the others ask for a running row themselves. -/
theorem JobUpdate.set_next {u : JobUpdate} {j : JobRow} (hs : u.sel j = true)
    (hc : u.isClaim = true → j.status = .queued) : j.Next (u.set j) := by
  cases u with
  | claim i w l n => exact .claim w l n (hc rfl)
  | heartbeat i w l n => exact .heartbeat l n (JobRow.ownedBy_iff.mp hs).2.1
  | complete i w a n => exact .complete a n (JobRow.ownedBy_iff.mp hs).2.1
  | fail i w r m k d n => exact .fail r m k d n (JobRow.ownedBy_iff.mp hs).2.1
  | reclaim m n => exact .reclaim m n (JobRow.expired_running hs)

/-- The rows an update takes that names their status itself. -/
theorem JobUpdate.next_of_sel {u : JobUpdate} (hu : u.isClaim = false) {jobs : List JobRow} :
    ∀ j ∈ jobs, u.sel j = true → j.Next (u.set j) := by
  intro j _ hs
  refine JobUpdate.set_next hs fun hc => ?_
  rw [hu] at hc
  cases hc

namespace JobRow.Next

variable {j j' : JobRow}

theorem columns (h : j.Next j') : j'.columns = j.columns := by cases h <;> rfl

/-- Only a live row is ever written. -/
theorem live (h : j.Next j') : j.live = true := by
  cases h <;> simp [JobRow.live, *]

end JobRow.Next

/-! ## `claim_job` -/

/-- The columns `claim_job` returns. -/
structure ClaimedJob where
  id : Uuid
  replayId : String
  perspective : Perspective
  profile : Profile
  searchBudgetMsPerTurn : Int
  opponentSamples : Int
  threads : Int
  usageStatsCutoff : Int
  usageStatsDataset : String
  pokeEngineTag : String
  seed : Int
  attempts : Nat
  estimatedTurns : Option Int
  leaseExpiresAt : Option Int

/-- `RETURNING` of `claim_job`. -/
def JobRow.claimed (j : JobRow) : ClaimedJob :=
  { id := j.id
    replayId := j.columns.replayId
    perspective := j.columns.perspective
    profile := j.profile
    searchBudgetMsPerTurn := j.columns.searchBudgetMsPerTurn
    opponentSamples := j.columns.opponentSamples
    threads := j.columns.threads
    usageStatsCutoff := j.columns.usageStatsCutoff
    usageStatsDataset := j.columns.usageStatsDataset
    pokeEngineTag := j.columns.pokeEngineTag
    seed := j.columns.seed
    attempts := j.attempts
    estimatedTurns := j.estimatedTurns
    leaseExpiresAt := j.leaseExpiresAt }

/-- The build filter of the sub-select, and `SKIP LOCKED` over the rows other transactions hold. -/
def JobRow.claimable (j : JobRow) (build : EngineBuild) (locked : List Uuid) : Bool :=
  j.status = .queued && j.columns.pokeEngineTag = build.pokeEngineTag &&
    j.columns.usageStatsDataset = build.usageStatsDataset && !locked.contains j.id

/-- `ORDER BY created_at, id`. -/
def JobRow.before (j k : JobRow) : Bool :=
  j.createdAt.us < k.createdAt.us || (j.createdAt.us = k.createdAt.us && j.id < k.id)

/-- `LIMIT 1` of the ordered rows: the least by `before`. -/
def firstBefore : List JobRow → Option JobRow
  | [] => none
  | j :: js =>
    match firstBefore js with
    | none => some j
    | some k => if k.before j then some k else some j

/-- The sub-select of `claim_job`. -/
def nextClaimable (db : Db) (build : EngineBuild) (locked : List Uuid) : Option JobRow :=
  firstBefore (db.jobs.filter (·.claimable build locked))

/-- `claim_job`: the tables after it and the claimed job, if there was one. -/
def claimJob (db : Db) (workerId : String) (leaseSeconds : Nat) (build : EngineBuild)
    (locked : List Uuid) (now : Timestamptz) : Except DbError (Db × Option ClaimedJob) :=
  match nextClaimable db build locked with
  | none => .ok (db, none)
  | some j =>
    ((JobUpdate.claim j.id workerId leaseSeconds now).run db).map fun r =>
      (r.1, r.2.head?.map JobRow.claimed)

theorem firstBefore_eq_none {js : List JobRow} : firstBefore js = none ↔ js = [] := by
  cases js with
  | nil => exact ⟨fun _ => rfl, fun _ => rfl⟩
  | cons j js =>
    simp only [firstBefore, reduceCtorEq, iff_false]
    split
    · simp
    · split <;> simp

theorem firstBefore_mem {j : JobRow} : ∀ {js : List JobRow}, firstBefore js = some j → j ∈ js
  | [], h => by cases h
  | i :: is, h => by
    simp only [firstBefore] at h
    split at h
    · exact Option.some.inj h ▸ List.mem_cons_self
    · rename_i k hk
      split at h
      · exact List.mem_cons_of_mem _ (firstBefore_mem (Option.some.inj h ▸ hk))
      · exact Option.some.inj h ▸ List.mem_cons_self

theorem JobRow.claimable_iff {j : JobRow} {build : EngineBuild} {locked : List Uuid} :
    j.claimable build locked = true ↔ j.status = .queued ∧
      j.columns.pokeEngineTag = build.pokeEngineTag ∧
      j.columns.usageStatsDataset = build.usageStatsDataset ∧ j.id ∉ locked := by
  simp [claimable, and_assoc]

theorem nextClaimable_some {db : Db} {build : EngineBuild} {locked : List Uuid} {j : JobRow}
    (h : nextClaimable db build locked = some j) :
    j ∈ db.jobs ∧ j.claimable build locked = true :=
  List.mem_filter.mp (firstBefore_mem h)

theorem nextClaimable_none {db : Db} {build : EngineBuild} {locked : List Uuid}
    (h : nextClaimable db build locked = none) :
    ∀ j ∈ db.jobs, j.claimable build locked = false := by
  intro j hj
  have hnil := firstBefore_eq_none.mp h
  rw [List.filter_eq_nil_iff] at hnil
  exact Bool.eq_false_iff.mpr (hnil j hj)

/-- With unique ids, naming the id of a row takes that row alone. -/
theorem returning_claim {jobs : List JobRow} (hu : Table.Unique JobRow.id jobs) {j : JobRow}
    (hj : j ∈ jobs) (w : String) (l : Nat) (n : Timestamptz) :
    Table.returning (JobUpdate.claim j.id w l n).sel (JobUpdate.claim j.id w l n).set jobs =
      [j.claim w l n] := by
  have hfil : jobs.filter (JobUpdate.claim j.id w l n).sel = [j] := hu.filter_eq hj
  unfold Table.returning
  rw [hfil]
  rfl

/-- **What a claim does**: it found no claimable row, or it made one the caller's. -/
theorem claimJob_ok {db db' : Db} {w : String} {l : Nat} {build : EngineBuild}
    {locked : List Uuid} {now : Timestamptz} {r : Option ClaimedJob}
    (hu : Table.Unique JobRow.id db.jobs)
    (h : claimJob db w l build locked now = .ok (db', r)) :
    (db' = db ∧ r = none ∧ ∀ j ∈ db.jobs, j.claimable build locked = false) ∨
    ∃ j ∈ db.jobs, j.claimable build locked = true ∧ r = some (j.claim w l now).claimed ∧
      db' = (JobUpdate.claim j.id w l now).apply db ∧ db'.Valid := by
  unfold claimJob at h
  split at h
  · rename_i hn
    simp only [Except.ok.injEq, Prod.mk.injEq] at h
    exact Or.inl ⟨h.1.symm, h.2.symm, nextClaimable_none hn⟩
  · rename_i j hj
    obtain ⟨hmem, hcl⟩ := nextClaimable_some hj
    obtain ⟨⟨d, rows⟩, hr, he⟩ := except_map_ok.mp h
    obtain ⟨hd, hv, hrows⟩ := JobUpdate.run_ok hr
    rw [hrows, returning_claim hu hmem] at he
    cases he
    exact Or.inr ⟨j, hmem, hcl, rfl, hd, hv⟩

theorem claimJob_error {db : Db} {w : String} {l : Nat} {build : EngineBuild}
    {locked : List Uuid} {now : Timestamptz} {e : DbError}
    (h : claimJob db w l build locked now = .error e) :
    ∃ j ∈ db.jobs, j.claimable build locked = true ∧
      ((JobUpdate.claim j.id w l now).apply db).commit = .error e := by
  unfold claimJob at h
  split at h
  · cases h
  · rename_i j hj
    obtain ⟨hmem, hcl⟩ := nextClaimable_some hj
    exact ⟨j, hmem, hcl, JobUpdate.run_error (except_map_error.mp h)⟩

end BattleCloud
