import BattleCloud.Db.Operations
import BattleCloud.Fleet.Model
import BattleCloud.Lib.Loop

/-!
# `run_once`, `run_until_empty`, `run_forever`

`worker/battle_cloud_worker/queue.py` as one process runs it. A `Turn` is what one iteration of a
loop meets: the clock at each statement, what the API commits in between (`Arrival`), the
renewals of the heartbeat thread, and what the engine answers. `runOnce` is one call of
`run_once`; a statement Postgres refuses is raised out of it.

The two loops order their statements differently: `drainIteration` reclaims and then claims,
`foreverIteration` claims and reclaims only when there was nothing to claim. `runOnce_ops` shows
a call as a run of the queue's operations, which says all that later proofs use of it.
-/

namespace BattleCloud

def WorkerConfig.build (c : WorkerConfig) : EngineBuild := ⟨c.pokeEngineTag, c.usageStatsDataset⟩

/-! ## What an iteration meets -/

/-- A statement of the API. -/
inductive Arrival where
  | enqueue (id : AnalysisIdentity) (profile : Profile) (estimatedTurns estimatedSearchMs : Int)
      (newId : Uuid) (now : Timestamptz)
  | upsertReplay (payload : ReplayPayload)

def Arrival.op (db : Db) : Arrival → QueueOp
  | enqueue id profile turns searchMs newId now => .enqueue id profile turns searchMs newId now
  | upsertReplay payload =>
    match BattleCloud.upsertReplay db payload with
    | .ok db' => .elsewhere db'.replays db'.analyses
    | .error _ => .elsewhere db.replays db.analyses

/-- The tables after a sequence of statements of the API. -/
def arrive : Db → List Arrival → Db
  | db, [] => db
  | db, a :: as => arrive ((QueueOp.step db (a.op db)).getD db) as

/-- A renewal by the heartbeat thread, after what arrived before it. -/
structure Renewal where
  arrivals : List Arrival
  now : Timestamptz

structure Turn where
  /-- The clock when the iteration begins. -/
  begins : Int
  beforeReclaim : List Arrival
  reclaimAt : Timestamptz
  beforeClaim : List Arrival
  /-- Rows that other transactions hold at the claim. -/
  locked : List Uuid
  claimAt : Timestamptz
  beforeLoad : List Arrival
  /-- The renewals up to the test of `hb.lost`, and those after it. -/
  renewals : List Renewal
  lateRenewals : List Renewal
  outcome : Except EngineFailure AnalysisRun
  beforeReport : List Arrival
  newId : Uuid
  reportAt : Timestamptz
  begins_le : begins ≤ reclaimAt.us

/-! ## `run_once` -/

section Loop

variable (workerId : String) (c : WorkerConfig)

/-- `Heartbeat._run` over the renewals it makes: it ends at the first one that finds the job
lost, or is refused. -/
def renew (job : Uuid) : List Renewal → Db → Db × HeartbeatState
  | [], db => (db, .beating)
  | r :: rs, db =>
    match (JobUpdate.heartbeat job workerId c.leaseSeconds r.now).run (arrive db r.arrivals) with
    | .error _ => (arrive db r.arrivals, .stopped)
    | .ok (db', rows) => if rows.isEmpty then (db', .lost) else renew job rs db'

/-- `_report_failure`. -/
def runFailure (t : Turn) (job : ClaimedJob) (failure : EngineFailure) (db : Db) :
    Except DbError Db :=
  (reportFailure (arrive db t.beforeReport) workerId job.id c.maxAttempts failure t.reportAt).map
    Prod.fst

/-- `_report_success`; a transaction rolled back leaves the tables. -/
def runSuccess (t : Turn) (job : ClaimedJob) (run : AnalysisRun) (db : Db) : Except DbError Db :=
  (reportSuccess (arrive db t.beforeReport) workerId job run t.newId t.reportAt).map fun r =>
    match r with
    | some (db', _) => db'
    | none => arrive db t.beforeReport

/-- `run_once` from the claimed job on. -/
def process (t : Turn) (job : ClaimedJob) (db : Db) : Except DbError Db :=
  match loadReplay db job.replayId with
  | none =>
    runFailure workerId c t job ⟨.replayNotFound, "no stored replay " ++ job.replayId⟩ db
  | some _ =>
    let beaten := renew workerId c job.id t.renewals db
    let after :=
      if beaten.2 = .beating then (renew workerId c job.id t.lateRenewals beaten.1).1
      else beaten.1
    match t.outcome with
    | .error failure => runFailure workerId c t job failure after
    | .ok run => if beaten.2 = .lost then .ok after else runSuccess workerId t job run after

/-- `run_once`: the tables after it, and whether there was a job. -/
def runOnce (t : Turn) (db : Db) : Except DbError (Db × Bool) :=
  (claimJob (arrive db t.beforeClaim) workerId c.leaseSeconds c.build t.locked t.claimAt).bind
    fun r =>
      match r with
      | (db', none) => .ok (db', false)
      | (db', some job) => (process workerId c t job (arrive db' t.beforeLoad)).map (·, true)

/-! ## The loops -/

/-- `_reclaim`. -/
def reclaimExpired (t : Turn) (db : Db) : Except DbError Db :=
  ((JobUpdate.reclaim c.maxAttempts t.reclaimAt).run (arrive db t.beforeReclaim)).map Prod.fst

/-- An iteration of `run_until_empty`, and whether it goes on. -/
def drainIteration (t : Turn) (db : Db) : Except DbError (Db × Bool) :=
  (reclaimExpired c t db).bind (runOnce workerId c t)

/-- An iteration of `run_forever`, which always goes on. -/
def foreverIteration (t : Turn) (db : Db) : Except DbError (Db × Bool) :=
  (runOnce workerId c t db).bind fun r =>
    if r.2 then .ok (r.1, true) else (reclaimExpired c t r.1).map (·, true)

def iteration (t : Turn) (db : Db) : Except DbError (Db × Bool) :=
  match c.mode with
  | .drain => drainIteration workerId c t db
  | .forever => foreverIteration workerId c t db

/-- `run_until_empty` with fuel: the count it returns and the tables then. -/
def runUntilEmpty (turns : Nat → Turn) (fuel : Nat) (db : Db) :
    Option (Except DbError (Nat × Db)) :=
  Loop.run (drainIteration workerId c) turns fuel 0 db

end Loop

/-- A process in its loop; `returned` is the end of `run_until_empty`. -/
structure LoopState where
  db : Db
  returned : Bool

/-- The loop of the configured mode as a step system: an action is one iteration. -/
def LoopState.step (workerId : String) (c : WorkerConfig) (s : LoopState) (t : Turn) :
    Option LoopState :=
  if s.returned then none
  else
    match iteration workerId c t s.db with
    | .ok (db, goesOn) => some ⟨db, !goesOn⟩
    | .error _ => none

def Arrival.isEnqueue : Arrival → Bool
  | enqueue .. => true
  | upsertReplay _ => false

/-- No job is enqueued. -/
def NoEnqueue (as : List Arrival) : Prop := ∀ a ∈ as, a.isEnqueue = false

/-- No job is enqueued during the turn, and nobody else holds a row. -/
structure Turn.Quiet (t : Turn) : Prop where
  beforeReclaim : NoEnqueue t.beforeReclaim
  beforeClaim : NoEnqueue t.beforeClaim
  locked : t.locked = []
  beforeLoad : NoEnqueue t.beforeLoad
  renewals : ∀ r ∈ t.renewals ++ t.lateRenewals, NoEnqueue r.arrivals
  beforeReport : NoEnqueue t.beforeReport

/-- The claim of the turn finds nothing. -/
def Idle (c : WorkerConfig) (t : Turn) (db : Db) : Prop :=
  ∀ j ∈ (arrive db t.beforeClaim).jobs, j.claimable c.build t.locked = false

instance (c : WorkerConfig) (t : Turn) (db : Db) : Decidable (Idle c t db) :=
  inferInstanceAs (Decidable (∀ j ∈ (arrive db t.beforeClaim).jobs, _))

/-! ## The loop's statements as operations of the queue -/

/-- The operation leaves alone a row that is not queued and has this id. -/
def QueueOp.spares (id : Uuid) : QueueOp → Prop
  | .heartbeat job .. | .complete job .. | .fail job .. => job ≠ id
  | .reclaim .. => False
  | .enqueue .. | .claim .. | .elsewhere .. => True

/-- The cap the operation compares with is at most `M`. -/
def QueueOp.capped (M : Nat) : QueueOp → Prop
  | .fail _ _ _ m _ _ _ | .reclaim m _ => m ≤ M
  | .enqueue .. | .claim .. | .heartbeat .. | .complete .. | .elsewhere .. => True

instance QueueOp.decidableCapped (M : Nat) (op : QueueOp) : Decidable (op.capped M) :=
  match op with
  | .fail _ _ _ m _ _ _ | .reclaim m _ => inferInstanceAs (Decidable (m ≤ M))
  | .enqueue .. | .claim .. | .heartbeat .. | .complete .. | .elsewhere .. =>
    inferInstanceAs (Decidable True)

def QueueOp.isEnqueue : QueueOp → Bool
  | .enqueue .. => true
  | _ => false

/-- An operation of a call of `run_once` that processes the job. -/
structure RunOp (M : Nat) (quiet : Prop) (job : Uuid) (_ : Db) (op : QueueOp) : Prop where
  capped : op.capped M
  noEnqueue : quiet → op.isEnqueue = false
  spares : ∀ id, job ≠ id → op.spares id

theorem QueueOp.step_of_exec {db db' : Db} {op : QueueOp} (h : op.exec db = .ok db') :
    QueueOp.step db op = some db' := by
  unfold QueueOp.step
  rw [h]

theorem QueueOp.step_isSome (db : Db) (op : QueueOp) : ∃ db', QueueOp.step db op = some db' := by
  unfold QueueOp.step
  split <;> exact ⟨_, rfl⟩

section Ops

variable {workerId : String} {c : WorkerConfig} {t : Turn} {db db' : Db} {M : Nat} {q : Prop}
  {id : Uuid}

/-- Arrivals are operations of the queue. -/
theorem arrive_reach {C : Db → QueueOp → Prop} {as : List Arrival}
    (h : ∀ d, ∀ a ∈ as, C d (a.op d)) : StepSystem.Reach QueueOp.step C db (arrive db as) := by
  induction as generalizing db with
  | nil => exact .init
  | cons a as ih =>
    obtain ⟨d, hd⟩ := QueueOp.step_isSome db (a.op db)
    have hrest : StepSystem.Reach QueueOp.step C d (arrive d as) :=
      ih fun d' a' ha' => h d' a' (List.mem_cons_of_mem _ ha')
    simp only [arrive, hd, Option.getD_some]
    exact (StepSystem.Reach.next .init (h db a List.mem_cons_self) hd).trans hrest

theorem Arrival.op_spares (d : Db) (a : Arrival) (id : Uuid) : (a.op d).spares id := by
  cases a with
  | enqueue i p n m newId now => trivial
  | upsertReplay payload =>
    simp only [Arrival.op]
    split <;> trivial

theorem Arrival.op_capped (d : Db) (a : Arrival) (M : Nat) : (a.op d).capped M := by
  cases a with
  | enqueue i p n m newId now => trivial
  | upsertReplay payload =>
    simp only [Arrival.op]
    split <;> trivial

theorem Arrival.op_isEnqueue (d : Db) (a : Arrival) : (a.op d).isEnqueue = a.isEnqueue := by
  cases a with
  | enqueue i p n m newId now => rfl
  | upsertReplay payload =>
    simp only [Arrival.op]
    split <;> rfl

theorem arrive_ops {as : List Arrival} (h : q → NoEnqueue as) :
    StepSystem.Reach QueueOp.step (RunOp M q id) db (arrive db as) := by
  refine arrive_reach fun d a ha => ⟨a.op_capped d M, fun hq => ?_, fun i _ => a.op_spares d i⟩
  rw [a.op_isEnqueue]
  exact h hq a ha

theorem renew_ops {rs : List Renewal} (h : q → ∀ r ∈ rs, NoEnqueue r.arrivals) :
    StepSystem.Reach QueueOp.step (RunOp M q id) db (renew workerId c id rs db).1 := by
  induction rs generalizing db with
  | nil => exact .init
  | cons r rs ih =>
    have harr : StepSystem.Reach QueueOp.step (RunOp M q id) db (arrive db r.arrivals) :=
      arrive_ops fun hq => h hq r List.mem_cons_self
    simp only [renew]
    split
    · exact harr
    · rename_i d rows hok
      have hst : QueueOp.step (arrive db r.arrivals)
          (.heartbeat id workerId c.leaseSeconds r.now) = some d := by
        refine QueueOp.step_of_exec ?_
        simp only [QueueOp.exec, hok]
        rfl
      have hop : RunOp M q id (arrive db r.arrivals)
          (.heartbeat id workerId c.leaseSeconds r.now) := ⟨trivial, fun _ => rfl, fun _ h => h⟩
      have hbeat := StepSystem.Reach.next harr hop hst
      split
      · exact hbeat
      · exact hbeat.trans (ih fun hq r hr => h hq r (List.mem_cons_of_mem _ hr))

theorem runFailure_ops (hM : c.maxAttempts ≤ M) (hq : q → t.Quiet) {job : ClaimedJob}
    {f : EngineFailure} (h : runFailure workerId c t job f db = .ok db') :
    StepSystem.Reach QueueOp.step (RunOp M q job.id) db db' := by
  obtain ⟨⟨d, rows⟩, hr, rfl⟩ := except_map_ok.mp h
  obtain ⟨u, rfl, hdb, hv, -⟩ := reportFailure_ok hr
  rw [hdb] at hv ⊢
  refine StepSystem.Reach.next (arrive_ops fun h => (hq h).beforeReport)
    (a := .fail job.id workerId (retryableKinds.contains f.kind) c.maxAttempts f.kind
      f.errorDetail t.reportAt) ⟨hM, fun _ => rfl, fun _ h => h⟩ ?_
  exact QueueOp.step_of_exec (JobUpdate.run_of_valid hv)

/-- The transaction of a report is the upsert followed by `complete_job`. -/
theorem reportSuccess_ops {job : ClaimedJob} {run : AnalysisRun} {newId : Uuid}
    {now : Timestamptz} {row : AnalysisRow}
    (h : reportSuccess db workerId job run newId now = .ok (some (db', row))) :
    StepSystem.Reach QueueOp.step (RunOp M q job.id) db db' := by
  have hins := h
  unfold reportSuccess at hins
  obtain ⟨⟨d, row'⟩, hi, -⟩ := except_bind_ok.mp hins
  obtain ⟨p, hp, rfl, rfl, hvi⟩ := insertAnalysis_ok hi
  obtain ⟨p', hp', ⟨hn, -⟩ | ⟨d, hd, -, rfl, hv⟩⟩ := reportSuccess_ok h
  · cases hn
  · cases hd
    obtain rfl : p = p' := Except.ok.inj (hp.symm.trans hp')
    have hput : RunOp M q job.id db
        (.elsewhere db.replays (db.putAnalysis (written db p)).analyses) :=
      ⟨trivial, fun _ => rfl, fun _ _ => trivial⟩
    have hcomplete : RunOp M q job.id (db.putAnalysis (written db p))
        (.complete job.id workerId (written db p).id now) :=
      ⟨trivial, fun _ => rfl, fun _ h => h⟩
    refine .next (.next .init hput (QueueOp.step_of_exec (Db.commit_ok.mpr ⟨hvi, rfl⟩)))
      hcomplete ?_
    exact QueueOp.step_of_exec (JobUpdate.run_of_valid hv)

theorem runSuccess_ops (hq : q → t.Quiet) {job : ClaimedJob} {run : AnalysisRun}
    (h : runSuccess workerId t job run db = .ok db') :
    StepSystem.Reach QueueOp.step (RunOp M q job.id) db db' := by
  have harr : StepSystem.Reach QueueOp.step (RunOp M q job.id) db (arrive db t.beforeReport) :=
    arrive_ops fun h => (hq h).beforeReport
  obtain ⟨r, hr, rfl⟩ := except_map_ok.mp h
  cases r with
  | none => exact harr
  | some r => exact harr.trans (reportSuccess_ops hr)

theorem process_ops (hM : c.maxAttempts ≤ M) (hq : q → t.Quiet) {job : ClaimedJob}
    (h : process workerId c t job db = .ok db') :
    StepSystem.Reach QueueOp.step (RunOp M q job.id) db db' := by
  have hrenew : ∀ {rs : List Renewal} {d : Db}, (∀ r ∈ rs, r ∈ t.renewals ++ t.lateRenewals) →
      StepSystem.Reach QueueOp.step (RunOp M q job.id) d (renew workerId c job.id rs d).1 := by
    intro rs d hsub
    exact renew_ops fun h r hr => (hq h).renewals r (hsub r hr)
  unfold process at h
  split at h
  · exact runFailure_ops hM hq h
  · have hbeaten : StepSystem.Reach QueueOp.step (RunOp M q job.id) db
        (renew workerId c job.id t.renewals db).1 :=
      hrenew fun r hr => List.mem_append_left _ hr
    have hafter : StepSystem.Reach QueueOp.step (RunOp M q job.id) db
        (if (renew workerId c job.id t.renewals db).2 = .beating then
          (renew workerId c job.id t.lateRenewals (renew workerId c job.id t.renewals db).1).1
        else (renew workerId c job.id t.renewals db).1) := by
      split
      · exact hbeaten.trans (hrenew fun r hr => List.mem_append_right _ hr)
      · exact hbeaten
    simp only at h
    split at h
    · exact hafter.trans (runFailure_ops hM hq h)
    · split at h
      · cases h
        exact hafter
      · exact hafter.trans (runSuccess_ops hq h)

/-- **What a call of `run_once` does**: its claim finds nothing, or takes a queued job and the
rest are operations that name this job only. -/
theorem runOnce_ok (hv : (arrive db t.beforeClaim).Valid) (hM : c.maxAttempts ≤ M)
    (hq : q → t.Quiet) {found : Bool} (h : runOnce workerId c t db = .ok (db', found)) :
    (found = false ∧ db' = arrive db t.beforeClaim ∧ Idle c t db) ∨
    (found = true ∧ ∃ j ∈ (arrive db t.beforeClaim).jobs,
      j.claimable c.build t.locked = true ∧
      QueueOp.step (arrive db t.beforeClaim)
        (.claim workerId c.leaseSeconds c.build t.locked t.claimAt) =
        some ((JobUpdate.claim j.id workerId c.leaseSeconds t.claimAt).apply
          (arrive db t.beforeClaim)) ∧
      StepSystem.Reach QueueOp.step (RunOp M q j.id)
        ((JobUpdate.claim j.id workerId c.leaseSeconds t.claimAt).apply
          (arrive db t.beforeClaim)) db') := by
  unfold runOnce at h
  obtain ⟨⟨d, r⟩, hc, h⟩ := except_bind_ok.mp h
  rcases claimJob_ok (hv .jobsPkey) hc with ⟨rfl, rfl, hidle⟩ | ⟨j, hj, hcl, rfl, rfl, -⟩
  · cases h
    exact Or.inl ⟨rfl, rfl, hidle⟩
  · obtain ⟨d, hp, he⟩ := except_map_ok.mp h
    cases he
    refine Or.inr ⟨rfl, j, hj, hcl, QueueOp.step_of_exec ?_, ?_⟩
    · simp only [QueueOp.exec, hc]
      rfl
    · exact (arrive_ops fun h => (hq h).beforeLoad).trans (process_ops hM hq hp)

end Ops

end BattleCloud
