import BattleCloud.Db.Invariant
import BattleCloud.Lib.System

/-!
# The fleet: submissions and workers over one database

A step system whose state is the tables, the submissions being handled by any number of API
instances, the worker processes and their heartbeat threads. Every awaited step of
`POST /v1/analyses` (`submissionStep`) and of `run_once` inside either worker loop (`workerStep`)
is one action, so any interleaving of them is a run; `now()` and `gen_random_uuid()` are arbitrary
values of the action. A statement Postgres refuses is raised in the process that issued it: the
submission is answered 500, the worker process ends.

`log` is a history, newest first, that nothing reads: one `Event` a step, in which the results
about runs are stated. What the limiter, the replay fetch and the engine answer is arbitrary.
The lock a claim skips over (`locked`) is arbitrary too. `ensureRunning` is the step between
`launching` and the answer; the launcher itself is modelled apart.
-/

namespace BattleCloud

/-! ## Submissions -/

inductive Response where
  /-- 200 with the cached analysis. -/
  | ok (analysis : StoredAnalysis)
  /-- 202 with the job. -/
  | accepted (job : StoredJob) (created : Bool)
  | error (kind : ErrorKind)
  /-- 500: a statement was refused, or the connection lost. -/
  | internal

/-- Where the handler of `POST /v1/analyses` stands. -/
inductive SubmissionPhase where
  | received
  | limiting
  | acquiring
  | fetching
  | storing (payload : ReplayPayload)
  | enqueueing (estimatedTurns : Nat)
  | launching (job : StoredJob) (created : Bool)
  | answered (response : Response)

structure Submission where
  request : SubmitRequest
  build : EngineBuild
  phase : SubmissionPhase

def Submission.identity (s : Submission) : AnalysisIdentity := deriveIdentity s.request s.build

def Submission.columns (s : Submission) : IdentityColumns := s.identity.columns

inductive SubmissionAction where
  | lookup
  | tryConsume (allowed : Bool)
  | replayLog
  | fetch (outcome : Except ErrorKind (String × Json))
  | upsertReplay
  | enqueue (newId : Uuid) (now : Timestamptz)
  | respond
  | abort

/-! ## Workers -/

inductive Mode where
  | forever
  | drain
  deriving DecidableEq

/-- What `WorkerConfig.from_env` accepts, less what the queue does not read. -/
structure WorkerConfig where
  mode : Mode
  pokeEngineTag : String
  usageStatsDataset : String
  leaseSeconds : Nat
  maxAttempts : Nat
  leaseSeconds_pos : 1 ≤ leaseSeconds
  maxAttempts_pos : 1 ≤ maxAttempts

/-- Where a worker process stands in its loop. -/
inductive WorkerPhase where
  | reclaiming
  | claiming
  | loading (job : ClaimedJob)
  | analyzing (job : ClaimedJob) (payload : EnginePayload) (heartbeat : Nat)
  | failing (job : Uuid) (failure : EngineFailure)
  | reporting (job : ClaimedJob) (run : AnalysisRun)
  | completing (job : ClaimedJob) (run : AnalysisRun) (newId : Uuid) (now : Timestamptz)
  /-- `run_until_empty` has made its last, empty claim. -/
  | drained
  | exited
  | crashed

structure Worker where
  workerId : String
  config : WorkerConfig
  phase : WorkerPhase

namespace Worker

def build (w : Worker) : EngineBuild := ⟨w.config.pokeEngineTag, w.config.usageStatsDataset⟩

def alive (w : Worker) : Bool :=
  match w.phase with
  | .exited | .crashed => false
  | _ => true

/-- The first statement of either loop. -/
def start (mode : Mode) : WorkerPhase :=
  match mode with
  | .drain => .reclaiming
  | .forever => .claiming

/-- After a processed job: `run_until_empty` reclaims first, `run_forever` claims again. -/
def afterJob (w : Worker) : WorkerPhase := start w.config.mode

/-- After an empty claim: `run_until_empty` returns, `run_forever` reclaims and polls. -/
def afterEmpty (w : Worker) : WorkerPhase :=
  match w.config.mode with
  | .drain => .drained
  | .forever => .reclaiming

end Worker

inductive WorkerAction where
  | reclaim (now : Timestamptz)
  | claim (locked : List Uuid) (now : Timestamptz)
  | load
  | analyze (outcome : Except EngineFailure AnalysisRun)
  | fail (now : Timestamptz)
  | insert (newId : Uuid) (now : Timestamptz)
  | complete
  | exit
  | crash

inductive HeartbeatState where
  | beating
  /-- `lost` is set and the thread has returned. -/
  | lost
  /-- The renewal was refused and the thread has ended. -/
  | stopped
  deriving DecidableEq

/-- A heartbeat thread of the worker at an index. -/
structure Heartbeat where
  worker : Nat
  job : Uuid
  state : HeartbeatState

/-! ## The history -/

inductive Event where
  | quiet
  | missed (submission : Nat) (columns : IdentityColumns)
  | served (submission : Nat) (analysis : StoredAnalysis)
  | upserted (submission : Nat)
  | created (submission : Nat) (job : Uuid) (columns : IdentityColumns)
  | joined (submission : Nat) (job : Uuid)
  | claimed (worker : Nat) (job : Uuid)
  | renewed (worker : Nat) (job : Uuid)
  | invoked (worker : Nat) (job : Uuid) (columns : IdentityColumns)
  | returned (worker : Nat) (call : EngineCall)
  | failed (worker : Nat) (job : Uuid)
  | reclaimed (jobs : List Uuid)
  | completed (worker : Nat) (job : Uuid) (row : AnalysisRow)
  | replayNotFound (worker : Nat) (job : Uuid)
  | rejected (error : DbError)

structure Fleet where
  db : Db
  submissions : List Submission
  workers : List Worker
  heartbeats : List Heartbeat
  log : List Event

inductive Action where
  | submit (request : SubmitRequest) (build : EngineBuild)
  | submission (i : Nat) (action : SubmissionAction)
  | spawn (workerId : String) (config : WorkerConfig)
  | worker (i : Nat) (action : WorkerAction)
  | heartbeat (h : Nat) (now : Timestamptz)

/-! ## Steps -/

/-- One step of the handler: the tables, where it stands, and what happened. -/
def submissionStep (db : Db) (i : Nat) (s : Submission) :
    SubmissionAction → Option (Db × SubmissionPhase × Event)
  | .lookup =>
    match s.phase with
    | .received =>
      match analysisByIdentity db s.identity with
      | .ok (some a) => some (db, .answered (.ok a), .served i a)
      | .ok none => some (db, .limiting, .missed i s.columns)
      | .error e => some (db, .answered .internal, .rejected e)
    | _ => none
  | .tryConsume allowed =>
    match s.phase with
    | .limiting =>
      some (db, if allowed then .acquiring else .answered (.error .rateLimited), .quiet)
    | _ => none
  | .replayLog =>
    match s.phase with
    | .acquiring =>
      match replayLog db s.request.replayId with
      | some log => some (db, .enqueueing (estimateTurns log), .quiet)
      | none => some (db, .fetching, .quiet)
    | _ => none
  | .fetch outcome =>
    match s.phase with
    | .fetching =>
      match outcome with
      | .ok (log, raw) => some (db, .storing ⟨s.request.replayId, log, raw⟩, .quiet)
      | .error kind => some (db, .answered (.error kind), .quiet)
    | _ => none
  | .upsertReplay =>
    match s.phase with
    | .storing payload =>
      match upsertReplay db payload with
      | .ok db' => some (db', .enqueueing (estimateTurns payload.log), .upserted i)
      | .error e => some (db, .answered .internal, .rejected e)
    | _ => none
  | .enqueue newId now =>
    match s.phase with
    | .enqueueing turns =>
      match enqueue db s.identity s.request.profile turns
          (estimateDuration turns s.request.profile) newId now with
      | .ok (db', job, created) =>
        some (db',
          if job.status = .queued then .launching (toJob job) created
          else .answered (.accepted (toJob job) created),
          if created then .created i job.id job.columns else .joined i job.id)
      | .error e => some (db, .answered .internal, .rejected e)
    | _ => none
  | .respond =>
    match s.phase with
    | .launching job created => some (db, .answered (.accepted job created), .quiet)
    | _ => none
  | .abort =>
    match s.phase with
    | .answered _ => none
    | _ => some (db, .answered .internal, .quiet)

/-- One step of a worker's main thread. -/
def workerStep (db : Db) (heartbeats : List Heartbeat) (i : Nat) (w : Worker) :
    WorkerAction → Option (Db × WorkerPhase × Event)
  | .reclaim now =>
    match w.phase with
    | .reclaiming =>
      match (JobUpdate.reclaim w.config.maxAttempts now).run db with
      | .ok (db', rows) => some (db', .claiming, .reclaimed (rows.map JobRow.id))
      | .error e => some (db, .crashed, .rejected e)
    | _ => none
  | .claim locked now =>
    match w.phase with
    | .claiming =>
      match claimJob db w.workerId w.config.leaseSeconds w.build locked now with
      | .ok (db', some job) => some (db', .loading job, .claimed i job.id)
      | .ok (_, none) => some (db, w.afterEmpty, .quiet)
      | .error e => some (db, .crashed, .rejected e)
    | _ => none
  | .load =>
    match w.phase with
    | .loading job =>
      match loadReplay db job.replayId with
      | some payload =>
        some (db, .analyzing job payload heartbeats.length, .invoked i job.id job.columns)
      | none =>
        some (db, .failing job.id ⟨.replayNotFound, "no stored replay " ++ job.replayId⟩,
          .replayNotFound i job.id)
    | _ => none
  | .analyze outcome =>
    match w.phase with
    | .analyzing job payload h =>
      match outcome with
      | .error failure => some (db, .failing job.id failure, .quiet)
      | .ok run =>
        -- `hb.lost.is_set()`: the result is discarded and the job left to its new owner
        some (db,
          if (heartbeats[h]?).any fun hb => hb.state = .lost then w.afterJob
          else .reporting job run,
          .returned i ⟨payload, analyzeKwargs job.identity, run.document⟩)
    | _ => none
  | .fail now =>
    match w.phase with
    | .failing job failure =>
      match reportFailure db w.workerId job w.config.maxAttempts failure now with
      | .ok (db', rows) =>
        some (db', w.afterJob, if rows.isEmpty then .quiet else .failed i job)
      | .error e => some (db, .crashed, .rejected e)
    | _ => none
  | .insert newId now =>
    match w.phase with
    | .reporting job run =>
      match insertAnalysis db job run newId now with
      | .ok _ => some (db, .completing job run newId now, .quiet)
      | .error e => some (db, .crashed, .rejected e)
    | _ => none
  | .complete =>
    match w.phase with
    | .completing job run newId now =>
      match reportSuccess db w.workerId job run newId now with
      | .ok (some (db', row)) => some (db', w.afterJob, .completed i job.id row)
      | .ok none => some (db, w.afterJob, .quiet)
      | .error e => some (db, .crashed, .rejected e)
    | _ => none
  | .exit =>
    match w.phase with
    | .drained => some (db, .exited, .quiet)
    | _ => none
  | .crash => if w.alive then some (db, .crashed, .quiet) else none

/-- One renewal by the heartbeat thread `hb` of the worker `w`. -/
def heartbeatStep (db : Db) (hb : Heartbeat) (w : Worker) (now : Timestamptz) :
    Option (Db × HeartbeatState × Event) :=
  if hb.state = .beating ∧ w.alive then
    match (JobUpdate.heartbeat hb.job w.workerId w.config.leaseSeconds now).run db with
    | .ok (db', rows) =>
      some (db', if rows.isEmpty then .lost else .beating,
        if rows.isEmpty then .quiet else .renewed hb.worker hb.job)
    | .error e => some (db, .stopped, .rejected e)
  else none

/-- The thread `Heartbeat.__enter__` starts. -/
def Event.thread : Event → List Heartbeat
  | .invoked i job _ => [⟨i, job, .beating⟩]
  | _ => []

namespace Fleet

def init : Fleet := ⟨Db.empty, [], [], [], []⟩

def step (s : Fleet) : Action → Option Fleet
  | .submit request build =>
    some { s with submissions := s.submissions ++ [⟨request, build, .received⟩]
                  log := .quiet :: s.log }
  | .submission i action =>
    (s.submissions[i]?).bind fun sub =>
    (submissionStep s.db i sub action).map fun r =>
      { s with db := r.1
               submissions := s.submissions.set i { sub with phase := r.2.1 }
               log := r.2.2 :: s.log }
  | .spawn workerId config =>
    -- a live process has a `hostname/pid` of its own
    if s.workers.any fun w => w.alive && w.workerId = workerId then none
    else
      some { s with workers := s.workers ++ [⟨workerId, config, Worker.start config.mode⟩]
                    log := .quiet :: s.log }
  | .worker i action =>
    (s.workers[i]?).bind fun w =>
    (workerStep s.db s.heartbeats i w action).map fun r =>
      { s with db := r.1
               workers := s.workers.set i { w with phase := r.2.1 }
               heartbeats := s.heartbeats ++ r.2.2.thread
               log := r.2.2 :: s.log }
  | .heartbeat h now =>
    (s.heartbeats[h]?).bind fun hb =>
    (s.workers[hb.worker]?).bind fun w =>
    (heartbeatStep s.db hb w now).map fun r =>
      { s with db := r.1
               heartbeats := s.heartbeats.set h { hb with state := r.2.1 }
               log := r.2.2 :: s.log }

/-- The states of the fleet. -/
abbrev Reachable : Fleet → Prop := StepSystem.Reachable step init

/-- Where a list of actions leads; the start when one of them is not possible. -/
def after (as : List Action) : Fleet := StepSystem.after step init as

theorem reachable_after (as : List Action) : (after as).Reachable := StepSystem.reachable_after as

/-- The same where every step has to meet `C`. -/
def afterIf (C : Fleet → Action → Prop) [∀ s a, Decidable (C s a)] (as : List Action) : Fleet :=
  StepSystem.afterIf step C init as

theorem reach_afterIf (C : Fleet → Action → Prop) [∀ s a, Decidable (C s a)] (as : List Action) :
    StepSystem.Reach step C init (afterIf C as) :=
  StepSystem.reach_afterIf as

end Fleet

/-! ## One submission and one task -/

namespace Sample

def noon : Timestamptz := ⟨1788739200000000, by decide⟩
def later : Timestamptz := ⟨1788739260000000, by decide⟩
def evening : Timestamptz := ⟨1788760800000000, by decide⟩

def build : EngineBuild := ⟨"v0.0.47", "2026-07"⟩

def config : WorkerConfig :=
  { mode := .drain, pokeEngineTag := "v0.0.47", usageStatsDataset := "2026-07",
    leaseSeconds := 900, maxAttempts := 3, leaseSeconds_pos := by decide,
    maxAttempts_pos := by decide }

def request : SubmitRequest := ⟨"gen9ou-2672927429", .p1, .quick⟩

/-- A document with these counts. -/
def document (totalTurns gradableTurns : Int) : Json :=
  .obj [("totalTurns", .num totalTurns 0), ("gradableTurns", .num gradableTurns 0)]

/-- A first submission of a replay, up to its enqueue. -/
def submitFirst (newId : Uuid) : List Action :=
  [.submit request build, .submission 0 .lookup, .submission 0 (.tryConsume true),
    .submission 0 .replayLog,
    .submission 0 (.fetch (.ok ("|turn|1\n|turn|2", .obj [("formatid", .str "gen9ou")]))),
    .submission 0 .upsertReplay, .submission 0 (.enqueue newId noon)]

/-- A drain task claims the job and the engine returns. -/
def analyze (worker : Nat) (workerId : String) (run : AnalysisRun) : List Action :=
  [.spawn workerId config, .worker worker (.reclaim noon), .worker worker (.claim [] noon),
    .worker worker .load, .worker worker (.analyze (.ok run))]

/-- It reports. -/
def report (worker : Nat) (newId : Uuid) : List Action :=
  [.worker worker (.insert newId later), .worker worker .complete]

/-- The job is claimed and analyzed, not yet reported. -/
def analyzed : List Action :=
  submitFirst 7 ++ analyze 0 "host/1" ⟨document 2 2, 1200, false⟩

/-- And reported. -/
def reported : List Action := analyzed ++ report 0 9

/-- The first worker stalls before its report: its lease expires and a second one has the job. -/
def fenced : List Action :=
  analyzed ++ [.spawn "host/2" config, .worker 1 (.reclaim evening), .worker 1 (.claim [] evening),
    .worker 0 (.insert 9 later)]

example : (StepSystem.exec Fleet.step Fleet.init reported).isSome = true := by decide

end Sample

end BattleCloud
