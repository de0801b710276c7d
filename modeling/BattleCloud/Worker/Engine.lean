import BattleCloud.Contract.Identity
import BattleCloud.Contract.Json
import BattleCloud.Db.Queue

/-!
# The adapter between a job and `analyze_replay`

`worker/battle_cloud_worker/engine.py` and `contract.py`. The engine is an arbitrary function of
the payload and the keyword arguments; what is modelled is which arguments it is handed. The
telemetry of a run is kept as the two values that are stored.
-/

namespace BattleCloud

/-- The dict `_load_replay` rebuilds in the shape of a Showdown payload. -/
structure EnginePayload where
  id : String
  formatid : String
  rating : Option Int
  players : Json
  log : String

/-- The seven keyword arguments of `analyze_replay`. -/
structure AnalyzeKwargs where
  perspective : Perspective
  replayId : String
  searchTimeMs : Int
  nOpponentSamples : Int
  threads : Int
  usageStatsCutoff : Int
  seed : Int
  deriving DecidableEq

/-- The `AnalysisIdentity` dataclass `run_once` builds from the claimed row. -/
def ClaimedJob.identity (job : ClaimedJob) : AnalysisIdentity :=
  { replayId := job.replayId
    perspective := job.perspective
    searchBudgetMsPerTurn := job.searchBudgetMsPerTurn
    opponentSamples := job.opponentSamples
    threads := job.threads
    usageStatsCutoff := job.usageStatsCutoff
    usageStatsDataset := job.usageStatsDataset
    pokeEngineTag := job.pokeEngineTag
    seed := job.seed }

/-- `kwargs` of `EngineAdapter.analyze`. -/
def analyzeKwargs (identity : AnalysisIdentity) : AnalyzeKwargs :=
  { perspective := identity.perspective
    replayId := identity.replayId
    searchTimeMs := identity.searchBudgetMsPerTurn
    nOpponentSamples := identity.opponentSamples
    threads := identity.threads
    usageStatsCutoff := identity.usageStatsCutoff
    seed := identity.seed }

/-- What an `analyze_replay` call was given and what it returned. -/
structure EngineCall where
  payload : EnginePayload
  kwargs : AnalyzeKwargs
  document : Json

structure AnalysisRun where
  document : Json
  wallMs : Nat
  degraded : Bool

structure EngineFailure where
  kind : ErrorKind
  detail : String

end BattleCloud
