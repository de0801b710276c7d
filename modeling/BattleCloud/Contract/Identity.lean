import Mathlib.Data.List.Basic

/-!
# The contract: profiles, analysis identity, error kinds

What `api/src/contract/` and `worker/battle_cloud_worker/contract.py` both state. A client names
a profile; `deriveIdentity` expands it with the deployed engine build into the nine fields that
identify an analysis.
-/

namespace BattleCloud

inductive Perspective where
  | p1
  | p2
  deriving DecidableEq, Repr

def Perspective.text : Perspective → String
  | .p1 => "p1"
  | .p2 => "p2"

/-- `perspective IN ('p1', 'p2')`. -/
def Perspective.ofText? : String → Option Perspective
  | "p1" => some .p1
  | "p2" => some .p2
  | _ => none

theorem Perspective.ofText?_text (p : Perspective) : ofText? p.text = some p := by
  cases p <;> rfl

inductive Profile where
  | ladderParity
  | quick
  deriving DecidableEq, Repr

def Profile.name : Profile → String
  | .ladderParity => "ladder-parity"
  | .quick => "quick"

/-- One profile's expansion. -/
structure EngineParams where
  searchBudgetMsPerTurn : Int
  opponentSamples : Int
  threads : Int
  usageStatsCutoff : Int
  seed : Int
  deriving DecidableEq, Repr

/-- `PROFILES`. -/
def Profile.params : Profile → EngineParams
  | .ladderParity =>
    { searchBudgetMsPerTurn := 1000, opponentSamples := 8, threads := 4, usageStatsCutoff := 1500,
      seed := 0 }
  | .quick =>
    { searchBudgetMsPerTurn := 200, opponentSamples := 2, threads := 4, usageStatsCutoff := 1500,
      seed := 0 }

/-- Turns times the whole per-turn budget. -/
def searchTimeMs (turns : Nat) (profile : Profile) : Int :=
  turns * profile.params.searchBudgetMsPerTurn

/-- A submission `SubmitRequestSchema` accepted. -/
structure SubmitRequest where
  replayId : String
  perspective : Perspective
  profile : Profile
  deriving DecidableEq, Repr

/-- The half of the identity that comes from the deployed worker image. -/
structure EngineBuild where
  pokeEngineTag : String
  usageStatsDataset : String
  deriving DecidableEq, Repr

/-- The nine fields that identify an analysis. -/
structure AnalysisIdentity where
  replayId : String
  perspective : Perspective
  searchBudgetMsPerTurn : Int
  opponentSamples : Int
  threads : Int
  usageStatsCutoff : Int
  usageStatsDataset : String
  pokeEngineTag : String
  seed : Int
  deriving DecidableEq, Repr

def deriveIdentity (request : SubmitRequest) (build : EngineBuild) : AnalysisIdentity :=
  let params := request.profile.params
  { replayId := request.replayId
    perspective := request.perspective
    searchBudgetMsPerTurn := params.searchBudgetMsPerTurn
    opponentSamples := params.opponentSamples
    threads := params.threads
    usageStatsCutoff := params.usageStatsCutoff
    usageStatsDataset := build.usageStatsDataset
    pokeEngineTag := build.pokeEngineTag
    seed := params.seed }

/-- The closed error vocabulary both tiers share. -/
inductive ErrorKind where
  | invalidReplayId
  | replayNotFound
  | replayEmptyLog
  | replayTooLarge
  | replayMalformed
  | replayTransportFailure
  | replayTimeout
  | engineUnavailable
  | engineDataMissing
  | analysisRejected
  | analysisParseFailed
  | engineCrashed
  | engineInternalError
  | unknownProfile
  | invalidRequest
  | rateLimited
  | analysisNotFound
  deriving DecidableEq, Repr

/-- The text on the wire and in `error_kind`. -/
def ErrorKind.value : ErrorKind → String
  | .invalidReplayId => "invalid_replay_id"
  | .replayNotFound => "replay_not_found"
  | .replayEmptyLog => "replay_empty_log"
  | .replayTooLarge => "replay_too_large"
  | .replayMalformed => "replay_malformed"
  | .replayTransportFailure => "replay_transport_failure"
  | .replayTimeout => "replay_timeout"
  | .engineUnavailable => "engine_unavailable"
  | .engineDataMissing => "engine_data_missing"
  | .analysisRejected => "analysis_rejected"
  | .analysisParseFailed => "analysis_parse_failed"
  | .engineCrashed => "engine_crashed"
  | .engineInternalError => "engine_internal_error"
  | .unknownProfile => "unknown_profile"
  | .invalidRequest => "invalid_request"
  | .rateLimited => "rate_limited"
  | .analysisNotFound => "analysis_not_found"

end BattleCloud
