import BattleCloud.Contract.Identity
import BattleCloud.Contract.Json

/-!
# Replays as the API acquires them

`api/src/replay/`: the turn estimate counts `|turn|N` lines of the log, and what `fetchReplay`
resolves with is turned into the columns of `replays` by the submission route. The fetch itself
(HTTP, the capped reader) is modelled apart: here a fetch gives any payload or any error kind.
-/

namespace BattleCloud

/-- What `fetchReplay` resolves with. -/
structure ReplayPayload where
  id : String
  log : String
  raw : Json

/-! ## The estimate -/

/-- `.replace(/\r\n/g, '\n')`. -/
def crlfToLf : List Char → List Char
  | '\r' :: '\n' :: cs => '\n' :: crlfToLf cs
  | c :: cs => c :: crlfToLf cs
  | [] => []

/-- `.replace(/\r/g, '\n')`. -/
def crToLf (cs : List Char) : List Char := cs.map fun c => if c = '\r' then '\n' else c

/-- `/^\|turn\|\d+$/` on a line without a line feed. -/
def isTurnLine : List Char → Bool
  | '|' :: 't' :: 'u' :: 'r' :: 'n' :: '|' :: d :: ds => (d :: ds).all Char.isDigit
  | _ => false

def estimateTurns (log : String) : Nat :=
  let normalized := crToLf (crlfToLf log.toList)
  (normalized.splitOn '\n').countP isTurnLine

def estimateDuration (turns : Nat) (profile : Profile) : Int := searchTimeMs turns profile

example : estimateTurns "|start\r\n|turn|1\r|turn|x\n|turn|2" = 2 := by decide

/-! ## The columns of `replays` -/

namespace ReplayPayload

/-- `typeof raw['formatid'] === 'string' ? raw['formatid'] : 'unknown'`. -/
def format (p : ReplayPayload) : String :=
  match p.raw.get? "formatid" with
  | some (.str s) => s
  | _ => "unknown"

/-- `typeof raw['rating'] === 'number' ? raw['rating'] : null`, as a numerator and a power of
ten. -/
def rating (p : ReplayPayload) : Option (Int × Nat) :=
  match p.raw.get? "rating" with
  | some (.num m e) => some (m, e)
  | _ => none

/-- `raw['players'] ?? []`. -/
def players (p : ReplayPayload) : Json :=
  match p.raw.get? "players" with
  | none | some .null => .arr []
  | some v => v

/-- `Buffer.byteLength(payload.log, 'utf8')`. -/
def payloadBytes (p : ReplayPayload) : Nat := p.log.utf8ByteSize

end ReplayPayload

end BattleCloud
