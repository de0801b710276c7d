import Mathlib.Data.List.Basic

/-!
# JSON values

The values the tiers exchange and Postgres stores as `jsonb`: replay payloads, `players`, and
the engine's documents (a Python `dict` that `json.dumps` writes). A number is `m / 10 ^ e`,
exactly what its decimal text says; `e = 0` is an integer.
-/

namespace BattleCloud

inductive Json where
  | null
  | bool (b : Bool)
  | num (m : Int) (e : Nat)
  | str (s : String)
  | arr (xs : List Json)
  | obj (fields : List (String × Json))

namespace Json

/-- `value[key]` of an object; `none` is a missing key, or a value that is no object. -/
def get? : Json → String → Option Json
  | obj fields, key => (fields.find? fun f => f.1 = key).map Prod.snd
  | _, _ => none

/-- `document.get(key, 0)`. -/
def getOrZero (j : Json) (key : String) : Json := (j.get? key).getD (num 0 0)

end Json

/-- No U+0000: what a `text` value and a string inside a `jsonb` value must meet. -/
def nulFree (s : String) : Bool := !s.toList.contains '\x00'

mutual

/-- No U+0000 in any string or key. -/
def Json.nulFree : Json → Bool
  | .null => true
  | .bool _ => true
  | .num _ _ => true
  | .str s => BattleCloud.nulFree s
  | .arr xs => Json.nulFreeAll xs
  | .obj fields => Json.nulFreeFields fields

def Json.nulFreeAll : List Json → Bool
  | [] => true
  | x :: xs => x.nulFree && Json.nulFreeAll xs

def Json.nulFreeFields : List (String × Json) → Bool
  | [] => true
  | (k, v) :: fs => BattleCloud.nulFree k && v.nulFree && Json.nulFreeFields fs

end

example : (Json.obj [("totalTurns", .num 24 0), ("turns", .arr [.str "a"])]).nulFree = true := by
  decide

end BattleCloud
