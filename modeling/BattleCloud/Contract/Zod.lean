import BattleCloud.Contract.Identity
import BattleCloud.Contract.Json
import Mathlib.Algebra.Ring.Int.Defs
import Mathlib.Data.List.Forall2

/-!
# Schemas of JSON values, and the contract's

`Zod.accepts` is `schema.safeParse(value).success` for the part of zod the contract is written
in; `none` is `undefined`, what an object has at a key that is not there. A number is one
`JSON.stringify` has written, so it is finite.

The second half is `api/src/contract/schemas.ts`: what the bodies of the API conform to.
-/

namespace BattleCloud.Zod

inductive Schema where
  | unknown
  | string
  | boolean
  /-- `z.number().finite()`. -/
  | finite
  /-- `z.number().int()`. -/
  | int
  | enum (values : List String)
  | nullable (inner : Schema)
  | optional (inner : Schema)
  | array (element : Schema)
  /-- `z.object(fields).strict()`, or `.passthrough()`. -/
  | object (strict : Bool) (fields : List (String × Schema))
  /-- `z.object(fields)` without either: the other keys are dropped. -/
  | stripped (fields : List (String × Schema))
  | refine (inner : Schema) (check : Json → Bool)

/-- The keys of an object. -/
def keys (fields : List (String × Json)) : List String := fields.map Prod.fst

mutual

def accepts : Schema → Option Json → Bool
  | .unknown, _ => true
  | .string, some (.str _) => true
  | .boolean, some (.bool _) => true
  | .finite, some (.num _ _) => true
  | .int, some (.num m e) => m % 10 ^ e = 0
  | .enum values, some (.str s) => values.contains s
  | .nullable _, some .null => true
  | .nullable inner, v => accepts inner v
  | .optional _, none => true
  | .optional inner, some v => accepts inner (some v)
  | .array element, some (.arr xs) => xs.all fun x => accepts element (some x)
  | .object strict fields, some (.obj vs) =>
    acceptsFields fields (.obj vs) &&
      (!strict || (keys vs).all fun k => (fields.map Prod.fst).contains k)
  | .stripped fields, some (.obj vs) => acceptsFields fields (.obj vs)
  | .refine inner check, some v => accepts inner (some v) && check v
  | _, _ => false

/-- Every declared field. -/
def acceptsFields : List (String × Schema) → Json → Bool
  | [], _ => true
  | (k, s) :: fields, v => accepts s (v.get? k) && acceptsFields fields v

end

theorem acceptsFields_iff {fields : List (String × Schema)} {v : Json} :
    acceptsFields fields v = true ↔ ∀ f ∈ fields, accepts f.2 (v.get? f.1) = true := by
  induction fields with
  | nil => simp [acceptsFields]
  | cons f fields ih =>
    obtain ⟨k, s⟩ := f
    simp [acceptsFields, ih]

/-- An object conforms field by field, and a strict one has no other keys. -/
theorem accepts_object {strict : Bool} {fields : List (String × Schema)}
    {vs : List (String × Json)} :
    accepts (.object strict fields) (some (.obj vs)) = true ↔
      (∀ f ∈ fields, accepts f.2 ((Json.obj vs).get? f.1) = true) ∧
        (strict = true → ∀ k ∈ keys vs, k ∈ fields.map Prod.fst) := by
  rw [accepts, Bool.and_eq_true, acceptsFields_iff]
  cases strict <;> simp

theorem get?_cons_self (k : String) (v : Json) (vs : List (String × Json)) :
    (Json.obj ((k, v) :: vs)).get? k = some v := by
  simp [Json.get?]

theorem get?_cons_of_ne {k k' : String} (h : k' ≠ k) (v : Json) (vs : List (String × Json)) :
    (Json.obj ((k', v) :: vs)).get? k = (Json.obj vs).get? k := by
  simp [Json.get?, h]

/-- **A record whose keys are the declared ones, in order, conforms if its values do.** -/
theorem accepts_record {strict : Bool} {fields : List (String × Schema)}
    {vs : List (String × Json)} (hkeys : keys vs = fields.map Prod.fst)
    (hnodup : (fields.map Prod.fst).Nodup)
    (h : List.Forall₂ (fun f v => accepts f.2 (some v.2) = true) fields vs) :
    accepts (.object strict fields) (some (.obj vs)) = true := by
  refine accepts_object.mpr ⟨?_, fun _ k hk => hkeys ▸ hk⟩
  induction h with
  | nil => simp
  | @cons f v fields vs hfv _ ih =>
    obtain ⟨k, s⟩ := f
    obtain ⟨k', v⟩ := v
    simp only [keys, List.map_cons, List.cons.injEq] at hkeys
    obtain ⟨rfl, hkeys⟩ := hkeys
    rw [List.map_cons, List.nodup_cons] at hnodup
    intro g hg
    rcases List.mem_cons.mp hg with rfl | hmem
    · rw [get?_cons_self]
      exact hfv
    · have hne : k' ≠ g.1 := by
        rintro rfl
        exact hnodup.1 (List.mem_map.mpr ⟨g, hmem, rfl⟩)
      rw [get?_cons_of_ne hne]
      exact ih hkeys hnodup.2 g hmem

/-- A strict object with a key that is not declared. -/
theorem not_accepts_of_key {fields : List (String × Schema)} {vs : List (String × Json)}
    {k : String} (hk : k ∈ keys vs) (hnot : k ∉ fields.map Prod.fst) :
    accepts (.object true fields) (some (.obj vs)) = false := by
  rw [← Bool.not_eq_true, accepts_object]
  exact fun h => hnot (h.2 rfl k hk)

end BattleCloud.Zod

namespace BattleCloud

open Zod (Schema)

/-! ## `schemas.ts` -/

/-- `z.enum(PERSPECTIVES)`. -/
def perspectiveSchema : Schema := .enum ["p1", "p2"]

def rankedActionSchema : Schema :=
  .object false [("action", .string), ("visitShare", .finite), ("value", .finite)]

def turnEvaluationSchema : Schema :=
  .object false
    [("turn", .int), ("winProbability", .optional (.nullable .finite)), ("gradable", .boolean),
      ("ungradableReason", .optional (.nullable .string)), ("samplesUsed", .int),
      ("playedAction", .optional (.nullable .string)),
      ("playedActionValue", .optional (.nullable .finite)),
      ("costOfPlayed", .optional (.nullable .finite)), ("topActions", .array rankedActionSchema)]

def engineConfigurationSchema : Schema :=
  .object false
    [("searchBudgetMsPerTurn", .int), ("opponentSamples", .int), ("threads", .int),
      ("usageStatsCutoff", .int), ("pokeEngineTag", .string)]

/-- `doc.schemaVersion !== SUPPORTED_SCHEMA_VERSION` adds an issue. -/
def isSupportedVersion (doc : Json) : Bool :=
  match doc.get? "schemaVersion" with
  | some (.num m e) => m = 10 ^ e
  | _ => false

def schemaV1DocumentSchema : Schema :=
  .refine
    (.object false
      [("schemaVersion", .unknown), ("replayId", .string), ("format", .string),
        ("perspective", perspectiveSchema), ("engine", engineConfigurationSchema),
        ("totalTurns", .int), ("gradableTurns", .int), ("turns", .array turnEvaluationSchema)])
    isSupportedVersion

def jobSchema : Schema :=
  .object true
    [("jobId", .string),
      ("status", .enum ["queued", "running", "succeeded", "failed", "cancelled"]),
      ("replayId", .string), ("perspective", perspectiveSchema),
      ("profile", .enum ["ladder-parity", "quick"]), ("estimatedTurns", .nullable .int),
      ("estimatedSearchMs", .nullable .int), ("elapsedMs", .nullable .int),
      ("analysisId", .nullable .string), ("errorKind", .nullable .string), ("createdAt", .string)]

def analysisEnvelopeSchema : Schema :=
  .object true
    [("analysisId", .string), ("seed", .int), ("createdAt", .string),
      ("document", schemaV1DocumentSchema)]

def analysisSummarySchema : Schema :=
  .object true
    [("analysisId", .string), ("replayId", .string), ("format", .string),
      ("rating", .nullable .int), ("players", .array .string), ("perspective", perspectiveSchema),
      ("totalTurns", .int), ("gradableTurns", .int), ("searchBudgetMsPerTurn", .int),
      ("opponentSamples", .int), ("createdAt", .string)]

def analysisPageSchema : Schema :=
  .object true [("analyses", .array analysisSummarySchema), ("nextCursor", .nullable .string)]

end BattleCloud
