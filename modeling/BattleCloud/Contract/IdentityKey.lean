import BattleCloud.Contract.Js
import BattleCloud.Lib.NumberText
import BattleCloud.Lib.Percent
import BattleCloud.Lib.Traverse
import Mathlib.Data.Bool.AllAny

/-!
# `identityKey`

`identityKey` of `api/src/contract/identity.ts` on an object as JavaScript has it: a list of
properties in the order they were inserted, with any others beside the nine it reads.

`identityKey_eq_iff`: two identities have one key exactly if they agree on all nine fields. The
separators are outside the set `encodeURIComponent` keeps, so the key splits into its pieces, and
each piece gives its value back.
-/

namespace BattleCloud

/-- `IDENTITY_FIELDS`. -/
def identityFields : List String :=
  ["replayId", "perspective", "searchBudgetMsPerTurn", "opponentSamples", "threads",
    "usageStatsCutoff", "usageStatsDataset", "pokeEngineTag", "seed"]

/-! ## `String(value)` -/

mutual

/-- `String(value)` of a value that is there; `none` is a `TypeError`. -/
def JsValue.string : JsValue → Option JsString
  | .null => some (js "null")
  | .bool b => some (js (if b then "true" else "false"))
  | .num m e => some (NumberText.numberText m e)
  | .infinite negative => some (js (if negative then "-Infinity" else "Infinity"))
  | .str s => some s
  | .arr xs => (JsValue.strings xs).map (List.intercalate (js ","))
  -- a property of this name is no function, and neither is what is tried after it
  | .obj fields =>
    if (fieldOf fields "toString").isSome then none else some (js "[object Object]")

/-- The elements of `join`, where `null` is the empty string. -/
def JsValue.strings : List JsValue → Option (List JsString)
  | [] => some []
  | x :: xs => (match x with
    | .null => some []
    | x => x.string).bind fun s => (JsValue.strings xs).map (s :: ·)

end

/-- `String(object[key])`. -/
def stringOf (fields : List (JsString × JsValue)) (key : String) : Option JsString :=
  match fieldOf fields key with
  | none => some (js "undefined")
  | some v => v.string

/-! ## `encodeURIComponent` -/

/-- `A-Z a-z 0-9 - _ . ! ~ * ' ( )`. -/
def isUnescaped (c : Char) : Bool :=
  (65 ≤ c.toNat && c.toNat ≤ 90) || (97 ≤ c.toNat && c.toNat ≤ 122) ||
    (48 ≤ c.toNat && c.toNat ≤ 57) || "-_.!~*'()".toList.contains c

/-- `encodeURIComponent(s)`; `none` is the `URIError` of a surrogate without its partner. -/
def encodeURIComponent (s : JsString) : Option JsString :=
  if Utf16.wellFormed s then some (Percent.encode isUnescaped ((Utf16.decode s).filterMap id))
  else none

/-- One `name=value` of the key. -/
def identityPiece (identity : List (JsString × JsValue)) (field : String) : Option JsString :=
  ((stringOf identity field).bind encodeURIComponent).map (js field ++ 61 :: ·)

/-- `identityKey(identity)`; `none` is an exception. -/
def identityKey (identity : List (JsString × JsValue)) : Option JsString :=
  (identityFields.mapM (identityPiece identity)).map (List.intercalate [38])

/-! ## Its pieces -/

theorem bounds_of_isUnescaped {c : Char} (h : isUnescaped c = true) :
    c.toNat < 128 ∧ c ≠ '%' ∧ c ≠ '&' := by
  simp only [isUnescaped, Bool.or_eq_true, Bool.and_eq_true, decide_eq_true_eq,
    List.contains_iff_mem] at h
  rcases h with ((h | h) | h) | h
  · refine ⟨by omega, ?_, ?_⟩ <;> rintro rfl <;> revert h <;> decide
  · refine ⟨by omega, ?_, ?_⟩ <;> rintro rfl <;> revert h <;> decide
  · refine ⟨by omega, ?_, ?_⟩ <;> rintro rfl <;> revert h <;> decide
  · have hmarks : ∀ c ∈ "-_.!~*'()".toList, c.toNat < 128 ∧ c ≠ '%' ∧ c ≠ '&' :=
      List.all_iff_forall_prop.mp (by decide)
    exact hmarks c h

/-- `encodeURIComponent` is defined on well-formed strings, and tells them apart. -/
theorem encodeURIComponent_some {s : JsString} (hs : Utf16.wellFormed s = true) :
    ∃ t, encodeURIComponent s = some t ∧ (38 : UInt16) ∉ t := by
  refine ⟨_, if_pos hs, ?_⟩
  intro hmem
  rcases Percent.mem_encode hmem with ⟨c, hc, hu⟩ | hu | hu | hu
  · obtain ⟨hlt, -, hne⟩ := bounds_of_isUnescaped hc
    have hn := congrArg UInt16.toNat hu
    rw [Utf16.unit_toNat (by omega)] at hn
    exact hne (Char.toNat_inj.mp hn.symm)
  · exact absurd hu (by decide)
  · exact absurd hu (by decide)
  · exact absurd hu (by decide)

theorem encodeURIComponent_injective {s t : JsString} (hs : Utf16.wellFormed s = true)
    (ht : Utf16.wellFormed t = true) (h : encodeURIComponent s = encodeURIComponent t) :
    s = t := by
  unfold encodeURIComponent at h
  rw [if_pos hs, if_pos ht] at h
  have hchars := Percent.encode_injective
    (fun c hc => (bounds_of_isUnescaped hc).imp_right And.left) (Option.some.inj h)
  obtain ⟨cs, hcs⟩ := Utf16.wellFormed_iff.mp hs
  obtain ⟨ds, hds⟩ := Utf16.wellFormed_iff.mp ht
  have hread : ∀ as : List Char, (as.map some).filterMap id = as := by
    intro as
    rw [List.filterMap_map]
    exact List.filterMap_some
  rw [hcs, hds, hread, hread] at hchars
  rw [← Utf16.encode_of_decode hcs, ← Utf16.encode_of_decode hds, hchars]

/-- The text of an integer is ASCII. -/
theorem wellFormed_numberText (m : Int) : Utf16.wellFormed (NumberText.numberText m 0) = true := by
  refine Utf16.wellFormed_of_basic ?_
  have hnat : ∀ {n : Nat} {u : UInt16}, u ∈ NumberText.natText n → u.toNat < 0xD800 := by
    intro n u hu
    rcases NumberText.mem_natText hu with h | ⟨-, rfl | rfl | rfl⟩
    · omega
    · decide
    · decide
    · decide
  by_cases hm : m = 0
  · rw [hm]
    exact List.all_iff_forall_prop.mp (by decide)
  · rw [NumberText.numberText_integer hm]
    intro u hu
    rcases List.mem_append.mp hu with hu | hu
    · split at hu
      · rw [List.mem_singleton.mp hu]
        decide
      · cases hu
    · exact hnat hu

/-! ## Identities -/

/-- The fields of `AnalysisIdentity` that are strings. -/
def textFields : List String := ["replayId", "perspective", "usageStatsDataset", "pokeEngineTag"]

/-- A value of the field: a well-formed string, or an integer. -/
inductive IsFieldValue (field : String) : JsValue → Prop
  | text {s : JsString} (hf : field ∈ textFields) (hs : Utf16.wellFormed s = true) :
    IsFieldValue field (.str s)
  | integer (m : Int) (hf : field ∉ textFields) : IsFieldValue field (.num m 0)

/-- An object with the nine fields of an `AnalysisIdentity`, and any others. -/
def IsIdentity (identity : List (JsString × JsValue)) : Prop :=
  ∀ field ∈ identityFields, ∃ v, fieldOf identity field = some v ∧ IsFieldValue field v

section

variable {field : String} {a b : List (JsString × JsValue)} {v w : JsValue}

theorem IsFieldValue.string (h : IsFieldValue field v) :
    ∃ s, v.string = some s ∧ Utf16.wellFormed s = true := by
  cases h with
  | text hf hs => exact ⟨_, rfl, hs⟩
  | integer m hf => exact ⟨_, rfl, wellFormed_numberText m⟩

theorem IsFieldValue.eq_of_string (hv : IsFieldValue field v) (hw : IsFieldValue field w)
    (h : v.string = w.string) : v = w := by
  cases hv with
  | text hf hs =>
    cases hw with
    | text hf' ht => rw [Option.some.inj h]
    | integer n hf' => exact absurd hf hf'
  | integer m hf =>
    cases hw with
    | text hf' ht => exact absurd hf' hf
    | integer n hf' => rw [NumberText.numberText_injective (Option.some.inj h)]

theorem stringOf_some (hv : fieldOf a field = some v) : stringOf a field = v.string := by
  unfold stringOf
  rw [hv]

/-- A field's piece is there, and the separator is not in it. -/
theorem identityPiece_some (hf : field ∈ identityFields) (hv : fieldOf a field = some v)
    (h : IsFieldValue field v) :
    ∃ piece, identityPiece a field = some piece ∧ (38 : UInt16) ∉ piece := by
  obtain ⟨s, hstring, hs⟩ := h.string
  obtain ⟨t, ht, hsep⟩ := encodeURIComponent_some hs
  refine ⟨js field ++ 61 :: t, ?_, ?_⟩
  · rw [identityPiece, stringOf_some hv, hstring, Option.bind_some, ht]
    rfl
  · have hname : ∀ field ∈ identityFields, (38 : UInt16) ∉ js field := by decide
    rw [List.mem_append, List.mem_cons]
    rintro (h | h | h)
    · exact hname field hf h
    · exact absurd h (by decide)
    · exact hsep h

/-- **A piece gives its value back.** -/
theorem identityPiece_inj (hv : fieldOf a field = some v) (hw : fieldOf b field = some w)
    (ha : IsFieldValue field v) (hb : IsFieldValue field w)
    (h : identityPiece a field = identityPiece b field) : v = w := by
  obtain ⟨s, hs, hswf⟩ := ha.string
  obtain ⟨t, ht, htwf⟩ := hb.string
  unfold identityPiece at h
  rw [stringOf_some hv, stringOf_some hw, hs, ht] at h
  have hencoded : encodeURIComponent s = encodeURIComponent t :=
    Option.map_injective (fun _ _ h => (List.cons.inj (List.append_cancel_left h)).2) h
  refine ha.eq_of_string hb ?_
  rw [hs, ht, encodeURIComponent_injective hswf htwf hencoded]

end

/-- An identity has its pieces, none of them with a separator. -/
theorem identityPieces_some {identity : List (JsString × JsValue)} (h : IsIdentity identity) :
    ∃ pieces : List JsString, identityFields.map (identityPiece identity) = pieces.map some ∧
      ∀ piece ∈ pieces, (38 : UInt16) ∉ piece := by
  have hall : ∀ fields : List String, (∀ field ∈ fields, field ∈ identityFields) →
      ∃ pieces : List JsString, fields.map (identityPiece identity) = pieces.map some ∧
        ∀ piece ∈ pieces, (38 : UInt16) ∉ piece := by
    intro fields hfields
    induction fields with
    | nil => exact ⟨[], rfl, by simp⟩
    | cons field fields ih =>
      obtain ⟨hfield, hrest⟩ := List.forall_mem_cons.mp hfields
      obtain ⟨v, hv, hvalue⟩ := h field hfield
      obtain ⟨piece, hpiece, hsep⟩ := identityPiece_some hfield hv hvalue
      obtain ⟨pieces, hpieces, hseps⟩ := ih hrest
      refine ⟨piece :: pieces, ?_, List.forall_mem_cons.mpr ⟨hsep, hseps⟩⟩
      rw [List.map_cons, List.map_cons, hpiece, hpieces]
  exact hall identityFields fun _ hf => hf

/-- The key splits into its pieces at the separators. -/
theorem intercalate_inj {ps qs : List JsString} (hlen : ps ≠ [] ∧ qs ≠ [])
    (hps : ∀ p ∈ ps, (38 : UInt16) ∉ p) (hqs : ∀ q ∈ qs, (38 : UInt16) ∉ q)
    (h : List.intercalate [38] ps = List.intercalate [38] qs) : ps = qs := by
  have hsplit := congrArg (List.splitOn (38 : UInt16)) h
  rwa [List.splitOn_intercalate _ hps hlen.1, List.splitOn_intercalate _ hqs hlen.2] at hsplit

/-- **Two identities have one key exactly if they agree on all nine fields**, whatever the order
of their properties and whatever else is among them. -/
theorem identityKey_eq_iff {a b : List (JsString × JsValue)} (ha : IsIdentity a)
    (hb : IsIdentity b) :
    ∃ keyA keyB, identityKey a = some keyA ∧ identityKey b = some keyB ∧
      (keyA = keyB ↔ ∀ field ∈ identityFields, fieldOf a field = fieldOf b field) := by
  obtain ⟨ps, hps, hpsep⟩ := identityPieces_some ha
  obtain ⟨qs, hqs, hqsep⟩ := identityPieces_some hb
  have hne : ∀ {identity : List (JsString × JsValue)} {pieces : List JsString},
      identityFields.map (identityPiece identity) = pieces.map some → pieces ≠ [] := by
    rintro identity pieces h rfl
    cases h
  refine ⟨List.intercalate [38] ps, List.intercalate [38] qs, ?_, ?_, ?_⟩
  · rw [identityKey, Traverse.mapM_eq_some.mpr hps]
    rfl
  · rw [identityKey, Traverse.mapM_eq_some.mpr hqs]
    rfl
  · constructor
    · intro h field hf
      have hpq := intercalate_inj ⟨hne hps, hne hqs⟩ hpsep hqsep h
      have hpieces : identityFields.map (identityPiece a) =
          identityFields.map (identityPiece b) := by rw [hps, hqs, hpq]
      obtain ⟨v, hv, hvalue⟩ := ha field hf
      obtain ⟨w, hw, hwalue⟩ := hb field hf
      have hpiece := List.map_inj_left.mp hpieces field hf
      rw [hv, hw, identityPiece_inj hv hw hvalue hwalue hpiece]
    · intro h
      have hpieces : identityFields.map (identityPiece a) =
          identityFields.map (identityPiece b) := by
        refine List.map_inj_left.mpr fun field hf => ?_
        rw [identityPiece, identityPiece, stringOf, stringOf, h field hf]
      rw [hps, hqs] at hpieces
      rw [List.map_injective_iff.mpr (Option.some_injective _) hpieces]

/-- A tag that spells the next field, in an object with its properties in another order. -/
theorem identityKey_eq_iff_smuggled :
    let a := [(js "replayId", .str (js "gen9ou-1")), (js "perspective", .str (js "p1")),
      (js "searchBudgetMsPerTurn", .num 200 0), (js "opponentSamples", .num 2 0),
      (js "threads", .num 4 0), (js "usageStatsCutoff", .num 1500 0),
      (js "usageStatsDataset", .str (js "2026-07")), (js "pokeEngineTag", .str (js "v1&seed=9")),
      (js "seed", .num 0 0)]
    let b := [(js "seed", .num 9 0), (js "pokeEngineTag", .str (js "v1")), (js "extra", .null),
      (js "usageStatsDataset", .str (js "2026-07")), (js "usageStatsCutoff", .num 1500 0),
      (js "threads", .num 4 0), (js "opponentSamples", .num 2 0),
      (js "searchBudgetMsPerTurn", .num 200 0), (js "perspective", .str (js "p1")),
      (js "replayId", .str (js "gen9ou-1"))]
    ∃ keyA keyB, identityKey a = some keyA ∧ identityKey b = some keyB ∧
      (keyA = keyB ↔ ∀ field ∈ identityFields, fieldOf a field = fieldOf b field) := by
  refine identityKey_eq_iff ?_ ?_ <;> intro field hf <;>
    simp only [identityFields, List.mem_cons, List.not_mem_nil, or_false] at hf <;>
    rcases hf with rfl | rfl | rfl | rfl | rfl | rfl | rfl | rfl | rfl
  all_goals first
    | exact ⟨_, rfl, .text (by decide) (by decide)⟩
    | exact ⟨_, rfl, .integer _ (by decide)⟩

end BattleCloud
