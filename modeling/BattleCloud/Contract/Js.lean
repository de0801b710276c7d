import BattleCloud.Contract.Identity
import BattleCloud.Contract.Json
import BattleCloud.Lib.Utf16

/-!
# JavaScript values, and what the API accepts of them

What `JSON.parse` gives the API: a string is any sequence of UTF-16 units, a number has the
decimal text `String(n)` writes, which is `m / 10 ^ e`, or is infinite (`JSON.parse('1e999')`).

The driver encodes a bound string as UTF-8, where a surrogate without a partner becomes U+FFFD
(`JsString.text`). A `jsonb` value goes through `JSON.stringify` first, which recurses into arrays
and objects (`JsValue.depth`) and keeps such a surrogate as an escape; Postgres refuses that escape
and `\u0000` (`JsValue.toJsonb`).
-/

namespace BattleCloud

abbrev JsString := List UInt16

/-- A string of the source. -/
def js (s : String) : JsString := Utf16.encode s.toList

/-- The UTF-8 text of a string. -/
def JsString.text (s : JsString) : String := Utf16.lossy s

theorem JsString.text_js (s : String) : JsString.text (js s) = s := by
  unfold JsString.text js
  rw [Utf16.lossy_encode]
  exact String.ofList_toList

theorem nulFree_text (s : JsString) : nulFree s.text = true ↔ 0 ∉ s := by
  unfold JsString.text Utf16.lossy nulFree
  rw [String.toList_ofList, Bool.not_eq_true', ← Bool.not_eq_true, List.contains_iff_mem,
    List.mem_map, ← Utf16.zero_mem_decode]
  refine not_congr ⟨?_, fun h => ⟨_, h, rfl⟩⟩
  rintro ⟨c, hc, he⟩
  cases c with
  | none => cases he
  | some c =>
    cases he
    exact hc

inductive JsValue where
  | null
  | bool (b : Bool)
  | num (m : Int) (e : Nat)
  | infinite (negative : Bool)
  | str (s : JsString)
  | arr (xs : List JsValue)
  | obj (fields : List (JsString × JsValue))

/-- `value[key]` of an object; `none` is a missing key. -/
def fieldOf (fields : List (JsString × JsValue)) (key : String) : Option JsValue :=
  (fields.find? fun f => f.1 = js key).map Prod.snd

mutual

/-- How deeply the arrays and objects of a value are nested. -/
def JsValue.depth : JsValue → Nat
  | .null => 0
  | .bool _ => 0
  | .num _ _ => 0
  | .infinite _ => 0
  | .str _ => 0
  | .arr xs => JsValue.depthAll xs + 1
  | .obj fields => JsValue.depthFields fields + 1

def JsValue.depthAll : List JsValue → Nat
  | [] => 0
  | x :: xs => max x.depth (JsValue.depthAll xs)

def JsValue.depthFields : List (JsString × JsValue) → Nat
  | [] => 0
  | (_, v) :: fs => max v.depth (JsValue.depthFields fs)

end

/-! ## `jsonb` -/

/-- A string `jsonb` takes. -/
def JsString.storable (s : JsString) : Bool := Utf16.wellFormed s && !s.contains 0

mutual

/-- Every string and key is one `jsonb` takes. -/
def JsValue.storable : JsValue → Bool
  | .null => true
  | .bool _ => true
  | .num _ _ => true
  | .infinite _ => true
  | .str s => s.storable
  | .arr xs => JsValue.storableAll xs
  | .obj fields => JsValue.storableFields fields

def JsValue.storableAll : List JsValue → Bool
  | [] => true
  | x :: xs => x.storable && JsValue.storableAll xs

def JsValue.storableFields : List (JsString × JsValue) → Bool
  | [] => true
  | (k, v) :: fs => JsString.storable k && v.storable && JsValue.storableFields fs

end

/-- The text of a string inside a `jsonb` value. -/
def JsString.toJsonb (s : JsString) : Option String := if s.storable then some s.text else none

mutual

/-- `$1::jsonb` of `JSON.stringify(value)`; `none` is where Postgres refuses the text. -/
def JsValue.toJsonb : JsValue → Option Json
  | .null => some .null
  | .bool b => some (.bool b)
  | .num m e => some (.num m e)
  | .infinite _ => some .null
  | .str s => s.toJsonb.map .str
  | .arr xs => (JsValue.toJsonbAll xs).map .arr
  | .obj fields => (JsValue.toJsonbFields fields).map .obj

def JsValue.toJsonbAll : List JsValue → Option (List Json)
  | [] => some []
  | x :: xs => x.toJsonb.bind fun j => (JsValue.toJsonbAll xs).map (j :: ·)

def JsValue.toJsonbFields : List (JsString × JsValue) → Option (List (String × Json))
  | [] => some []
  | (k, v) :: fs => (JsString.toJsonb k).bind fun key => v.toJsonb.bind fun j =>
    (JsValue.toJsonbFields fs).map ((key, j) :: ·)

end

theorem JsString.toJsonb_isSome (s : JsString) : s.toJsonb.isSome = s.storable := by
  unfold JsString.toJsonb
  cases s.storable <;> rfl

theorem JsString.toJsonb_eq {s : JsString} {t : String} (h : s.toJsonb = some t) :
    t = s.text ∧ nulFree t = true := by
  unfold JsString.toJsonb JsString.storable at h
  split at h
  · rename_i hs
    obtain rfl := Option.some.inj h
    refine ⟨rfl, (nulFree_text s).mpr ?_⟩
    rw [Bool.and_eq_true, Bool.not_eq_true'] at hs
    rw [← List.contains_iff_mem, hs.2]
    exact Bool.false_ne_true
  · cases h

theorem isSome_bind_map {α β γ : Type} (x : Option α) (y : Option β) (f : α → β → γ) :
    (x.bind fun a => y.map (f a)).isSome = (x.isSome && y.isSome) := by
  cases x <;> cases y <;> rfl

mutual

/-- **A value is accepted exactly if all of its strings are.** -/
theorem JsValue.toJsonb_isSome : ∀ v : JsValue, v.toJsonb.isSome = v.storable
  | .null => rfl
  | .bool _ => rfl
  | .num _ _ => rfl
  | .infinite _ => rfl
  | .str s => by rw [JsValue.toJsonb, Option.isSome_map, s.toJsonb_isSome, JsValue.storable]
  | .arr xs => by
    rw [JsValue.toJsonb, Option.isSome_map, JsValue.toJsonbAll_isSome xs, JsValue.storable]
  | .obj fields => by
    rw [JsValue.toJsonb, Option.isSome_map, JsValue.toJsonbFields_isSome fields, JsValue.storable]

theorem JsValue.toJsonbAll_isSome :
    ∀ xs : List JsValue, (JsValue.toJsonbAll xs).isSome = JsValue.storableAll xs
  | [] => rfl
  | x :: xs => by
    rw [JsValue.toJsonbAll, isSome_bind_map, JsValue.toJsonb_isSome x,
      JsValue.toJsonbAll_isSome xs, JsValue.storableAll]

theorem JsValue.toJsonbFields_isSome : ∀ fs : List (JsString × JsValue),
    (JsValue.toJsonbFields fs).isSome = JsValue.storableFields fs
  | [] => rfl
  | (k, v) :: fs => by
    have hv := JsValue.toJsonb_isSome v
    have hfs := JsValue.toJsonbFields_isSome fs
    have hk := JsString.toJsonb_isSome k
    rw [JsValue.toJsonbFields, JsValue.storableFields, ← hv, ← hfs, ← hk]
    cases JsString.toJsonb k with
    | none => rfl
    | some key => exact isSome_bind_map v.toJsonb _ fun j js => (key, j) :: js

end

mutual

/-- **Nothing that is accepted has a U+0000.** -/
theorem JsValue.nulFree_toJsonb : ∀ (v : JsValue) {j : Json}, v.toJsonb = some j → j.nulFree = true
  | .null => by
    intro h
    cases h
    rfl
  | .bool _ => by
    intro h
    cases h
    rfl
  | .num _ _ => by
    intro h
    cases h
    rfl
  | .infinite _ => by
    intro h
    cases h
    rfl
  | .str s => by
    intro h
    obtain ⟨t, ht, rfl⟩ := Option.map_eq_some_iff.mp h
    exact (JsString.toJsonb_eq ht).2
  | .arr xs => by
    intro h
    rw [JsValue.toJsonb] at h
    obtain ⟨js, hjs, rfl⟩ := Option.map_eq_some_iff.mp h
    exact JsValue.nulFree_toJsonbAll xs hjs
  | .obj fields => by
    intro h
    rw [JsValue.toJsonb] at h
    obtain ⟨fs, hfs, rfl⟩ := Option.map_eq_some_iff.mp h
    exact JsValue.nulFree_toJsonbFields fields hfs

theorem JsValue.nulFree_toJsonbAll : ∀ (xs : List JsValue) {js : List Json},
    JsValue.toJsonbAll xs = some js → Json.nulFreeAll js = true
  | [] => by
    intro h
    cases h
    rfl
  | x :: xs => by
    intro h
    rw [JsValue.toJsonbAll, Option.bind_eq_some_iff] at h
    obtain ⟨j, hj, h⟩ := h
    obtain ⟨js, hjs, rfl⟩ := Option.map_eq_some_iff.mp h
    rw [Json.nulFreeAll, JsValue.nulFree_toJsonb x hj, JsValue.nulFree_toJsonbAll xs hjs]
    rfl

theorem JsValue.nulFree_toJsonbFields : ∀ (fields : List (JsString × JsValue))
    {fs : List (String × Json)},
    JsValue.toJsonbFields fields = some fs → Json.nulFreeFields fs = true
  | [] => by
    intro h
    cases h
    rfl
  | (k, v) :: fields => by
    intro h
    rw [JsValue.toJsonbFields, Option.bind_eq_some_iff] at h
    obtain ⟨t, ht, h⟩ := h
    obtain ⟨j, hj, h⟩ := Option.bind_eq_some_iff.mp h
    obtain ⟨fs, hfs, rfl⟩ := Option.map_eq_some_iff.mp h
    rw [Json.nulFreeFields, (JsString.toJsonb_eq ht).2, JsValue.nulFree_toJsonb v hj,
      JsValue.nulFree_toJsonbFields fields hfs]
    rfl

end

/-! ## Replay ids -/

/-- `[A-Za-z0-9]`. -/
def isAlphanumeric (u : UInt16) : Bool :=
  (65 ≤ u.toNat && u.toNat ≤ 90) || (97 ≤ u.toNat && u.toNat ≤ 122) ||
    (48 ≤ u.toNat && u.toNat ≤ 57)

/-- `[A-Za-z0-9._-]`. -/
def isReplayIdUnit (u : UInt16) : Bool := isAlphanumeric u || u = 46 || u = 95 || u = 45

/-- `SAFE_REPLAY_ID.test`: `/^[A-Za-z0-9][A-Za-z0-9._-]{0,127}$/`. -/
def safeReplayIdTest : JsString → Bool
  | [] => false
  | u :: us => isAlphanumeric u && us.all isReplayIdUnit && us.length ≤ 127

/-- `value.includes('..')`. -/
def includesDotDot : JsString → Bool
  | u :: v :: us => (u = 46 && v = 46) || includesDotDot (v :: us)
  | _ => false

def isSafeReplayId (s : JsString) : Bool := safeReplayIdTest s && !includesDotDot s

theorem bounds_of_isReplayIdUnit {u : UInt16} (h : isReplayIdUnit u = true) :
    45 ≤ u.toNat ∧ u.toNat ≤ 122 := by
  simp only [isReplayIdUnit, isAlphanumeric, Bool.or_eq_true, Bool.and_eq_true,
    decide_eq_true_eq] at h
  rcases h with ((h | rfl) | rfl) | rfl
  · omega
  · decide
  · decide
  · decide

section Safe

variable {s : JsString} (h : isSafeReplayId s = true)

include h

theorem safe_units : ∀ u ∈ s, isReplayIdUnit u = true := by
  unfold isSafeReplayId at h
  rw [Bool.and_eq_true] at h
  cases s with
  | nil => cases h.1
  | cons u us =>
    have htest := h.1
    simp only [safeReplayIdTest, Bool.and_eq_true, List.all_eq_true] at htest
    intro v hv
    rcases List.mem_cons.mp hv with rfl | hv
    · simp [isReplayIdUnit, htest.1.1]
    · exact htest.1.2 v hv

theorem safe_ne_nil : s ≠ [] := by
  rintro rfl
  cases h

theorem not_mem_of_safe {u : UInt16} (hu : isReplayIdUnit u = false) : u ∉ s := by
  intro hmem
  rw [safe_units h u hmem] at hu
  cases hu

end Safe

/-! ## `SubmitRequestSchema` -/

def Perspective.ofJs? (s : JsString) : Option Perspective :=
  if s = js "p1" then some .p1 else if s = js "p2" then some .p2 else none

def Profile.ofJs? (s : JsString) : Option Profile :=
  if s = js "ladder-parity" then some .ladderParity
  else if s = js "quick" then some .quick else none

/-- `SubmitRequestSchema.safeParse`; a body that is not there is `none`. -/
def parseSubmitRequest : Option JsValue → Option SubmitRequest
  | some (.obj fields) =>
    if fields.all fun f => [js "replayId", js "perspective", js "profile"].contains f.1 then
      match fieldOf fields "replayId", fieldOf fields "perspective",
        (fieldOf fields "profile").getD (.str (js "ladder-parity")) with
      | some (.str replayId), some (.str perspective), .str profile =>
        if safeReplayIdTest replayId && !includesDotDot replayId then
          (Perspective.ofJs? perspective).bind fun perspective =>
          (Profile.ofJs? profile).map fun profile => ⟨replayId.text, perspective, profile⟩
        else none
      | _, _, _ => none
    else none
  | _ => none

example : parseSubmitRequest (some (.obj [(js "replayId", .str (js "gen9ou-1")),
    (js "perspective", .str (js "p2"))])) = some ⟨"gen9ou-1", .p2, .ladderParity⟩ := by decide

end BattleCloud
