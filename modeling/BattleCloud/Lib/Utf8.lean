import BattleCloud.Lib.Utf16

/-!
# UTF-8

The decoder of the WHATWG encoding standard, as `TextDecoder` runs it without `fatal` and
`ignoreBOM`: a byte order mark in front is dropped, and the bytes up to one that cannot follow
them are one U+FFFD.

`length_decodeText_le`: the text has no more UTF-16 units than there are bytes, whatever they are.
The other way, a unit is three bytes at most (`utf8ByteSize_lossy_le`). What is encoded is decoded
again, if it is well formed and has no mark in front (`decodeText_encodeText`).
-/

namespace Utf8

/-- Inside a sequence: how many bytes are missing, the bits so far, and the bounds of the next
byte. -/
structure Pending where
  needed : Nat
  code : Nat
  lower : Nat
  upper : Nat

/-- What the first byte of a character leaves: the character, or what has to follow. -/
def start (byte : UInt8) : List Char × Option Pending :=
  let b := byte.toNat
  if b ≤ 0x7F then ([Char.ofNat b], none)
  else if 0xC2 ≤ b ∧ b ≤ 0xDF then ([], some ⟨1, b - 0xC0, 0x80, 0xBF⟩)
  else if 0xE0 ≤ b ∧ b ≤ 0xEF then
    ([], some ⟨2, b - 0xE0, if b = 0xE0 then 0xA0 else 0x80, if b = 0xED then 0x9F else 0xBF⟩)
  else if 0xF0 ≤ b ∧ b ≤ 0xF4 then
    ([], some ⟨3, b - 0xF0, if b = 0xF0 then 0x90 else 0x80, if b = 0xF4 then 0x8F else 0xBF⟩)
  else (['\uFFFD'], none)

/-- One byte; one that cannot follow is looked at again as the first of a character. -/
def step (pending : Option Pending) (byte : UInt8) : List Char × Option Pending :=
  match pending with
  | none => start byte
  | some p =>
    if p.lower ≤ byte.toNat ∧ byte.toNat ≤ p.upper then
      let code := p.code * 64 + (byte.toNat - 0x80)
      if p.needed = 1 then ([Char.ofNat code], none)
      else ([], some ⟨p.needed - 1, code, 0x80, 0xBF⟩)
    else ('\uFFFD' :: (start byte).1, (start byte).2)

/-- The characters of the bytes from a state on. -/
def decodeFrom (pending : Option Pending) : List UInt8 → List Char
  | [] => if pending.isSome then ['\uFFFD'] else []
  | byte :: bytes => (step pending byte).1 ++ decodeFrom (step pending byte).2 bytes

/-- `new TextDecoder().decode(bytes)`. -/
def decodeText (bytes : List UInt8) : List UInt16 :=
  match decodeFrom none bytes with
  | '\uFEFF' :: cs => Utf16.encode cs
  | cs => Utf16.encode cs

/-- A mark, a character of four bytes, and a sequence that breaks off twice. -/
example :
    decodeText [0xEF, 0xBB, 0xBF, 0x61, 0xF0, 0x9F, 0x98, 0x80, 0xE2, 0x82, 0x41, 0xE0, 0x80] =
      [0x61, 0xD83D, 0xDE00, 0xFFFD, 0x41, 0xFFFD, 0xFFFD] := by decide

/-! ## Its length -/

/-- What a state may still turn into, beside what the next bytes do. -/
def slack (pending : Option Pending) : Nat := if pending.isSome then 1 else 0

@[simp] theorem slack_none : slack none = 0 := rfl

@[simp] theorem slack_some (p : Pending) : slack (some p) = 1 := rfl

theorem length_encodeChar (c : Char) :
    1 ≤ (Utf16.encodeChar c).length ∧ (Utf16.encodeChar c).length ≤ 2 := by
  unfold Utf16.encodeChar
  split <;> simp

theorem encode_append (cs ds : List Char) :
    Utf16.encode (cs ++ ds) = Utf16.encode cs ++ Utf16.encode ds := List.flatMap_append

theorem length_encode_singleton (c : Char) :
    (Utf16.encode [c]).length = (Utf16.encodeChar c).length := by
  rw [Utf16.encode, List.flatMap_singleton]

/-- A first byte is one unit, or leaves one. -/
theorem length_start (byte : UInt8) :
    (Utf16.encode (start byte).1).length + slack (start byte).2 ≤ 1 := by
  have hascii : byte.toNat ≤ 0x7F → (Utf16.encode [Char.ofNat byte.toNat]).length = 1 := by
    intro h
    have hchar : (Char.ofNat byte.toNat).toNat = byte.toNat :=
      Utf16.toNat_ofNat (Or.inl (by omega))
    rw [length_encode_singleton, Utf16.encodeChar, if_pos (by omega)]
    rfl
  unfold start
  dsimp only
  split
  · rename_i h
    rw [hascii h]
    exact Nat.le_refl 1
  · split
    · exact Nat.le_refl 1
    · split
      · exact Nat.le_refl 1
      · split <;> exact Nat.le_refl 1

/-- A byte adds one unit, counting what is left open. -/
theorem length_step (pending : Option Pending) (byte : UInt8) :
    (Utf16.encode (step pending byte).1).length + slack (step pending byte).2 ≤
      slack pending + 1 := by
  have hstart := length_start byte
  cases pending with
  | none => exact hstart
  | some p =>
    unfold step
    dsimp only
    split
    · split
      · have hchar := length_encodeChar (Char.ofNat (p.code * 64 + (byte.toNat - 0x80)))
        rw [length_encode_singleton, slack_none, slack_some]
        omega
      · rw [slack_some, slack_some]
        exact Nat.le_add_left 1 1
    · -- the replacement is what was left open
      have hbad : (Utf16.encode ('\uFFFD' :: (start byte).1)).length =
          1 + (Utf16.encode (start byte).1).length := by
        rw [← List.singleton_append, encode_append, List.length_append]
        rfl
      dsimp only
      rw [hbad, slack_some]
      omega

theorem length_decodeFrom (pending : Option Pending) (bytes : List UInt8) :
    (Utf16.encode (decodeFrom pending bytes)).length ≤ slack pending + bytes.length := by
  induction bytes generalizing pending with
  | nil =>
    cases pending with
    | none => exact Nat.le_refl 0
    | some p => exact Nat.le_refl 1
  | cons byte bytes ih =>
    have hstep := length_step pending byte
    have hrest := ih (step pending byte).2
    rw [decodeFrom, encode_append, List.length_append, List.length_cons]
    omega

/-- **Decoding adds nothing to the length.** -/
theorem length_decodeText_le (bytes : List UInt8) : (decodeText bytes).length ≤ bytes.length := by
  have hall := length_decodeFrom none bytes
  rw [slack_none, Nat.zero_add] at hall
  unfold decodeText
  split
  · rename_i cs hcs
    rw [hcs, ← List.singleton_append, encode_append, List.length_append] at hall
    exact Nat.le_trans (Nat.le_add_left _ _) hall
  · exact hall

/-! ## The length of what is encoded -/

theorem utf8ByteSize_cons (c : Char) (cs : List Char) :
    (String.ofList (c :: cs)).utf8ByteSize = c.utf8Size + (String.ofList cs).utf8ByteSize := by
  rw [← String.size_toByteArray, ← String.size_toByteArray, String.toByteArray_ofList,
    String.toByteArray_ofList, List.utf8Encode_cons, ByteArray.size_append,
    List.utf8Encode_singleton, List.size_toByteArray, String.length_utf8EncodeChar]

theorem utf8Size_basic {c : Char} (h : c.toNat < 0x10000) : c.utf8Size ≤ 3 := by
  have hne : c.utf8Size ≠ 4 := by
    rw [ne_eq, Char.utf8Size_eq_four_iff, UInt32.lt_iff_toNat_lt]
    exact Nat.not_lt.mpr (Nat.le_of_lt_succ h)
  have hle := c.utf8Size_le_four
  omega

/-- A unit by itself is three bytes at most, as the replacement is. -/
theorem utf8Size_single (u : UInt16) : ((Utf16.single u).getD '\uFFFD').utf8Size ≤ 3 := by
  cases h : Utf16.single u with
  | none => decide
  | some c =>
    have hlt := u.toNat_lt
    have hn := Utf16.single_some h
    rw [Option.getD_some]
    exact utf8Size_basic (by omega)

/-- **A unit of a string is three bytes of its text at most.** -/
theorem utf8ByteSize_lossy_le (us : List UInt16) :
    (Utf16.lossy us).utf8ByteSize ≤ 3 * us.length := by
  unfold Utf16.lossy
  fun_induction Utf16.decode us with
  | case1 => decide
  | case2 u =>
    have hu := utf8Size_single u
    have hnil : (String.ofList []).utf8ByteSize = 0 := rfl
    rw [List.map_singleton, utf8ByteSize_cons, hnil, List.length_singleton]
    omega
  | case3 u v us hp ih =>
    have hpair := (Utf16.pair u v).utf8Size_le_four
    rw [List.map_cons, utf8ByteSize_cons, Option.getD_some, List.length_cons, List.length_cons]
    omega
  | case4 u v us hp ih =>
    have hu := utf8Size_single u
    rw [List.length_cons] at ih
    rw [List.map_cons, utf8ByteSize_cons, List.length_cons, List.length_cons]
    omega

/-! ## What is encoded is decoded -/

/-- `new TextEncoder().encode(text)`. -/
def encodeText (us : List UInt16) : List UInt8 :=
  (Utf16.lossy us).toList.flatMap String.utf8EncodeChar

theorem byte_toNat {n : Nat} (h : n < 256) : (UInt8.ofNat n).toNat = n :=
  UInt8.toNat_ofNat_of_lt' h

theorem start_one {b : UInt8} (h : b.toNat ≤ 0x7F) : start b = ([Char.ofNat b.toNat], none) :=
  if_pos h

theorem start_two {b : UInt8} (h : 0xC2 ≤ b.toNat) (h' : b.toNat ≤ 0xDF) :
    start b = ([], some ⟨1, b.toNat - 0xC0, 0x80, 0xBF⟩) := by
  unfold start
  dsimp only
  rw [if_neg (by omega), if_pos ⟨h, h'⟩]

theorem start_three {b : UInt8} (h : 0xE0 ≤ b.toNat) (h' : b.toNat ≤ 0xEF) :
    start b = ([], some ⟨2, b.toNat - 0xE0, if b.toNat = 0xE0 then 0xA0 else 0x80,
      if b.toNat = 0xED then 0x9F else 0xBF⟩) := by
  unfold start
  dsimp only
  rw [if_neg (by omega), if_neg (by omega), if_pos ⟨h, h'⟩]

theorem start_four {b : UInt8} (h : 0xF0 ≤ b.toNat) (h' : b.toNat ≤ 0xF4) :
    start b = ([], some ⟨3, b.toNat - 0xF0, if b.toNat = 0xF0 then 0x90 else 0x80,
      if b.toNat = 0xF4 then 0x8F else 0xBF⟩) := by
  unfold start
  dsimp only
  rw [if_neg (by omega), if_neg (by omega), if_neg (by omega), if_pos ⟨h, h'⟩]

section

variable {code lower upper : Nat} {b : UInt8} (h : lower ≤ b.toNat ∧ b.toNat ≤ upper)
  (bytes : List UInt8)

include h

/-- A byte that can follow, and is not the last. -/
theorem decodeFrom_next (needed : Nat) :
    decodeFrom (some ⟨needed + 2, code, lower, upper⟩) (b :: bytes) =
      decodeFrom (some ⟨needed + 1, code * 64 + (b.toNat - 0x80), 0x80, 0xBF⟩) bytes := by
  rw [decodeFrom, step]
  dsimp only
  rw [if_pos h, if_neg (by omega)]
  rfl

theorem decodeFrom_last : decodeFrom (some ⟨1, code, lower, upper⟩) (b :: bytes) =
    Char.ofNat (code * 64 + (b.toNat - 0x80)) :: decodeFrom none bytes := by
  rw [decodeFrom, step]
  dsimp only
  rw [if_pos h, if_pos rfl]
  rfl

end

/-- **The bytes of a character are read as the character**, whatever is behind them. -/
theorem decodeFrom_utf8EncodeChar (c : Char) (bytes : List UInt8) :
    decodeFrom none (String.utf8EncodeChar c ++ bytes) = c :: decodeFrom none bytes := by
  have hrange := Utf16.toNat_range c
  have hchar : ∀ {n : Nat}, n = c.toNat → Char.ofNat n = c := by
    rintro n rfl
    exact Char.ofNat_toNat c
  fun_cases String.utf8EncodeChar c with
  | case1 v h =>
    have hv : v = c.toNat := rfl
    have hb := byte_toNat (n := v) (by omega)
    rw [List.singleton_append, decodeFrom, step, start_one (by omega), hb, hchar hv]
    rfl
  | case2 v h₁ h₂ =>
    have hv : v = c.toNat := rfl
    have hb := byte_toNat (n := v / 64 % 32 + 192) (by omega)
    have hb' := byte_toNat (n := v % 64 + 128) (by omega)
    rw [List.cons_append, List.singleton_append, decodeFrom, step,
      start_two (by omega) (by omega), List.nil_append,
      decodeFrom_last (by omega) bytes, hb, hb', hchar (by omega)]
  | case3 v h₁ h₂ h₃ =>
    have hv : v = c.toNat := rfl
    have hb := byte_toNat (n := v / 4096 % 16 + 224) (by omega)
    have hb₁ := byte_toNat (n := v / 64 % 64 + 128) (by omega)
    have hb₂ := byte_toNat (n := v % 64 + 128) (by omega)
    rw [List.cons_append, List.cons_append, List.singleton_append, decodeFrom, step,
      start_three (by omega) (by omega), List.nil_append,
      decodeFrom_next (by split_ifs <;> omega),
      decodeFrom_last (by omega) bytes, hb, hb₁, hb₂, hchar (by omega)]
  | case4 v h₁ h₂ h₃ =>
    have hv : v = c.toNat := rfl
    have hb := byte_toNat (n := v / 262144 % 8 + 240) (by omega)
    have hb₁ := byte_toNat (n := v / 4096 % 64 + 128) (by omega)
    have hb₂ := byte_toNat (n := v / 64 % 64 + 128) (by omega)
    have hb₃ := byte_toNat (n := v % 64 + 128) (by omega)
    rw [List.cons_append, List.cons_append, List.cons_append, List.singleton_append, decodeFrom,
      step, start_four (by omega) (by omega), List.nil_append,
      decodeFrom_next (by split_ifs <;> omega),
      decodeFrom_next (by omega),
      decodeFrom_last (by omega) bytes, hb, hb₁, hb₂, hb₃, hchar (by omega)]

theorem decodeFrom_encode (cs : List Char) :
    decodeFrom none (cs.flatMap String.utf8EncodeChar) = cs := by
  induction cs with
  | nil => rfl
  | cons c cs ih => rw [List.flatMap_cons, decodeFrom_utf8EncodeChar, ih]

/-- **A well-formed string survives the encoder and the decoder**, unless it begins with a byte
order mark. -/
theorem decodeText_encodeText {us : List UInt16} (h : Utf16.wellFormed us = true)
    (hmark : us.head? ≠ some 0xFEFF) : decodeText (encodeText us) = us := by
  obtain ⟨cs, hcs⟩ := Utf16.wellFormed_iff.mp h
  have hunits := Utf16.encode_of_decode hcs
  have hread : decodeFrom none (encodeText us) = cs := by
    rw [encodeText, ← hunits, Utf16.lossy_encode, String.toList_ofList, decodeFrom_encode]
  unfold decodeText
  rw [hread]
  split
  · rename_i rest
    rw [← hunits] at hmark
    exact absurd rfl hmark
  · exact hunits
end Utf8
