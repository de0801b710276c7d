import Mathlib.Data.List.Basic

/-!
# Percent encoding

The characters of a set stay as they are; every other one is written as its UTF-8 bytes, each
as `%` and two hexadecimal digits in upper case.

`decode` reads the bytes back. With `%` outside the set, encoding is injective
(`encode_injective`), and what is written is of the set, of the digits, or `%` (`mem_encode`).
-/

namespace Percent

/-- `0`–`9` and `A`–`F`. -/
def hexDigit (n : Nat) : UInt16 := UInt16.ofNat (if n < 10 then 48 + n else 55 + n)

def hexValue (u : UInt16) : Nat := if u.toNat < 58 then u.toNat - 48 else u.toNat - 55

def escapeByte (b : UInt8) : List UInt16 := [37, hexDigit (b.toNat / 16), hexDigit (b.toNat % 16)]

/-- The bytes of a percent-encoded text. -/
def decode : List UInt16 → List UInt8
  | u :: high :: low :: us =>
    if u = 37 then UInt8.ofNat (hexValue high * 16 + hexValue low) :: decode us
    else u.toUInt8 :: decode (high :: low :: us)
  | u :: us => u.toUInt8 :: decode us
  | [] => []

section

variable (keep : Char → Bool)

def encodeChar (c : Char) : List UInt16 :=
  if keep c then [UInt16.ofNat c.toNat] else (String.utf8EncodeChar c).flatMap escapeByte

def encode (cs : List Char) : List UInt16 := cs.flatMap (encodeChar keep)

end

/-! ## Bytes -/

theorem hexDigit_toNat {n : Nat} (h : n < 16) :
    (hexDigit n).toNat = if n < 10 then 48 + n else 55 + n :=
  UInt16.toNat_ofNat_of_lt' (by
    have hsize : UInt16.size = 65536 := rfl
    split <;> omega)

theorem hexValue_hexDigit {n : Nat} (h : n < 16) : hexValue (hexDigit n) = n := by
  unfold hexValue
  rw [hexDigit_toNat h]
  split <;> split at * <;> omega

theorem decode_cons_ne {u : UInt16} (hu : u ≠ 37) (us : List UInt16) :
    decode (u :: us) = u.toUInt8 :: decode us := by
  cases us with
  | nil => rfl
  | cons v us =>
    cases us with
    | nil => rfl
    | cons w us => exact if_neg hu

theorem decode_escapeByte (b : UInt8) (us : List UInt16) :
    decode (escapeByte b ++ us) = b :: decode us := by
  have hlt := b.toNat_lt
  have hb : b.toNat / 16 * 16 + b.toNat % 16 = b.toNat := by omega
  unfold escapeByte
  rw [List.cons_append, List.cons_append, List.singleton_append, decode, if_pos rfl,
    hexValue_hexDigit (by omega), hexValue_hexDigit (by omega), hb, UInt8.ofNat_toNat]

theorem decode_escapeBytes (bs : List UInt8) (us : List UInt16) :
    decode (bs.flatMap escapeByte ++ us) = bs ++ decode us := by
  induction bs with
  | nil => rfl
  | cons b bs ih =>
    rw [List.flatMap_cons, List.append_assoc, decode_escapeByte, ih, List.cons_append]

/-- A digit of an escape is a digit or a capital up to `F`. -/
theorem mem_escapeByte {b : UInt8} {u : UInt16} (h : u ∈ escapeByte b) :
    u = 37 ∨ (48 ≤ u.toNat ∧ u.toNat ≤ 57) ∨ (65 ≤ u.toNat ∧ u.toNat ≤ 70) := by
  have hlt := b.toNat_lt
  have hdigit : ∀ {n : Nat}, n < 16 → u = hexDigit n →
      (48 ≤ u.toNat ∧ u.toNat ≤ 57) ∨ (65 ≤ u.toNat ∧ u.toNat ≤ 70) := by
    rintro n hn rfl
    rw [hexDigit_toNat hn]
    split <;> omega
  rcases List.mem_cons.mp h with h | h
  · exact Or.inl h
  · rcases List.mem_cons.mp h with h | h
    · exact Or.inr (hdigit (by omega) h)
    · exact Or.inr (hdigit (by omega) (List.mem_singleton.mp h))

/-! ## Characters -/

/-- A text has the bytes of one list of characters at most. -/
theorem utf8_injective {cs ds : List Char}
    (h : cs.flatMap String.utf8EncodeChar = ds.flatMap String.utf8EncodeChar) : cs = ds := by
  have hbytes : cs.utf8Encode = ds.utf8Encode := congrArg List.toByteArray h
  rw [← String.toByteArray_ofList, ← String.toByteArray_ofList] at hbytes
  exact String.ofList_inj.mp (String.toByteArray_inj.mp hbytes)

theorem utf8EncodeChar_ascii {c : Char} (h : c.toNat < 128) :
    String.utf8EncodeChar c = [UInt8.ofNat c.toNat] := by
  have hsize : c.utf8Size = 1 := by
    rw [Char.utf8Size_eq_one_iff, UInt32.le_iff_toNat_le]
    exact Nat.le_of_lt_succ h
  rw [String.utf8EncodeChar_eq_singleton hsize]
  rfl

section

variable {keep : Char → Bool}

theorem encodeChar_keep {c : Char} (h : keep c = true) :
    encodeChar keep c = [UInt16.ofNat c.toNat] := if_pos h

/-- A unit of an encoded text. -/
theorem mem_encode {cs : List Char} {u : UInt16} (h : u ∈ encode keep cs) :
    (∃ c, keep c = true ∧ u = UInt16.ofNat c.toNat) ∨ u = 37 ∨
      (48 ≤ u.toNat ∧ u.toNat ≤ 57) ∨ (65 ≤ u.toNat ∧ u.toNat ≤ 70) := by
  obtain ⟨c, -, hu⟩ := List.mem_flatMap.mp h
  unfold encodeChar at hu
  split at hu
  · rename_i hkeep
    exact Or.inl ⟨c, hkeep, List.mem_singleton.mp hu⟩
  · obtain ⟨b, -, hb⟩ := List.mem_flatMap.mp hu
    exact Or.inr (mem_escapeByte hb)

variable (hkeep : ∀ c, keep c = true → c.toNat < 128 ∧ c ≠ '%')

include hkeep

theorem decode_encodeChar (c : Char) (us : List UInt16) :
    decode (encodeChar keep c ++ us) = String.utf8EncodeChar c ++ decode us := by
  unfold encodeChar
  split
  · rename_i hc
    obtain ⟨hlt, hne⟩ := hkeep c hc
    have hn : (UInt16.ofNat c.toNat).toNat = c.toNat :=
      UInt16.toNat_ofNat_of_lt' (Nat.lt_trans hlt (by decide))
    have hu : UInt16.ofNat c.toNat ≠ 37 := by
      intro he
      rw [he] at hn
      exact hne (Char.toNat_inj.mp hn.symm)
    have hbyte : (UInt16.ofNat c.toNat).toUInt8 = UInt8.ofNat c.toNat := by
      rw [← UInt8.toNat_inj, UInt16.toNat_toUInt8, hn, UInt8.toNat_ofNat']
    rw [utf8EncodeChar_ascii hlt, List.singleton_append, decode_cons_ne hu, hbyte]
    rfl
  · exact decode_escapeBytes _ us

/-- **The bytes are read back.** -/
theorem decode_encode (cs : List Char) :
    decode (encode keep cs) = cs.flatMap String.utf8EncodeChar := by
  induction cs with
  | nil => rfl
  | cons c cs ih =>
    rw [encode, List.flatMap_cons, decode_encodeChar hkeep, List.flatMap_cons]
    exact congrArg _ ih

/-- **Different texts are written differently.** -/
theorem encode_injective {cs ds : List Char} (h : encode keep cs = encode keep ds) : cs = ds := by
  have hbytes := congrArg decode h
  rw [decode_encode hkeep, decode_encode hkeep] at hbytes
  exact utf8_injective hbytes

end

end Percent
