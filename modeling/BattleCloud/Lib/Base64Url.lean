import BattleCloud.Lib.Utf16
import Mathlib.Tactic.IntervalCases

/-!
# Base64url and UTF-8, as a lenient runtime reads them

`Base64Url.encode` writes bytes with the URL-safe alphabet and no padding. `decode` reads a text
as Node's `Buffer.from(text, 'base64url')` does: of each UTF-16 unit only the low byte counts, the
first `=` ends the text, other bytes outside the two alphabets are skipped, and what is left of a
sextet at the end is dropped. `Utf8.decode` never fails: each maximal ill-formed sequence becomes
one U+FFFD.

**`decode_encode`** for both: what was encoded is read back.
-/

namespace Base64Url

/-- The character of six bits. -/
def symbol (n : Nat) : Char :=
  if n < 26 then Char.ofNat (65 + n)
  else if n < 52 then Char.ofNat (71 + n)
  else if n < 62 then Char.ofNat (n - 4)
  else if n = 62 then '-' else '_'

/-- The six bits of a character of either alphabet. -/
def sextet? (c : Char) : Option Nat :=
  if 'A' ≤ c ∧ c ≤ 'Z' then some (c.toNat - 65)
  else if 'a' ≤ c ∧ c ≤ 'z' then some (c.toNat - 71)
  else if '0' ≤ c ∧ c ≤ '9' then some (c.toNat + 4)
  else if c = '-' ∨ c = '+' then some 62
  else if c = '_' ∨ c = '/' then some 63
  else none

theorem sextet?_symbol {n : Nat} (h : n < 64) : sextet? (symbol n) = some n := by
  interval_cases n <;> rfl

def encode : List UInt8 → List Char
  | a :: b :: c :: bs =>
    symbol (a.toNat / 4) :: symbol (a.toNat % 4 * 16 + b.toNat / 16) ::
      symbol (b.toNat % 16 * 4 + c.toNat / 64) :: symbol (c.toNat % 64) :: encode bs
  | [a, b] =>
    [symbol (a.toNat / 4), symbol (a.toNat % 4 * 16 + b.toNat / 16), symbol (b.toNat % 16 * 4)]
  | [a] => [symbol (a.toNat / 4), symbol (a.toNat % 4 * 16)]
  | [] => []

/-- The bytes of a row of sextets; bits that fill no byte are dropped. -/
def bytes : List Nat → List UInt8
  | s :: t :: u :: v :: ss =>
    UInt8.ofNat (s * 4 + t / 16) :: UInt8.ofNat (t % 16 * 16 + u / 4) ::
      UInt8.ofNat (u % 4 * 64 + v) :: bytes ss
  | [s, t, u] => [UInt8.ofNat (s * 4 + t / 16), UInt8.ofNat (t % 16 * 16 + u / 4)]
  | [s, t] => [UInt8.ofNat (s * 4 + t / 16)]
  | _ => []

/-- The low bytes of the units of a character. -/
def lowBytes (c : Char) : List Char :=
  (Utf16.encodeChar c).map fun u => Char.ofNat (u.toNat % 256)

/-- What is read of a text: its low bytes up to the first `=`. -/
def payload (cs : List Char) : List Char := (cs.flatMap lowBytes).takeWhile (· ≠ '=')

def decode (cs : List Char) : List UInt8 := bytes ((payload cs).filterMap sextet?)

theorem ofNat_eq {b : UInt8} {n : Nat} (h : n = b.toNat) : UInt8.ofNat n = b := by
  rw [h, UInt8.ofNat_toNat]

@[simp] theorem payload_nil : payload [] = [] := rfl

theorem lowBytes_symbol {n : Nat} (h : n < 64) : lowBytes (symbol n) = [symbol n] := by
  interval_cases n <;> rfl

theorem symbol_ne_pad {n : Nat} (h : n < 64) : symbol n ≠ '=' := by
  interval_cases n <;> decide

/-- A symbol is read as its six bits, wherever it stands before the padding. -/
theorem filterMap_symbol {n : Nat} (h : n < 64) (cs : List Char) :
    (payload (symbol n :: cs)).filterMap sextet? = n :: (payload cs).filterMap sextet? := by
  have hread : payload (symbol n :: cs) = symbol n :: payload cs := by
    have hpad : (decide (symbol n ≠ '=')) = true := decide_eq_true (symbol_ne_pad h)
    unfold payload
    rw [List.flatMap_cons, lowBytes_symbol h, List.singleton_append, List.takeWhile_cons, hpad]
    rfl
  rw [hread, List.filterMap_cons_some (sextet?_symbol h)]

/-- **Decoding undoes encoding.** -/
theorem decode_encode : ∀ bs : List UInt8, decode (encode bs) = bs
  | a :: b :: c :: bs => by
    have ha := a.toNat_lt
    have hb := b.toNat_lt
    have hc := c.toNat_lt
    have ih := decode_encode bs
    unfold decode at ih ⊢
    rw [encode, filterMap_symbol (by omega), filterMap_symbol (by omega),
      filterMap_symbol (by omega), filterMap_symbol (by omega), bytes, ih,
      ofNat_eq (b := a) (by omega), ofNat_eq (b := b) (by omega), ofNat_eq (b := c) (by omega)]
  | [a, b] => by
    have ha := a.toNat_lt
    have hb := b.toNat_lt
    unfold decode
    rw [encode, filterMap_symbol (by omega), filterMap_symbol (by omega),
      filterMap_symbol (by omega), payload_nil, List.filterMap_nil, bytes,
      ofNat_eq (b := a) (by omega), ofNat_eq (b := b) (by omega)]
  | [a] => by
    have ha := a.toNat_lt
    unfold decode
    rw [encode, filterMap_symbol (by omega), filterMap_symbol (by omega), payload_nil,
      List.filterMap_nil, bytes, ofNat_eq (b := a) (by omega)]
  | [] => rfl

/-- What stands behind the padding is not read, and `Ł` (U+0141) is read as `A`. -/
example : decode "Ł-E_==QUFB".toList = [3, 225, 63] ∧ decode "=QUFB".toList = [] := by decide

end Base64Url

namespace Utf8

def encode (s : String) : List UInt8 := s.toList.flatMap String.utf8EncodeChar

/-- How many bytes follow a first byte, and the range of the first of them. -/
def follow (b : UInt8) : Nat × UInt8 × UInt8 :=
  if 0xC2 ≤ b ∧ b ≤ 0xDF then (1, 0x80, 0xBF)
  else if b = 0xE0 then (2, 0xA0, 0xBF)
  else if b = 0xED then (2, 0x80, 0x9F)
  else if 0xE1 ≤ b ∧ b ≤ 0xEF then (2, 0x80, 0xBF)
  else if b = 0xF0 then (3, 0x90, 0xBF)
  else if b = 0xF4 then (3, 0x80, 0x8F)
  else if 0xF1 ≤ b ∧ b ≤ 0xF3 then (3, 0x80, 0xBF)
  else (0, 0, 0)

/-- How many of the bytes after `b` belong to its ill-formed sequence. -/
def illFormed (b : UInt8) : List UInt8 → Nat
  | [] => 0
  | c :: cs =>
    let (n, lo, hi) := follow b
    if 0 < n ∧ lo ≤ c ∧ c ≤ hi then
      1 + ((cs.take (n - 1)).takeWhile fun d => 0x80 ≤ d && d ≤ 0xBF).length
    else 0

def decodeChars : List UInt8 → List Char
  | [] => []
  | b :: bs =>
    match (b :: bs).toByteArray.utf8DecodeChar? 0 with
    | some c => c :: decodeChars (bs.drop (c.utf8Size - 1))
    | none => '\uFFFD' :: decodeChars (bs.drop (illFormed b bs))
termination_by bs => bs.length
decreasing_by all_goals simp only [List.length_drop, List.length_cons]; omega

def decode (bs : List UInt8) : String := String.ofList (decodeChars bs)

theorem decodeChars_append (c : Char) (bs : List UInt8) :
    decodeChars (String.utf8EncodeChar c ++ bs) = c :: decodeChars bs := by
  have hlen : (String.utf8EncodeChar c).length = c.utf8Size := String.length_utf8EncodeChar c
  have hpos := c.utf8Size_pos
  have hget := @ByteArray.utf8DecodeChar?_utf8EncodeChar_append bs.toByteArray c
  rw [← List.toByteArray_append] at hget
  cases hc : String.utf8EncodeChar c with
  | nil =>
    rw [hc, List.length_nil] at hlen
    omega
  | cons b cs =>
    rw [hc, List.cons_append] at hget
    rw [hc, List.length_cons] at hlen
    rw [List.cons_append, decodeChars, hget]
    have hdrop : (cs ++ bs).drop (c.utf8Size - 1) = bs := by
      rw [← hlen, Nat.add_sub_cancel, List.drop_left]
    simp only [hdrop]

/-- **Decoding undoes encoding.** -/
theorem decode_encode (s : String) : decode (encode s) = s := by
  have h : ∀ cs : List Char, decodeChars (cs.flatMap String.utf8EncodeChar) = cs := by
    intro cs
    induction cs with
    | nil => rw [List.flatMap_nil, decodeChars]
    | cons c cs ih => rw [List.flatMap_cons, decodeChars_append, ih]
  unfold decode encode
  rw [h, String.ofList_toList]

end Utf8
