import Mathlib.Data.Nat.Digits.Lemmas
import Mathlib.Data.List.DropRight

/-!
# The text of a number

What ECMAScript's `Number::toString` writes of a decimal `m / 10 ^ e`, as units of its ASCII text:
up to 21 digits in full, with a point or zeros where they belong, everything else with an exponent.

`numberText_injective`: different integers have different texts. The text of an integer is its
digits, or its significant digits and the exponent, and either of them says how many zeros follow.
-/

namespace NumberText

/-- A decimal digit. -/
def digitUnit (d : Nat) : UInt16 := UInt16.ofNat (48 + d)

/-- The digits of a number that is not zero. -/
def digitText (n : Nat) : List UInt16 := (Nat.digits 10 n).reverse.map digitUnit

/-- Significant digits, with a point behind the first if there are more. -/
def mantissa : List UInt16 → List UInt16
  | d :: d' :: ds => d :: 46 :: d' :: ds
  | ds => ds

/-- The significant digits `s` with the decimal point behind the `n`-th place. -/
def positiveText (s : List Nat) (n : Int) : List UInt16 :=
  let ds := s.map digitUnit
  if s.length ≤ n ∧ n ≤ 21 then ds ++ List.replicate (n - s.length).toNat 48
  else if 0 < n ∧ n ≤ 21 then ds.take n.toNat ++ 46 :: ds.drop n.toNat
  else if -6 < n ∧ n ≤ 0 then 48 :: 46 :: List.replicate (-n).toNat 48 ++ ds
  else mantissa ds ++ 101 :: (if n - 1 < 0 then 45 else 43) :: digitText (n - 1).natAbs

/-- The significant digits of a number, the last of them not zero. -/
def significant (n : Nat) : List Nat := ((Nat.digits 10 n).dropWhile (· = 0)).reverse

/-- `String(m / 10 ^ e)`. -/
def numberText (m : Int) (e : Nat) : List UInt16 :=
  if m = 0 then [48]
  else (if m < 0 then [45] else []) ++
    positiveText (significant m.natAbs) ((Nat.digits 10 m.natAbs).length - e)

/-! ## Digits -/

theorem digitUnit_toNat {d : Nat} (h : d < 10) : (digitUnit d).toNat = 48 + d :=
  UInt16.toNat_ofNat_of_lt' (by
    have hsize : UInt16.size = 65536 := rfl
    omega)

theorem map_digitUnit_inj {as bs : List Nat} (has : ∀ d ∈ as, d < 10) (hbs : ∀ d ∈ bs, d < 10)
    (h : as.map digitUnit = bs.map digitUnit) : as = bs := by
  induction as generalizing bs with
  | nil => exact (List.map_eq_nil_iff.mp h.symm).symm
  | cons a as ih =>
    obtain ⟨b, bs, rfl, hab, htail⟩ := List.map_eq_cons_iff.mp h.symm
    obtain ⟨ha, has⟩ := List.forall_mem_cons.mp has
    obtain ⟨hb, hbs⟩ := List.forall_mem_cons.mp hbs
    have hunit := congrArg UInt16.toNat hab
    rw [digitUnit_toNat ha, digitUnit_toNat hb] at hunit
    rw [ih has hbs htail.symm, Nat.add_left_cancel hunit]

theorem digits_lt {n d : Nat} (h : d ∈ Nat.digits 10 n) : d < 10 :=
  Nat.digits_lt_base (by decide) h

/-- A unit of a text of digits. -/
theorem bounds_of_mem_map {ds : List Nat} (h : ∀ d ∈ ds, d < 10) {u : UInt16}
    (hu : u ∈ ds.map digitUnit) : 48 ≤ u.toNat ∧ u.toNat ≤ 57 := by
  obtain ⟨d, hd, rfl⟩ := List.mem_map.mp hu
  have hlt := h d hd
  rw [digitUnit_toNat hlt]
  omega

theorem digitText_injective {m n : Nat} (h : digitText m = digitText n) : m = n := by
  have hrev := map_digitUnit_inj (fun d hd => digits_lt (List.mem_reverse.mp hd))
    (fun d hd => digits_lt (List.mem_reverse.mp hd)) h
  exact Nat.digits_inj_iff.mp (List.reverse_inj.mp hrev)

/-! ## Integers -/

theorem significant_lt {n d : Nat} (h : d ∈ significant n) : d < 10 :=
  digits_lt ((List.dropWhile_suffix _).subset (List.mem_reverse.mp h))

theorem length_significant_le (n : Nat) : (significant n).length ≤ (Nat.digits 10 n).length := by
  unfold significant
  rw [List.length_reverse]
  exact (List.dropWhile_suffix _).length_le

/-- The digits are the significant ones and zeros. -/
theorem digits_reverse (n : Nat) : (Nat.digits 10 n).reverse = significant n ++
    List.replicate ((Nat.digits 10 n).length - (significant n).length) 0 := by
  have hzero : ∀ d ∈ (Nat.digits 10 n).takeWhile (fun d => d = 0), d = 0 := by
    intro d hd
    have h := List.mem_takeWhile_imp hd
    simpa using h
  have hzeros := List.eq_replicate_iff.mpr ⟨rfl, hzero⟩
  have hsplit : (Nat.digits 10 n).takeWhile (fun d => d = 0) ++
      (Nat.digits 10 n).dropWhile (fun d => d = 0) = Nat.digits 10 n :=
    List.takeWhile_append_dropWhile
  have hlen := congrArg List.length hsplit
  rw [List.length_append] at hlen
  have hcount : (Nat.digits 10 n).length - (significant n).length =
      ((Nat.digits 10 n).takeWhile fun d => d = 0).length := by
    unfold significant
    rw [List.length_reverse]
    omega
  rw [hcount, ← List.reverse_replicate, ← hzeros]
  unfold significant
  rw [← List.reverse_append, hsplit]

/-- The significant digits begin with one that is not zero. -/
theorem significant_cons {n : Nat} (hn : n ≠ 0) :
    ∃ d ds, significant n = d :: ds ∧ d ≠ 0 := by
  have hne := (Nat.digits_ne_nil_iff_ne_zero (b := 10)).mpr hn
  have hlast : (Nat.digits 10 n).getLast hne ≠ 0 := Nat.getLast_digit_ne_zero 10 hn
  have hhead : (Nat.digits 10 n).reverse.head? = some ((Nat.digits 10 n).getLast hne) := by
    rw [List.head?_reverse, List.getLast?_eq_some_getLast hne]
  rw [digits_reverse] at hhead
  cases hs : significant n with
  | nil =>
    rw [hs, List.nil_append] at hhead
    exact absurd (List.eq_of_mem_replicate (List.mem_of_mem_head? hhead)) hlast
  | cons d ds =>
    rw [hs, List.cons_append, List.head?_cons] at hhead
    exact ⟨d, ds, rfl, Option.some.inj hhead ▸ hlast⟩

/-- The text of a positive integer. -/
def natText (n : Nat) : List UInt16 := positiveText (significant n) (Nat.digits 10 n).length

theorem natText_short {n : Nat} (h : (Nat.digits 10 n).length ≤ 21) :
    natText n = digitText n := by
  have hle := length_significant_le n
  unfold natText positiveText digitText
  rw [if_pos (by omega), digits_reverse, List.map_append, List.map_replicate]
  congr 2
  omega

theorem natText_long {n : Nat} (h : 21 < (Nat.digits 10 n).length) :
    natText n = mantissa ((significant n).map digitUnit) ++
      101 :: 43 :: digitText ((Nat.digits 10 n).length - 1) := by
  unfold natText positiveText
  have habs : ((Nat.digits 10 n).length - 1 : Int).natAbs = (Nat.digits 10 n).length - 1 := by
    omega
  rw [if_neg (by omega), if_neg (by omega), if_neg (by omega), if_neg (by omega), habs]

theorem mantissa_inj {as bs : List UInt16} (h : mantissa as = mantissa bs) : as = bs := by
  unfold mantissa at h
  split at h <;> split at h
  · simpa using h
  · rename_i hshort
    subst h
    exact absurd rfl (hshort _ _ _)
  · rename_i hshort _ _ _ _
    subst h
    exact absurd rfl (hshort _ _ _)
  · exact h

/-- The units of a mantissa are digits and the point. -/
theorem mem_mantissa {us : List UInt16} {u : UInt16} (h : u ∈ mantissa us) : u ∈ us ∨ u = 46 := by
  unfold mantissa at h
  split at h
  · simp only [List.mem_cons] at h ⊢
    tauto
  · exact Or.inl h

theorem bounds_of_mem_digitText {n : Nat} {u : UInt16} (h : u ∈ digitText n) :
    48 ≤ u.toNat ∧ u.toNat ≤ 57 :=
  bounds_of_mem_map (fun _ hd => digits_lt (List.mem_reverse.mp hd)) h

/-- A unit that is no digit is in a text with an exponent only. -/
theorem mem_natText {n : Nat} {u : UInt16} (h : u ∈ natText n) :
    (48 ≤ u.toNat ∧ u.toNat ≤ 57) ∨
      (21 < (Nat.digits 10 n).length ∧ (u = 46 ∨ u = 101 ∨ u = 43)) := by
  by_cases hn : (Nat.digits 10 n).length ≤ 21
  · rw [natText_short hn] at h
    exact Or.inl (bounds_of_mem_digitText h)
  · have hn := Nat.lt_of_not_le hn
    rw [natText_long hn, List.mem_append, List.mem_cons, List.mem_cons] at h
    rcases h with h | rfl | rfl | h
    · rcases mem_mantissa h with h | rfl
      · exact Or.inl (bounds_of_mem_map (fun _ => significant_lt) h)
      · exact Or.inr ⟨hn, Or.inl rfl⟩
    · exact Or.inr ⟨hn, Or.inr (Or.inl rfl)⟩
    · exact Or.inr ⟨hn, Or.inr (Or.inr rfl)⟩
    · exact Or.inl (bounds_of_mem_digitText h)

/-- The exponent tells long texts from short ones. -/
theorem mem_exponent {n : Nat} : (101 : UInt16) ∈ natText n ↔ 21 < (Nat.digits 10 n).length := by
  constructor
  · intro h
    rcases mem_natText h with hb | ⟨hn, -⟩
    · exact absurd hb.2 (by decide)
    · exact hn
  · intro hn
    rw [natText_long hn]
    simp

/-- **Different positive integers have different texts.** -/
theorem natText_injective {m n : Nat} (h : natText m = natText n) : m = n := by
  have hlong : 21 < (Nat.digits 10 m).length ↔ 21 < (Nat.digits 10 n).length := by
    rw [← mem_exponent, ← mem_exponent, h]
  by_cases hm : 21 < (Nat.digits 10 m).length
  · -- the significant digits and the exponent are read off the text
    have hmantissa : (101 : UInt16) ∉ mantissa ((significant n).map digitUnit) := by
      intro hmem
      rcases mem_mantissa hmem with hmem | he
      · exact absurd (bounds_of_mem_map (fun _ => significant_lt) hmem).2 (by decide)
      · exact absurd he (by decide)
    have hexponent : (101 : UInt16) ∉
        (43 :: digitText ((Nat.digits 10 n).length - 1) : List UInt16) := by
      intro hmem
      rcases List.mem_cons.mp hmem with he | hmem
      · exact absurd he (by decide)
      · exact absurd (bounds_of_mem_digitText hmem).2 (by decide)
    rw [natText_long hm, natText_long (hlong.mp hm), eq_comm,
      List.append_cons_inj_of_notMem hmantissa hexponent] at h
    obtain ⟨hsignificant, -, hlength⟩ := h
    have hsignificant := map_digitUnit_inj (fun _ => significant_lt) (fun _ => significant_lt)
      (mantissa_inj hsignificant)
    have hlength := digitText_injective (List.cons.inj hlength).2
    have hdigits : (Nat.digits 10 m).reverse = (Nat.digits 10 n).reverse := by
      rw [digits_reverse, digits_reverse n, ← hsignificant]
      congr 2
      have hn := hlong.mp hm
      omega
    exact Nat.digits_inj_iff.mp (List.reverse_inj.mp hdigits)
  · rw [natText_short (Nat.le_of_not_lt hm),
      natText_short (Nat.le_of_not_lt (mt hlong.mpr hm))] at h
    exact digitText_injective h

/-- The text of an integer that is not zero. -/
theorem numberText_integer {m : Int} (hm : m ≠ 0) :
    numberText m 0 = (if m < 0 then [45] else []) ++ natText m.natAbs := by
  have hplaces : ((Nat.digits 10 m.natAbs).length : Int) - (0 : Nat) =
      (Nat.digits 10 m.natAbs).length := by omega
  rw [numberText, if_neg hm, hplaces]
  rfl

theorem not_mem_sign {n : Nat} : (45 : UInt16) ∉ natText n := by
  intro h
  rcases mem_natText h with hb | ⟨-, he⟩
  · exact absurd hb.1 (by decide)
  · revert he
    decide

/-- Only zero has the text `0`. -/
theorem natText_ne_zero {n : Nat} (hn : n ≠ 0) : natText n ≠ [48] := by
  intro h
  have hshort : (Nat.digits 10 n).length ≤ 21 := by
    by_contra hlong
    have hmem := mem_exponent.mpr (Nat.lt_of_not_le hlong)
    rw [h] at hmem
    exact absurd hmem (by decide)
  rw [natText_short hshort] at h
  have hdigits : (Nat.digits 10 n).reverse = [0] :=
    map_digitUnit_inj (fun _ hd => digits_lt (List.mem_reverse.mp hd)) (by simp) h
  have hvalue := Nat.ofDigits_digits 10 n
  rw [← List.reverse_reverse (Nat.digits 10 n), hdigits] at hvalue
  exact hn hvalue.symm

/-- **Different integers have different texts.** -/
theorem numberText_injective {m n : Int} (h : numberText m 0 = numberText n 0) : m = n := by
  have hzero : ∀ {k : Int}, k ≠ 0 → numberText k 0 ≠ numberText 0 0 := by
    intro k hk he
    have htext : numberText 0 0 = [48] := rfl
    rw [numberText_integer hk, htext] at he
    by_cases hneg : k < 0
    · rw [if_pos hneg] at he
      exact absurd (List.cons.inj he).1 (by decide)
    · rw [if_neg hneg] at he
      exact natText_ne_zero (by omega) he
  by_cases hm : m = 0
  · by_cases hn : n = 0
    · rw [hm, hn]
    · rw [hm] at h
      exact absurd h.symm (hzero hn)
  · by_cases hn : n = 0
    · rw [hn] at h
      exact absurd h (hzero hm)
    · rw [numberText_integer hm, numberText_integer hn] at h
      by_cases hneg : m < 0 <;> by_cases hneg' : n < 0
      · rw [if_pos hneg, if_pos hneg'] at h
        have habs := natText_injective (List.cons.inj h).2
        omega
      · rw [if_pos hneg, if_neg hneg', List.nil_append] at h
        exact absurd (h ▸ List.mem_cons_self : (45 : UInt16) ∈ natText n.natAbs) not_mem_sign
      · rw [if_neg hneg, if_pos hneg', List.nil_append] at h
        exact absurd (h ▸ List.mem_cons_self : (45 : UInt16) ∈ natText m.natAbs) not_mem_sign
      · rw [if_neg hneg, if_neg hneg'] at h
        have habs := natText_injective h
        omega

end NumberText
