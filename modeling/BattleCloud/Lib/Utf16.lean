import Mathlib.Data.Char
import Mathlib.Data.List.Basic

/-!
# UTF-16

A string of code units that need not be well formed: a high surrogate and the low one after it
are one character, every other surrogate stands for none. `decode` reads the units from the left,
`lossy` replaces what stands for no character by U+FFFD, and `encode` writes characters.
-/

namespace Utf16

def isHigh (u : UInt16) : Bool := 0xD800 ≤ u.toNat && u.toNat < 0xDC00

def isLow (u : UInt16) : Bool := 0xDC00 ≤ u.toNat && u.toNat < 0xE000

/-- The character of a surrogate pair. -/
def pair (high low : UInt16) : Char :=
  Char.ofNat (0x10000 + (high.toNat - 0xD800) * 0x400 + (low.toNat - 0xDC00))

/-- The character a unit stands for by itself. -/
def single (u : UInt16) : Option Char :=
  if isHigh u || isLow u then none else some (Char.ofNat u.toNat)

/-- The characters of a string; `none` is a surrogate without its partner. -/
def decode : List UInt16 → List (Option Char)
  | [] => []
  | [u] => [single u]
  | u :: v :: us =>
    if isHigh u && isLow v then some (pair u v) :: decode us else single u :: decode (v :: us)

def wellFormed (us : List UInt16) : Bool := (decode us).all Option.isSome

/-- What the WHATWG encoder makes of the units. -/
def lossy (us : List UInt16) : String := String.ofList ((decode us).map (·.getD '\uFFFD'))

def encodeChar (c : Char) : List UInt16 :=
  if c.toNat < 0x10000 then [UInt16.ofNat c.toNat]
  else [UInt16.ofNat (0xD800 + (c.toNat - 0x10000) / 0x400),
    UInt16.ofNat (0xDC00 + (c.toNat - 0x10000) % 0x400)]

def encode (cs : List Char) : List UInt16 := cs.flatMap encodeChar

/-- The units of a code point, which need not be a character: a surrogate is a unit of its own. -/
def encodePoint (n : Nat) : List UInt16 :=
  if n < 0x10000 then [UInt16.ofNat n]
  else [UInt16.ofNat (0xD800 + (n - 0x10000) / 0x400),
    UInt16.ofNat (0xDC00 + (n - 0x10000) % 0x400)]

/-! ## Characters -/

theorem toNat_range (c : Char) : c.toNat < 0xD800 ∨ (0xE000 ≤ c.toNat ∧ c.toNat < 0x110000) := by
  rcases c.valid with h | ⟨h₁, h₂⟩
  · exact Or.inl h
  · exact Or.inr ⟨Nat.succ_le_of_lt h₁, h₂⟩

theorem toNat_ofNat {n : Nat} (h : n.isValidChar) : (Char.ofNat n).toNat = n := by
  rw [Char.ofNat, dif_pos h]
  rfl

theorem isHigh_iff {u : UInt16} : isHigh u = true ↔ 0xD800 ≤ u.toNat ∧ u.toNat < 0xDC00 := by
  simp [isHigh]

theorem isLow_iff {u : UInt16} : isLow u = true ↔ 0xDC00 ≤ u.toNat ∧ u.toNat < 0xE000 := by
  simp [isLow]

theorem single_some {u : UInt16} {c : Char} (h : single u = some c) : c.toNat = u.toNat := by
  unfold single at h
  split at h
  · cases h
  · rename_i hs
    cases h
    have hlt := u.toNat_lt
    rw [Bool.or_eq_true, isHigh_iff, isLow_iff] at hs
    refine toNat_ofNat ?_
    unfold Nat.isValidChar
    omega

theorem pair_toNat {u v : UInt16} (hu : isHigh u = true) (hv : isLow v = true) :
    (pair u v).toNat = 0x10000 + (u.toNat - 0xD800) * 0x400 + (v.toNat - 0xDC00) := by
  rw [isHigh_iff] at hu
  rw [isLow_iff] at hv
  refine toNat_ofNat (Or.inr ?_)
  omega

theorem unit_toNat {n : Nat} (h : n < 0x10000) : (UInt16.ofNat n).toNat = n :=
  UInt16.toNat_ofNat_of_lt' h

/-- A character of the basic plane stands where its unit does. -/
theorem mem_decode {c : Char} (hc : c.toNat < 0x10000) {us : List UInt16} :
    some c ∈ decode us ↔ UInt16.ofNat c.toNat ∈ us := by
  have hr := toNat_range c
  have hn := unit_toNat hc
  have hsingle : ∀ u : UInt16, some c = single u ↔ UInt16.ofNat c.toNat = u := by
    intro u
    constructor
    · intro h
      rw [single_some h.symm]
      exact UInt16.ofNat_toNat
    · rintro rfl
      have hh : isHigh (UInt16.ofNat c.toNat) = false := by
        rw [Bool.eq_false_iff, ne_eq, isHigh_iff, hn]
        omega
      have hl : isLow (UInt16.ofNat c.toNat) = false := by
        rw [Bool.eq_false_iff, ne_eq, isLow_iff, hn]
        omega
      simp only [single, hh, hl, hn, Bool.or_self, Bool.false_eq_true, if_false, Char.ofNat_toNat]
  fun_induction decode us with
  | case1 => simp
  | case2 u => simp only [List.mem_singleton, hsingle]
  | case3 u v us hp ih =>
    rw [Bool.and_eq_true] at hp
    have hp' := pair_toNat hp.1 hp.2
    have hpair : some c ≠ some (pair u v) := by
      intro h
      rw [← Option.some.inj h] at hp'
      omega
    have hu : UInt16.ofNat c.toNat ≠ u := by
      rintro rfl
      have := isHigh_iff.mp hp.1
      omega
    have hv : UInt16.ofNat c.toNat ≠ v := by
      rintro rfl
      have := isLow_iff.mp hp.2
      omega
    simp only [List.mem_cons, ih, hpair, hu, hv, false_or]
  | case4 u v us hp ih =>
    rw [List.mem_cons, hsingle]
    exact (or_congr Iff.rfl ih).trans List.mem_cons.symm

/-- **U+0000 is in the text exactly if the unit 0 is in the string.** -/
theorem zero_mem_decode {us : List UInt16} : some '\x00' ∈ decode us ↔ 0 ∈ us :=
  mem_decode (by decide)

/-! ## The round trip -/

theorem decode_cons_single {u : UInt16} (hu : isHigh u = false) (us : List UInt16) :
    decode (u :: us) = single u :: decode us := by
  cases us with
  | nil => rfl
  | cons v us => simp [decode, hu]

theorem decode_cons_pair {u v : UInt16} (hu : isHigh u = true) (hv : isLow v = true)
    (us : List UInt16) : decode (u :: v :: us) = some (pair u v) :: decode us := by
  simp [decode, hu, hv]

/-- A unit that is no surrogate is a character wherever it stands. -/
theorem decode_append_cons {u : UInt16} (hh : isHigh u = false) (hl : isLow u = false)
    (us vs : List UInt16) : decode (us ++ u :: vs) = decode us ++ single u :: decode vs := by
  fun_induction decode us with
  | case1 => exact decode_cons_single hh vs
  | case2 w =>
    rw [List.singleton_append, decode, if_neg (by simp [hl]), decode_cons_single hh]
    rfl
  | case3 v w us hp ih =>
    rw [Bool.and_eq_true] at hp
    rw [List.cons_append, List.cons_append, decode_cons_pair hp.1 hp.2, ih]
    rfl
  | case4 v w us hp ih =>
    rw [List.cons_append, List.cons_append, decode, if_neg hp]
    rw [List.cons_append] at ih
    rw [ih]
    rfl

/-- **A code point that is a character is read back.** -/
theorem decode_encodePoint {n : Nat} (h : n.isValidChar) (us : List UInt16) :
    decode (encodePoint n ++ us) = some (Char.ofNat n) :: decode us := by
  have hr : n < 0xD800 ∨ (0xDFFF < n ∧ n < 0x110000) := h
  unfold encodePoint
  split
  · rename_i hlt
    have hn := unit_toNat hlt
    have hh : isHigh (UInt16.ofNat n) = false := by
      rw [Bool.eq_false_iff, ne_eq, isHigh_iff, hn]
      omega
    have hl : isLow (UInt16.ofNat n) = false := by
      rw [Bool.eq_false_iff, ne_eq, isLow_iff, hn]
      omega
    rw [List.singleton_append, decode_cons_single hh]
    unfold single
    rw [hh, hl, hn]
    simp
  · rename_i hge
    have hhi := unit_toNat (n := 0xD800 + (n - 0x10000) / 0x400) (by omega)
    have hlo := unit_toNat (n := 0xDC00 + (n - 0x10000) % 0x400) (by omega)
    have hh : isHigh (UInt16.ofNat (0xD800 + (n - 0x10000) / 0x400)) = true := by
      rw [isHigh_iff, hhi]
      omega
    have hl : isLow (UInt16.ofNat (0xDC00 + (n - 0x10000) % 0x400)) = true := by
      rw [isLow_iff, hlo]
      omega
    have hp := pair_toNat hh hl
    rw [hhi, hlo] at hp
    have hc : pair (UInt16.ofNat (0xD800 + (n - 0x10000) / 0x400))
        (UInt16.ofNat (0xDC00 + (n - 0x10000) % 0x400)) = Char.ofNat n := by
      rw [← Char.toNat_inj, hp, toNat_ofNat h]
      omega
    rw [List.cons_append, List.singleton_append, decode_cons_pair hh hl, hc]

/-- So are the characters among the code points of a string. -/
theorem decode_points {ns : List Nat} (h : ∀ n ∈ ns, n.isValidChar) :
    decode (ns.flatMap encodePoint) = ns.map fun n => some (Char.ofNat n) := by
  induction ns with
  | nil => rfl
  | cons n ns ih =>
    obtain ⟨hn, hns⟩ := List.forall_mem_cons.mp h
    rw [List.flatMap_cons, decode_encodePoint hn, ih hns, List.map_cons]

/-- A character of the basic plane. -/
def IsBasic (x : Option Char) : Prop := ∃ c, x = some c ∧ c.toNat < 0x10000

/-- A high surrogate is alone, or half of a character above the plane. -/
theorem not_basic_of_high {u : UInt16} (hu : isHigh u = true) (us : List UInt16) :
    ¬ ∀ x ∈ decode (u :: us), IsBasic x := by
  intro h
  have hnone : single u = none := by simp [single, hu]
  have hpartner : ∀ {us : List UInt16}, decode (u :: us) = single u :: decode us →
      ¬ ∀ x ∈ decode (u :: us), IsBasic x := by
    intro us hd h
    rw [hd] at h
    obtain ⟨c, hc, -⟩ := h _ List.mem_cons_self
    rw [hnone] at hc
    cases hc
  cases us with
  | nil => exact hpartner rfl h
  | cons v us =>
    cases hl : isLow v with
    | true =>
      rw [decode_cons_pair hu hl] at h
      obtain ⟨c, hc, hsmall⟩ := h _ List.mem_cons_self
      have hp := pair_toNat hu hl
      rw [Option.some.inj hc] at hp
      omega
    | false => exact hpartner (by simp [decode, hl]) h

/-- **Text of the basic plane comes from code points that are characters.** -/
theorem valid_of_decode {ns : List Nat} (hlt : ∀ n ∈ ns, n < 0x110000)
    (h : ∀ x ∈ decode (ns.flatMap encodePoint), IsBasic x) :
    ∀ n ∈ ns, n.isValidChar := by
  induction ns with
  | nil => simp
  | cons n ns ih =>
    obtain ⟨hn, hns⟩ := List.forall_mem_cons.mp hlt
    rw [List.flatMap_cons] at h
    by_cases hplane : n < 0x10000
    · have hu := unit_toNat hplane
      rw [encodePoint, if_pos hplane, List.singleton_append] at h
      cases hh : isHigh (UInt16.ofNat n) with
      | true => exact absurd h (not_basic_of_high hh _)
      | false =>
        rw [decode_cons_single hh] at h
        obtain ⟨hfirst, hrest⟩ := List.forall_mem_cons.mp h
        refine List.forall_mem_cons.mpr ⟨?_, ih hns hrest⟩
        obtain ⟨c, hc, -⟩ := hfirst
        have hr := toNat_range c
        rw [single_some hc, hu] at hr
        exact hr.imp_right fun ⟨h₁, h₂⟩ => ⟨h₁, h₂⟩
    · have hv : n.isValidChar := Or.inr ⟨by omega, hn⟩
      rw [decode_encodePoint hv] at h
      obtain ⟨c, hc, hsmall⟩ := h _ List.mem_cons_self
      rw [← Option.some.inj hc, toNat_ofNat hv] at hsmall
      exact absurd hsmall hplane

/-- **Written characters are read back.** -/
theorem decode_encode (cs : List Char) : decode (encode cs) = cs.map some := by
  have hpoints : encode cs = (cs.map Char.toNat).flatMap encodePoint := by
    rw [List.flatMap_map]
    rfl
  have hvalid : ∀ n ∈ cs.map Char.toNat, n.isValidChar := by
    intro n hn
    obtain ⟨c, -, rfl⟩ := List.mem_map.mp hn
    exact c.valid
  rw [hpoints, decode_points hvalid, List.map_map]
  exact List.map_congr_left fun c _ => congrArg some (Char.ofNat_toNat c)

theorem encodeChar_single {u : UInt16} {c : Char} (h : single u = some c) : encodeChar c = [u] := by
  have hn := single_some h
  have hlt := u.toNat_lt
  unfold encodeChar
  rw [if_pos (by omega), hn, UInt16.ofNat_toNat]

theorem encodeChar_pair {u v : UInt16} (hu : isHigh u = true) (hv : isLow v = true) :
    encodeChar (pair u v) = [u, v] := by
  have hn := pair_toNat hu hv
  rw [isHigh_iff] at hu
  rw [isLow_iff] at hv
  have hhigh : 0xD800 + ((pair u v).toNat - 0x10000) / 0x400 = u.toNat := by omega
  have hlow : 0xDC00 + ((pair u v).toNat - 0x10000) % 0x400 = v.toNat := by omega
  unfold encodeChar
  rw [if_neg (by omega), hhigh, hlow, UInt16.ofNat_toNat, UInt16.ofNat_toNat]

/-- **Units that are all characters are those of their text.** -/
theorem encode_of_decode {us : List UInt16} {cs : List Char} (h : decode us = cs.map some) :
    encode cs = us := by
  fun_induction decode us generalizing cs with
  | case1 =>
    rw [eq_comm, List.map_eq_nil_iff] at h
    rw [h]
    rfl
  | case2 u =>
    obtain ⟨c, cs, rfl, hc, hcs⟩ := List.map_eq_cons_iff.mp h.symm
    rw [List.map_eq_nil_iff.mp hcs, encode, List.flatMap_singleton, encodeChar_single hc.symm]
  | case3 u v us hp ih =>
    rw [Bool.and_eq_true] at hp
    obtain ⟨c, cs, rfl, hc, hcs⟩ := List.map_eq_cons_iff.mp h.symm
    rw [encode, List.flatMap_cons, Option.some.inj hc, encodeChar_pair hp.1 hp.2]
    exact congrArg _ (ih hcs.symm)
  | case4 u v us hp ih =>
    obtain ⟨c, cs, rfl, hc, hcs⟩ := List.map_eq_cons_iff.mp h.symm
    rw [encode, List.flatMap_cons, encodeChar_single hc.symm]
    exact congrArg _ (ih hcs.symm)

/-- A well-formed string is its characters. -/
theorem wellFormed_iff {us : List UInt16} :
    wellFormed us = true ↔ ∃ cs : List Char, decode us = cs.map some := by
  unfold wellFormed
  rw [List.all_eq_true]
  constructor
  · intro h
    have hcs : ∀ {xs : List (Option Char)}, (∀ x ∈ xs, x.isSome = true) →
        xs = (xs.filterMap id).map some := by
      intro xs hxs
      induction xs with
      | nil => rfl
      | cons x xs ih =>
        obtain ⟨hx, hrest⟩ := List.forall_mem_cons.mp hxs
        obtain ⟨c, rfl⟩ := Option.isSome_iff_exists.mp hx
        have hc : id (some c) = some c := rfl
        rw [List.filterMap_cons_some hc, List.map_cons, ← ih hrest]
    exact ⟨_, hcs h⟩
  · rintro ⟨cs, hcs⟩ x hx
    rw [hcs] at hx
    obtain ⟨c, -, rfl⟩ := List.mem_map.mp hx
    rfl

theorem wellFormed_append {us vs : List UInt16} (hus : wellFormed us = true)
    (hvs : wellFormed vs = true) : wellFormed (us ++ vs) = true := by
  obtain ⟨cs, hcs⟩ := wellFormed_iff.mp hus
  obtain ⟨ds, hds⟩ := wellFormed_iff.mp hvs
  have happend : encode (cs ++ ds) = us ++ vs := by
    rw [encode, List.flatMap_append, ← encode_of_decode hcs, ← encode_of_decode hds]
    rfl
  rw [← happend]
  exact wellFormed_iff.mpr ⟨_, decode_encode _⟩

/-- Units below the surrogates are characters by themselves. -/
theorem decode_basic {us : List UInt16} (h : ∀ u ∈ us, u.toNat < 0xD800) :
    decode us = us.map fun u => some (Char.ofNat u.toNat) := by
  induction us with
  | nil => rfl
  | cons u us ih =>
    obtain ⟨hu, hus⟩ := List.forall_mem_cons.mp h
    have hh : isHigh u = false := by
      rw [Bool.eq_false_iff, ne_eq, isHigh_iff]
      omega
    have hl : isLow u = false := by
      rw [Bool.eq_false_iff, ne_eq, isLow_iff]
      omega
    rw [decode_cons_single hh, ih hus, List.map_cons]
    simp [single, hh, hl]

theorem wellFormed_of_basic {us : List UInt16} (h : ∀ u ∈ us, u.toNat < 0xD800) :
    wellFormed us = true := by
  refine wellFormed_iff.mpr ⟨us.map fun u => Char.ofNat u.toNat, ?_⟩
  rw [decode_basic h, List.map_map]
  rfl

theorem lossy_encode (cs : List Char) : lossy (encode cs) = String.ofList cs := by
  unfold lossy
  rw [decode_encode, List.map_map]
  congr 1
  exact List.map_id cs

end Utf16
