import Mathlib.Tactic.IntervalCases

/-!
# Civil dates and ISO 8601 instants

`civilFromDays` turns a day count since 1970-01-01 into a proleptic Gregorian year, month and
day, `daysFromCivil` turns it back, and `daysFromCivil_civilFromDays` says the second undoes the
first. The year starts in March inside both, so that the leap day is the last of its year.

`isoText ms` writes an instant in milliseconds as `YYYY-MM-DDTHH:mm:ss.sssZ` and `readIso` reads
that shape and nothing else. **`readIso_isoText`**: reading gives the instant back whenever the
year has four digits.
-/

namespace Calendar

/-! ## Days and dates -/

/-- Days since 0000-03-01, which is 719468 days before 1970-01-01. -/
def marchDays (days : Int) : Int := days + 719468

/-- Century of the 400-year era from the day of the era; the last one is a day longer. -/
def century (doe : Int) : Int := min (doe / 36524) 3

/-- Four-year block of the century. -/
def leapBlock (doe : Int) : Int := (doe - 36524 * century doe) / 1461

/-- Year of the four-year block; the last one is a day longer. -/
def blockYear (doe : Int) : Int :=
  min ((doe - 36524 * century doe - 1461 * leapBlock doe) / 365) 3

/-- Year of the 400-year era. -/
def yearOfEra (doe : Int) : Int := 100 * century doe + 4 * leapBlock doe + blockYear doe

/-- Day of the March year. -/
def dayOfYear (doe : Int) : Int :=
  doe - 36524 * century doe - 1461 * leapBlock doe - 365 * blockYear doe

/-- Month counted from March. -/
def marchMonth (doy : Int) : Int := (5 * doy + 2) / 153

/-- Year, month and day of a day count since 1970-01-01. -/
def civilFromDays (days : Int) : Int × Int × Int :=
  let era := marchDays days / 146097
  let doe := marchDays days % 146097
  let doy := dayOfYear doe
  let mp := marchMonth doy
  let month := if mp < 10 then mp + 3 else mp - 9
  (yearOfEra doe + era * 400 + (if month ≤ 2 then 1 else 0), month,
    doy - (153 * mp + 2) / 5 + 1)

/-- The day count since 1970-01-01 of a year, month and day. -/
def daysFromCivil (year month day : Int) : Int :=
  let y := if month ≤ 2 then year - 1 else year
  let mp := if month ≤ 2 then month + 9 else month - 3
  let yoe := y % 400
  let doe := yoe * 365 + yoe / 4 - yoe / 100 + ((153 * mp + 2) / 5 + day - 1)
  y / 400 * 146097 + doe - 719468

theorem era_bounds {doe : Int} (h0 : 0 ≤ doe) (h1 : doe < 146097) :
    (0 ≤ century doe ∧ century doe ≤ 3) ∧ (0 ≤ leapBlock doe ∧ leapBlock doe ≤ 24) ∧
      (0 ≤ blockYear doe ∧ blockYear doe ≤ 3) ∧ (0 ≤ dayOfYear doe ∧ dayOfYear doe ≤ 365) := by
  have hc : 0 ≤ century doe ∧ century doe ≤ 3 ∧ 0 ≤ doe - 36524 * century doe ∧
      doe - 36524 * century doe ≤ 36524 := by
    unfold century
    omega
  have hq : 0 ≤ leapBlock doe ∧ leapBlock doe ≤ 24 ∧
      0 ≤ doe - 36524 * century doe - 1461 * leapBlock doe ∧
      doe - 36524 * century doe - 1461 * leapBlock doe ≤ 1460 := by
    unfold leapBlock
    omega
  have hy : 0 ≤ blockYear doe ∧ blockYear doe ≤ 3 ∧ 0 ≤ dayOfYear doe ∧ dayOfYear doe ≤ 365 := by
    unfold dayOfYear blockYear
    omega
  exact ⟨⟨hc.1, hc.2.1⟩, ⟨hq.1, hq.2.1⟩, ⟨hy.1, hy.2.1⟩, hy.2.2⟩

theorem yearOfEra_bound {doe : Int} (h0 : 0 ≤ doe) (h1 : doe < 146097) :
    0 ≤ yearOfEra doe ∧ yearOfEra doe < 400 := by
  have h := era_bounds h0 h1
  unfold yearOfEra
  omega

/-- The days of the years before, leap days included. -/
theorem yearOfEra_days {doe : Int} (h0 : 0 ≤ doe) (h1 : doe < 146097) :
    365 * yearOfEra doe + yearOfEra doe / 4 - yearOfEra doe / 100 + dayOfYear doe = doe := by
  have h := era_bounds h0 h1
  unfold yearOfEra dayOfYear
  omega

theorem marchMonth_bound {doy : Int} (h0 : 0 ≤ doy) (h1 : doy ≤ 365) :
    0 ≤ marchMonth doy ∧ marchMonth doy ≤ 11 := by
  unfold marchMonth
  omega

/-- **Dates give their day count back.** -/
theorem daysFromCivil_civilFromDays (days : Int) :
    daysFromCivil (civilFromDays days).1 (civilFromDays days).2.1 (civilFromDays days).2.2 =
      days := by
  have hdoe : 0 ≤ marchDays days % 146097 ∧ marchDays days % 146097 < 146097 := by omega
  have hy := yearOfEra_bound hdoe.1 hdoe.2
  have hd := (era_bounds hdoe.1 hdoe.2).2.2.2
  have hm := marchMonth_bound hd.1 hd.2
  have hsum := yearOfEra_days hdoe.1 hdoe.2
  have hdays : days = marchDays days / 146097 * 146097 + marchDays days % 146097 - 719468 := by
    unfold marchDays
    omega
  -- the era and the year of the era are read back from the year
  have hera : ∀ y era : Int, 0 ≤ y ∧ y < 400 → (y + era * 400) / 400 = era ∧
      (y + era * 400) % 400 = y := by omega
  obtain ⟨he1, he2⟩ := hera _ (marchDays days / 146097) hy
  simp only [civilFromDays, daysFromCivil]
  by_cases hlt : marchMonth (dayOfYear (marchDays days % 146097)) < 10
  · have h2 : ¬ marchMonth (dayOfYear (marchDays days % 146097)) + 3 ≤ 2 := by omega
    simp only [if_pos hlt, if_neg h2, add_zero, add_sub_cancel_right, he1, he2]
    omega
  · have h2 : marchMonth (dayOfYear (marchDays days % 146097)) - 9 ≤ 2 := by omega
    simp only [if_neg hlt, if_pos h2, add_sub_cancel_right, sub_add_cancel, he1, he2]
    omega

theorem civilFromDays_month (days : Int) :
    1 ≤ (civilFromDays days).2.1 ∧ (civilFromDays days).2.1 ≤ 12 := by
  have hdoe : 0 ≤ marchDays days % 146097 ∧ marchDays days % 146097 < 146097 := by omega
  have hd := (era_bounds hdoe.1 hdoe.2).2.2.2
  have hm := marchMonth_bound hd.1 hd.2
  simp only [civilFromDays]
  split <;> omega

theorem civilFromDays_day (days : Int) :
    1 ≤ (civilFromDays days).2.2 ∧ (civilFromDays days).2.2 ≤ 31 := by
  have hdoe : 0 ≤ marchDays days % 146097 ∧ marchDays days % 146097 < 146097 := by omega
  have hd := (era_bounds hdoe.1 hdoe.2).2.2.2
  simp only [civilFromDays, marchMonth]
  omega

/-- From 0000-03-01 until 9999-12-31 the year has at most four digits. -/
theorem civilFromDays_year {days : Int} (h0 : -719468 ≤ days) (h1 : days < 2932897) :
    0 ≤ (civilFromDays days).1 ∧ (civilFromDays days).1 ≤ 9999 := by
  have hdoe : 0 ≤ marchDays days % 146097 ∧ marchDays days % 146097 < 146097 := by omega
  have hera : 0 ≤ marchDays days / 146097 ∧ marchDays days / 146097 ≤ 24 := by
    unfold marchDays
    omega
  have hy := yearOfEra_bound hdoe.1 hdoe.2
  simp only [civilFromDays]
  constructor
  · split <;> split <;> omega
  · -- only the last era can reach 10000, and its last two months start past the bound
    by_cases hlast : yearOfEra (marchDays days % 146097) = 399 ∧ marchDays days / 146097 = 24
    · have hsum := yearOfEra_days hdoe.1 hdoe.2
      have hlate : marchDays days % 146097 < 146037 := by unfold marchDays at *; omega
      have hdoy : dayOfYear (marchDays days % 146097) < 306 := by
        rw [hlast.1] at hsum
        omega
      have hmp : marchMonth (dayOfYear (marchDays days % 146097)) < 10 := by
        unfold marchMonth
        omega
      have hmp0 := marchMonth_bound (era_bounds hdoe.1 hdoe.2).2.2.2.1 (by omega)
      rw [if_pos hmp, if_neg (by omega)]
      omega
    · split <;> split <;> omega

/-! ## Digits -/

/-- The last decimal digit of `n`. -/
def digit (n : Nat) : Char := Char.ofNat (48 + n % 10)

/-- The value of a digit. -/
def digitVal (c : Char) : Option Nat :=
  if 48 ≤ c.toNat ∧ c.toNat ≤ 57 then some (c.toNat - 48) else none

theorem digitVal_digit (n : Nat) : digitVal (digit n) = some (n % 10) := by
  unfold digit
  have h : n % 10 < 10 := Nat.mod_lt _ (by omega)
  generalize n % 10 = k at h
  interval_cases k <;> rfl

/-- The number a list of digits writes. -/
def readDigits (cs : List Char) : Option Nat :=
  cs.foldl (fun acc c => acc.bind fun n => (digitVal c).map fun d => 10 * n + d) (some 0)

def pad2 (n : Nat) : List Char := [digit (n / 10), digit n]
def pad3 (n : Nat) : List Char := [digit (n / 100), digit (n / 10), digit n]
def pad4 (n : Nat) : List Char := [digit (n / 1000), digit (n / 100), digit (n / 10), digit n]

theorem readDigits_pad2 {n : Nat} (h : n < 100) : readDigits (pad2 n) = some n := by
  simp only [readDigits, pad2, List.foldl_cons, List.foldl_nil, Option.bind_some, digitVal_digit,
    Option.map_some, Option.some.injEq]
  omega

theorem readDigits_pad3 {n : Nat} (h : n < 1000) : readDigits (pad3 n) = some n := by
  simp only [readDigits, pad3, List.foldl_cons, List.foldl_nil, Option.bind_some, digitVal_digit,
    Option.map_some, Option.some.injEq]
  omega

theorem readDigits_pad4 {n : Nat} (h : n < 10000) : readDigits (pad4 n) = some n := by
  simp only [readDigits, pad4, List.foldl_cons, List.foldl_nil, Option.bind_some, digitVal_digit,
    Option.map_some, Option.some.injEq]
  omega

/-! ## Instants -/

/-- The ISO 8601 text of an instant in milliseconds since 1970-01-01, in UTC. -/
def isoText (ms : Int) : String :=
  let date := civilFromDays (ms / 86400000)
  let tod := (ms % 86400000).toNat
  String.ofList (pad4 date.1.toNat ++ '-' :: pad2 date.2.1.toNat ++ '-' :: pad2 date.2.2.toNat ++
    'T' :: pad2 (tod / 3600000) ++ ':' :: pad2 (tod / 60000 % 60) ++
    ':' :: pad2 (tod / 1000 % 60) ++ '.' :: pad3 (tod % 1000) ++ ['Z'])

/-- Read `YYYY-MM-DDTHH:mm:ss.sssZ` into milliseconds since 1970-01-01. -/
def readIso (s : String) : Option Int :=
  match s.toList with
  | [y1, y2, y3, y4, c1, m1, m2, c2, d1, d2, c3, h1, h2, c4, n1, n2, c5, s1, s2, c6, f1, f2, f3,
      c7] =>
    if [c1, c2, c3, c4, c5, c6, c7] = ['-', '-', 'T', ':', ':', '.', 'Z'] then do
      let y ← readDigits [y1, y2, y3, y4]
      let m ← readDigits [m1, m2]
      let d ← readDigits [d1, d2]
      let h ← readDigits [h1, h2]
      let n ← readDigits [n1, n2]
      let sec ← readDigits [s1, s2]
      let f ← readDigits [f1, f2, f3]
      some (daysFromCivil y m d * 86400000 +
        ((h * 3600000 + n * 60000 + sec * 1000 + f : Nat) : Int))
    else none
  | _ => none

/-- The instants whose year `isoText` writes in full. -/
def FourDigitYear (ms : Int) : Prop := -62162035200000 ≤ ms ∧ ms < 253402300800000

instance (ms : Int) : Decidable (FourDigitYear ms) := inferInstanceAs (Decidable (_ ∧ _))

/-- **Reading undoes writing.** -/
theorem readIso_isoText {ms : Int} (h : FourDigitYear ms) : readIso (isoText ms) = some ms := by
  obtain ⟨h0, h1⟩ := h
  have hy := @civilFromDays_year (ms / 86400000) (by omega) (by omega)
  have hm := civilFromDays_month (ms / 86400000)
  have hd := civilFromDays_day (ms / 86400000)
  have hday := daysFromCivil_civilFromDays (ms / 86400000)
  have htod : (ms % 86400000).toNat < 86400000 := by omega
  have hms : ((ms % 86400000).toNat : Int) = ms % 86400000 := by omega
  unfold readIso isoText
  simp only [String.toList_ofList, pad4, pad2, pad3, List.cons_append, List.nil_append]
  rw [if_pos trivial]
  have e4 := readDigits_pad4 (n := (civilFromDays (ms / 86400000)).1.toNat) (by omega)
  have em := readDigits_pad2 (n := (civilFromDays (ms / 86400000)).2.1.toNat) (by omega)
  have ed := readDigits_pad2 (n := (civilFromDays (ms / 86400000)).2.2.toNat) (by omega)
  have eh := readDigits_pad2 (n := (ms % 86400000).toNat / 3600000) (by omega)
  have en := readDigits_pad2 (n := (ms % 86400000).toNat / 60000 % 60) (by omega)
  have es := readDigits_pad2 (n := (ms % 86400000).toNat / 1000 % 60) (by omega)
  have ef := readDigits_pad3 (n := (ms % 86400000).toNat % 1000) (by omega)
  simp only [pad4, pad2, pad3] at e4 em ed eh en es ef
  simp only [e4, em, ed, eh, en, es, ef, Option.bind_eq_bind, Option.bind_some, Option.some.injEq]
  rw [Int.toNat_of_nonneg hy.1, Int.toNat_of_nonneg (by omega), Int.toNat_of_nonneg (by omega),
    hday]
  omega

/-- What stands in the text of an instant. -/
def IsoChar (c : Char) : Prop := (digitVal c).isSome ∨ c ∈ ['-', ':', '.', 'T', 'Z']

theorem isoChar_digit (n : Nat) : IsoChar (digit n) := by
  refine Or.inl ?_
  rw [digitVal_digit]
  rfl

theorem isoChar_pad2 (n : Nat) : ∀ c ∈ pad2 n, IsoChar c := by
  simp only [pad2, List.forall_mem_cons, isoChar_digit, true_and]
  exact fun c hc => absurd hc List.not_mem_nil

theorem isoChar_pad3 (n : Nat) : ∀ c ∈ pad3 n, IsoChar c :=
  List.forall_mem_cons.mpr ⟨isoChar_digit _, isoChar_pad2 n⟩

theorem isoChar_pad4 (n : Nat) : ∀ c ∈ pad4 n, IsoChar c :=
  List.forall_mem_cons.mpr ⟨isoChar_digit _, isoChar_pad3 n⟩

/-- The text has no other characters than digits and `-`, `:`, `.`, `T`, `Z`. -/
theorem mem_isoText {ms : Int} {c : Char} (h : c ∈ (isoText ms).toList) :
    (digitVal c).isSome ∨ c ∈ ['-', ':', '.', 'T', 'Z'] := by
  have happend : ∀ {l : List Char}, (∀ c ∈ l, IsoChar c) → ∀ {sep : Char},
      sep ∈ ['-', ':', '.', 'T', 'Z'] → ∀ {r : List Char}, (∀ c ∈ r, IsoChar c) →
      ∀ c ∈ l ++ sep :: r, IsoChar c := by
    intro l hl sep hsep r hr
    exact List.forall_mem_append.mpr ⟨hl, List.forall_mem_cons.mpr ⟨Or.inr hsep, hr⟩⟩
  unfold isoText at h
  rw [String.toList_ofList] at h
  have hdate := happend (happend (isoChar_pad4 (civilFromDays (ms / 86400000)).1.toNat)
    (by decide : '-' ∈ _) (isoChar_pad2 (civilFromDays (ms / 86400000)).2.1.toNat))
    (by decide : '-' ∈ _) (isoChar_pad2 (civilFromDays (ms / 86400000)).2.2.toNat)
  have hclock := happend (happend (happend hdate
    (by decide : 'T' ∈ _) (isoChar_pad2 ((ms % 86400000).toNat / 3600000)))
    (by decide : ':' ∈ _) (isoChar_pad2 ((ms % 86400000).toNat / 60000 % 60)))
    (by decide : ':' ∈ _) (isoChar_pad2 ((ms % 86400000).toNat / 1000 % 60))
  have hfraction := happend hclock (by decide : '.' ∈ _)
    (isoChar_pad3 ((ms % 86400000).toNat % 1000))
  exact happend hfraction (by decide : 'Z' ∈ _) (fun c hc => absurd hc List.not_mem_nil) c h

end Calendar
