import BattleCloud.Contract.JsonText
import BattleCloud.Lib.NumberText
import BattleCloud.Lib.Utf8

/-!
# `JSON.stringify`

The text ECMAScript writes of a value, without white space, the properties in the order the value
lists them. A unit below U+0020 and a surrogate without its partner are escaped, so the text is
well formed whatever the strings are, and its bytes are decoded as the text
(`decodeText_stringify`). The text of a number is a numeral of the grammar (`run_numberText`).
-/

namespace BattleCloud

open NumberText (numberText)

/-! ## The text of a value -/

namespace JsonText

/-- A hexadecimal digit, in lower case. -/
def hexUnit (d : Nat) : UInt16 := UInt16.ofNat (if d < 10 then 48 + d else 87 + d)

/-- `UnicodeEscape`: `\uXXXX`. -/
def unicodeEscape (u : UInt16) : JsString :=
  [92, 117, hexUnit (u.toNat / 4096), hexUnit (u.toNat / 256 % 16), hexUnit (u.toNat / 16 % 16),
    hexUnit (u.toNat % 16)]

/-- A unit that is a character by itself. -/
def quoteUnit (u : UInt16) : JsString :=
  if u = 8 then [92, 98]
  else if u = 9 then [92, 116]
  else if u = 10 then [92, 110]
  else if u = 12 then [92, 102]
  else if u = 13 then [92, 114]
  else if u = 34 then [92, 34]
  else if u = 92 then [92, 92]
  else if u < 32 || Utf16.isHigh u || Utf16.isLow u then unicodeEscape u
  else [u]

/-- `QuoteJSONString` without the quotes: a surrogate pair stays as it is. -/
def quoteUnits : JsString → JsString
  | [] => []
  | [u] => quoteUnit u
  | u :: v :: us =>
    if Utf16.isHigh u && Utf16.isLow v then u :: v :: quoteUnits us
    else quoteUnit u ++ quoteUnits (v :: us)

def quote (s : JsString) : JsString := 34 :: quoteUnits s ++ [34]

end JsonText

open JsonText

mutual

/-- The text of a value. -/
def JsValue.stringify : JsValue → JsString
  | .null => js "null"
  | .bool true => js "true"
  | .bool false => js "false"
  | .num m e => numberText m e
  | .infinite _ => js "null"
  | .str s => quote s
  | .arr [] => [91, 93]
  | .arr (x :: xs) => 91 :: (x.stringify ++ JsValue.stringifyMore xs ++ [93])
  | .obj [] => [123, 125]
  | .obj ((k, v) :: fields) =>
    123 :: (quote k ++ 58 :: v.stringify ++ JsValue.stringifyFields fields ++ [125])

/-- The elements behind the first. -/
def JsValue.stringifyMore : List JsValue → JsString
  | [] => []
  | x :: xs => 44 :: (x.stringify ++ JsValue.stringifyMore xs)

/-- The properties behind the first. -/
def JsValue.stringifyFields : List (JsString × JsValue) → JsString
  | [] => []
  | (k, v) :: fields => 44 :: (quote k ++ 58 :: v.stringify ++ JsValue.stringifyFields fields)

end

/-- `JSON.stringify(value)` with room for this many levels on the stack; it throws of a value that
is deeper. -/
def jsonStringify (levels : Nat) (v : JsValue) : Option JsString :=
  if v.depth ≤ levels then some v.stringify else none

example :
    JsValue.stringify (.obj [(js "a\n", .arr [.num 15 1, .str [0xD800, 0x7A]]), (js "b", .null)]) =
      js "\x7b\"a\\n\":[1.5,\"\\ud800z\"],\"b\":null\x7d" := by decide

namespace JsonText

/-! ## Numbers -/

/-- The phase behind some units. -/
def NumberPhase.run (us : JsString) (phase : NumberPhase) : Option NumberPhase :=
  us.foldlM (fun phase u => phase.next u) phase

theorem NumberPhase.run_cons {p q : NumberPhase} {u : UInt16} (h : p.next u = some q)
    (us : JsString) : NumberPhase.run (u :: us) p = NumberPhase.run us q := by
  unfold NumberPhase.run
  rw [List.foldlM_cons, h]
  rfl

theorem NumberPhase.run_append {p q : NumberPhase} {us : JsString}
    (h : NumberPhase.run us p = some q) (vs : JsString) :
    NumberPhase.run (us ++ vs) p = NumberPhase.run vs q := by
  unfold NumberPhase.run at h ⊢
  rw [List.foldlM_append, h]
  rfl

theorem isDigit_iff {u : UInt16} : isDigit u = true ↔ 48 ≤ u.toNat ∧ u.toNat ≤ 57 := by
  simp [isDigit]

/-- A digit of a numeral. -/
def IsDigits (us : JsString) : Prop := ∀ u ∈ us, isDigit u = true

theorem isDigits_map {ds : List Nat} (h : ∀ d ∈ ds, d < 10) :
    IsDigits (ds.map NumberText.digitUnit) :=
  fun _ hu => isDigit_iff.mpr (NumberText.bounds_of_mem_map h hu)

theorem isDigits_zeros (n : Nat) : IsDigits (List.replicate n 48) := by
  intro u hu
  rw [List.eq_of_mem_replicate hu]
  rfl

theorem IsDigits.append {us vs : JsString} (h : IsDigits us) (h' : IsDigits vs) :
    IsDigits (us ++ vs) := by
  intro u hu
  rcases List.mem_append.mp hu with hu | hu
  · exact h u hu
  · exact h' u hu

/-- Digits lead into a phase and stay in it. -/
theorem NumberPhase.run_digits {p q : NumberPhase}
    (hpq : ∀ {u}, isDigit u = true → p.next u = some q)
    (hqq : ∀ {u}, isDigit u = true → q.next u = some q) {us : JsString} (hne : us ≠ [])
    (h : IsDigits us) : NumberPhase.run us p = some q := by
  have hstay : ∀ {vs : JsString}, IsDigits vs → NumberPhase.run vs q = some q := by
    intro vs hvs
    induction vs with
    | nil => rfl
    | cons v vs ih =>
      obtain ⟨hv, hvs⟩ := List.forall_mem_cons.mp hvs
      rw [run_cons (hqq hv), ih hvs]
  cases us with
  | nil => exact absurd rfl hne
  | cons u us =>
    obtain ⟨hu, hus⟩ := List.forall_mem_cons.mp h
    rw [run_cons (hpq hu), hstay hus]

theorem next_integer {u : UInt16} (h : isDigit u = true) :
    NumberPhase.integer.next u = some .integer := by
  simp [NumberPhase.next, h]

theorem next_point {u : UInt16} (h : isDigit u = true) :
    NumberPhase.point.next u = some .fraction := by
  simp [NumberPhase.next, h]

theorem next_fraction {u : UInt16} (h : isDigit u = true) :
    NumberPhase.fraction.next u = some .fraction := by
  simp [NumberPhase.next, h]

theorem next_exponentSign {u : UInt16} (h : isDigit u = true) :
    NumberPhase.exponentSign.next u = some .exponentDigits := by
  simp [NumberPhase.next, h]

theorem next_exponentDigits {u : UInt16} (h : isDigit u = true) :
    NumberPhase.exponentDigits.next u = some .exponentDigits := by
  simp [NumberPhase.next, h]

/-- A text of a first digit that is not zero and others. -/
theorem run_leading {d : Nat} (hd : d ≠ 0) (hlt : d < 10) {us : JsString} (hus : IsDigits us) :
    NumberPhase.run (NumberText.digitUnit d :: us) .sign = some .integer := by
  have hunit := NumberText.digitUnit_toNat hlt
  have hfirst : NumberPhase.sign.next (NumberText.digitUnit d) = some .integer := by
    have hzero : NumberText.digitUnit d ≠ 48 := by
      intro h
      rw [h] at hunit
      have h48 : (48 : UInt16).toNat = 48 := rfl
      omega
    have hdigit : isDigit (NumberText.digitUnit d) = true := isDigit_iff.mpr (by omega)
    simp [NumberPhase.next, hzero, hdigit]
  rw [NumberPhase.run_cons hfirst]
  cases us with
  | nil => rfl
  | cons u us => exact NumberPhase.run_digits next_integer next_integer (List.cons_ne_nil _ _) hus

/-- The exponent, behind an integer or a fraction. -/
theorem run_exponent {p : NumberPhase} (hp : p.next 101 = some .exponent) (negative : Prop)
    [Decidable negative] {n : Nat} (hn : n ≠ 0) :
    NumberPhase.run (101 :: (if negative then 45 else 43) :: NumberText.digitText n) p =
      some .exponentDigits := by
  have hsign : NumberPhase.exponent.next (if negative then 45 else 43) = some .exponentSign := by
    split_ifs <;> rfl
  have hne : NumberText.digitText n ≠ [] := by
    rw [NumberText.digitText, ne_eq, List.map_eq_nil_iff, List.reverse_eq_nil_iff]
    exact Nat.digits_ne_nil_iff_ne_zero.mpr hn
  rw [NumberPhase.run_cons hp, NumberPhase.run_cons hsign]
  exact NumberPhase.run_digits next_exponentSign next_exponentDigits hne
    (fun _ hu => isDigit_iff.mpr (NumberText.bounds_of_mem_digitText hu))

/-- **The text of a positive number is a numeral.** -/
theorem run_positiveText {d : Nat} {ds : List Nat} (hd : d ≠ 0) (hlt : d < 10)
    (hds : ∀ x ∈ ds, x < 10) (n : Int) :
    ∃ p, NumberPhase.run (NumberText.positiveText (d :: ds) n) .sign = some p ∧ p.isEnd = true := by
  have hall : ∀ x ∈ d :: ds, x < 10 := List.forall_mem_cons.mpr ⟨hlt, hds⟩
  have hdigits := isDigits_map hds
  unfold NumberText.positiveText
  dsimp only
  by_cases h₁ : (d :: ds).length ≤ n ∧ n ≤ 21
  · rw [if_pos h₁, List.map_cons, List.cons_append]
    exact ⟨_, run_leading hd hlt (hdigits.append (isDigits_zeros _)), rfl⟩
  rw [if_neg h₁]
  by_cases h₂ : 0 < n ∧ n ≤ 21
  · -- the point is inside the digits
    obtain ⟨k, hk⟩ : ∃ k : Nat, n.toNat = k + 1 := ⟨n.toNat - 1, by omega⟩
    have hfraction : ((d :: ds).map NumberText.digitUnit).drop n.toNat ≠ [] := by
      rw [ne_eq, List.drop_eq_nil_iff, List.length_map]
      omega
    have htake : IsDigits ((ds.map NumberText.digitUnit).take k) :=
      fun u hu => hdigits u (List.mem_of_mem_take hu)
    have hdrop : IsDigits (((d :: ds).map NumberText.digitUnit).drop n.toNat) :=
      fun u hu => isDigits_map hall u (List.mem_of_mem_drop hu)
    refine ⟨.fraction, ?_, rfl⟩
    rw [if_pos h₂, hk, List.map_cons, List.take_succ_cons,
      NumberPhase.run_append (run_leading hd hlt htake), NumberPhase.run_cons (q := .point) rfl,
      ← List.map_cons, ← hk]
    exact NumberPhase.run_digits next_point next_fraction hfraction hdrop
  rw [if_neg h₂]
  by_cases h₃ : -6 < n ∧ n ≤ 0
  · refine ⟨.fraction, ?_, rfl⟩
    rw [if_pos h₃, List.cons_append, List.cons_append, NumberPhase.run_cons (q := .zero) rfl,
      NumberPhase.run_cons (q := .point) rfl]
    exact NumberPhase.run_digits next_point next_fraction (by simp)
      ((isDigits_zeros _).append (isDigits_map hall))
  rw [if_neg h₃]
  have hexp : (n - 1).natAbs ≠ 0 := by
    rw [List.length_cons] at h₁
    omega
  refine ⟨.exponentDigits, ?_, rfl⟩
  cases ds with
  | nil =>
    have hinteger : NumberPhase.run (NumberText.mantissa ([d].map NumberText.digitUnit)) .sign =
        some .integer := run_leading hd hlt (List.forall_mem_nil _)
    rw [NumberPhase.run_append hinteger]
    exact run_exponent rfl _ hexp
  | cons d' ds =>
    have hfraction : NumberPhase.run
        (NumberText.mantissa ((d :: d' :: ds).map NumberText.digitUnit)) .sign =
        some .fraction := by
      have hfirst := run_leading hd hlt (List.forall_mem_nil _)
      rw [List.map_cons, List.map_cons, NumberText.mantissa, ← List.singleton_append,
        NumberPhase.run_append hfirst, NumberPhase.run_cons (q := .point) rfl]
      exact NumberPhase.run_digits next_point next_fraction (List.cons_ne_nil _ _)
        (isDigits_map hds)
    rw [NumberPhase.run_append hfraction]
    exact run_exponent rfl _ hexp

/-- A numeral: what a sign may stand in front of, read to an end. -/
theorem run_numberText (m : Int) (e : Nat) : ∃ u us p q, numberText m e = u :: us ∧
    (u = 45 ∧ p = .sign ∨ NumberPhase.sign.next u = some p) ∧
    NumberPhase.run us p = some q ∧ q.isEnd = true := by
  by_cases hm : m = 0
  · exact ⟨48, [], .zero, .zero, by rw [numberText, if_pos hm], Or.inr rfl, rfl, rfl⟩
  · obtain ⟨d, ds, hs, hd⟩ := NumberText.significant_cons (Int.natAbs_ne_zero.mpr hm)
    have hlt : ∀ x ∈ d :: ds, x < 10 := hs ▸ fun x hx => NumberText.significant_lt hx
    obtain ⟨hd10, hds⟩ := List.forall_mem_cons.mp hlt
    obtain ⟨q, hrun, hq⟩ := run_positiveText hd hd10 hds ((Nat.digits 10 m.natAbs).length - e)
    rw [numberText, if_neg hm, hs]
    by_cases hneg : m < 0
    · exact ⟨45, _, .sign, q, by rw [if_pos hneg]; rfl, Or.inl ⟨rfl, rfl⟩, hrun, hq⟩
    · rw [if_neg hneg, List.nil_append]
      cases htext : NumberText.positiveText (d :: ds) ((Nat.digits 10 m.natAbs).length - e) with
      | nil =>
        rw [htext] at hrun
        obtain rfl := Option.some.inj hrun
        cases hq
      | cons u us =>
        rw [htext, NumberPhase.run, List.foldlM_cons] at hrun
        obtain ⟨p, hp, hrun⟩ := Option.bind_eq_some_iff.mp hrun
        exact ⟨u, us, p, q, rfl, Or.inr hp, hrun, hq⟩

/-- A unit a numeral may have. -/
theorem toNat_of_next {p q : NumberPhase} {u : UInt16} (h : p.next u = some q) :
    u.toNat < 128 := by
  have hcases : isDigit u = true ∨ u = 46 ∨ u = 101 ∨ u = 69 ∨ u = 43 ∨ u = 45 := by
    by_contra hnot
    simp only [not_or, Bool.not_eq_true] at hnot
    have hzero : u ≠ 48 := by
      rintro rfl
      cases hnot.1
    cases p <;> simp [NumberPhase.next, hnot, hzero] at h
  rcases hcases with hdigit | rfl | rfl | rfl | rfl | rfl
  · have hbounds := isDigit_iff.mp hdigit
    omega
  all_goals decide

theorem digit_of_sign {p : NumberPhase} {u : UInt16} (h : NumberPhase.sign.next u = some p) :
    isDigit u = true := by
  by_contra hdigit
  have hzero : u ≠ 48 := by
    rintro rfl
    exact hdigit rfl
  simp [NumberPhase.next, hzero, hdigit] at h

theorem toNat_of_run {p q : NumberPhase} {us : JsString} (h : NumberPhase.run us p = some q) :
    ∀ u ∈ us, u.toNat < 128 := by
  induction us generalizing p with
  | nil => exact List.forall_mem_nil _
  | cons u us ih =>
    rw [NumberPhase.run, List.foldlM_cons] at h
    obtain ⟨p', hp', h⟩ := Option.bind_eq_some_iff.mp h
    exact List.forall_mem_cons.mpr ⟨toNat_of_next hp', ih h⟩

/-! ## Bytes -/

theorem ne_of_digit {u : UInt16} (h : isDigit u = true) :
    isSpace u = false ∧ u ≠ 93 ∧ u ≠ 0xFEFF := by
  have hne : ∀ {v : UInt16}, isDigit v = false → u ≠ v := by
    rintro v hv rfl
    rw [h] at hv
    cases hv
  refine ⟨?_, @hne 93 rfl, @hne 0xFEFF rfl⟩
  simp [isSpace, @hne 9 rfl, @hne 10 rfl, @hne 13 rfl, @hne 32 rfl]

/-- The first unit of a value is no space, closes nothing and is no byte order mark. -/
theorem stringify_cons (v : JsValue) : ∃ u us, v.stringify = u :: us ∧ isSpace u = false ∧
    u ≠ 93 ∧ u ≠ 0xFEFF := by
  cases v with
  | num m e =>
    obtain ⟨u, us, p, -, htext, hfirst, -⟩ := run_numberText m e
    refine ⟨u, us, htext, ?_⟩
    rcases hfirst with ⟨rfl, -⟩ | hfirst
    · decide
    · have hdigit := digit_of_sign hfirst
      exact ⟨(ne_of_digit hdigit).1, (ne_of_digit hdigit).2.1, (ne_of_digit hdigit).2.2⟩
  | arr xs => cases xs <;> exact ⟨91, _, rfl, by decide⟩
  | obj fields => cases fields <;> exact ⟨123, _, rfl, by decide⟩
  | bool b => cases b <;> exact ⟨_, _, rfl, by decide⟩
  | str s => exact ⟨34, _, rfl, by decide⟩
  | _ => exact ⟨110, _, rfl, by decide⟩

theorem wellFormed_ascii {us : JsString} (h : us.all (fun u => u.toNat < 128) = true) :
    Utf16.wellFormed us = true := by
  refine Utf16.wellFormed_of_basic fun u hu => ?_
  have hlt := of_decide_eq_true (List.all_eq_true.mp h u hu)
  omega

theorem wellFormed_cons {u : UInt16} {us : JsString} (hu : u.toNat < 128)
    (hus : Utf16.wellFormed us = true) : Utf16.wellFormed (u :: us) = true :=
  by
  have hunit : [u].all (fun u => u.toNat < 128) = true := by simpa using hu
  exact Utf16.wellFormed_append (wellFormed_ascii hunit) hus

theorem hexUnit_ascii : ∀ d < 16, (hexUnit d).toNat < 128 := by decide

theorem wellFormed_unicodeEscape (u : UInt16) : Utf16.wellFormed (unicodeEscape u) = true := by
  have hlt := u.toNat_lt
  have h₁ := hexUnit_ascii (u.toNat / 4096) (by omega)
  have h₂ := hexUnit_ascii (u.toNat / 256 % 16) (by omega)
  have h₃ := hexUnit_ascii (u.toNat / 16 % 16) (by omega)
  have h₄ := hexUnit_ascii (u.toNat % 16) (by omega)
  exact wellFormed_ascii (by simp [unicodeEscape, h₁, h₂, h₃, h₄])

theorem wellFormed_quoteUnit (u : UInt16) : Utf16.wellFormed (quoteUnit u) = true := by
  unfold quoteUnit
  split_ifs with h₁ h₂ h₃ h₄ h₅ h₆ h₇ h₈
  · decide
  · decide
  · decide
  · decide
  · decide
  · decide
  · decide
  · exact wellFormed_unicodeEscape u
  · simp only [Bool.or_eq_true, decide_eq_true_eq, not_or, Bool.not_eq_true] at h₈
    simp [Utf16.wellFormed, Utf16.decode, Utf16.single, h₈]

theorem wellFormed_quoteUnits (s : JsString) : Utf16.wellFormed (quoteUnits s) = true := by
  fun_induction quoteUnits s with
  | case1 => rfl
  | case2 u => exact wellFormed_quoteUnit u
  | case3 u v s hp ih =>
    rw [Bool.and_eq_true] at hp
    rw [Utf16.wellFormed, Utf16.decode_cons_pair hp.1 hp.2, List.all_cons]
    exact ih
  | case4 u v s hp ih => exact Utf16.wellFormed_append (wellFormed_quoteUnit u) ih

theorem wellFormed_quote (s : JsString) : Utf16.wellFormed (quote s) = true :=
  Utf16.wellFormed_append (wellFormed_cons (by decide) (wellFormed_quoteUnits s)) (by decide)

theorem wellFormed_member (k : JsString) {us : JsString} (h : Utf16.wellFormed us = true) :
    Utf16.wellFormed (quote k ++ 58 :: us) = true :=
  Utf16.wellFormed_append (wellFormed_quote k) (wellFormed_cons (by decide) h)

theorem wellFormed_numberText (m : Int) (e : Nat) : Utf16.wellFormed (numberText m e) = true := by
  obtain ⟨u, us, p, q, htext, hfirst, hrun, -⟩ := run_numberText m e
  have hu : u.toNat < 128 := by
    rcases hfirst with ⟨rfl, -⟩ | hfirst
    · decide
    · exact toNat_of_next hfirst
  rw [htext]
  refine wellFormed_cons hu (wellFormed_ascii ?_)
  exact List.all_eq_true.mpr fun v hv => decide_eq_true (toNat_of_run hrun v hv)

mutual

/-- **The text of a value is well formed**, whatever its strings are. -/
theorem wellFormed_stringify : ∀ v : JsValue, Utf16.wellFormed v.stringify = true
  | .null => by decide
  | .bool true => by decide
  | .bool false => by decide
  | .num m e => wellFormed_numberText m e
  | .infinite _ => by
    rw [JsValue.stringify]
    decide
  | .str s => wellFormed_quote s
  | .arr [] => by decide
  | .arr (x :: xs) => by
    have hx := wellFormed_stringify x
    have hxs := wellFormed_more xs
    rw [JsValue.stringify]
    exact wellFormed_cons (by decide)
      (Utf16.wellFormed_append (Utf16.wellFormed_append hx hxs) (by decide))
  | .obj [] => by decide
  | .obj ((k, v) :: fields) => by
    have hv := wellFormed_stringify v
    have hfields := wellFormed_fields fields
    have hmember := wellFormed_member k hv
    rw [JsValue.stringify]
    exact wellFormed_cons (by decide)
      (Utf16.wellFormed_append (Utf16.wellFormed_append hmember hfields) (by decide))

theorem wellFormed_more : ∀ xs : List JsValue,
    Utf16.wellFormed (JsValue.stringifyMore xs) = true
  | [] => by decide
  | x :: xs => by
    have hx := wellFormed_stringify x
    have hxs := wellFormed_more xs
    rw [JsValue.stringifyMore]
    exact wellFormed_cons (by decide) (Utf16.wellFormed_append hx hxs)

theorem wellFormed_fields : ∀ fields : List (JsString × JsValue),
    Utf16.wellFormed (JsValue.stringifyFields fields) = true
  | [] => by decide
  | (k, v) :: fields => by
    have hv := wellFormed_stringify v
    have hfields := wellFormed_fields fields
    have hmember := wellFormed_member k hv
    rw [JsValue.stringifyFields]
    exact wellFormed_cons (by decide) (Utf16.wellFormed_append hmember hfields)

end

theorem decodeText_stringify (v : JsValue) :
    Utf8.decodeText (Utf8.encodeText v.stringify) = v.stringify := by
  obtain ⟨u, us, htext, -, -, hmark⟩ := stringify_cons v
  refine Utf8.decodeText_encodeText (wellFormed_stringify v) ?_
  rw [htext, List.head?_cons]
  exact fun h => hmark (Option.some.inj h)

end JsonText

end BattleCloud
