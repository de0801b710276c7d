import BattleCloud.Worker.Python

/-!
# The `jsonb` value of a Python document

What `json.dumps` and the column make of a dict, read back. The value holds no U+0000
(`PyValue.nulFree_toJsonb`), and the counts read of it are the ones read of the dict
(`PyDict.integer_getOrZero`). The second needs an argument: a name of the value comes from the
string key of the dict alone, and a count that is a string is read the same from both, because
`int4in` reads ASCII only.
-/

namespace BattleCloud

/-! ## Strings -/

namespace PyStr

/-- No surrogates. -/
def Plain (s : PyStr) : Prop := ∀ c ∈ s, isSurrogate c = false

/-- The characters of a string without surrogates. -/
def chars (s : PyStr) : List Char := s.map fun c => Char.ofNat c.val

variable {s : PyStr}

theorem chars?_eq_some_iff {cs : List Char} : s.chars? = some cs ↔ s.Plain ∧ s.chars = cs := by
  induction s generalizing cs with
  | nil => exact ⟨fun h => ⟨fun c hc => absurd hc List.not_mem_nil, Option.some.inj h⟩,
      fun h => congrArg some h.2⟩
  | cons c s ih =>
    unfold Plain at ih ⊢
    rw [List.forall_mem_cons]
    cases hc : isSurrogate c with
    | true => simp [chars?, hc]
    | false =>
      rw [chars?_cons hc, Option.map_eq_some_iff]
      constructor
      · rintro ⟨ds, hds, rfl⟩
        obtain ⟨hs, rfl⟩ := ih.mp hds
        exact ⟨⟨rfl, hs⟩, rfl⟩
      · rintro ⟨⟨-, hs⟩, rfl⟩
        exact ⟨chars s, ih.mpr ⟨hs, rfl⟩, rfl⟩

theorem units_eq (s : PyStr) : s.units = (s.map Fin.val).flatMap Utf16.encodePoint := by
  rw [List.flatMap_map]
  rfl

theorem Plain.valid (h : s.Plain) : ∀ n ∈ s.map Fin.val, n.isValidChar := by
  intro n hn
  obtain ⟨c, hc, rfl⟩ := List.mem_map.mp hn
  rcases not_surrogate (h c hc) with hlt | hge
  · exact Or.inl hlt
  · exact Or.inr ⟨hge, c.isLt⟩

theorem Plain.decode_units (h : s.Plain) : Utf16.decode s.units = s.chars.map some := by
  rw [units_eq, Utf16.decode_points h.valid, List.map_map, chars, List.map_map]
  rfl

theorem Plain.text (h : s.Plain) : s.units.text = String.ofList s.chars := by
  unfold JsString.text Utf16.lossy
  rw [h.decode_units, List.map_map]
  congr 1
  exact List.map_id _

/-- A string that `jsonb` takes as text of the basic plane has no surrogates. -/
theorem plain_of_toJsonb {t : String} (h : s.units.toJsonb = some t)
    (ht : ∀ c ∈ t.toList, c.toNat < 0x10000) : s.Plain := by
  unfold JsString.toJsonb JsString.storable Utf16.wellFormed at h
  split at h
  · rename_i hs
    rw [Bool.and_eq_true, List.all_eq_true] at hs
    have hchars : t.toList = (Utf16.decode s.units).map (·.getD '\uFFFD') := by
      rw [← Option.some.inj h, JsString.text, Utf16.lossy, String.toList_ofList]
    have hlt : ∀ n ∈ s.map Fin.val, n < 0x110000 := by
      intro n hn
      obtain ⟨c, -, rfl⟩ := List.mem_map.mp hn
      exact c.isLt
    have hvalid := Utf16.valid_of_decode hlt fun x hx => by
      rw [← units_eq] at hx
      obtain ⟨c, rfl⟩ := Option.isSome_iff_exists.mp (hs.1 x hx)
      refine ⟨c, rfl, ht c ?_⟩
      rw [hchars]
      exact List.mem_map.mpr ⟨some c, hx, rfl⟩
    intro c hc
    have hv := hvalid c.val (List.mem_map_of_mem hc)
    unfold isSurrogate
    rw [Bool.and_eq_false_iff, decide_eq_false_iff_not, decide_eq_false_iff_not]
    rcases hv with hv | ⟨hv, -⟩ <;> omega
  · cases h

/-- The code points of a text. -/
theorem Plain.eq_pyStr (h : s.Plain) : s = pyStr (String.ofList s.chars) := by
  unfold pyStr chars
  rw [String.toList_ofList, List.map_map]
  conv_lhs => rw [← List.map_id s]
  refine List.map_congr_left fun c hc => ?_
  rw [Function.comp_apply, toNat_ofNat (h c hc)]
  exact (Fin.ofNat_val_eq_self c).symm

theorem plain_pyStr (t : String) : (pyStr t).Plain := by
  intro c hc
  obtain ⟨x, -, rfl⟩ := List.mem_map.mp hc
  have hr := Utf16.toNat_range x
  have hval : (Fin.ofNat 0x110000 x.toNat).val = x.toNat := Nat.mod_eq_of_lt (by omega)
  unfold isSurrogate
  rw [hval, Bool.and_eq_false_iff, decide_eq_false_iff_not, decide_eq_false_iff_not]
  omega

theorem chars_pyStr (t : String) : (pyStr t).chars = t.toList := by
  unfold chars pyStr
  rw [List.map_map]
  conv_rhs => rw [← List.map_id t.toList]
  refine List.map_congr_left fun c _ => ?_
  have hr := Utf16.toNat_range c
  have hval : (Fin.ofNat 0x110000 c.toNat).val = c.toNat := Nat.mod_eq_of_lt (by omega)
  rw [Function.comp_apply, hval]
  exact Char.ofNat_toNat c

theorem text_pyStr (t : String) : (pyStr t).units.text = t := by
  rw [(plain_pyStr t).text, chars_pyStr, String.ofList_toList]

end PyStr

/-! ## Keys -/

/-- The text of a constant or a number is ASCII. -/
theorem plain_of_scalar {s : PyStr} (h : isScalarText s = true) : s.Plain ∧ 0 ∉ s := by
  let ascii : Fin 0x110000 → Bool := fun c => 0 < c.val && c.val < 128
  have hconstants : ∀ s ∈ [pyStr "null", pyStr "true", pyStr "false", pyStr "NaN",
      pyStr "Infinity", pyStr "-Infinity"], s.all ascii = true := by decide
  have hnumbers : (pyStr "+-.0123456789e").all ascii = true := by decide
  have hall : s.all ascii = true := by
    unfold isScalarText at h
    rw [Bool.or_eq_true, List.contains_iff_mem, Bool.and_eq_true, List.all_eq_true] at h
    rcases h with h | ⟨-, h⟩
    · exact hconstants s h
    · refine List.all_eq_true.mpr fun c hc => ?_
      exact List.all_eq_true.mp hnumbers c (List.contains_iff_mem.mp (h c hc))
  have hmem : ∀ c ∈ s, 0 < c.val ∧ c.val < 128 := by
    intro c hc
    have hc := List.all_eq_true.mp hall c hc
    simpa only [ascii, Bool.and_eq_true, decide_eq_true_eq] using hc
  constructor
  · intro c hc
    unfold PyStr.isSurrogate
    rw [Bool.and_eq_false_iff, decide_eq_false_iff_not]
    exact Or.inl (by have := hmem c hc; omega)
  · exact fun hz => Nat.lt_irrefl 0 (hmem 0 hz).1

/-- A key name as the worker looks them up. -/
def IsName (k : String) : Prop :=
  (∀ c ∈ k.toList, c.toNat < 0x10000) ∧ isScalarText (pyStr k) = false

/-- **A name is the text of its own string key only.** -/
theorem PyKey.text?_eq_iff {key : PyKey} {t k : String} (h : key.text? = some t) (hk : IsName k) :
    t = k ↔ key = .str (pyStr k) := by
  cases key with
  | str s =>
    obtain ⟨ht, -⟩ := JsString.toJsonb_eq h
    constructor
    · rintro rfl
      have hp := PyStr.plain_of_toJsonb h hk.1
      rw [ht, hp.text, ← hp.eq_pyStr]
    · intro he
      rw [ht, PyKey.str.inj he, PyStr.text_pyStr]
  | scalar x =>
    refine ⟨fun he => ?_, fun he => by cases he⟩
    have hp := (plain_of_scalar x.property).1
    have hx : x.val = pyStr k := by
      rw [hp.eq_pyStr, ← he, ← Option.some.inj h, hp.text]
    have hscalar := x.property
    rw [hx, hk.2] at hscalar
    cases hscalar
  | other => cases h

/-! ## Fields -/

theorem toJsonbFields_cons {key : PyKey} {v : PyValue} {fields : List (PyKey × PyValue)}
    {fs : List (String × Json)} (h : PyValue.toJsonbFields ((key, v) :: fields) = some fs) :
    ∃ t j fs', key.text? = some t ∧ v.toJsonb = some j ∧
      PyValue.toJsonbFields fields = some fs' ∧ fs = (t, j) :: fs' := by
  rw [PyValue.toJsonbFields, Option.bind_eq_some_iff] at h
  obtain ⟨t, ht, h⟩ := h
  obtain ⟨j, hj, h⟩ := Option.bind_eq_some_iff.mp h
  obtain ⟨fs', hfs, rfl⟩ := Option.map_eq_some_iff.mp h
  exact ⟨t, j, fs', ht, hj, hfs, rfl⟩

theorem toJsonb_of_mem {fields : List (PyKey × PyValue)} {fs : List (String × Json)}
    (h : PyValue.toJsonbFields fields = some fs) {f : PyKey × PyValue} (hf : f ∈ fields) :
    ∃ j, f.2.toJsonb = some j := by
  induction fields generalizing fs with
  | nil => exact absurd hf List.not_mem_nil
  | cons g fields ih =>
    obtain ⟨t, j, fs', -, hj, hfs, rfl⟩ := toJsonbFields_cons h
    rcases List.mem_cons.mp hf with rfl | hf
    · exact ⟨j, hj⟩
    · exact ih hfs hf

/-- A named field of the value is a field of the dict. -/
theorem mem_of_toJsonbFields {k : String} (hk : IsName k) {fields : List (PyKey × PyValue)}
    {fs : List (String × Json)} (h : PyValue.toJsonbFields fields = some fs)
    (hm : ∃ f ∈ fs, f.1 = k) : ∃ f ∈ fields, f.1 = .str (pyStr k) := by
  induction fields generalizing fs with
  | nil =>
    obtain rfl := Option.some.inj h
    obtain ⟨f, hf, -⟩ := hm
    exact absurd hf List.not_mem_nil
  | cons f fields ih =>
    obtain ⟨t, j, fs', ht, -, hfs, rfl⟩ := toJsonbFields_cons h
    obtain ⟨g, hg, hgk⟩ := hm
    rcases List.mem_cons.mp hg with rfl | hg
    · exact ⟨f, List.mem_cons_self, (PyKey.text?_eq_iff ht hk).mp hgk⟩
    · obtain ⟨f', hf', he⟩ := ih hfs ⟨g, hg, hgk⟩
      exact ⟨f', List.mem_cons_of_mem _ hf', he⟩

theorem find?_lastOfEach_cons {k : String} {f : String × Json} (hne : f.1 ≠ k)
    (fs : List (String × Json)) :
    (lastOfEach (f :: fs)).find? (fun g => g.1 = k) =
      (lastOfEach fs).find? fun g => g.1 = k := by
  rw [lastOfEach]
  split
  · rfl
  · rw [List.find?_cons_of_neg (by simpa using hne)]

/-- **Looking a name up in the value is looking it up in the dict.** -/
theorem find?_toJsonbFields {k : String} (hk : IsName k) {fields : List (PyKey × PyValue)}
    (hd : (fields.filterMap fun f => f.1.str?).Nodup) {fs : List (String × Json)}
    (h : PyValue.toJsonbFields fields = some fs) :
    ((lastOfEach fs).find? fun f => f.1 = k).map Prod.snd =
      ((fields.find? fun f => f.1 = .str (pyStr k)).map Prod.snd).bind PyValue.toJsonb := by
  induction fields generalizing fs with
  | nil =>
    obtain rfl := Option.some.inj h
    rfl
  | cons f fields ih =>
    obtain ⟨t, j, fs', ht, hj, hfs, rfl⟩ := toJsonbFields_cons h
    have htail : (fields.filterMap fun f => f.1.str?).Nodup :=
      hd.sublist ((List.sublist_cons_self f fields).filterMap _)
    by_cases hkey : f.1 = .str (pyStr k)
    · obtain rfl := (PyKey.text?_eq_iff ht hk).mpr hkey
      have hlast : (fs'.any fun g => g.1 = t) = false := by
        by_contra hany
        rw [Bool.not_eq_false, List.any_eq_true] at hany
        obtain ⟨g, hg, hgt⟩ := hany
        obtain ⟨f', hf', he⟩ := mem_of_toJsonbFields hk hfs ⟨g, hg, by simpa using hgt⟩
        rw [List.filterMap_cons_some (b := pyStr t) (by rw [hkey]; rfl), List.nodup_cons] at hd
        exact hd.1 (List.mem_filterMap.mpr ⟨f', hf', by rw [he]; rfl⟩)
      rw [lastOfEach, if_neg (by rw [hlast]; exact Bool.false_ne_true),
        List.find?_cons_of_pos (by simp), List.find?_cons_of_pos (by simpa using hkey)]
      exact hj.symm
    · have hne : t ≠ k := fun he => hkey ((PyKey.text?_eq_iff ht hk).mp he)
      rw [find?_lastOfEach_cons hne, List.find?_cons_of_neg (by simpa using hkey)]
      exact ih htail hfs

/-! ## Integers -/

theorem digitOf?_ascii {base d : Nat} {c : Char} (h : digitOf? base c = some d) :
    c.toNat < 128 := by
  have hle : ∀ {x : Char}, c ≤ x → x.toNat < 128 → c.toNat < 128 := by
    intro x hcx hx
    have hn : c.toNat ≤ x.toNat := hcx
    omega
  by_cases h₁ : '0' ≤ c ∧ c ≤ '9'
  · exact hle h₁.2 (by decide)
  by_cases h₂ : 'a' ≤ c ∧ c ≤ 'z'
  · exact hle h₂.2 (by decide)
  by_cases h₃ : 'A' ≤ c ∧ c ≤ 'Z'
  · exact hle h₃.2 (by decide)
  simp only [digitOf?, if_neg h₁, if_neg h₂, if_neg h₃, Nat.lt_irrefl, if_false] at h
  cases h

theorem readDigits_ascii {base m : Nat} {cs : List Char} {n : Nat}
    (h : readDigits base n cs = some m) : ∀ c ∈ cs, c.toNat < 128 := by
  fun_induction readDigits base n cs with
  | case1 n => simp
  | case2 n c cs ih =>
    obtain ⟨d, hd, h⟩ := Option.bind_eq_some_iff.mp h
    rw [List.forall_mem_cons, List.forall_mem_cons]
    exact ⟨by decide, digitOf?_ascii hd, ih d h⟩
  | case3 n c cs hne ih =>
    obtain ⟨d, hd, h⟩ := Option.bind_eq_some_iff.mp h
    rw [List.forall_mem_cons]
    exact ⟨digitOf?_ascii hd, ih d h⟩

theorem readUnsigned_ascii {cs : List Char} {n : Nat} (h : readUnsigned cs = some n) :
    ∀ c ∈ cs, c.toNat < 128 := by
  have hprefixed : ∀ {base : Nat} {x c : Char} {cs : List Char}, x.toNat < 128 →
      readDigits base 0 (c :: cs) = some n → ∀ y ∈ '0' :: x :: c :: cs, y.toNat < 128 := by
    intro base x c cs hx h
    rw [List.forall_mem_cons, List.forall_mem_cons]
    exact ⟨by decide, hx, readDigits_ascii h⟩
  unfold readUnsigned at h
  split at h
  · exact hprefixed (by decide) h
  · exact hprefixed (by decide) h
  · exact hprefixed (by decide) h
  · exact hprefixed (by decide) h
  · exact hprefixed (by decide) h
  · exact hprefixed (by decide) h
  · split at h
    · cases h
    · exact readDigits_ascii h
  · cases h

theorem mem_of_dropWhile {α : Type} {p : α → Bool} {l : List α} {x : α} (h : x ∈ l) :
    p x = true ∨ x ∈ l.dropWhile p := by
  rw [← List.takeWhile_append_dropWhile (p := p) (l := l)] at h
  rcases List.mem_append.mp h with h | h
  · exact Or.inl (List.all_eq_true.mp List.all_takeWhile x h)
  · exact Or.inr h

/-- **`int4in` reads ASCII only.** -/
theorem readInteger_ascii {s : String} {n : Int} (h : readInteger s = some n) :
    ∀ c ∈ s.toList, c.toNat < 128 := by
  have hspace : ∀ {c : Char}, pgSpace c = true → c.toNat < 128 := by
    intro c hc
    unfold pgSpace at hc
    rw [Bool.or_eq_true, Bool.and_eq_true, decide_eq_true_eq, decide_eq_true_eq,
      decide_eq_true_eq] at hc
    rcases hc with rfl | ⟨-, hc⟩
    · decide
    · have hn : c.toNat ≤ '\r'.toNat := hc
      exact Nat.lt_of_le_of_lt hn (by decide)
  have htrimmed : ∀ c ∈ (((s.toList.dropWhile pgSpace).reverse).dropWhile pgSpace).reverse,
      c.toNat < 128 := by
    unfold readInteger at h
    split at h <;> rename_i hcs <;> obtain ⟨m, hm, -⟩ := Option.map_eq_some_iff.mp h
    · rw [hcs, List.forall_mem_cons]
      exact ⟨by decide, readUnsigned_ascii hm⟩
    · rw [hcs, List.forall_mem_cons]
      exact ⟨by decide, readUnsigned_ascii hm⟩
    · exact readUnsigned_ascii hm
  intro c hc
  rcases mem_of_dropWhile hc with hs | hc
  · exact hspace hs
  rcases mem_of_dropWhile (List.mem_reverse.mpr hc) with hs | hc
  · exact hspace hs
  · exact htrimmed c (List.mem_reverse.mpr hc)

/-- **A count is read the same from the dict and from the value.** -/
theorem PyValue.integer_toJsonb {v : PyValue} {j : Json} (h : v.toJsonb = some j) :
    integerOf j = v.integer := by
  cases v with
  | none => cases h; rfl
  | bool b => cases h; rfl
  | int n =>
    rw [PyValue.toJsonb] at h
    split at h
    · obtain rfl := Option.some.inj h
      show int4 (roundHalfEven n 1) = int4 n
      rw [roundHalfEven_of_dvd Nat.one_pos (Int.emod_one n)]
      simp
    · cases h
  | float m e => cases h; rfl
  | nonfinite => cases h
  | str s =>
    obtain ⟨t, ht, rfl⟩ := Option.map_eq_some_iff.mp h
    rw [PyValue.integer, integerOf]
    cases hc : s.chars? with
    | some cs =>
      obtain ⟨hp, rfl⟩ := PyStr.chars?_eq_some_iff.mp hc
      rw [(JsString.toJsonb_eq ht).1, hp.text]
      rfl
    | none =>
      cases hn : readInteger t with
      | none => rfl
      | some n =>
        have hp := PyStr.plain_of_toJsonb ht fun c hc =>
          Nat.lt_trans (readInteger_ascii hn c hc) (by decide)
        rw [PyStr.chars?_eq_some_iff.mpr ⟨hp, rfl⟩] at hc
        cases hc
  | list xs =>
    obtain ⟨_, -, rfl⟩ := Option.map_eq_some_iff.mp h
    rfl
  | dict fields =>
    obtain ⟨_, -, rfl⟩ := Option.map_eq_some_iff.mp h
    rfl
  | other => cases h

/-! ## The value -/

theorem nulFreeFields_lastOfEach : ∀ {fs : List (String × Json)},
    Json.nulFreeFields fs = true → Json.nulFreeFields (lastOfEach fs) = true
  | [], _ => rfl
  | (k, v) :: fs, h => by
    rw [Json.nulFreeFields, Bool.and_eq_true] at h
    have hfs := nulFreeFields_lastOfEach h.2
    rw [lastOfEach]
    split
    · exact hfs
    · rw [Json.nulFreeFields, h.1, hfs]
      rfl

theorem PyKey.nulFree_text? {key : PyKey} {t : String} (h : key.text? = some t) :
    nulFree t = true := by
  cases key with
  | str s => exact (JsString.toJsonb_eq h).2
  | scalar x =>
    obtain ⟨hp, hz⟩ := plain_of_scalar x.property
    have hnul : '\x00' ∉ x.val.chars := by
      intro hm
      obtain ⟨c, hc, he⟩ := List.mem_map.mp hm
      have hval := congrArg Char.toNat he
      rw [PyStr.toNat_ofNat (hp c hc)] at hval
      have hc0 : c = 0 := Fin.ext hval
      exact hz (hc0 ▸ hc)
    rw [← Option.some.inj h, hp.text, nulFree, String.toList_ofList, Bool.not_eq_true',
      ← Bool.not_eq_true, List.contains_iff_mem]
    exact hnul
  | other => cases h

mutual

/-- **What `json.dumps` gives `jsonb` has no U+0000.** -/
theorem PyValue.nulFree_toJsonb : ∀ (v : PyValue) {j : Json}, v.toJsonb = some j → j.nulFree = true
  | .none => by
    intro h
    cases h
    rfl
  | .bool _ => by
    intro h
    cases h
    rfl
  | .int n => by
    intro h
    rw [PyValue.toJsonb] at h
    split at h
    · cases h
      rfl
    · cases h
  | .float _ _ => by
    intro h
    cases h
    rfl
  | .nonfinite => by
    intro h
    cases h
  | .str s => by
    intro h
    obtain ⟨t, ht, rfl⟩ := Option.map_eq_some_iff.mp h
    exact (JsString.toJsonb_eq ht).2
  | .list xs => by
    intro h
    rw [PyValue.toJsonb] at h
    obtain ⟨js, hjs, rfl⟩ := Option.map_eq_some_iff.mp h
    exact PyValue.nulFree_toJsonbAll xs hjs
  | .dict fields => by
    intro h
    rw [PyValue.toJsonb] at h
    obtain ⟨fs, hfs, rfl⟩ := Option.map_eq_some_iff.mp h
    exact nulFreeFields_lastOfEach (PyValue.nulFree_toJsonbFields fields hfs)
  | .other => by
    intro h
    cases h

theorem PyValue.nulFree_toJsonbAll : ∀ (xs : List PyValue) {js : List Json},
    PyValue.toJsonbAll xs = some js → Json.nulFreeAll js = true
  | [] => by
    intro h
    cases h
    rfl
  | x :: xs => by
    intro h
    rw [PyValue.toJsonbAll, Option.bind_eq_some_iff] at h
    obtain ⟨j, hj, h⟩ := h
    obtain ⟨js, hjs, rfl⟩ := Option.map_eq_some_iff.mp h
    rw [Json.nulFreeAll, PyValue.nulFree_toJsonb x hj, PyValue.nulFree_toJsonbAll xs hjs]
    rfl

theorem PyValue.nulFree_toJsonbFields : ∀ (fields : List (PyKey × PyValue))
    {fs : List (String × Json)},
    PyValue.toJsonbFields fields = some fs → Json.nulFreeFields fs = true
  | [] => by
    intro h
    cases h
    rfl
  | (key, v) :: fields => by
    intro h
    obtain ⟨t, j, fs, ht, hj, hfs, rfl⟩ := toJsonbFields_cons h
    rw [Json.nulFreeFields, PyKey.nulFree_text? ht, PyValue.nulFree_toJsonb v hj,
      PyValue.nulFree_toJsonbFields fields hfs]
    rfl

end

theorem PyDict.jsonb_eq_ok_iff {d : PyDict} {j : Json} :
    d.jsonb = .ok j ↔ (PyValue.dict d.fields).toJsonb = some j := by
  unfold PyDict.jsonb
  cases (PyValue.dict d.fields).toJsonb <;> simp

/-- **`doc.get(key, 0)` is the count in the value.** -/
theorem PyDict.integer_getOrZero {d : PyDict} {j : Json} (h : d.jsonb = .ok j) {key : String}
    (hk : IsName key) : integerOf (j.getOrZero key) = (d.getOrZero key).integer := by
  have hobj := PyDict.jsonb_eq_ok_iff.mp h
  rw [PyValue.toJsonb] at hobj
  obtain ⟨fs, hfs, rfl⟩ := Option.map_eq_some_iff.mp hobj
  unfold Json.getOrZero PyDict.getOrZero Json.get?
  simp only
  rw [find?_toJsonbFields hk d.distinct hfs]
  cases hf : d.fields.find? fun f => f.1 = .str (pyStr key) with
  | none => rfl
  | some f =>
    obtain ⟨v, hv⟩ := toJsonb_of_mem hfs (List.mem_of_find?_eq_some hf)
    rw [Option.map_some, Option.bind_some, hv, Option.getD_some, Option.getD_some]
    exact PyValue.integer_toJsonb hv

end BattleCloud
