import BattleCloud.Contract.Stringify

/-!
# What is sent is received

The machine of `JSON.parse` reads the text `JSON.stringify` writes of a value back as the value,
wherever it stands in a larger one (`parseFrom_stringify`). Only a number can change: it comes back
as what `Number` makes of its text, and an infinity as `null`.

`body_received` is about the bytes of a request or a response.
-/

namespace BattleCloud

open NumberText (numberText)
open JsonText

mutual

/-- No object has a key twice. -/
def JsValue.distinctKeys : JsValue → Bool
  | .arr xs => JsValue.distinctAll xs
  | .obj fields => decide (fields.map Prod.fst).Nodup && JsValue.distinctFields fields
  | _ => true

def JsValue.distinctAll : List JsValue → Bool
  | [] => true
  | x :: xs => x.distinctKeys && JsValue.distinctAll xs

def JsValue.distinctFields : List (JsString × JsValue) → Bool
  | [] => true
  | (_, v) :: fields => v.distinctKeys && JsValue.distinctFields fields

end

mutual

/-- The value with every number as `Number` reads it from its text; an infinity has none. -/
def JsValue.reread (number : JsString → JsNumber) : JsValue → JsValue
  | .num m e => (number (numberText m e)).value
  | .infinite _ => .null
  | .arr xs => .arr (JsValue.rereadAll number xs)
  | .obj fields => .obj (JsValue.rereadFields number fields)
  | v => v

def JsValue.rereadAll (number : JsString → JsNumber) : List JsValue → List JsValue
  | [] => []
  | x :: xs => x.reread number :: JsValue.rereadAll number xs

def JsValue.rereadFields (number : JsString → JsNumber) :
    List (JsString × JsValue) → List (JsString × JsValue)
  | [] => []
  | (k, v) :: fields => (k, v.reread number) :: JsValue.rereadFields number fields

end

namespace JsonText

/-! ## Reading on -/

section

variable (number : JsString → JsNumber)

/-- What is read from a state on. -/
def parseFrom (s : State) (us : JsString) : Option JsValue :=
  (us.foldlM (step number) s).bind (finish number)

variable {number}

theorem jsonParse_eq (text : JsString) :
    jsonParse number text = parseFrom number State.initial text := rfl

theorem parseFrom_cons {s s' : State} {u : UInt16} (h : step number s u = some s')
    (us : JsString) : parseFrom number s (u :: us) = parseFrom number s' us := by
  unfold parseFrom
  rw [List.foldlM_cons, h]
  rfl

end

/-! ## Strings -/

theorem hexDigit?_hexUnit : ∀ d < 16, hexDigit? (hexUnit d) = some d := by decide

section

variable {number : JsString → JsNumber} {stack : List Frame} {isKey : Bool} {read : JsString}

theorem parseFrom_unicode {d digits code : Nat} (hd : d < 16) (hdigits : digits ≠ 3)
    (us : JsString) :
    parseFrom number ⟨stack, .unicode isKey read digits code⟩ (hexUnit d :: us) =
      parseFrom number ⟨stack, .unicode isKey read (digits + 1) (code * 16 + d)⟩ us := by
  refine parseFrom_cons ?_ us
  simp [step, hexDigit?_hexUnit d hd, hdigits]

theorem step_escape : step number ⟨stack, .string isKey read⟩ 92 =
    some ⟨stack, .escape isKey read⟩ := by
  simp [step]

/-- The code of four hexadecimal digits. -/
theorem hex_code (n : Nat) (h : n < 65536) :
    (((0 * 16 + n / 4096) * 16 + n / 256 % 16) * 16 + n / 16 % 16) * 16 + n % 16 = n := by
  omega

/-- **An escaped unit is read back.** -/
theorem parseFrom_unicodeEscape (u : UInt16) (us : JsString) :
    parseFrom number ⟨stack, .string isKey read⟩ (unicodeEscape u ++ us) =
      parseFrom number ⟨stack, .string isKey (read ++ [u])⟩ us := by
  have hlt := u.toNat_lt
  have hopen : step number ⟨stack, .escape isKey read⟩ 117 =
      some ⟨stack, .unicode isKey read 0 0⟩ := by
    simp [step]
  have hlast : step number ⟨stack, .unicode isKey read 3
      (((0 * 16 + u.toNat / 4096) * 16 + u.toNat / 256 % 16) * 16 + u.toNat / 16 % 16)⟩
      (hexUnit (u.toNat % 16)) = some ⟨stack, .string isKey (read ++ [u])⟩ := by
    simp only [step, hexDigit?_hexUnit (u.toNat % 16) (by omega), Option.map_some, if_pos]
    rw [hex_code u.toNat hlt, UInt16.ofNat_toNat]
  unfold unicodeEscape
  simp only [List.cons_append, List.nil_append]
  rw [parseFrom_cons step_escape, parseFrom_cons hopen, parseFrom_unicode (by omega) (by decide),
    parseFrom_unicode (by omega) (by decide), parseFrom_unicode (by omega) (by decide),
    parseFrom_cons hlast]

/-- A unit that stands for itself. -/
theorem parseFrom_plain {u : UInt16} (hquote : u ≠ 34) (hslash : u ≠ 92) (hcontrol : ¬u < 32)
    (us : JsString) : parseFrom number ⟨stack, .string isKey read⟩ (u :: us) =
      parseFrom number ⟨stack, .string isKey (read ++ [u])⟩ us :=
  parseFrom_cons (by simp [step, hquote, hslash, hcontrol]) us

theorem parseFrom_simpleEscape {u v : UInt16} (hu : u ≠ 117) (h : simpleEscape u = some v)
    (us : JsString) : parseFrom number ⟨stack, .string isKey read⟩ (92 :: u :: us) =
      parseFrom number ⟨stack, .string isKey (read ++ [v])⟩ us := by
  have hescaped : step number ⟨stack, .escape isKey read⟩ u =
      some ⟨stack, .string isKey (read ++ [v])⟩ := by
    simp [step, hu, h]
  rw [parseFrom_cons step_escape, parseFrom_cons hescaped]

theorem parseFrom_quoteUnit (u : UInt16) (us : JsString) :
    parseFrom number ⟨stack, .string isKey read⟩ (quoteUnit u ++ us) =
      parseFrom number ⟨stack, .string isKey (read ++ [u])⟩ us := by
  unfold quoteUnit
  split_ifs with h₁ h₂ h₃ h₄ h₅ h₆ h₇ h₈
  · subst h₁
    exact parseFrom_simpleEscape (by decide) rfl us
  · subst h₂
    exact parseFrom_simpleEscape (by decide) rfl us
  · subst h₃
    exact parseFrom_simpleEscape (by decide) rfl us
  · subst h₄
    exact parseFrom_simpleEscape (by decide) rfl us
  · subst h₅
    exact parseFrom_simpleEscape (by decide) rfl us
  · subst h₆
    exact parseFrom_simpleEscape (by decide) rfl us
  · subst h₇
    exact parseFrom_simpleEscape (by decide) rfl us
  · exact parseFrom_unicodeEscape u us
  · simp only [Bool.or_eq_true, decide_eq_true_eq, not_or] at h₈
    exact parseFrom_plain h₆ h₇ h₈.1.1 us

/-- A surrogate stands for itself inside a string. -/
theorem parseFrom_surrogate {u : UInt16} (h : 0xD800 ≤ u.toNat) (us : JsString) :
    parseFrom number ⟨stack, .string isKey read⟩ (u :: us) =
      parseFrom number ⟨stack, .string isKey (read ++ [u])⟩ us := by
  refine parseFrom_plain ?_ ?_ ?_ us
  · rintro rfl
    revert h
    decide
  · rintro rfl
    revert h
    decide
  · rw [UInt16.lt_iff_toNat_lt]
    have h32 : (32 : UInt16).toNat = 32 := rfl
    omega

theorem parseFrom_quoteUnits (s us : JsString) :
    parseFrom number ⟨stack, .string isKey read⟩ (quoteUnits s ++ us) =
      parseFrom number ⟨stack, .string isKey (read ++ s)⟩ us := by
  fun_induction quoteUnits s generalizing read with
  | case1 => rw [List.nil_append, List.append_nil]
  | case2 u => exact parseFrom_quoteUnit u us
  | case3 u v s hp ih =>
    rw [Bool.and_eq_true, Utf16.isHigh_iff, Utf16.isLow_iff] at hp
    rw [List.cons_append, List.cons_append, parseFrom_surrogate hp.1.1,
      parseFrom_surrogate (by omega), ih, List.append_assoc, List.append_assoc]
    rfl
  | case4 u v s hp ih =>
    rw [List.append_assoc, parseFrom_quoteUnit, ih, List.append_assoc]
    rfl

/-- A quoted string is a value. -/
theorem parseFrom_quote (s us : JsString) :
    parseFrom number ⟨stack, .value⟩ (quote s ++ us) =
      parseFrom number (complete (.str s) stack) us := by
  have hopen : step number ⟨stack, .value⟩ 34 = some ⟨stack, .string false []⟩ := by
    simp [step, isSpace, beginValue]
  have hclose : step number ⟨stack, .string false s⟩ 34 = some (complete (.str s) stack) := by
    simp [step, endString]
  unfold quote
  rw [List.cons_append, List.cons_append, List.append_assoc, parseFrom_cons hopen,
    parseFrom_quoteUnits, List.nil_append, List.singleton_append, parseFrom_cons hclose]

end

/-- What stands behind a value: nothing, a comma, or the end of an array or object. -/
def Ends : JsString → Prop
  | [] => True
  | u :: _ => u = 44 ∨ u = 93 ∨ u = 125

section

variable {number : JsString → JsNumber} {stack : List Frame}

theorem parseFrom_phase {p q : NumberPhase} {text us : JsString}
    (h : NumberPhase.run us p = some q) (vs : JsString) :
    parseFrom number ⟨stack, .number p text⟩ (us ++ vs) =
      parseFrom number ⟨stack, .number q (text ++ us)⟩ vs := by
  induction us generalizing p text with
  | nil =>
    obtain rfl := Option.some.inj h
    rw [List.nil_append, List.append_nil]
  | cons u us ih =>
    rw [NumberPhase.run, List.foldlM_cons] at h
    obtain ⟨p', hp', h⟩ := Option.bind_eq_some_iff.mp h
    have hstep : step number ⟨stack, .number p text⟩ u =
        some ⟨stack, .number p' (text ++ [u])⟩ := by
      simp only [step, hp']
    rw [List.cons_append, parseFrom_cons hstep, ih h, List.append_assoc]
    rfl

/-- The number is complete where the value ends. -/
theorem parseFrom_number {p : NumberPhase} (hp : p.isEnd = true) (text : JsString)
    {us : JsString} (hus : Ends us) :
    parseFrom number ⟨stack, .number p text⟩ us =
      parseFrom number (complete (number text).value stack) us := by
  cases us with
  | nil =>
    cases stack with
    | nil => simp [parseFrom, finish, complete, hp]
    | cons frame stack => cases frame <;> simp [parseFrom, finish, complete]
  | cons u us =>
    have hnext : p.next u = none := by
      rcases hus with rfl | rfl | rfl <;> cases p <;> rfl
    have hspace : isSpace u = false := by
      rcases hus with rfl | rfl | rfl <;> rfl
    have hstep : step number ⟨stack, .number p text⟩ u =
        step number (complete (number text).value stack) u := by
      cases stack with
      | nil => simp [step, complete, hnext, hp, hspace]
      | cons frame stack => cases frame <;> simp [step, complete, hnext, hp]
    unfold parseFrom
    rw [List.foldlM_cons, List.foldlM_cons, hstep]

/-- A digit in front of a value begins a number. -/
theorem step_value_digit {p : NumberPhase} {u : UInt16} (h : NumberPhase.sign.next u = some p) :
    step number ⟨stack, .value⟩ u = some ⟨stack, .number p [u]⟩ := by
  have hdigit := digit_of_sign h
  have hne : ∀ {v : UInt16}, isDigit v = false → u ≠ v := by
    rintro v hv rfl
    rw [hdigit] at hv
    cases hv
  have hspace : isSpace u = false := by
    simp [isSpace, @hne 9 rfl, @hne 10 rfl, @hne 13 rfl, @hne 32 rfl]
  by_cases hzero : u = 48
  · subst hzero
    obtain rfl := Option.some.inj h
    rfl
  · obtain rfl : NumberPhase.integer = p := by
      simpa [NumberPhase.next, hzero, hdigit] using h
    simp [step, beginValue, hspace, hdigit, hzero, @hne 34 rfl, @hne 91 rfl, @hne 123 rfl,
      @hne 45 rfl]

theorem parseFrom_numberText (m : Int) (e : Nat) {us : JsString} (hus : Ends us) :
    parseFrom number ⟨stack, .value⟩ (numberText m e ++ us) =
      parseFrom number (complete (number (numberText m e)).value stack) us := by
  obtain ⟨u, vs, p, q, htext, hfirst, hrun, hq⟩ := run_numberText m e
  have hbegin : step number ⟨stack, .value⟩ u = some ⟨stack, .number p [u]⟩ := by
    rcases hfirst with ⟨rfl, rfl⟩ | hfirst
    · rfl
    · exact step_value_digit hfirst
  rw [htext, List.cons_append, parseFrom_cons hbegin, parseFrom_phase hrun,
    parseFrom_number hq _ hus]
  rfl

end

/-! ## Values -/

section

variable {number : JsString → JsNumber}

theorem parseFrom_literal {stack : List Frame} {v : JsValue} {rest : JsString} (hne : rest ≠ [])
    (us : JsString) : parseFrom number ⟨stack, .literal rest v⟩ (rest ++ us) =
      parseFrom number (complete v stack) us := by
  induction rest with
  | nil => exact absurd rfl hne
  | cons r rest ih =>
    by_cases hrest : rest = []
    · rw [hrest]
      exact parseFrom_cons (by simp [step]) us
    · have hstep : step number ⟨stack, .literal (r :: rest) v⟩ r =
          some ⟨stack, .literal rest v⟩ := by
        simp [step, hrest]
      rw [List.cons_append, parseFrom_cons hstep, ih hrest]

/-- Where an element or `]` is expected, a value is read as where a value is. -/
theorem parseFrom_firstElement (v : JsValue) (stack : List Frame) (us : JsString) :
    parseFrom number ⟨stack, .firstElement⟩ (v.stringify ++ us) =
      parseFrom number ⟨stack, .value⟩ (v.stringify ++ us) := by
  obtain ⟨u, rest, htext, hspace, hclose, -⟩ := stringify_cons v
  have hstep : step number ⟨stack, .firstElement⟩ u = step number ⟨stack, .value⟩ u := by
    simp [step, hspace, hclose]
  unfold parseFrom
  rw [htext, List.cons_append, List.foldlM_cons, List.foldlM_cons, hstep]

/-- A property, from inside its key to its value. -/
theorem parseFrom_key {stack : List Frame} {done : List (JsString × JsValue)} {key : JsString}
    (k us : JsString) :
    parseFrom number ⟨.obj done key :: stack, .string true []⟩ (quoteUnits k ++ 34 :: 58 :: us) =
      parseFrom number ⟨.obj done k :: stack, .value⟩ us := by
  have hclose : step number ⟨.obj done key :: stack, .string true k⟩ 34 =
      some ⟨.obj done k :: stack, .colon⟩ := by
    simp [step, endString]
  have hcolon : step number ⟨.obj done k :: stack, .colon⟩ 58 =
      some ⟨.obj done k :: stack, .value⟩ := rfl
  rw [parseFrom_quoteUnits, List.nil_append, parseFrom_cons hclose, parseFrom_cons hcolon]

theorem setField_fresh {key : JsString} {fields : List (JsString × JsValue)} (v : JsValue)
    (h : key ∉ fields.map Prod.fst) : setField key v fields = fields ++ [(key, v)] := by
  induction fields with
  | nil => rfl
  | cons f fields ih =>
    rw [List.map_cons, List.mem_cons, not_or] at h
    rw [setField, if_neg (Ne.symm h.1), ih h.2]
    rfl

theorem ends_more (xs : List JsValue) (us : JsString) :
    Ends (JsValue.stringifyMore xs ++ 93 :: us) := by
  cases xs with
  | nil => exact Or.inr (Or.inl rfl)
  | cons x xs => exact Or.inl rfl

theorem ends_fields (fields : List (JsString × JsValue)) (us : JsString) :
    Ends (JsValue.stringifyFields fields ++ 125 :: us) := by
  cases fields with
  | nil => exact Or.inr (Or.inr rfl)
  | cons f fields => exact Or.inl rfl

mutual

/-- **The text of a value is read as the value**, wherever one is expected. -/
theorem parseFrom_stringify : ∀ (v : JsValue) (stack : List Frame) {us : JsString},
    v.distinctKeys = true → Ends us →
    parseFrom number ⟨stack, .value⟩ (v.stringify ++ us) =
      parseFrom number (complete (v.reread number) stack) us
  | .null, stack, us => by
    intro _ _
    have hopen : step number ⟨stack, .value⟩ 110 = some ⟨stack, .literal (js "ull") .null⟩ := rfl
    exact (parseFrom_cons hopen _).trans (parseFrom_literal (by decide) us)
  | .bool true, stack, us => by
    intro _ _
    have hopen : step number ⟨stack, .value⟩ 116 =
        some ⟨stack, .literal (js "rue") (.bool true)⟩ := rfl
    exact (parseFrom_cons hopen _).trans (parseFrom_literal (by decide) us)
  | .bool false, stack, us => by
    intro _ _
    have hopen : step number ⟨stack, .value⟩ 102 =
        some ⟨stack, .literal (js "alse") (.bool false)⟩ := rfl
    exact (parseFrom_cons hopen _).trans (parseFrom_literal (by decide) us)
  | .num m e, stack, us => fun _ hus => parseFrom_numberText m e hus
  | .infinite _, stack, us => by
    intro _ _
    have hopen : step number ⟨stack, .value⟩ 110 = some ⟨stack, .literal (js "ull") .null⟩ := rfl
    exact (parseFrom_cons hopen _).trans (parseFrom_literal (by decide) us)
  | .str s, stack, us => fun _ _ => parseFrom_quote s us
  | .arr [], stack, us => by
    intro _ _
    have hopen : step number ⟨stack, .value⟩ 91 = some ⟨.arr [] :: stack, .firstElement⟩ := rfl
    have hclose : step number ⟨.arr [] :: stack, .firstElement⟩ 93 =
        some (complete (.arr []) stack) := rfl
    exact (parseFrom_cons hopen _).trans (parseFrom_cons hclose us)
  | .arr (x :: xs), stack, us => by
    intro hkeys _
    rw [JsValue.distinctKeys, JsValue.distinctAll, Bool.and_eq_true] at hkeys
    have hopen : step number ⟨stack, .value⟩ 91 = some ⟨.arr [] :: stack, .firstElement⟩ := rfl
    rw [JsValue.stringify, List.cons_append, parseFrom_cons hopen, List.append_assoc,
      List.append_assoc, parseFrom_firstElement, List.singleton_append,
      parseFrom_stringify x _ hkeys.1 (ends_more xs us), complete,
      parseFrom_more xs stack hkeys.2]
    rfl
  | .obj [], stack, us => by
    intro _ _
    have hopen : step number ⟨stack, .value⟩ 123 = some ⟨.obj [] [] :: stack, .firstKey⟩ := rfl
    have hclose : step number ⟨.obj [] [] :: stack, .firstKey⟩ 125 =
        some (complete (.obj []) stack) := rfl
    exact (parseFrom_cons hopen _).trans (parseFrom_cons hclose us)
  | .obj ((k, v) :: fields), stack, us => by
    intro hkeys _
    rw [JsValue.distinctKeys, JsValue.distinctFields, Bool.and_eq_true, Bool.and_eq_true,
      decide_eq_true_eq] at hkeys
    have hopen : step number ⟨stack, .value⟩ 123 = some ⟨.obj [] [] :: stack, .firstKey⟩ := rfl
    have hkey : step number ⟨.obj [] [] :: stack, .firstKey⟩ 34 =
        some ⟨.obj [] [] :: stack, .string true []⟩ := rfl
    have hv := parseFrom_stringify v (.obj [] k :: stack) hkeys.2.1 (ends_fields fields us)
    have hrest := parseFrom_fields fields [(k, v.reread number)] stack us hkeys.1 hkeys.2.2
    simp only [JsValue.stringify, quote, List.cons_append, List.append_assoc,
      List.nil_append] at hv hrest ⊢
    rw [parseFrom_cons hopen, parseFrom_cons hkey, parseFrom_key, hv]
    exact hrest

theorem parseFrom_more : ∀ (xs : List JsValue) {done : List JsValue} (stack : List Frame)
    {us : JsString}, JsValue.distinctAll xs = true →
    parseFrom number ⟨.arr done :: stack, .after⟩ (JsValue.stringifyMore xs ++ 93 :: us) =
      parseFrom number (complete (.arr (done ++ JsValue.rereadAll number xs)) stack) us
  | [], done, stack, us => by
    intro _
    have hclose : step number ⟨.arr done :: stack, .after⟩ 93 =
        some (complete (.arr done) stack) := rfl
    rw [JsValue.rereadAll, List.append_nil]
    exact parseFrom_cons hclose us
  | x :: xs, done, stack, us => by
    intro hkeys
    rw [JsValue.distinctAll, Bool.and_eq_true] at hkeys
    have hcomma : step number ⟨.arr done :: stack, .after⟩ 44 = some ⟨.arr done :: stack, .value⟩ :=
      rfl
    rw [JsValue.stringifyMore, List.cons_append, parseFrom_cons hcomma, List.append_assoc,
      parseFrom_stringify x _ hkeys.1 (ends_more xs us), complete, parseFrom_more xs stack hkeys.2,
      JsValue.rereadAll, List.append_assoc]
    rfl

theorem parseFrom_fields : ∀ (fields done : List (JsString × JsValue)) (stack : List Frame)
    (us : JsString), (done.map Prod.fst ++ fields.map Prod.fst).Nodup →
    JsValue.distinctFields fields = true →
    parseFrom number ⟨.obj done [] :: stack, .after⟩
        (JsValue.stringifyFields fields ++ 125 :: us) =
      parseFrom number (complete (.obj (done ++ JsValue.rereadFields number fields)) stack) us
  | [], done, stack, us => by
    intro _ _
    have hclose : step number ⟨.obj done [] :: stack, .after⟩ 125 =
        some (complete (.obj done) stack) := rfl
    rw [JsValue.rereadFields, List.append_nil]
    exact parseFrom_cons hclose us
  | (k, v) :: fields, done, stack, us => by
    intro hnodup hkeys
    rw [JsValue.distinctFields, Bool.and_eq_true] at hkeys
    have hcomma : step number ⟨.obj done [] :: stack, .after⟩ 44 =
        some ⟨.obj done [] :: stack, .key⟩ := rfl
    have hkey : step number ⟨.obj done [] :: stack, .key⟩ 34 =
        some ⟨.obj done [] :: stack, .string true []⟩ := rfl
    have hfresh : k ∉ done.map Prod.fst :=
      fun hk => List.disjoint_of_nodup_append hnodup hk List.mem_cons_self
    have hmoved : ((done ++ [(k, v.reread number)]).map Prod.fst ++ fields.map Prod.fst).Nodup := by
      rw [List.map_append, List.append_assoc]
      exact hnodup
    have hv := parseFrom_stringify v (.obj done k :: stack) hkeys.1 (ends_fields fields us)
    have hrest := parseFrom_fields fields (done ++ [(k, v.reread number)]) stack us hmoved hkeys.2
    rw [complete, setField_fresh _ hfresh] at hv
    simp only [JsValue.stringifyFields, quote, List.cons_append, List.append_assoc,
      List.nil_append] at hv hrest ⊢
    rw [parseFrom_cons hcomma, parseFrom_cons hkey, parseFrom_key, hv, hrest]
    rfl

end

end

end JsonText

/-- **The text of a value is parsed as the value.** -/
theorem jsonParse_stringify {number : JsString → JsNumber} {v : JsValue}
    (h : v.distinctKeys = true) : jsonParse number v.stringify = some (v.reread number) := by
  have hread : JsonText.parseFrom number JsonText.State.initial (v.stringify ++ []) = _ :=
    JsonText.parseFrom_stringify v [] h trivial
  rw [List.append_nil] at hread
  rw [JsonText.jsonParse_eq, hread]
  rfl

/-- **What is sent is received**: where a value has a text, its bytes are decoded and parsed as the
value, with its numbers as `Number` reads them from their text. -/
theorem body_received {number : JsString → JsNumber} {levels : Nat} {v : JsValue} {text : JsString}
    (h : v.distinctKeys = true) (htext : jsonStringify levels v = some text) :
    jsonParse number (Utf8.decodeText (Utf8.encodeText text)) = some (v.reread number) := by
  unfold jsonStringify at htext
  split at htext
  · obtain rfl := Option.some.inj htext
    rw [JsonText.decodeText_stringify, jsonParse_stringify h]
  · cases htext

/-- A surrogate on its own, a pair, a control character, a fraction and an infinity. -/
theorem body_received_surrogate :
    let v : JsValue := .obj [(js "log\n", .str [0xD800, 0x41, 0xD83D, 0xDE00]),
      (js "x", .arr [.num 15 1, .infinite true])]
    v.distinctKeys = true ∧ jsonStringify 4000 v = some v.stringify ∧
      jsonParse (fun _ => .num 15 1) (Utf8.decodeText (Utf8.encodeText v.stringify)) =
        some (v.reread fun _ => .num 15 1) :=
  ⟨by decide, rfl, body_received (by decide) (rfl : jsonStringify 4000 _ = _)⟩

end BattleCloud
