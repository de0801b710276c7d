import BattleCloud.Contract.Js

/-!
# `JSON.parse`

The parser as a machine over the units of the text: what it expects next, and the arrays and
objects it is inside of. A key that comes again replaces the value it had. Which number a numeric
text is (`Number(text)`: the nearest double, or an infinity) is a parameter.

`units_jsonParse`: the strings of what is parsed are no longer, taken together, than the text. A
unit of the text is one unit of a string at most; an escape takes several for one.
-/

namespace BattleCloud

/-- A number as a value has it: a decimal, or an infinity. -/
inductive JsNumber where
  | num (m : Int) (e : Nat)
  | infinite (negative : Bool)

def JsNumber.value : JsNumber → JsValue
  | .num m e => .num m e
  | .infinite negative => .infinite negative

/-- `object[key] = value` on a property list. -/
def setField (key : JsString) (value : JsValue) :
    List (JsString × JsValue) → List (JsString × JsValue)
  | [] => [(key, value)]
  | f :: fields => if f.1 = key then (key, value) :: fields else f :: setField key value fields

namespace JsonText

/-- Where in a numeric text the machine is. -/
inductive NumberPhase where
  | sign
  | zero
  | integer
  | point
  | fraction
  | exponent
  | exponentSign
  | exponentDigits

/-- An array or object that is not closed, with the key a value is read for. -/
inductive Frame where
  | arr (done : List JsValue)
  | obj (done : List (JsString × JsValue)) (key : JsString)

inductive Mode where
  /-- A value. -/
  | value
  /-- A value, or `]`. -/
  | firstElement
  /-- A key, or `}`. -/
  | firstKey
  | key
  | colon
  /-- Behind a value of the innermost array or object. -/
  | after
  | string (isKey : Bool) (read : JsString)
  | escape (isKey : Bool) (read : JsString)
  /-- Inside `\uXXXX`, with this many digits read. -/
  | unicode (isKey : Bool) (read : JsString) (digits code : Nat)
  | number (phase : NumberPhase) (text : JsString)
  /-- The rest of `true`, `false` or `null`. -/
  | literal (rest : JsString) (v : JsValue)
  /-- Behind the outermost value. -/
  | finished (v : JsValue)

structure State where
  stack : List Frame
  mode : Mode

def State.initial : State := ⟨[], .value⟩

/-! ## The steps -/

/-- `U+0009`, `U+000A`, `U+000D` or `U+0020`. -/
def isSpace (u : UInt16) : Bool := u = 9 || u = 10 || u = 13 || u = 32

def isDigit (u : UInt16) : Bool := 48 ≤ u.toNat && u.toNat ≤ 57

def hexDigit? (u : UInt16) : Option Nat :=
  if isDigit u then some (u.toNat - 48)
  else if 65 ≤ u.toNat && u.toNat ≤ 70 then some (u.toNat - 55)
  else if 97 ≤ u.toNat && u.toNat ≤ 102 then some (u.toNat - 87)
  else none

/-- A value is complete. -/
def complete (v : JsValue) : List Frame → State
  | [] => ⟨[], .finished v⟩
  | .arr done :: stack => ⟨.arr (done ++ [v]) :: stack, .after⟩
  | .obj done key :: stack => ⟨.obj (setField key v done) [] :: stack, .after⟩

/-- The first unit of a value. -/
def beginValue (stack : List Frame) (u : UInt16) : Option State :=
  if u = 34 then some ⟨stack, .string false []⟩
  else if u = 91 then some ⟨.arr [] :: stack, .firstElement⟩
  else if u = 123 then some ⟨.obj [] [] :: stack, .firstKey⟩
  else if u = 45 then some ⟨stack, .number .sign [u]⟩
  else if u = 48 then some ⟨stack, .number .zero [u]⟩
  else if isDigit u then some ⟨stack, .number .integer [u]⟩
  else if u = 116 then some ⟨stack, .literal (js "rue") (.bool true)⟩
  else if u = 102 then some ⟨stack, .literal (js "alse") (.bool false)⟩
  else if u = 110 then some ⟨stack, .literal (js "ull") .null⟩
  else none

/-- Behind a value: a comma, or the end of the innermost array or object. -/
def afterValue (stack : List Frame) (u : UInt16) : Option State :=
  if isSpace u then some ⟨stack, .after⟩
  else match stack with
    | .arr done :: outer =>
      if u = 44 then some ⟨stack, .value⟩
      else if u = 93 then some (complete (.arr done) outer)
      else none
    | .obj done _ :: outer =>
      if u = 44 then some ⟨stack, .key⟩
      else if u = 125 then some (complete (.obj done) outer)
      else none
    | [] => none

/-- A string is closed: it is a value, or the key of the innermost object. -/
def endString (stack : List Frame) (isKey : Bool) (read : JsString) : Option State :=
  if isKey then
    match stack with
    | .obj done _ :: outer => some ⟨.obj done read :: outer, .colon⟩
    | _ => none
  else some (complete (.str read) stack)

/-- The unit a `\` and `u` stand for. -/
def simpleEscape (u : UInt16) : Option UInt16 :=
  if u = 34 || u = 92 || u = 47 then some u
  else if u = 98 then some 8
  else if u = 102 then some 12
  else if u = 110 then some 10
  else if u = 114 then some 13
  else if u = 116 then some 9
  else none

/-- The next phase, if the numeric text goes on. -/
def NumberPhase.next (u : UInt16) : NumberPhase → Option NumberPhase
  | .sign => if u = 48 then some .zero else if isDigit u then some .integer else none
  | .zero =>
    if u = 46 then some .point else if u = 101 || u = 69 then some .exponent else none
  | .integer =>
    if isDigit u then some .integer
    else if u = 46 then some .point else if u = 101 || u = 69 then some .exponent else none
  | .point => if isDigit u then some .fraction else none
  | .fraction =>
    if isDigit u then some .fraction else if u = 101 || u = 69 then some .exponent else none
  | .exponent =>
    if u = 43 || u = 45 then some .exponentSign
    else if isDigit u then some .exponentDigits else none
  | .exponentSign | .exponentDigits => if isDigit u then some .exponentDigits else none

/-- The numeric text may end here. -/
def NumberPhase.isEnd : NumberPhase → Bool
  | .zero | .integer | .fraction | .exponentDigits => true
  | _ => false

section

variable (number : JsString → JsNumber)

/-- One unit of the text; `none` is a `SyntaxError`. -/
def step (s : State) (u : UInt16) : Option State :=
  match s.mode with
  | .value => if isSpace u then some s else beginValue s.stack u
  | .firstElement =>
    if isSpace u then some s
    else if u = 93 then afterValue s.stack u else beginValue s.stack u
  | .firstKey =>
    if isSpace u then some s
    else if u = 125 then afterValue s.stack u
    else if u = 34 then some ⟨s.stack, .string true []⟩ else none
  | .key =>
    if isSpace u then some s else if u = 34 then some ⟨s.stack, .string true []⟩ else none
  | .colon => if isSpace u then some s else if u = 58 then some ⟨s.stack, .value⟩ else none
  | .after => afterValue s.stack u
  | .string isKey read =>
    if u = 34 then endString s.stack isKey read
    else if u = 92 then some ⟨s.stack, .escape isKey read⟩
    else if u < 32 then none
    else some ⟨s.stack, .string isKey (read ++ [u])⟩
  | .escape isKey read =>
    if u = 117 then some ⟨s.stack, .unicode isKey read 0 0⟩
    else (simpleEscape u).map fun v => ⟨s.stack, .string isKey (read ++ [v])⟩
  | .unicode isKey read digits code =>
    (hexDigit? u).map fun d =>
      if digits = 3 then ⟨s.stack, .string isKey (read ++ [UInt16.ofNat (code * 16 + d)])⟩
      else ⟨s.stack, .unicode isKey read (digits + 1) (code * 16 + d)⟩
  | .number phase text =>
    match phase.next u with
    | some phase => some ⟨s.stack, .number phase (text ++ [u])⟩
    | none =>
      if phase.isEnd then
        -- the number ended before this unit
        match s.stack with
        | [] => if isSpace u then some ⟨[], .finished (number text).value⟩ else none
        | stack => afterValue (complete (number text).value stack).stack u
      else none
  | .literal rest v =>
    match rest with
    | [] => none
    | r :: rest =>
      if u ≠ r then none
      else if rest = [] then some (complete v s.stack) else some ⟨s.stack, .literal rest v⟩
  | .finished v => if isSpace u then some ⟨s.stack, .finished v⟩ else none

/-- The value, if the text may end here. -/
def finish (s : State) : Option JsValue :=
  match s.mode with
  | .finished v => some v
  | .number phase text =>
    if phase.isEnd && s.stack.isEmpty then some (number text).value else none
  | _ => none

end

end JsonText

/-- `JSON.parse(text)`; `none` is a `SyntaxError`. -/
def jsonParse (number : JsString → JsNumber) (text : JsString) : Option JsValue :=
  (text.foldlM (JsonText.step number) JsonText.State.initial).bind (JsonText.finish number)

example : (jsonParse (fun _ => .num 7 0)
    (js " \x7b\"log\": \"a\\u0041\\n\", \"x\": [true, 7], \"log\" : null\x7d ")).isSome = true := by
  decide

/-! ## The strings of a value -/

mutual

/-- The units of all strings and keys. -/
def JsValue.units : JsValue → Nat
  | .str s => s.length
  | .arr xs => JsValue.unitsAll xs
  | .obj fields => JsValue.unitsFields fields
  | _ => 0

def JsValue.unitsAll : List JsValue → Nat
  | [] => 0
  | x :: xs => x.units + JsValue.unitsAll xs

def JsValue.unitsFields : List (JsString × JsValue) → Nat
  | [] => 0
  | (k, v) :: fields => k.length + v.units + JsValue.unitsFields fields

end

theorem JsValue.unitsAll_concat (xs : List JsValue) (v : JsValue) :
    JsValue.unitsAll (xs ++ [v]) = JsValue.unitsAll xs + v.units := by
  induction xs with
  | nil => simp [JsValue.unitsAll]
  | cons x xs ih =>
    rw [List.cons_append, JsValue.unitsAll, ih, JsValue.unitsAll, Nat.add_assoc]

theorem JsValue.unitsFields_setField (key : JsString) (v : JsValue)
    (fields : List (JsString × JsValue)) :
    JsValue.unitsFields (setField key v fields) ≤
      JsValue.unitsFields fields + key.length + v.units := by
  induction fields with
  | nil => simp [setField, JsValue.unitsFields]
  | cons f fields ih =>
    obtain ⟨k, w⟩ := f
    rw [setField]
    split
    · rename_i hk
      dsimp only at hk
      simp only [JsValue.unitsFields, hk]
      omega
    · simp only [JsValue.unitsFields]
      omega

theorem JsNumber.units_value (n : JsNumber) : n.value.units = 0 := by
  cases n <;> rfl

/-- A property's string is one of the value's. -/
theorem length_le_units {fields : List (JsString × JsValue)} {key : String} {s : JsString}
    (h : fieldOf fields key = some (.str s)) : s.length ≤ JsValue.unitsFields fields := by
  induction fields with
  | nil => cases h
  | cons f fields ih =>
    obtain ⟨k, v⟩ := f
    rw [JsValue.unitsFields]
    unfold fieldOf at h ih
    rw [List.find?_cons] at h
    split at h
    · obtain rfl : v = .str s := Option.some.inj h
      rw [JsValue.units]
      omega
    · have := ih h
      omega

namespace JsonText

def Frame.units : Frame → Nat
  | .arr done => JsValue.unitsAll done
  | .obj done key => JsValue.unitsFields done + key.length

def stackUnits : List Frame → Nat
  | [] => 0
  | frame :: stack => frame.units + stackUnits stack

def Mode.units : Mode → Nat
  | .string _ read | .escape _ read | .unicode _ read _ _ => read.length
  | .literal _ v | .finished v => v.units
  | _ => 0

/-- The units of the strings read so far. -/
def State.units (s : State) : Nat := stackUnits s.stack + s.mode.units

theorem units_complete (v : JsValue) (stack : List Frame) :
    (complete v stack).units ≤ stackUnits stack + v.units := by
  cases stack with
  | nil => exact Nat.le_refl _
  | cons frame stack =>
    cases frame with
    | arr done =>
      have hconcat := JsValue.unitsAll_concat done v
      simp only [complete, State.units, stackUnits, Frame.units, Mode.units]
      omega
    | obj done key =>
      have hset := JsValue.unitsFields_setField key v done
      simp only [complete, State.units, stackUnits, Frame.units, Mode.units, List.length_nil]
      omega

theorem units_beginValue {stack : List Frame} {u : UInt16} {s' : State}
    (h : beginValue stack u = some s') : s'.units = stackUnits stack := by
  unfold beginValue at h
  repeat' split at h
  all_goals cases h
  all_goals
    simp [State.units, stackUnits, Frame.units, Mode.units, JsValue.unitsAll, JsValue.unitsFields,
      JsValue.units]

theorem units_afterValue {stack : List Frame} {u : UInt16} {s' : State}
    (h : afterValue stack u = some s') : s'.units ≤ stackUnits stack := by
  unfold afterValue at h
  split at h
  · cases h
    exact Nat.le_refl _
  · split at h
    · rename_i done outer
      split at h
      · cases h
        exact Nat.le_refl _
      · split at h <;> cases h
        have hclose := units_complete (.arr done) outer
        rw [JsValue.units] at hclose
        simp only [stackUnits, Frame.units]
        omega
    · rename_i done key outer
      split at h
      · cases h
        exact Nat.le_refl _
      · split at h <;> cases h
        have hclose := units_complete (.obj done) outer
        rw [JsValue.units] at hclose
        simp only [stackUnits, Frame.units]
        omega
    · cases h

theorem units_endString {stack : List Frame} {isKey : Bool} {read : JsString} {s' : State}
    (h : endString stack isKey read = some s') : s'.units ≤ stackUnits stack + read.length := by
  unfold endString at h
  split at h
  · split at h <;> cases h
    simp only [State.units, stackUnits, Frame.units, Mode.units]
    omega
  · cases h
    exact units_complete (.str read) stack

section

variable {number : JsString → JsNumber}

/-- **A unit of the text is one unit of a string at most.** -/
theorem units_step {s s' : State} {u : UInt16} (h : step number s u = some s') :
    s'.units ≤ s.units + 1 := by
  obtain ⟨stack, mode⟩ := s
  -- the modes that look for a value, a key or an end keep the strings
  have hbegin : ∀ {m : Mode}, beginValue stack u = some s' →
      s'.units ≤ (State.mk stack m).units + 1 :=
    fun h => Nat.le_trans (Nat.le_of_eq (units_beginValue h)) (Nat.le_trans (Nat.le_add_right _ _)
      (Nat.le_succ _))
  have hafter : ∀ {m : Mode}, afterValue stack u = some s' →
      s'.units ≤ (State.mk stack m).units + 1 :=
    fun h => Nat.le_trans (units_afterValue h) (Nat.le_trans (Nat.le_add_right _ _) (Nat.le_succ _))
  cases mode with
  | value =>
    simp only [step] at h
    split at h
    · cases h
      exact Nat.le_succ _
    · exact hbegin h
  | firstElement =>
    simp only [step] at h
    split at h
    · cases h
      exact Nat.le_succ _
    · split at h
      · exact hafter h
      · exact hbegin h
  | firstKey =>
    simp only [step] at h
    split at h
    · cases h
      exact Nat.le_succ _
    · split at h
      · exact hafter h
      · split at h <;> cases h
        exact Nat.le_succ _
  | key =>
    simp only [step] at h
    split at h
    · cases h
      exact Nat.le_succ _
    · split at h <;> cases h
      exact Nat.le_succ _
  | colon =>
    simp only [step] at h
    split at h
    · cases h
      exact Nat.le_succ _
    · split at h <;> cases h
      exact Nat.le_succ _
  | after =>
    simp only [step] at h
    exact hafter h
  | string isKey read =>
    simp only [step] at h
    split at h
    · exact Nat.le_trans (units_endString h) (Nat.le_succ _)
    · split at h
      · cases h
        exact Nat.le_succ _
      · split at h <;> cases h
        simp only [State.units, Mode.units, List.length_append, List.length_singleton]
        omega
  | escape isKey read =>
    simp only [step] at h
    split at h
    · cases h
      exact Nat.le_succ _
    · obtain ⟨v, -, rfl⟩ := Option.map_eq_some_iff.mp h
      simp only [State.units, Mode.units, List.length_append, List.length_singleton]
      omega
  | unicode isKey read digits code =>
    simp only [step] at h
    obtain ⟨d, -, rfl⟩ := Option.map_eq_some_iff.mp h
    split
    · simp only [State.units, Mode.units, List.length_append, List.length_singleton]
      omega
    · exact Nat.le_succ _
  | number phase text =>
    simp only [step] at h
    split at h
    · cases h
      exact Nat.le_succ _
    · split at h
      · split at h
        · split at h <;> cases h
          have hnumber := (number text).units_value
          simp only [State.units, Mode.units, stackUnits, hnumber]
          omega
        · have hclose := units_complete (number text).value stack
          have hnumber := (number text).units_value
          have hnext := units_afterValue h
          simp only [State.units] at hclose hnext ⊢
          omega
      · cases h
  | literal rest v =>
    simp only [step] at h
    split at h
    · cases h
    · split at h
      · cases h
      · split at h <;> cases h
        · exact Nat.le_trans (units_complete v stack) (Nat.le_succ _)
        · exact Nat.le_succ _
  | finished v =>
    simp only [step] at h
    split at h <;> cases h
    exact Nat.le_succ _

theorem units_run {text : JsString} {s s' : State} (h : text.foldlM (step number) s = some s') :
    s'.units ≤ s.units + text.length := by
  induction text generalizing s with
  | nil =>
    cases h
    exact Nat.le_refl _
  | cons u text ih =>
    rw [List.foldlM_cons] at h
    obtain ⟨t, ht, h⟩ := Option.bind_eq_some_iff.mp h
    have hstep := units_step ht
    have hrest := ih h
    rw [List.length_cons]
    omega

theorem units_finish {s : State} {v : JsValue} (h : finish number s = some v) :
    v.units ≤ s.units := by
  obtain ⟨stack, mode⟩ := s
  unfold finish at h
  split at h
  · rename_i w hmode
    dsimp only at hmode
    cases h
    rw [State.units, hmode]
    exact Nat.le_add_left _ _
  · split at h <;> cases h
    rw [JsNumber.units_value]
    exact Nat.zero_le _
  · cases h

end

end JsonText

/-- **The strings of a parsed text are no longer, taken together, than the text.** -/
theorem units_jsonParse {number : JsString → JsNumber} {text : JsString} {v : JsValue}
    (h : jsonParse number text = some v) : v.units ≤ text.length := by
  obtain ⟨s, hs, hv⟩ := Option.bind_eq_some_iff.mp h
  have hrun := JsonText.units_run hs
  have hinitial : JsonText.State.initial.units = 0 := rfl
  have hfinish := JsonText.units_finish hv
  omega

end BattleCloud
