import BattleCloud.Contract.Zod
import BattleCloud.Lib.Traverse
import Mathlib.Data.List.Nodup

/-!
# What validation returns

`Zod.parse` is `schema.safeParse(value).data` for the part of zod the contract is written in. An
object is built anew: the declared keys that are there, each with what its own schema returns,
then the other keys as they were, unless the schema drops them; a key `__proto__` is not copied.

`parse_same`: a schema that drops nothing returns the value it was given, objects compared as
maps. The document's schema is one (`document_kept`), and what it accepts it accepts with other
keys at any level, and with `null` at any of the nullable fields of a turn.
-/

namespace BattleCloud

/-! ## Values -/

namespace Json

/-- Equal values, objects compared as maps. -/
inductive Same : Json → Json → Prop
  | null : Same .null .null
  | bool (b : Bool) : Same (.bool b) (.bool b)
  | num (m : Int) (e : Nat) : Same (.num m e) (.num m e)
  | str (s : String) : Same (.str s) (.str s)
  | arr {xs ys : List Json} (h : List.Forall₂ Same xs ys) : Same (.arr xs) (.arr ys)
  | obj {vs ws : List (String × Json)}
    (h : ∀ key, Option.Rel Same ((obj vs).get? key) ((obj ws).get? key)) :
    Same (.obj vs) (.obj ws)

mutual

/-- No key is spelled `__proto__`. -/
def noProto : Json → Bool
  | .arr xs => noProtoAll xs
  | .obj fields => noProtoFields fields
  | _ => true

def noProtoAll : List Json → Bool
  | [] => true
  | x :: xs => x.noProto && noProtoAll xs

def noProtoFields : List (String × Json) → Bool
  | [] => true
  | (k, v) :: fs => k ≠ "__proto__" && v.noProto && noProtoFields fs

end

/-- The value at a key with `f` applied to it. -/
def modify (key : String) (f : Json → Json) : Json → Json
  | .obj vs => .obj (vs.map fun g => if g.1 = key then (g.1, f g.2) else g)
  | v => v

/-- `object[key] = value`. -/
def set (key : String) (value : Json) : Json → Json
  | .obj vs =>
    if ((obj vs).get? key).isSome then modify key (fun _ => value) (.obj vs)
    else .obj (vs ++ [(key, value)])
  | v => v

/-- The `i`-th element with `f` applied to it. -/
def modifyAt (i : Nat) (f : Json → Json) : Json → Json
  | .arr xs => .arr (xs.modify i f)
  | v => v

end Json

namespace Zod

/-- `mergeObjectSync`. -/
def mergeObject (pairs : List (String × Json)) : Json :=
  .obj (pairs.filter fun f => f.1 ≠ "__proto__")

mutual

/-- `schema.parse(value)` of a value that is there. -/
def parse : Schema → Json → Option Json
  | .unknown, v => some v
  | .string, .str s => some (.str s)
  | .boolean, .bool b => some (.bool b)
  | .finite, .num m e => some (.num m e)
  | .int, .num m e => if m % 10 ^ e = 0 then some (.num m e) else none
  | .enum values, .str s => if values.contains s then some (.str s) else none
  | .nullable _, .null => some .null
  | .nullable inner, v => parse inner v
  | .optional inner, v => parse inner v
  | .array element, .arr xs => (xs.mapM fun x => parse element x).map .arr
  | .object strict fields, .obj vs =>
    let extra := vs.filter fun f => !(fields.map Prod.fst).contains f.1
    (parseFields fields (.obj vs)).bind fun known =>
      if strict && !extra.isEmpty then none else some (mergeObject (known ++ extra))
  | .stripped fields, .obj vs => (parseFields fields (.obj vs)).map mergeObject
  | .refine inner check, v => (parse inner v).bind fun w => if check w then some w else none
  | _, _ => none

/-- The declared keys; one that is not there stays away if its schema takes `undefined`. -/
def parseFields : List (String × Schema) → Json → Option (List (String × Json))
  | [], _ => some []
  | (k, s) :: fields, v =>
    match v.get? k with
    | none => if accepts s none then parseFields fields v else none
    | some x => (parse s x).bind fun y => (parseFields fields v).map ((k, y) :: ·)

end

example : parse (.stripped [("a", .int)]) (.obj [("b", .null), ("a", .num 1 0)]) =
    some (.obj [("a", .num 1 0)]) := by rfl

mutual

/-- Nothing is dropped, and what a refinement checks is the value that came in. -/
def Schema.Keeps : Schema → Prop
  | .nullable inner => inner.Keeps
  | .optional inner => inner.Keeps
  | .array element => element.Keeps
  | .object _ fields => Schema.KeepsFields fields
  | .stripped _ => False
  | .refine inner check => inner.Keeps ∧ ∀ v w, parse inner v = some w → check w = check v
  | _ => True

def Schema.KeepsFields : List (String × Schema) → Prop
  | [] => True
  | (_, s) :: fields => s.Keeps ∧ Schema.KeepsFields fields

end

/-! ## What is parsed is what is accepted -/

/-- A strict object is refused for what is left of its keys. -/
theorem extra_isEmpty (names : List String) (vs : List (String × Json)) :
    (vs.filter fun f => !names.contains f.1).isEmpty = (keys vs).all fun k => names.contains k := by
  rw [Bool.eq_iff_iff, List.isEmpty_iff, List.filter_eq_nil_iff, keys, List.all_map,
    List.all_eq_true]
  simp

mutual

/-- **A value is parsed exactly if it is accepted.** -/
theorem parse_isSome : ∀ (s : Schema) (v : Json), s.Keeps →
    (parse s v).isSome = accepts s (some v)
  | .unknown, v => by
    intro _
    rw [parse, accepts]
    rfl
  | .string, v => by
    intro _
    cases v <;> rfl
  | .boolean, v => by
    intro _
    cases v <;> rfl
  | .finite, v => by
    intro _
    cases v <;> rfl
  | .int, v => by
    intro _
    cases v with
    | num m e => by_cases h : m % 10 ^ e = 0 <;> simp [parse, accepts, h]
    | _ => rfl
  | .enum values, v => by
    intro _
    cases v with
    | str s => by_cases h : s ∈ values <;> simp [parse, accepts, h]
    | _ => rfl
  | .nullable inner, v => by
    intro h
    have ih := parse_isSome inner v h
    cases v with
    | null => rfl
    | _ => exact ih
  | .optional inner, v => by
    intro h
    have ih := parse_isSome inner v h
    rw [accepts, ← ih]
    cases v <;> rfl
  | .array element, v => by
    intro h
    cases v with
    | arr xs =>
      rw [parse, accepts, Option.isSome_map, Traverse.mapM_isSome]
      exact congrArg xs.all (funext fun x => parse_isSome element x h)
    | _ => rfl
  | .object strict fields, v => by
    intro h
    cases v with
    | obj vs =>
      have ih := parseFields_isSome fields (.obj vs) h
      rw [parse, accepts, ← ih, ← extra_isEmpty]
      cases parseFields fields (.obj vs) with
      | none => rfl
      | some known =>
        dsimp only [Option.bind_some]
        cases strict <;>
          cases (vs.filter fun f => !(fields.map Prod.fst).contains f.1).isEmpty <;> rfl
    | _ => rfl
  | .stripped fields, v => fun h => h.elim
  | .refine inner check, v => by
    intro h
    have ih := parse_isSome inner v h.1
    have hparse : parse (.refine inner check) v =
        (parse inner v).bind fun w => if check w then some w else none := by cases v <;> rfl
    rw [hparse, accepts, ← ih]
    cases hw : parse inner v with
    | none => rfl
    | some w =>
      rw [Option.bind_some, h.2 v w hw]
      cases check v <;> rfl

theorem parseFields_isSome : ∀ (fields : List (String × Schema)) (v : Json),
    Schema.KeepsFields fields → (parseFields fields v).isSome = acceptsFields fields v
  | [], v => by
    intro _
    rfl
  | (k, s) :: fields, v => by
    intro h
    have ih := parseFields_isSome fields v h.2
    rw [parseFields, acceptsFields, ← ih]
    cases v.get? k with
    | none => cases accepts s none <;> rfl
    | some x =>
      have hs := parse_isSome s x h.1
      dsimp only
      rw [← hs]
      cases parse s x with
      | none => rfl
      | some y => cases parseFields fields v <;> rfl

end

/-! ## Lookups -/

theorem get?_append (vs ws : List (String × Json)) (key : String) :
    (Json.obj (vs ++ ws)).get? key = ((Json.obj vs).get? key).or ((Json.obj ws).get? key) := by
  simp only [Json.get?, List.find?_append, Option.map_or]

theorem get?_filter (q : String → Bool) (vs : List (String × Json)) (key : String) :
    (Json.obj (vs.filter fun f => q f.1)).get? key =
      if q key = true then (Json.obj vs).get? key else none := by
  induction vs with
  | nil => simp [Json.get?]
  | cons f vs ih =>
    obtain ⟨k, v⟩ := f
    rw [List.filter_cons]
    by_cases hk : k = key
    · subst hk
      cases hq : q k with
      | true => rw [if_pos rfl, if_pos rfl, get?_cons_self, get?_cons_self]
      | false => rw [if_neg Bool.false_ne_true, if_neg Bool.false_ne_true, ih, hq,
          if_neg Bool.false_ne_true]
    · rw [get?_cons_of_ne hk, ← ih]
      cases hq : q k with
      | true => rw [if_pos rfl, get?_cons_of_ne hk]
      | false => rw [if_neg Bool.false_ne_true]

theorem noProto_of_mem {xs : List Json} (h : Json.noProtoAll xs = true) :
    ∀ x ∈ xs, x.noProto = true := by
  induction xs with
  | nil => simp
  | cons x xs ih =>
    rw [Json.noProtoAll, Bool.and_eq_true] at h
    exact List.forall_mem_cons.mpr ⟨h.1, ih h.2⟩

theorem noProto_get? {v x : Json} {key : String} (h : v.noProto = true)
    (hx : v.get? key = some x) : key ≠ "__proto__" ∧ x.noProto = true := by
  cases v with
  | obj vs =>
    induction vs with
    | nil => cases hx
    | cons f vs ih =>
      obtain ⟨k, y⟩ := f
      rw [Json.noProto, Json.noProtoFields, Bool.and_eq_true, Bool.and_eq_true,
        decide_eq_true_eq] at h
      by_cases hk : k = key
      · subst hk
        rw [get?_cons_self] at hx
        obtain rfl := Option.some.inj hx
        exact h.1
      · rw [get?_cons_of_ne hk] at hx
        exact ih h.2 hx
  | _ => cases hx

mutual

theorem same_refl : ∀ v : Json, Json.Same v v
  | .null => .null
  | .bool b => .bool b
  | .num m e => .num m e
  | .str s => .str s
  | .arr xs => .arr (same_reflAll xs)
  | .obj fields => .obj (same_reflFields fields)

theorem same_reflAll : ∀ xs : List Json, List.Forall₂ Json.Same xs xs
  | [] => .nil
  | x :: xs => .cons (same_refl x) (same_reflAll xs)

theorem same_reflFields : ∀ (fields : List (String × Json)) (key : String),
    Option.Rel Json.Same ((Json.obj fields).get? key) ((Json.obj fields).get? key)
  | [], _ => .none
  | (k, v) :: fields, key => by
    have hv := same_refl v
    have hfields := same_reflFields fields key
    by_cases hk : k = key
    · subst hk
      rw [get?_cons_self]
      exact .some hv
    · rw [get?_cons_of_ne hk]
      exact hfields

end

theorem optionRel_refl (x : Option Json) : Option.Rel Json.Same x x := by
  cases x with
  | none => exact .none
  | some v => exact .some (same_refl v)

/-! ## What is parsed is what came in -/

/-- Only declared keys are found. -/
theorem parseFields_other {fields : List (String × Schema)} {v : Json}
    {known : List (String × Json)} (h : parseFields fields v = some known) {key : String}
    (hkey : key ∉ fields.map Prod.fst) : (Json.obj known).get? key = none := by
  induction fields generalizing known with
  | nil =>
    cases h
    rfl
  | cons f fields ih =>
    obtain ⟨k, s⟩ := f
    rw [List.map_cons, List.mem_cons, not_or] at hkey
    rw [parseFields] at h
    split at h
    · split at h
      · exact ih h hkey.2
      · cases h
    · obtain ⟨y, hy, h⟩ := Option.bind_eq_some_iff.mp h
      obtain ⟨rest, hrest, rfl⟩ := Option.map_eq_some_iff.mp h
      rw [get?_cons_of_ne (Ne.symm hkey.1)]
      exact ih hrest hkey.2

/-- The keys of the object that is built: the declared ones as they were found, the others as
they came in. -/
theorem get?_mergeObject {names : List String} {vs known : List (String × Json)} {key : String}
    (hp : key ≠ "__proto__") (hother : key ∉ names → (Json.obj known).get? key = none) :
    (mergeObject (known ++ vs.filter fun f => !names.contains f.1)).get? key =
      if key ∈ names then (Json.obj known).get? key else (Json.obj vs).get? key := by
  have hmerge := get?_filter (fun k => k ≠ "__proto__")
    (known ++ vs.filter fun f => !names.contains f.1) key
  rw [if_pos (decide_eq_true hp), get?_append, get?_filter fun k => !names.contains k] at hmerge
  refine hmerge.trans ?_
  by_cases hmem : key ∈ names
  · simp [hmem]
  · simp [hmem, hother hmem]

/-- The object that is built is the one that came in, if the declared keys are. -/
theorem same_mergeObject {fields : List (String × Schema)} {vs known : List (String × Json)}
    (hproto : (Json.obj vs).noProto = true) (hknown : parseFields fields (.obj vs) = some known)
    (h : ∀ key ∈ fields.map Prod.fst,
      Option.Rel Json.Same ((Json.obj known).get? key) ((Json.obj vs).get? key)) :
    Json.Same (mergeObject (known ++ vs.filter fun f => !(fields.map Prod.fst).contains f.1))
      (.obj vs) := by
  refine .obj fun key => ?_
  by_cases hp : key = "__proto__"
  · have hnone : (Json.obj vs).get? key = none := by
      cases hx : (Json.obj vs).get? key with
      | none => rfl
      | some x => exact absurd hp (noProto_get? hproto hx).1
    have hdropped := get?_filter (fun k => k ≠ "__proto__")
      (known ++ vs.filter fun f => !(fields.map Prod.fst).contains f.1) key
    rw [if_neg (by simp [hp])] at hdropped
    rw [hdropped, hnone]
    exact .none
  · have hkey := @get?_mergeObject _ vs _ _ hp (parseFields_other hknown)
    refine (congrArg (Option.Rel Json.Same · _) hkey).mpr ?_
    by_cases hmem : key ∈ fields.map Prod.fst
    · rw [if_pos hmem]
      exact h key hmem
    · rw [if_neg hmem]
      exact optionRel_refl _

mutual

/-- **A schema that drops nothing returns the value it was given.** -/
theorem parse_same : ∀ (s : Schema) {v w : Json}, s.Keeps → v.noProto = true →
    parse s v = some w → Json.Same w v
  | .unknown, v, w => by
    intro _ _ h
    rw [parse] at h
    rw [Option.some.inj h]
    exact same_refl w
  | .string, v, w => by
    intro _ _ h
    cases v <;> cases h
    exact same_refl _
  | .boolean, v, w => by
    intro _ _ h
    cases v <;> cases h
    exact same_refl _
  | .finite, v, w => by
    intro _ _ h
    cases v <;> cases h
    exact same_refl _
  | .int, v, w => by
    intro _ _ h
    cases v <;> try cases h
    rw [parse] at h
    split at h <;> cases h
    exact same_refl _
  | .enum values, v, w => by
    intro _ _ h
    cases v <;> try cases h
    rw [parse] at h
    split at h <;> cases h
    exact same_refl _
  | .nullable inner, v, w => by
    intro hs hv h
    cases v with
    | null =>
      cases h
      exact .null
    | _ => exact parse_same inner hs hv h
  | .optional inner, v, w => by
    intro hs hv h
    cases v <;> exact parse_same inner hs hv h
  | .array element, v, w => by
    intro hs hv h
    cases v <;> try cases h
    rename_i xs
    rw [parse] at h
    obtain ⟨ys, hys, rfl⟩ := Option.map_eq_some_iff.mp h
    exact .arr (Traverse.mapM_forall₂
      (fun x hx y hy => parse_same element hs (noProto_of_mem hv x hx) hy) hys)
  | .object strict fields, v, w => by
    intro hs hv h
    cases v <;> try cases h
    rw [parse] at h
    obtain ⟨known, hknown, h⟩ := Option.bind_eq_some_iff.mp h
    split at h <;> cases h
    exact same_mergeObject hv hknown (parseFields_same fields hs hv hknown)
  | .stripped fields, v, w => fun hs => hs.elim
  | .refine inner check, v, w => by
    intro hs hv h
    have hparse : parse (.refine inner check) v =
        (parse inner v).bind fun w => if check w then some w else none := by cases v <;> rfl
    rw [hparse] at h
    obtain ⟨w', hw', h⟩ := Option.bind_eq_some_iff.mp h
    split at h <;> cases h
    exact parse_same inner hs.1 hv hw'

theorem parseFields_same : ∀ (fields : List (String × Schema)) {v : Json}
    {known : List (String × Json)}, Schema.KeepsFields fields → v.noProto = true →
    parseFields fields v = some known → ∀ key ∈ fields.map Prod.fst,
    Option.Rel Json.Same ((Json.obj known).get? key) (v.get? key)
  | [], v, known => by
    intro _ _ _ key hkey
    cases hkey
  | (k, s) :: fields, v, known => by
    intro hs hv h key hkey
    rw [parseFields] at h
    split at h
    · rename_i hnone
      split at h
      · by_cases hmem : key ∈ fields.map Prod.fst
        · exact parseFields_same fields hs.2 hv h key hmem
        · obtain rfl : key = k := by simpa [hmem] using hkey
          rw [parseFields_other h hmem, hnone]
          exact .none
      · cases h
    · rename_i x hx
      obtain ⟨y, hy, h⟩ := Option.bind_eq_some_iff.mp h
      obtain ⟨rest, hrest, rfl⟩ := Option.map_eq_some_iff.mp h
      by_cases hk : k = key
      · subst hk
        rw [get?_cons_self, hx]
        exact .some (parse_same s hs.1 (noProto_get? hv hx).2 hy)
      · rw [get?_cons_of_ne hk]
        exact parseFields_same fields hs.2 hv hrest key
          ((List.mem_cons.mp hkey).resolve_left (Ne.symm hk))

end

/-! ## What else is accepted -/

theorem get?_modify (key : String) (f : Json → Json) (vs : List (String × Json)) (k : String) :
    ((Json.obj vs).modify key f).get? k =
      if k = key then ((Json.obj vs).get? key).map f else (Json.obj vs).get? k := by
  simp only [Json.modify]
  induction vs with
  | nil => simp [Json.get?]
  | cons g vs ih =>
    obtain ⟨k', v⟩ := g
    rw [List.map_cons]
    by_cases hk' : k' = key
    · subst hk'
      rw [if_pos rfl, get?_cons_self]
      by_cases hk : k = k'
      · subst hk
        rw [get?_cons_self, if_pos rfl]
        rfl
      · rw [get?_cons_of_ne (Ne.symm hk), get?_cons_of_ne (Ne.symm hk), ih, if_neg hk, if_neg hk]
    · rw [if_neg hk', get?_cons_of_ne hk']
      by_cases hk : k' = k
      · subst hk
        rw [get?_cons_self, get?_cons_self, if_neg hk']
      · rw [get?_cons_of_ne hk, get?_cons_of_ne hk, ih]

theorem get?_set (key : String) (value : Json) (vs : List (String × Json)) (k : String) :
    (Json.set key value (.obj vs)).get? k =
      if k = key then some value else (Json.obj vs).get? k := by
  rw [Json.set]
  cases hx : (Json.obj vs).get? key with
  | some x =>
    rw [Option.isSome_some, if_pos rfl, get?_modify, hx]
    rfl
  | none =>
    rw [Option.isSome_none, if_neg Bool.false_ne_true, get?_append]
    by_cases hk : k = key
    · subst hk
      rw [hx, get?_cons_self, if_pos rfl]
      rfl
    · rw [get?_cons_of_ne (Ne.symm hk), if_neg hk]
      exact Option.or_none

theorem get?_modify_of_ne {key k : String} (hk : k ≠ key) (f : Json → Json) (v : Json) :
    (v.modify key f).get? k = v.get? k := by
  cases v with
  | obj vs => rw [get?_modify, if_neg hk]
  | _ => rfl

theorem get?_set_of_ne {key k : String} (hk : k ≠ key) (value v : Json) :
    (Json.set key value v).get? k = v.get? k := by
  cases v with
  | obj vs => rw [get?_set, if_neg hk]
  | _ => rfl

section

variable {fields : List (String × Schema)} {v : Json}

/-- An object that passes other keys through is judged by its declared ones. -/
theorem accepts_passthrough {v w : Json} (h : accepts (.object false fields) (some v) = true)
    (hw : ∀ vs, v = .obj vs → ∃ ws, w = .obj ws ∧ ∀ f ∈ fields,
      accepts f.2 ((Json.obj vs).get? f.1) = true → accepts f.2 ((Json.obj ws).get? f.1) = true) :
    accepts (.object false fields) (some w) = true := by
  cases v with
  | obj vs =>
    obtain ⟨ws, rfl, hkeys⟩ := hw vs rfl
    have hvs := (accepts_object.mp h).1
    exact accepts_object.mpr
      ⟨fun f hf => hkeys f hf (hvs f hf), fun hstrict => absurd hstrict Bool.false_ne_true⟩
  | _ => cases h

/-- **A key may be set to what its schema takes, and to anything if it is not declared.** -/
theorem accepts_set {key : String} {value : Json}
    (hvalue : ∀ f ∈ fields, f.1 = key → accepts f.2 (some value) = true)
    (h : accepts (.object false fields) (some v) = true) :
    accepts (.object false fields) (some (Json.set key value v)) = true := by
  refine accepts_passthrough h ?_
  rintro vs rfl
  have hset : ∃ ws, Json.set key value (.obj vs) = .obj ws := by
    rw [Json.set]
    split <;> exact ⟨_, rfl⟩
  obtain ⟨ws, hws⟩ := hset
  refine ⟨ws, hws, fun f hf hold => ?_⟩
  rw [← hws, get?_set]
  by_cases hk : f.1 = key
  · rw [if_pos hk]
    exact hvalue f hf hk
  · rw [if_neg hk]
    exact hold

/-- The value at a key may be changed by what its schema does not mind. -/
theorem accepts_modify {key : String} {f : Json → Json}
    (hf : ∀ g ∈ fields, g.1 = key → ∀ x, accepts g.2 (some x) = true →
      accepts g.2 (some (f x)) = true)
    (h : accepts (.object false fields) (some v) = true) :
    accepts (.object false fields) (some (v.modify key f)) = true := by
  refine accepts_passthrough h ?_
  rintro vs rfl
  refine ⟨_, rfl, fun g hg hold => ?_⟩
  have hget := get?_modify key f vs g.1
  rw [Json.modify] at hget
  rw [hget]
  by_cases hk : g.1 = key
  · rw [if_pos hk, ← hk]
    cases hx : (Json.obj vs).get? g.1 with
    | none =>
      rw [hx] at hold
      exact hold
    | some x =>
      rw [hx] at hold
      exact hf g hg hk x hold
  · rw [if_neg hk]
    exact hold

/-- The same where the field's schema is named. -/
theorem accepts_modify_field {key : String} {s : Schema} {f : Json → Json}
    (hnodup : (fields.map Prod.fst).Nodup) (hfield : (key, s) ∈ fields)
    (hf : ∀ x, accepts s (some x) = true → accepts s (some (f x)) = true)
    (h : accepts (.object false fields) (some v) = true) :
    accepts (.object false fields) (some (v.modify key f)) = true := by
  refine accepts_modify (fun g hg hk => ?_) h
  have heq : g = (key, s) := List.inj_on_of_nodup_map hnodup hg hfield hk
  rw [heq]
  exact hf

theorem mem_modify {α : Type} {xs : List α} {i : Nat} {f : α → α} {y : α}
    (h : y ∈ xs.modify i f) : y ∈ xs ∨ ∃ x ∈ xs, y = f x := by
  induction xs generalizing i with
  | nil => simp at h
  | cons x xs ih =>
    cases i with
    | zero =>
      rcases List.mem_cons.mp h with rfl | h
      · exact Or.inr ⟨x, List.mem_cons_self, rfl⟩
      · exact Or.inl (List.mem_cons_of_mem _ h)
    | succ i =>
      rcases List.mem_cons.mp h with rfl | h
      · exact Or.inl List.mem_cons_self
      · exact (ih h).imp (List.mem_cons_of_mem _)
          fun ⟨z, hz, hy⟩ => ⟨z, List.mem_cons_of_mem _ hz, hy⟩

theorem accepts_refine_of {inner : Schema} {check : Json → Bool} {v w : Json}
    (hinner : accepts inner (some v) = true → accepts inner (some w) = true)
    (hcheck : check w = check v) (h : accepts (.refine inner check) (some v) = true) :
    accepts (.refine inner check) (some w) = true := by
  rw [accepts, Bool.and_eq_true] at h ⊢
  exact ⟨hinner h.1, hcheck.trans h.2⟩

theorem accepts_modifyAt {element : Schema} {i : Nat} {f : Json → Json}
    (hf : ∀ x, accepts element (some x) = true → accepts element (some (f x)) = true)
    (h : accepts (.array element) (some v) = true) :
    accepts (.array element) (some (v.modifyAt i f)) = true := by
  cases v with
  | arr xs =>
    rw [accepts, List.all_eq_true] at h
    rw [Json.modifyAt, accepts, List.all_eq_true]
    intro y hy
    rcases mem_modify hy with hy | ⟨x, hx, rfl⟩
    · exact h y hy
    · exact hf x (h x hx)
  | _ => cases h

end

end Zod

open Zod (Schema accepts)

/-! ## The document -/

/-- The keys an object's schema declares. -/
def declaredKeys : Schema → List String
  | .object _ fields | .stripped fields => fields.map Prod.fst
  | .refine inner _ => declaredKeys inner
  | _ => []

/-- The fields of a turn that may be `null`. -/
def nullableKeys : List String :=
  ["winProbability", "ungradableReason", "playedAction", "playedActionValue", "costOfPlayed"]

/-- A change to a document: a key of it, of its engine block, of a turn or of a ranked action is
given a value, or a field of a turn becomes `null`. -/
inductive Edit where
  | document (key : String) (value : Json)
  | engine (key : String) (value : Json)
  | turn (i : Nat) (key : String) (value : Json)
  | action (i j : Nat) (key : String) (value : Json)
  | null (i : Nat) (key : String)

/-- The keys are unknown ones, and what becomes `null` is nullable. -/
def Edit.Allowed : Edit → Prop
  | .document key _ => key ∉ declaredKeys schemaV1DocumentSchema
  | .engine key _ => key ∉ declaredKeys engineConfigurationSchema
  | .turn _ key _ => key ∉ declaredKeys turnEvaluationSchema
  | .action _ _ key _ => key ∉ declaredKeys rankedActionSchema
  | .null _ key => key ∈ nullableKeys

def Edit.apply : Edit → Json → Json
  | .document key value => Json.set key value
  | .engine key value => Json.modify "engine" (Json.set key value)
  | .turn i key value => Json.modify "turns" (Json.modifyAt i (Json.set key value))
  | .action i j key value =>
    Json.modify "turns" (Json.modifyAt i (Json.modify "topActions"
      (Json.modifyAt j (Json.set key value))))
  | .null i key => Json.modify "turns" (Json.modifyAt i (Json.set key .null))

theorem isSupportedVersion_congr {v w : Json}
    (h : w.get? "schemaVersion" = v.get? "schemaVersion") :
    isSupportedVersion w = isSupportedVersion v := by
  unfold isSupportedVersion
  rw [h]

theorem rankedAction_keeps : rankedActionSchema.Keeps := ⟨trivial, trivial, trivial, trivial⟩

theorem turnEvaluation_keeps : turnEvaluationSchema.Keeps :=
  ⟨trivial, trivial, trivial, trivial, trivial, trivial, trivial, trivial, rankedAction_keeps,
    trivial⟩

theorem engineConfiguration_keeps : engineConfigurationSchema.Keeps :=
  ⟨trivial, trivial, trivial, trivial, trivial, trivial⟩

/-- The version is read as it came in. -/
theorem get?_parse_head {key : String} {fields : List (String × Schema)} {v w : Json}
    (hp : key ≠ "__proto__") (hkey : key ∉ fields.map Prod.fst)
    (h : Zod.parse (.object false ((key, .unknown) :: fields)) v = some w) :
    w.get? key = v.get? key := by
  cases v with
  | obj vs =>
    rw [Zod.parse] at h
    obtain ⟨known, hknown, h⟩ := Option.bind_eq_some_iff.mp h
    obtain rfl := Option.some.inj h
    have hmem : key ∈ ((key, Schema.unknown) :: fields).map Prod.fst := by simp
    rw [Zod.get?_mergeObject hp (Zod.parseFields_other hknown), if_pos hmem]
    rw [Zod.parseFields] at hknown
    split at hknown
    · rename_i hnone
      have htaken : accepts .unknown none = true := rfl
      rw [if_pos htaken] at hknown
      rw [Zod.parseFields_other hknown hkey, hnone]
    · rename_i x hx
      obtain ⟨y, hy, hknown⟩ := Option.bind_eq_some_iff.mp hknown
      obtain ⟨rest, -, rfl⟩ := Option.map_eq_some_iff.mp hknown
      rw [Zod.get?_cons_self, hx, hy.symm]
      rfl
  | _ => cases h

theorem schemaV1Document_keeps : schemaV1DocumentSchema.Keeps := by
  refine ⟨⟨trivial, trivial, trivial, trivial, engineConfiguration_keeps, trivial, trivial,
    turnEvaluation_keeps, trivial⟩, fun v w h => isSupportedVersion_congr ?_⟩
  exact get?_parse_head (by decide) (by decide) h

/-- A document is judged by its declared keys and its version. -/
theorem document_edit {e : Edit} (he : e.Allowed) {v : Json}
    (h : accepts schemaV1DocumentSchema (some v) = true) :
    accepts schemaV1DocumentSchema (some (e.apply v)) = true := by
  -- a change of the turns is one of a turn
  have hturns : ∀ (i : Nat) (f : Json → Json),
      (∀ x, accepts turnEvaluationSchema (some x) = true →
        accepts turnEvaluationSchema (some (f x)) = true) →
      accepts schemaV1DocumentSchema (some (v.modify "turns" (Json.modifyAt i f))) = true := by
    intro i f hf
    refine Zod.accepts_refine_of (Zod.accepts_modify_field (by decide)
      (s := .array turnEvaluationSchema) (by simp) fun x => Zod.accepts_modifyAt hf) ?_ h
    exact isSupportedVersion_congr (Zod.get?_modify_of_ne (by decide) _ v)
  -- a key that is not declared has no schema
  have hunknown : ∀ {fields : List (String × Schema)} {key : String} {value x : Json},
      key ∉ fields.map Prod.fst → accepts (.object false fields) (some x) = true →
      accepts (.object false fields) (some (Json.set key value x)) = true :=
    fun hkey => Zod.accepts_set fun f hf hk => absurd (List.mem_map.mpr ⟨f, hf, hk⟩) hkey
  cases e with
  | document key value =>
    have hversion : "schemaVersion" ≠ key := by
      rintro rfl
      exact he (by decide)
    exact Zod.accepts_refine_of (hunknown he)
      (isSupportedVersion_congr (Zod.get?_set_of_ne hversion value v)) h
  | engine key value =>
    refine Zod.accepts_refine_of (Zod.accepts_modify_field (by decide)
      (s := engineConfigurationSchema) (by simp) fun x => hunknown he) ?_ h
    exact isSupportedVersion_congr (Zod.get?_modify_of_ne (by decide) _ v)
  | turn i key value => exact hturns i _ fun x => hunknown he
  | action i j key value =>
    refine hturns i _ fun x => ?_
    exact Zod.accepts_modify_field (by decide) (s := .array rankedActionSchema) (by simp)
      fun y => Zod.accepts_modifyAt fun z => hunknown he
  | null i key =>
    refine hturns i _ fun x => Zod.accepts_set fun f hf hk => ?_
    have hnull : ∀ f ∈ [("turn", Schema.int), ("winProbability", .optional (.nullable .finite)),
        ("gradable", .boolean), ("ungradableReason", .optional (.nullable .string)),
        ("samplesUsed", .int), ("playedAction", .optional (.nullable .string)),
        ("playedActionValue", .optional (.nullable .finite)),
        ("costOfPlayed", .optional (.nullable .finite)),
        ("topActions", .array rankedActionSchema)],
        f.1 ∈ nullableKeys → accepts f.2 (some .null) = true := by decide
    exact hnull f hf (hk ▸ he)

/-- **Validation never rewrites a document.** What is returned of an accepted document is the
document, and every allowed change of it is accepted as well. -/
theorem document_kept {v w : Json} (hproto : v.noProto = true)
    (h : Zod.parse schemaV1DocumentSchema v = some w) :
    Json.Same w v ∧
      ∀ e : Edit, e.Allowed → ∃ w', Zod.parse schemaV1DocumentSchema (e.apply v) = some w' := by
  refine ⟨Zod.parse_same _ schemaV1Document_keeps hproto h, fun e he => ?_⟩
  have haccepted : accepts schemaV1DocumentSchema (some v) = true := by
    rw [← Zod.parse_isSome _ v schemaV1Document_keeps, h]
    rfl
  refine Option.isSome_iff_exists.mp ?_
  rw [Zod.parse_isSome _ _ schemaV1Document_keeps]
  exact document_edit he haccepted

namespace Sample

/-- A document of one turn, with keys the schema does not know at every level. -/
def ratedDocument : Json :=
  .obj [("players", .arr [.str "Ash", .str "Gary"]), ("schemaVersion", .num 1 0),
    ("replayId", .str "gen9ou-1"), ("format", .str "gen9ou"), ("perspective", .str "p1"),
    ("engine", .obj [("searchBudgetMsPerTurn", .num 200 0), ("opponentSamples", .num 2 0),
      ("threads", .num 4 0), ("usageStatsCutoff", .num 1500 0), ("pokeEngineTag", .str "v0.0.47"),
      ("commit", .str "4f2a")]),
    ("totalTurns", .num 1 0), ("gradableTurns", .num 1 0),
    ("turns", .arr [.obj [("turn", .num 1 0), ("winProbability", .num 5125 4),
      ("gradable", .bool true), ("samplesUsed", .num 2 0), ("depth", .num 6 0),
      ("topActions", .arr [.obj [("visits", .num 93 0), ("action", .str "move 1"),
        ("visitShare", .num 75 2), ("value", .num 5 1)]])]]),
    ("rating", .num 1834 0)]

end Sample

theorem document_kept_rated : ∃ w, Json.Same w Sample.ratedDocument ∧
    ∀ e : Edit, e.Allowed →
      ∃ w', Zod.parse schemaV1DocumentSchema (e.apply Sample.ratedDocument) = some w' :=
  ⟨_, document_kept (by decide) rfl⟩

end BattleCloud
