import BattleCloud.Lib.NumberText
import BattleCloud.Lib.Percent
import Mathlib.Data.List.DropRight
import Mathlib.Data.List.TakeDrop

/-!
# Resolving a reference against a URL

The basic URL parser of the WHATWG standard where it reads a reference against a base: removing
what surrounds it, finding a scheme, then the relative, relative slash, path, query and fragment
states. A reference with a scheme or an authority of its own, and a base that is a `file` URL,
lead into the rest of the parser, which is a parameter; so does a text without a base. A base has
a path of segments, not an opaque one.

`resolve_plain`: a reference of plain characters that is no dot segment takes the place of the
base's last segment. Everything in front of the path stays as it is, and there is no query and no
fragment.
-/

/-- A URL record; every part is ASCII text. -/
structure Url where
  scheme : List UInt16
  username : List UInt16
  password : List UInt16
  host : Option (List UInt16)
  port : Option Nat
  path : List (List UInt16)
  query : Option (List UInt16)
  fragment : Option (List UInt16)
  deriving DecidableEq

namespace Url

/-- ASCII text as units. -/
def ascii (s : String) : List UInt16 := s.toList.map fun c => UInt16.ofNat c.toNat

def specialSchemes : List (List UInt16) := ["ftp", "file", "http", "https", "ws", "wss"].map ascii

def isSpecial (url : Url) : Bool := specialSchemes.contains url.scheme

/-! ## What stays unescaped -/

/-- Outside the C0 control percent-encode set. -/
def isPrintable (c : Char) : Bool := 0x20 ≤ c.toNat && c.toNat ≤ 0x7E

def keepFragment (c : Char) : Bool := isPrintable c && !" \"<>`".toList.contains c

def keepQuery (special : Bool) (c : Char) : Bool :=
  isPrintable c && !" \"#<>".toList.contains c && !(special && c = '\x27')

def keepPath (c : Char) : Bool := keepQuery false c && !"?^`\x7b\x7d".toList.contains c

/-! ## The path -/

/-- `.`, also escaped. -/
def isSingleDot (segment : List UInt16) : Bool := [".", "%2e", "%2E"].any (segment = ascii ·)

/-- `..`, either of them also escaped. -/
def isDoubleDot (segment : List UInt16) : Bool :=
  ["..", ".%2e", ".%2E", "%2e.", "%2E.", "%2e%2e", "%2e%2E", "%2E%2e", "%2E%2E"].any
    (segment = ascii ·)

/-- `/`, and in a special URL `\`. -/
def isSlash (special : Bool) (c : Char) : Bool := c = '/' || (special && c = '\\')

/-- The path with the segment in the buffer; `slash` is whether one ends it. -/
def close (path : List (List UInt16)) (buffer : List UInt16) (slash : Bool) :
    List (List UInt16) :=
  if isDoubleDot buffer then
    if slash then path.dropLast else path.dropLast ++ [[]]
  else if isSingleDot buffer then
    if slash then path else path ++ [[]]
  else path ++ [buffer]

/-- The path state; behind the path stands what is left, from `?` or `#` on. -/
def pathState (special : Bool) (path : List (List UInt16)) (buffer : List UInt16) :
    List Char → List (List UInt16) × List Char
  | [] => (close path buffer false, [])
  | c :: cs =>
    if isSlash special c then pathState special (close path buffer true) [] cs
    else if c = '?' || c = '#' then (close path buffer false, c :: cs)
    else pathState special path (buffer ++ Percent.encodeChar keepPath c) cs

/-- The query and fragment states, from `?` or `#` on. -/
def tailState (url : Url) : List Char → Url
  | [] => url
  | c :: cs =>
    if c = '?' then
      tailState { url with
        query := some (Percent.encode (keepQuery url.isSpecial) (cs.takeWhile (· ≠ '#'))) }
        (cs.dropWhile (· ≠ '#'))
    else { url with fragment := some (Percent.encode keepFragment cs) }
termination_by cs => cs.length
decreasing_by exact Nat.lt_succ_of_le (List.dropWhile_suffix _).length_le

/-- The path, query and fragment of what is left, on top of the segments of `url`. -/
def fromPath (url : Url) (cs : List Char) : Url :=
  let (path, rest) := pathState url.isSpecial url.path [] cs
  tailState { url with path } rest

/-! ## The reference -/

section

variable (basic : Option Url → List Char → Option Url) (base : Url)

/-- The relative state, and the relative slash state behind it. -/
def relativeState (input : List Char) : Option Url :=
  let url := { base with query := none, fragment := none }
  match input with
  | [] => some { base with fragment := none }
  | c :: cs =>
    if isSlash base.isSpecial c then
      if (cs.head?.map (isSlash base.isSpecial)).getD false then basic (some base) input
      else some (fromPath { url with path := [] } cs)
    else if c = '?' then some (tailState url input)
    else if c = '#' then some (tailState { base with fragment := none } input)
    else some (fromPath { url with path := base.path.dropLast } input)

def isSchemeChar (c : Char) : Bool := c.isAlphanum || c = '+' || c = '-' || c = '.'

/-- The scheme in lower case and what is behind its `:`. -/
def scheme? (input : List Char) : Option (List UInt16 × List Char) :=
  match input.span isSchemeChar with
  | (c :: cs, ':' :: rest) =>
    if c.isAlpha then some ((c :: cs).map fun c => UInt16.ofNat c.toLower.toNat, rest) else none
  | _ => none

/-- The scheme, no scheme and special relative or authority states. -/
def schemeState (input : List Char) : Option Url :=
  if base.scheme = ascii "file" then basic (some base) input
  else match scheme? input with
    | none => relativeState basic base input
    | some (scheme, rest) =>
      if base.isSpecial && scheme = base.scheme && !(List.isPrefixOf ['/', '/'] rest) then
        relativeState basic base rest
      else basic (some base) input

/-- C0 control or space. -/
def isSurrounding (c : Char) : Bool := c.toNat ≤ 0x20

/-- ASCII tab or newline. -/
def isRemoved (c : Char) : Bool := c = '\t' || c = '\n' || c = '\r'

/-- The basic URL parser on a reference and a base. -/
def resolve (input : List Char) : Option Url :=
  schemeState basic base
    (((input.dropWhile isSurrounding).rdropWhile isSurrounding).filter (!isRemoved ·))

end

/-- `new URL(input, base)`; `none` is a `TypeError`. -/
def construct (basic : Option Url → List Char → Option Url) (input base : List Char) :
    Option Url :=
  (basic none base).bind fun base => resolve basic base input

/-! ## The serializer -/

def pathText (path : List (List UInt16)) : List UInt16 := path.flatMap (47 :: ·)

/-- What stands in front of the host. -/
def credentials (url : Url) : List UInt16 :=
  if url.username = [] ∧ url.password = [] then []
  else url.username ++ (if url.password = [] then [] else 58 :: url.password) ++ [64]

/-- What stands in front of the path. -/
def origin (url : Url) : List UInt16 :=
  url.scheme ++ 58 :: match url.host with
    | some host => [47, 47] ++ url.credentials ++ host ++
        (match url.port with
          | some port => 58 :: NumberText.numberText port 0
          | none => [])
    | none => if 1 < url.path.length ∧ url.path.head? = some [] then [47, 46] else []

def href (url : Url) : List UInt16 :=
  url.origin ++ pathText url.path ++ ((url.query.map (63 :: ·)).getD []) ++
    ((url.fragment.map (35 :: ·)).getD [])

/-! ## Plain references -/

/-- A character that no state looks at, and that stays as it is. -/
def isPlain (c : Char) : Bool := keepPath c && c ≠ '/' && c ≠ '\\' && c ≠ ':'

theorem bounds_of_isPlain {c : Char} (h : isPlain c = true) :
    0x20 < c.toNat ∧ keepPath c = true ∧ c ≠ '/' ∧ c ≠ '\\' ∧ c ≠ ':' ∧ c ≠ '?' ∧ c ≠ '#' := by
  simp only [isPlain, Bool.and_eq_true, decide_eq_true_eq] at h
  obtain ⟨⟨⟨hkeep, hslash⟩, hback⟩, hcolon⟩ := h
  have hpath := hkeep
  simp only [keepPath, keepQuery, isPrintable, Bool.and_eq_true, decide_eq_true_eq,
    Bool.not_eq_true', ← Bool.not_eq_true, List.contains_iff_mem] at hpath
  obtain ⟨⟨⟨⟨hlow, -⟩, hquery⟩, -⟩, hmark⟩ := hpath
  refine ⟨?_, hkeep, hslash, hback, hcolon, ?_, ?_⟩
  · refine Nat.lt_of_le_of_ne hlow fun he => hquery ?_
    have hspace : ' ' = c := Char.toNat_inj.mp he
    rw [← hspace]
    decide
  · rintro rfl
    exact hmark (by decide)
  · rintro rfl
    exact hquery (by decide)

theorem isSlash_plain {c : Char} (h : isPlain c = true) (special : Bool) :
    isSlash special c = false := by
  obtain ⟨-, -, hslash, hback, -⟩ := bounds_of_isPlain h
  simp [isSlash, hslash, hback]

/-- Plain characters gather in the buffer. -/
theorem pathState_plain {cs : List Char} (h : ∀ c ∈ cs, isPlain c = true) (special : Bool)
    (path : List (List UInt16)) (buffer : List UInt16) :
    pathState special path buffer cs =
      (close path (buffer ++ cs.map fun c => UInt16.ofNat c.toNat) false, []) := by
  induction cs generalizing buffer with
  | nil => rw [List.map_nil, List.append_nil, pathState]
  | cons c cs ih =>
    obtain ⟨hc, hcs⟩ := List.forall_mem_cons.mp h
    obtain ⟨-, hkeep, -, -, -, hquery, hhash⟩ := bounds_of_isPlain hc
    have hmark : ¬ (c = '?' || c = '#') = true := by simp [hquery, hhash]
    rw [pathState, isSlash_plain hc, if_neg Bool.false_ne_true, if_neg hmark, ih hcs,
      Percent.encodeChar_keep hkeep, List.append_assoc, List.singleton_append, List.map_cons]

theorem scheme?_plain {cs : List Char} (h : ∀ c ∈ cs, isPlain c = true) : scheme? cs = none := by
  unfold scheme?
  split
  · rename_i rest hspan
    rw [List.span_eq_takeWhile_dropWhile, Prod.mk.injEq] at hspan
    have hmem : ':' ∈ cs := (List.dropWhile_suffix _).subset (hspan.2 ▸ List.mem_cons_self)
    obtain ⟨-, -, -, -, hcolon, -⟩ := bounds_of_isPlain (h _ hmem)
    exact absurd rfl hcolon
  · rfl

/-- Nothing of a plain reference is removed before it is read. -/
theorem resolve_eq {cs : List Char} (h : ∀ c ∈ cs, isPlain c = true)
    (basic : Option Url → List Char → Option Url) (base : Url) :
    resolve basic base cs = schemeState basic base cs := by
  have hsurrounding : ∀ c ∈ cs, ¬ isSurrounding c = true := by
    intro c hc
    obtain ⟨hlow, -⟩ := bounds_of_isPlain (h c hc)
    simp only [isSurrounding, decide_eq_true_eq]
    omega
  have hremoved : ∀ c ∈ cs, (!isRemoved c) = true := by
    intro c hc
    have hs := hsurrounding c hc
    simp only [isRemoved, Bool.not_eq_true', Bool.or_eq_false_iff, decide_eq_false_iff_not]
    refine ⟨⟨?_, ?_⟩, ?_⟩ <;> rintro rfl <;> exact hs (by decide)
  have hfront : cs.dropWhile isSurrounding = cs :=
    List.dropWhile_eq_self_iff.mpr fun hl => hsurrounding _ (List.get_mem _ _)
  have hback : cs.rdropWhile isSurrounding = cs :=
    List.rdropWhile_eq_self_iff.mpr fun hl => hsurrounding _ (List.getLast_mem hl)
  rw [resolve, hfront, hback, List.filter_eq_self.mpr hremoved]

/-- **A plain reference that is no dot segment replaces the last segment.** -/
theorem resolve_plain {cs : List Char} (hne : cs ≠ []) (h : ∀ c ∈ cs, isPlain c = true)
    {segment : List UInt16} (hsegment : (cs.map fun c => UInt16.ofNat c.toNat) = segment)
    (hsingle : isSingleDot segment = false) (hdouble : isDoubleDot segment = false)
    (basic : Option Url → List Char → Option Url) {base : Url}
    (hfile : base.scheme ≠ ascii "file") :
    resolve basic base cs = some { base with
      path := base.path.dropLast ++ [segment], query := none, fragment := none } := by
  rw [resolve_eq h, schemeState, if_neg hfile, scheme?_plain h]
  cases cs with
  | nil => exact absurd rfl hne
  | cons c cs =>
    obtain ⟨-, -, -, -, -, hquery, hhash⟩ := bounds_of_isPlain (h c List.mem_cons_self)
    simp only [relativeState, isSlash_plain (h c List.mem_cons_self), Bool.false_eq_true, if_false,
      if_neg hquery, if_neg hhash, fromPath, pathState_plain h, List.nil_append, hsegment, close,
      hsingle, hdouble, tailState]

end Url
