import BattleCloud.Api.Fetch
import Mathlib.Data.Bool.AllAny
import Mathlib.Data.List.DropRight

/-!
# Pasted links

`parseReplayId` of `web/src/api.ts`, and the body the form of `web/src/components/submit.tsx` sends
with its result: JSON as the API reads it.

`parseReplayId_link`: however an id is decorated, with white space around it, a path in front of
it, slashes behind it and a query at the end, the id is what is found, and the API takes it.
-/

namespace BattleCloud

namespace JsString

/-- `s.trim()`. -/
def trim (s : JsString) : JsString := (s.dropWhile isWhitespace).rdropWhile isWhitespace

/-- `s.replace(/\/+$/, '')`. -/
def withoutTrailingSlashes (s : JsString) : JsString := s.rdropWhile fun u => u = 47

end JsString

def parseReplayId (input : JsString) : JsString :=
  let trimmed := input.trim
  let withoutQuery := (trimmed.splitOn 63).head?.getD trimmed
  let lastSegment := ((JsString.withoutTrailingSlashes withoutQuery).splitOn 47).getLast?.getD []
  lastSegment

example :
    parseReplayId (js " https://replay.pokemonshowdown.com/gen9ou-1/?p2 ") = js "gen9ou-1" := by
  decide

/-! ## The operations on a decorated text -/

section Drop

variable {α : Type} {p : α → Bool}

theorem dropWhile_append_stop {ys : List α} (hys : ys.dropWhile p = ys) (xs : List α) :
    (xs ++ ys).dropWhile p = xs.dropWhile p ++ ys := by
  rw [List.dropWhile_append]
  split
  · rename_i h
    rw [hys, List.isEmpty_iff.mp h, List.nil_append]
  · rfl

theorem rdropWhile_append_stop {xs : List α} (hxs : xs.rdropWhile p = xs) (ys : List α) :
    (xs ++ ys).rdropWhile p = xs ++ ys.rdropWhile p := by
  have hstop : xs.reverse.dropWhile p = xs.reverse := by
    rw [← List.reverse_inj, List.reverse_reverse]
    exact hxs
  unfold List.rdropWhile
  rw [List.reverse_append, dropWhile_append_stop hstop, List.reverse_append, List.reverse_reverse]

theorem rdropWhile_append_all {ys : List α} (hys : ∀ y ∈ ys, p y = true) (xs : List α) :
    (xs ++ ys).rdropWhile p = xs.rdropWhile p := by
  unfold List.rdropWhile
  rw [List.reverse_append, List.dropWhile_append, if_pos]
  rw [List.isEmpty_iff, List.dropWhile_eq_nil_iff]
  exact fun y hy => hys y (List.mem_reverse.mp hy)

end Drop

/-- A query, or none. -/
def IsQuery (suffix : JsString) : Prop := suffix = [] ∨ ∃ text, suffix = 63 :: text

/-- A path up to the id, or none: it ends in a slash and has no question mark. -/
def IsPath (pre : JsString) : Prop := (pre = [] ∨ ∃ path, pre = path ++ [47]) ∧ 63 ∉ pre

theorem bounds_of_isWhitespace {u : UInt16} (h : isWhitespace u = true) :
    u.toNat ≤ 32 ∨ 160 ≤ u.toNat := by
  simp only [isWhitespace, Bool.or_eq_true, Bool.and_eq_true, decide_eq_true_eq,
    UInt16.le_iff_toNat_le, List.contains_iff_mem, List.mem_cons, List.not_mem_nil, or_false] at h
  rcases h with (⟨-, h⟩ | ⟨h, -⟩) | h
  · exact Or.inl (Nat.le_trans h (by decide))
  · exact Or.inr (Nat.le_trans (by decide) h)
  · rcases h with rfl | rfl | rfl | rfl | rfl | rfl | rfl | rfl | rfl <;> decide

/-! ## A decorated id -/

section Decorated

variable {pre id slashes : JsString}

theorem not_whitespace_of_safe (hid : isSafeReplayId id = true) :
    ∀ u ∈ id, ¬ isWhitespace u = true := by
  intro u hu hw
  have hunit := bounds_of_isReplayIdUnit (safe_units hid u hu)
  have hspace := bounds_of_isWhitespace hw
  omega

/-- What is left of a path without the white space it begins with. -/
theorem IsPath.dropWhile (h : IsPath pre) : IsPath (pre.dropWhile isWhitespace) := by
  obtain ⟨hshape, hquery⟩ := h
  refine ⟨?_, fun hmem => hquery ((List.dropWhile_suffix _).subset hmem)⟩
  rcases hshape with rfl | ⟨path, rfl⟩
  · exact Or.inl rfl
  · exact Or.inr ⟨path.dropWhile isWhitespace, dropWhile_append_stop (by decide) path⟩

/-- The white space in front goes, and with it the white space a path begins with. -/
theorem dropWhile_decorated (hid : isSafeReplayId id = true) {ws : JsString}
    (hws : ∀ u ∈ ws, isWhitespace u = true) (rest : JsString) :
    (ws ++ (pre ++ (id ++ rest))).dropWhile isWhitespace =
      pre.dropWhile isWhitespace ++ (id ++ rest) := by
  have hfirst : (id ++ rest).dropWhile isWhitespace = id ++ rest := by
    rw [List.dropWhile_append, if_neg]
    · rw [List.dropWhile_eq_self_iff.mpr]
      exact fun hlen => not_whitespace_of_safe hid _ (List.getElem_mem hlen)
    · rw [List.isEmpty_iff, List.dropWhile_eq_nil_iff]
      intro hall
      obtain ⟨u, hu⟩ := List.exists_mem_of_ne_nil _ (safe_ne_nil hid)
      exact not_whitespace_of_safe hid u hu (hall u hu)
  rw [← dropWhile_append_stop hfirst, List.dropWhile_append, if_pos]
  rw [List.isEmpty_iff, List.dropWhile_eq_nil_iff]
  exact hws

/-- The path, the id and the slashes end in no white space. -/
theorem rdropWhile_left (hid : isSafeReplayId id = true) (hslashes : ∀ u ∈ slashes, u = 47) :
    (pre ++ (id ++ slashes)).rdropWhile isWhitespace = pre ++ (id ++ slashes) := by
  have hne : id ++ slashes ≠ [] := fun h => safe_ne_nil hid (List.append_eq_nil_iff.mp h).1
  rw [List.rdropWhile_eq_self_iff]
  intro hl
  rw [List.getLast_append_of_ne_nil hl hne]
  rcases List.mem_append.mp (List.getLast_mem hne) with hmem | hmem
  · exact not_whitespace_of_safe hid _ hmem
  · rw [hslashes _ hmem]
    decide

/-- **Trimming keeps the id**, and a query if there is one. -/
theorem trim_decorated (hpre : IsPath pre) (hid : isSafeReplayId id = true)
    (hslashes : ∀ u ∈ slashes, u = 47) {suffix : JsString} (hsuffix : IsQuery suffix)
    {ws ws' : JsString} (hws : ∀ u ∈ ws, isWhitespace u = true)
    (hws' : ∀ u ∈ ws', isWhitespace u = true) :
    ∃ pre' suffix', IsPath pre' ∧ IsQuery suffix' ∧
      JsString.trim (ws ++ (pre ++ (id ++ (slashes ++ (suffix ++ ws'))))) =
        pre' ++ (id ++ slashes) ++ suffix' := by
  unfold JsString.trim
  rw [dropWhile_decorated hid hws, ← List.append_assoc id, ← List.append_assoc _ (id ++ slashes)]
  rcases hsuffix with rfl | ⟨text, rfl⟩
  · refine ⟨_, [], hpre.dropWhile, Or.inl rfl, ?_⟩
    rw [List.nil_append, rdropWhile_append_all hws', rdropWhile_left hid hslashes, List.append_nil]
  · refine ⟨_, 63 :: (text ++ ws').rdropWhile isWhitespace, hpre.dropWhile, Or.inr ⟨_, rfl⟩, ?_⟩
    have hmark : ([63] : JsString).rdropWhile isWhitespace = [63] := by decide
    rw [List.cons_append, rdropWhile_append_stop (rdropWhile_left hid hslashes),
      ← List.singleton_append, rdropWhile_append_stop hmark, List.singleton_append]

/-- The query goes. -/
theorem splitOn_query {left suffix : JsString} (hleft : 63 ∉ left) (hsuffix : IsQuery suffix) :
    ((left ++ suffix).splitOn 63).head? = some left := by
  rcases hsuffix with rfl | ⟨text, rfl⟩
  · rw [List.append_nil, List.splitOn_eq_singleton hleft, List.head?_cons]
  · rw [List.splitOn_append_cons_self_of_not_mem hleft, List.head?_cons]

/-- The slashes go. -/
theorem withoutTrailingSlashes_left (hid : isSafeReplayId id = true)
    (hslashes : ∀ u ∈ slashes, u = 47) :
    JsString.withoutTrailingSlashes (pre ++ (id ++ slashes)) = pre ++ id := by
  unfold JsString.withoutTrailingSlashes
  rw [← List.append_assoc, rdropWhile_append_all fun u hu => decide_eq_true (hslashes u hu),
    List.rdropWhile_eq_self_iff]
  intro hl hlast
  rw [List.getLast_append_of_ne_nil hl (safe_ne_nil hid), decide_eq_true_eq] at hlast
  exact not_mem_of_safe hid (by decide) (hlast ▸ List.getLast_mem (safe_ne_nil hid))

/-- The path goes. -/
theorem splitOn_path (hpre : IsPath pre) (hid : isSafeReplayId id = true) :
    ((pre ++ id).splitOn 47).getLast? = some id := by
  have hslash : (47 : UInt16) ∉ id := not_mem_of_safe hid (by decide)
  rcases hpre.1 with rfl | ⟨path, rfl⟩
  · rw [List.nil_append, List.splitOn_eq_singleton hslash, List.getLast?_singleton]
  · rw [List.append_assoc, List.singleton_append, List.splitOn_append_cons_self,
      List.splitOn_eq_singleton hslash, List.getLast?_concat]

end Decorated

/-- The body the form sends. -/
def submitBody (replayId : JsString) (perspective : Perspective) (profile : Profile) : JsValue :=
  .obj [(js "replayId", .str replayId), (js "perspective", .str (js perspective.text)),
    (js "profile", .str (js profile.name))]

/-- The API reads back what the form sent. -/
theorem parseSubmitRequest_submitBody {id : JsString} (hid : isSafeReplayId id = true)
    (perspective : Perspective) (profile : Profile) :
    parseSubmitRequest (some (submitBody id perspective profile)) =
      some ⟨id.text, perspective, profile⟩ := by
  have hkeys : js "replayId" ≠ js "perspective" ∧ js "replayId" ≠ js "profile" ∧
      js "perspective" ≠ js "profile" := by decide
  have hperspective : Perspective.ofJs? (js perspective.text) = some perspective := by
    cases perspective <;> decide
  have hprofile : Profile.ofJs? (js profile.name) = some profile := by
    cases profile <;> decide
  unfold isSafeReplayId at hid
  simp [parseSubmitRequest, submitBody, fieldOf, hkeys, hid, hperspective, hprofile]

/-- **Pasted links resolve to their id**, and the API accepts what the form makes of them. -/
theorem parseReplayId_link {pre id slashes suffix ws ws' : JsString} (hpre : IsPath pre)
    (hid : isSafeReplayId id = true) (hslashes : ∀ u ∈ slashes, u = 47)
    (hsuffix : IsQuery suffix) (hws : ∀ u ∈ ws, isWhitespace u = true)
    (hws' : ∀ u ∈ ws', isWhitespace u = true) :
    parseReplayId (ws ++ pre ++ id ++ slashes ++ suffix ++ ws') = id ∧
    ∀ perspective profile, parseSubmitRequest (some (submitBody
      (parseReplayId (ws ++ pre ++ id ++ slashes ++ suffix ++ ws')) perspective profile)) =
        some ⟨id.text, perspective, profile⟩ := by
  have hlink : parseReplayId (ws ++ pre ++ id ++ slashes ++ suffix ++ ws') = id := by
    obtain ⟨pre', suffix', hpre', hsuffix', htrim⟩ :=
      trim_decorated hpre hid hslashes hsuffix hws hws'
    have hleft : (63 : UInt16) ∉ pre' ++ (id ++ slashes) := by
      simp only [List.mem_append, not_or]
      exact ⟨hpre'.2, not_mem_of_safe hid (by decide), fun h => absurd (hslashes _ h) (by decide)⟩
    simp only [List.append_assoc ws, List.append_assoc pre, List.append_assoc id,
      List.append_assoc slashes]
    simp only [parseReplayId, htrim, splitOn_query hleft hsuffix', Option.getD_some,
      withoutTrailingSlashes_left hid hslashes, splitOn_path hpre' hid]
  rw [hlink]
  exact ⟨rfl, parseSubmitRequest_submitBody hid⟩

/-- A link with a slash before the query and one in it. -/
theorem parseReplayId_link_query :
    parseReplayId (js " \n" ++ js "https://replay.pokemonshowdown.com/" ++ js "gen9ou-1" ++
      js "//" ++ js "?next=a/b" ++ js " ") = js "gen9ou-1" :=
  (parseReplayId_link ⟨Or.inr ⟨js "https://replay.pokemonshowdown.com", by decide⟩, by decide⟩
    (by decide) (List.all_iff_forall_prop.mp (by decide)) (Or.inr ⟨js "next=a/b", by decide⟩)
    (List.all_eq_true.mp (by decide)) (List.all_eq_true.mp (by decide))).1

end BattleCloud
