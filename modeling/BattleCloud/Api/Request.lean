import BattleCloud.Api.Estimate
import BattleCloud.Api.Fetch
import BattleCloud.Lib.Url

/-!
# Where the request goes

`fetchReplay` with the URLs it calls `deps.fetch` with; `new URL` is the resolution of `Lib/Url`,
and what a text without a base parses to is a parameter of it. `requestReplay_fst` connects it to
the `fetchReplay` of the failures.

`fetchReplay_confined`: an id is one segment below the directory of the base URL, or nothing is
requested; and the submission's schema accepts exactly the ids of the predicate.
-/

namespace BattleCloud

section

variable (basic : Option Url → List Char → Option Url) (baseUrl : JsString)

/-- `new URL(path, deps.baseUrl)`. -/
def newURL (path : JsString) : Option Url := Url.construct basic path.chars baseUrl.chars

/-- `fetchReplay`, and the URLs of its calls of `deps.fetch`. -/
def requestReplay (deps : ReplayDeps) (replayId : JsString) (fetch : Url → FetchBehaviour) :
    Except Failure FetchedReplay × List Url :=
  if safe : isSafeReplayId replayId = true then
    match newURL basic baseUrl (replayId ++ js ".json") with
    | none => (.error (.unclassified invalidUrl), [])
    | some url =>
      match fetch url with
      | .rejects cause _ => (.error (rejected deps cause), [url])
      | .responds response => (receive deps replayId safe url.href response, [url])
  else
    (.error (.replayFetchError .invalidReplayId
      (js "unsafe replay id: " ++ jsonQuote replayId)), [])

/-- Its result is that of `fetchReplay`. -/
theorem requestReplay_fst (deps : ReplayDeps) (replayId : JsString)
    (fetch : Url → FetchBehaviour) {behaviour : FetchBehaviour}
    (hfetch : ∀ url, newURL basic baseUrl (replayId ++ js ".json") = some url →
      fetch url = behaviour) :
    (requestReplay basic baseUrl deps replayId fetch).1 = fetchReplay
      { deps with newUrl := fun path => (newURL basic baseUrl path).map Url.href }
      replayId behaviour := by
  unfold requestReplay fetchReplay
  by_cases safe : isSafeReplayId replayId = true
  · simp only [safe, dite_true]
    cases hurl : newURL basic baseUrl (replayId ++ js ".json") with
    | none => rfl
    | some url =>
      simp only [Option.map_some, hfetch url hurl]
      cases behaviour with
      | rejects cause expired => rfl
      | responds response => rfl
  · rw [dif_neg safe, dif_neg safe]

end

/-! ## The text of an id -/

/-- Every unit of a safe id is plain. -/
theorem isPlain_of_isReplayIdUnit {u : UInt16} (h : isReplayIdUnit u = true) :
    Url.isPlain (Char.ofNat u.toNat) = true := by
  have hall : ∀ n < 123, isReplayIdUnit (UInt16.ofNat n) = true →
      Url.isPlain (Char.ofNat n) = true := by decide
  have hbounds := bounds_of_isReplayIdUnit h
  refine hall u.toNat (by omega) ?_
  rw [UInt16.ofNat_toNat]
  exact h

section

variable {s : JsString} (h : isSafeReplayId s = true)

include h

theorem jsonPath_units : ∀ u ∈ s ++ js ".json", isReplayIdUnit u = true :=
  List.forall_mem_append.mpr ⟨safe_units h, List.all_eq_true.mp (by decide)⟩

/-- `${replayId}.json` as characters. -/
theorem jsonPath_chars :
    JsString.chars (s ++ js ".json") = (s ++ js ".json").map fun u => Char.ofNat u.toNat :=
  JsString.chars_basic fun u hu => by
    have := bounds_of_isReplayIdUnit (jsonPath_units h u hu)
    omega

theorem jsonPath_plain : ∀ c ∈ JsString.chars (s ++ js ".json"), Url.isPlain c = true := by
  rw [jsonPath_chars h]
  intro c hc
  obtain ⟨u, hu, rfl⟩ := List.mem_map.mp hc
  exact isPlain_of_isReplayIdUnit (jsonPath_units h u hu)

theorem jsonPath_segment :
    (JsString.chars (s ++ js ".json")).map (fun c => UInt16.ofNat c.toNat) = s ++ js ".json" := by
  rw [jsonPath_chars h, List.map_map]
  refine (List.map_congr_left fun u hu => ?_).trans (List.map_id _)
  have hbounds := bounds_of_isReplayIdUnit (jsonPath_units h u hu)
  have hchar : (Char.ofNat u.toNat).toNat = u.toNat := Utf16.toNat_ofNat (Or.inl (by omega))
  rw [Function.comp, hchar, UInt16.ofNat_toNat, id]

end

/-- The suffix keeps every id from being a dot segment. -/
theorem jsonPath_noDots (s : JsString) :
    Url.isSingleDot (s ++ js ".json") = false ∧ Url.isDoubleDot (s ++ js ".json") = false := by
  have hlast : (s ++ js ".json").getLast? = some 110 := by
    rw [List.getLast?_append]
    rfl
  have hdots : ∀ {dots : List String}, (∀ d ∈ dots, (Url.ascii d).getLast? ≠ some 110) →
      (dots.any (s ++ js ".json" = Url.ascii ·)) = false := by
    intro dots hne
    rw [List.any_eq_false]
    intro d hd
    rw [decide_eq_true_eq]
    intro he
    rw [he] at hlast
    exact hne d hd hlast
  exact ⟨hdots (by decide), hdots (by decide)⟩

/-! ## The request -/

/-- An `http` or `https` URL without query and fragment whose path ends in `/`. -/
structure IsDirectory (base : Url) : Prop where
  scheme : base.scheme = Url.ascii "http" ∨ base.scheme = Url.ascii "https"
  query : base.query = none
  fragment : base.fragment = none
  path : base.path.getLast? = some []

/-- What the request for `s` may be. -/
structure Confined (base : Url) (s : JsString) (url : Url) : Prop where
  scheme : url.scheme = base.scheme
  host : url.host = base.host
  port : url.port = base.port
  query : url.query = none
  fragment : url.fragment = none
  /-- The path of the base, followed by exactly `s + '.json'`. -/
  path : Url.pathText url.path = Url.pathText base.path ++ s ++ js ".json"
  href : url.href = base.origin ++ Url.pathText base.path ++ s ++ js ".json"

theorem not_file {base : Url} (h : IsDirectory base) : base.scheme ≠ Url.ascii "file" := by
  rcases h.scheme with he | he <;> rw [he] <;> decide

theorem pathText_append (path : List (List UInt16)) (segment : List UInt16) :
    Url.pathText (path ++ [segment]) = Url.pathText path ++ 47 :: segment := by
  unfold Url.pathText
  rw [List.flatMap_append, List.flatMap_singleton]

/-- The part in front of the path does not change with the last segment. -/
theorem origin_of_segment (base : Url) (dir : List (List UInt16)) (segment segment' : List UInt16) :
    Url.origin { base with path := dir ++ [segment], query := none, fragment := none } =
      Url.origin { base with path := dir ++ [segment'] } := by
  have hdots : (1 < (dir ++ [segment]).length ∧ (dir ++ [segment]).head? = some []) ↔
      (1 < (dir ++ [segment']).length ∧ (dir ++ [segment']).head? = some []) := by
    cases dir <;> simp
  unfold Url.origin
  cases base.host with
  | some host => rfl
  | none => simp only [hdots]

section

variable {basic : Option Url → List Char → Option Url} {baseUrl : JsString} {base : Url}
  (hparse : basic none baseUrl.chars = some base) (hbase : IsDirectory base)
  {s : JsString} (h : isSafeReplayId s = true)

include hparse hbase h

/-- The id's URL. -/
theorem newURL_confined :
    ∃ url, newURL basic baseUrl (s ++ js ".json") = some url ∧ Confined base s url := by
  obtain ⟨dir, hdir⟩ := List.getLast?_eq_some_iff.mp hbase.path
  have hne : JsString.chars (s ++ js ".json") ≠ [] := by
    intro he
    have hsegment := jsonPath_segment h
    rw [he] at hsegment
    exact List.append_ne_nil_of_right_ne_nil s (by decide) hsegment.symm
  have hresolve := Url.resolve_plain hne (jsonPath_plain h) (jsonPath_segment h)
    (jsonPath_noDots s).1 (jsonPath_noDots s).2 basic (not_file hbase)
  have hpath : Url.pathText (base.path.dropLast ++ [s ++ js ".json"]) =
      Url.pathText base.path ++ s ++ js ".json" := by
    rw [hdir, List.dropLast_concat, pathText_append, pathText_append]
    simp
  have horigin : Url.origin { base with
      path := base.path.dropLast ++ [s ++ js ".json"], query := none, fragment := none } =
      base.origin := by
    have hsegment := origin_of_segment base dir (s ++ js ".json") []
    rw [← hdir] at hsegment
    rw [hdir, List.dropLast_concat, hsegment]
  refine ⟨{ base with
    path := base.path.dropLast ++ [s ++ js ".json"], query := none, fragment := none }, ?_, rfl,
    rfl, rfl, rfl, rfl, hpath, ?_⟩
  · rw [newURL, Url.construct, hparse, Option.bind_some, hresolve]
  · rw [Url.href, hpath, horigin]
    simp

/-- **The one request for a safe id.** -/
theorem requestReplay_confined (deps : ReplayDeps) (fetch : Url → FetchBehaviour) :
    ∃ url, (requestReplay basic baseUrl deps s fetch).2 = [url] ∧ Confined base s url := by
  obtain ⟨url, hurl, hconfined⟩ := newURL_confined hparse hbase h
  refine ⟨url, ?_, hconfined⟩
  unfold requestReplay
  simp only [h, dite_true, hurl]
  split <;> rfl

end

/-! ## The schema -/

theorem Perspective.ofJs?_isSome {s : JsString} :
    (Perspective.ofJs? s).isSome = true ↔ ∃ p : Perspective, s = js p.text := by
  unfold Perspective.ofJs?
  constructor
  · intro h
    split at h
    · rename_i hs
      exact ⟨.p1, hs⟩
    · split at h
      · rename_i hs
        exact ⟨.p2, hs⟩
      · cases h
  · rintro ⟨p, rfl⟩
    cases p <;> decide

theorem Profile.ofJs?_isSome {s : JsString} :
    (Profile.ofJs? s).isSome = true ↔ ∃ p : Profile, s = js p.name := by
  unfold Profile.ofJs?
  constructor
  · intro h
    split at h
    · rename_i hs
      exact ⟨.ladderParity, hs⟩
    · split at h
      · rename_i hs
        exact ⟨.quick, hs⟩
      · cases h
  · rintro ⟨p, rfl⟩
    cases p <;> decide

/-- What `SubmitRequestSchema` asks of a body beside its replay id. -/
structure OtherFieldsValid (fields : List (JsString × JsValue)) : Prop where
  strict : ∀ f ∈ fields, f.1 ∈ [js "replayId", js "perspective", js "profile"]
  perspective : ∃ p : Perspective, fieldOf fields "perspective" = some (.str (js p.text))
  profile : fieldOf fields "profile" = none ∨
    ∃ p : Profile, fieldOf fields "profile" = some (.str (js p.name))

/-- **A body with the id `s` is accepted exactly if `s` is safe and the rest is in order.** -/
theorem parseSubmitRequest_isSome {fields : List (JsString × JsValue)} {s : JsString}
    (hid : fieldOf fields "replayId" = some (.str s)) :
    (parseSubmitRequest (some (.obj fields))).isSome = true ↔
      isSafeReplayId s = true ∧ OtherFieldsValid fields := by
  have hkeys : (fields.all fun f =>
      [js "replayId", js "perspective", js "profile"].contains f.1) = true ↔
      ∀ f ∈ fields, f.1 ∈ [js "replayId", js "perspective", js "profile"] := by
    simp only [List.all_eq_true, List.contains_iff_mem]
  constructor
  · intro h
    rw [parseSubmitRequest] at h
    split at h
    · rename_i hstrict
      split at h
      · rename_i replayId perspective profile hreplayId hperspective hprofile
        rw [hid] at hreplayId
        cases hreplayId
        split at h
        · rename_i hsafe
          rw [Option.isSome_bind, Option.any_eq_true_iff_get] at h
          obtain ⟨hp, h⟩ := h
          rw [Option.isSome_map, Profile.ofJs?_isSome] at h
          obtain ⟨p, rfl⟩ := Perspective.ofJs?_isSome.mp hp
          obtain ⟨q, rfl⟩ := h
          refine ⟨hsafe, hkeys.mp hstrict, ⟨p, hperspective⟩, ?_⟩
          cases hfield : fieldOf fields "profile" with
          | none => exact Or.inl rfl
          | some v =>
            rw [hfield, Option.getD_some] at hprofile
            exact Or.inr ⟨q, congrArg some hprofile⟩
        · cases h
      · cases h
    · cases h
  · rintro ⟨hsafe, hstrict, ⟨p, hp⟩, hprofile⟩
    have hq : ∃ q : Profile, (fieldOf fields "profile").getD (.str (js "ladder-parity")) =
        .str (js q.name) := by
      rcases hprofile with hnone | ⟨q, hq⟩
      · exact ⟨.ladderParity, by rw [hnone]; rfl⟩
      · exact ⟨q, by rw [hq]; rfl⟩
    obtain ⟨q, hq⟩ := hq
    obtain ⟨perspective, hperspective⟩ :=
      Option.isSome_iff_exists.mp (Perspective.ofJs?_isSome.mpr ⟨p, rfl⟩)
    obtain ⟨profile, hprofile⟩ :=
      Option.isSome_iff_exists.mp (Profile.ofJs?_isSome.mpr ⟨q, rfl⟩)
    unfold isSafeReplayId at hsafe
    simp only [parseSubmitRequest, hkeys.mpr hstrict, hid, hp, hq, hsafe, hperspective, hprofile,
      if_true, Option.bind_some, Option.map_some, Option.isSome_some]

/-! ## The headline -/

/-- Different ids below one base are different URLs. -/
theorem Confined.href_ne {base url url' : Url} {s t : JsString} (hs : Confined base s url)
    (ht : Confined base t url') (hne : s ≠ t) : url.href ≠ url'.href := by
  rw [hs.href, ht.href]
  intro h
  exact hne (List.append_cancel_left (List.append_cancel_right h))

/-- **Replay ids are confined to one path segment.** Below a directory, a safe id requests the
directory's path followed by the id and `.json`, different ids different URLs; any other id
requests nothing, and the submission's schema takes exactly the safe ones. -/
theorem fetchReplay_confined {basic : Option Url → List Char → Option Url} {baseUrl : JsString}
    {base : Url} (hparse : basic none baseUrl.chars = some base) (hbase : IsDirectory base)
    (deps : ReplayDeps) (fetch : Url → FetchBehaviour) (s : JsString) :
    (isSafeReplayId s = true →
      ∃ url, (requestReplay basic baseUrl deps s fetch).2 = [url] ∧ Confined base s url ∧
        ∀ t, isSafeReplayId t = true → s ≠ t →
          ∃ url', (requestReplay basic baseUrl deps t fetch).2 = [url'] ∧ url.href ≠ url'.href) ∧
    (isSafeReplayId s = false → (requestReplay basic baseUrl deps s fetch).2 = []) ∧
    ∀ fields, fieldOf fields "replayId" = some (.str s) →
      ((parseSubmitRequest (some (.obj fields))).isSome = true ↔
        isSafeReplayId s = true ∧ OtherFieldsValid fields) := by
  refine ⟨fun hs => ?_, fun hs => ?_, fun fields hid => parseSubmitRequest_isSome hid⟩
  · obtain ⟨url, hcall, hconfined⟩ := requestReplay_confined hparse hbase hs deps fetch
    refine ⟨url, hcall, hconfined, fun t ht hne => ?_⟩
    obtain ⟨url', hcall', hconfined'⟩ := requestReplay_confined hparse hbase ht deps fetch
    exact ⟨url', hcall', hconfined.href_ne hconfined' hne⟩
  · unfold requestReplay
    rw [dif_neg (Bool.eq_false_iff.mp hs)]

namespace Sample

/-- `DEFAULT_BASE_URL`. -/
def baseUrl : JsString := js "https://replay.pokemonshowdown.com/"

def base : Url :=
  { scheme := Url.ascii "https", username := [], password := []
    host := some (Url.ascii "replay.pokemonshowdown.com"), port := none, path := [[]]
    query := none, fragment := none }

/-- A parser that knows the default base URL only. -/
def basic (base? : Option Url) (input : List Char) : Option Url :=
  if base? = none ∧ input = baseUrl.chars then some base else none

end Sample

/-- An id of the default host. -/
theorem fetchReplay_confined_default :
    let request (s : JsString) :=
      (requestReplay Sample.basic Sample.baseUrl Sample.replayDeps s fun _ => Sample.brokenBody).2
    let s := js "gen9ou-2672899958"
    (isSafeReplayId s = true →
      ∃ url, request s = [url] ∧ Confined Sample.base s url ∧
        ∀ t, isSafeReplayId t = true → s ≠ t → ∃ url', request t = [url'] ∧ url.href ≠ url'.href) ∧
    (isSafeReplayId s = false → request s = []) ∧
    ∀ fields, fieldOf fields "replayId" = some (.str s) →
      ((parseSubmitRequest (some (.obj fields))).isSome = true ↔
        isSafeReplayId s = true ∧ OtherFieldsValid fields) :=
  fetchReplay_confined (by decide) ⟨Or.inr rfl, rfl, rfl, rfl⟩ Sample.replayDeps
    (fun _ => Sample.brokenBody) (js "gen9ou-2672899958")

end BattleCloud
