import BattleCloud.Contract.IdentityKey
import BattleCloud.Fleet.Provenance
import BattleCloud.Lib.Url
import BattleCloud.Web.SubmitForm

/-!
# The pages behind the hash

`useRoute` and `App` of `web/src/app.tsx`, the two lookups of the API, `request` and the two calls
of `web/src/api.ts` that get their answers, and `AnalysisView` of
`web/src/components/analysis.tsx`.

`permalink_stable`: the link to an analysis leads to its page, and from the moment its row is
written the page shows this analysis, whatever the fleet does: with the id, the identity and the
time it had then, and a document computed for that identity.
-/

namespace BattleCloud

/-! ## Routes -/

/-- `text.replace(/^#/, '')`. -/
def withoutHash : JsString → JsString
  | [] => []
  | u :: text => if u = 35 then text else u :: text

/-- `window.location.hash` after `window.location.hash = next`. -/
def locationHash (next : JsString) : JsString :=
  let fragment := Percent.encode Url.keepFragment
    ((withoutHash next).text.toList.filter (!Url.isRemoved ·))
  if fragment = [] then [] else 35 :: fragment

/-- The route of a hash. -/
def routeOf (hash : JsString) : JsString :=
  if withoutHash hash = [] then js "/" else withoutHash hash

/-- `[\w-]`. -/
def isWordOrHyphen (u : UInt16) : Bool :=
  (65 ≤ u.toNat && u.toNat ≤ 90) || (97 ≤ u.toNat && u.toNat ≤ 122) ||
    (48 ≤ u.toNat && u.toNat ≤ 57) || u = 95 || u = 45

/-- What `([\w-]+)$` matches behind a path. -/
def routeId (path route : JsString) : Option JsString :=
  let id := route.drop path.length
  if path.isPrefixOf route && !id.isEmpty && id.all isWordOrHyphen then some id else none

inductive Page where
  | analysis (analysisId : JsString)
  | job (jobId : JsString)
  | home
  deriving DecidableEq

/-- What `App` shows for a route. -/
def pageOfRoute (route : JsString) : Page :=
  match routeId (js "/a/") route, routeId (js "/j/") route with
  | some analysisId, _ => .analysis analysisId
  | none, some jobId => .job jobId
  | none, none => .home

/-- The page after `navigate(next)`. -/
def navigate (next : JsString) : Page := pageOfRoute (routeOf (locationHash next))

example : navigate (js "#/a/b-1") = .analysis (js "b-1") ∧ navigate (js "/a/b c") = .home := by
  decide

/-! ## Lookups -/

/-- A parameter of a path, as the router gives it to the handler. -/
def pathParam (segment : JsString) : String :=
  String.ofList (Utf8.decodeFrom none (Percent.decode segment))

/-- `store.analysisById(..).catch(() => null)`. -/
def lookupAnalysis (db : Db) (fault : Bool) (analysisId : String) : Option StoredAnalysis :=
  if fault then none else (uuidParam analysisId).bind (analysisById db)

/-- `store.jobById(..).catch(() => null)`. -/
def lookupJob (db : Db) (fault : Bool) (jobId : String) : Option StoredJob :=
  if fault then none else (uuidParam jobId).bind (jobById db)

/-- Either lookup ends in a 200 with the row, or in a 404 with this text. -/
def Host.sendFound {α : Type} (host : Host) (found : α → ApiResponse) (missing : String) :
    Option α → ApiResponse
  | some row => found row
  | none => host.sendError (BattleCloud.fail .analysisNotFound (js missing))

/-- `GET /v1/analyses/:analysisId`. -/
def Host.sendAnalysis (host : Host) (db : Db) (fault : Bool) (analysisId : String) : ApiResponse :=
  host.sendFound host.sendEnvelope ("no analysis " ++ analysisId)
    (lookupAnalysis db fault analysisId)

/-- `GET /v1/jobs/:jobId`. -/
def Host.sendJob (host : Host) (db : Db) (fault : Bool) (jobId : String) : ApiResponse :=
  host.sendFound (fun job => host.send 200 (jobView job).toJs) ("no job " ++ jobId)
    (lookupJob db fault jobId)

/-! ## Their answers -/

/-- `request`; a `fetch` that rejects is `none`. -/
def request (number : JsString → JsNumber) : Option ApiResponse → Except ClientError JsValue
  | none => .error unreachable
  | some response =>
    match response.body.bind fun body =>
      let text := Utf8.decodeText body
      if text = [] then some .null else jsonParse number text with
    | none => .error .runtime
    | some payload =>
      if !response.ok then .error (apiError response (optionalProperty (some payload) "error"))
      else .ok payload

/-- A `GET` of a path that ends in this id. -/
def apiGet (number : JsString → JsNumber) (handler : String → ApiResponse) (delivery : Delivery)
    (id : JsString) : Except ClientError JsValue :=
  match encodeURIComponent id with
  | none => .error .runtime
  | some segment => request number (delivery.fetch (handler (pathParam segment)))

def getAnalysis (host : Host) (db : Db) (fault : Bool) (delivery : Delivery) :
    JsString → Except ClientError JsValue :=
  apiGet host.number (host.sendAnalysis db fault) delivery

def getJob (host : Host) (db : Db) (fault : Bool) (delivery : Delivery) :
    JsString → Except ClientError JsValue :=
  apiGet host.number (host.sendJob db fault) delivery

inductive AnalysisView where
  | loading
  | error (message : JsString)
  | envelope (envelope : JsValue)

/-- `AnalysisView`, once `getAnalysis` has settled. -/
def analysisView : Except ClientError JsValue → AnalysisView
  | .ok .null => .loading
  | .ok envelope => .envelope envelope
  | .error _ => .error (js "No analysis with that id.")

/-! ## Texts of a route -/

theorem js_append (s t : String) : js (s ++ t) = js s ++ js t := by
  unfold js
  rw [String.toList_append, Utf16.encode, List.flatMap_append]
  rfl

/-- Characters that stay as they are in a fragment. -/
theorem bounds_of_keepFragment {c : Char} (h : Url.keepFragment c = true) :
    0x20 ≤ c.toNat ∧ c.toNat ≤ 0x7E := by
  simp only [Url.keepFragment, Url.isPrintable, Bool.and_eq_true, decide_eq_true_eq] at h
  exact h.1

theorem encode_kept {keep : Char → Bool} (hkeep : ∀ c, keep c = true → c.toNat < 128)
    {cs : List Char} (h : ∀ c ∈ cs, keep c = true) : Percent.encode keep cs = Utf16.encode cs := by
  unfold Percent.encode Utf16.encode
  refine List.flatMap_congr fun c hc => ?_
  have hlt := hkeep c (h c hc)
  rw [Percent.encodeChar_keep (h c hc), Utf16.encodeChar, if_pos (by omega)]

/-- **A plain route is what `navigate` was given.** -/
theorem routeOf_locationHash {route : String} (hne : js route ≠ [])
    (hhash : withoutHash (js route) = js route)
    (hkeep : ∀ c ∈ route.toList, Url.keepFragment c = true) :
    routeOf (locationHash (js route)) = js route := by
  have hall : ∀ c ∈ route.toList, (!Url.isRemoved c) = true := by
    intro c hc
    have hbounds := bounds_of_keepFragment (hkeep c hc)
    rw [Bool.not_eq_true', Bool.eq_false_iff]
    intro hremoved
    simp only [Url.isRemoved, Bool.or_eq_true, decide_eq_true_eq] at hremoved
    rcases hremoved with (rfl | rfl) | rfl <;> exact absurd hbounds.1 (by decide)
  have hfragment : Percent.encode Url.keepFragment
      ((withoutHash (js route)).text.toList.filter (!Url.isRemoved ·)) = js route := by
    rw [hhash, JsString.text_js, List.filter_eq_self.mpr hall]
    exact encode_kept (fun c hc => by have := bounds_of_keepFragment hc; omega) hkeep
  have hdrop : withoutHash (35 :: js route) = js route := by
    rw [withoutHash, if_pos rfl]
  unfold locationHash
  dsimp only
  rw [hfragment, if_neg hne, routeOf, hdrop, if_neg hne]

/-- A character of a `uuid` is a digit or a hyphen. -/
theorem bounds_of_uuidChar {c : Char} (h : (hexVal c).isSome || c = '-') :
    c.toNat = 45 ∨ (48 ≤ c.toNat ∧ c.toNat ≤ 57) ∨ (65 ≤ c.toNat ∧ c.toNat ≤ 70) ∨
      (97 ≤ c.toNat ∧ c.toNat ≤ 102) := by
  have hdigit : ∀ a b : Char, a ≤ c ∧ c ≤ b → a.toNat ≤ c.toNat ∧ c.toNat ≤ b.toNat :=
    fun a b h => h
  rw [Bool.or_eq_true, decide_eq_true_eq] at h
  rcases h with h | rfl
  · unfold hexVal at h
    split at h
    · rename_i hd
      exact Or.inr (Or.inl (hdigit _ _ hd))
    · split at h
      · rename_i hd
        exact Or.inr (Or.inr (Or.inr (hdigit _ _ hd)))
      · split at h
        · rename_i hd
          exact Or.inr (Or.inr (Or.inl (hdigit _ _ hd)))
        · cases h
  · exact Or.inl rfl

section

variable (u : Uuid)

theorem uuidText_bounds : ∀ c ∈ (uuidText u).toList, c.toNat = 45 ∨
    (48 ≤ c.toNat ∧ c.toNat ≤ 57) ∨ (65 ≤ c.toNat ∧ c.toNat ≤ 70) ∨
    (97 ≤ c.toNat ∧ c.toNat ≤ 102) := by
  intro c hc
  rw [uuidText, String.toList_ofList] at hc
  exact bounds_of_uuidChar (mem_uuidChars hc)

theorem uuidText_keepFragment : ∀ c ∈ (uuidText u).toList, Url.keepFragment c = true := by
  intro c hc
  have hbounds := uuidText_bounds u c hc
  have hmarks : ∀ m ∈ " \"<>`".toList, m.toNat ≤ 34 ∨ m.toNat = 60 ∨ m.toNat = 62 ∨
      m.toNat = 96 := List.all_iff_forall_prop.mp (by decide)
  have hnot : " \"<>`".toList.contains c = false := by
    rw [← Bool.not_eq_true, List.contains_iff_mem]
    intro hmem
    have hmark := hmarks c hmem
    omega
  simp only [Url.keepFragment, Url.isPrintable, hnot, Bool.not_false, Bool.and_true,
    Bool.and_eq_true, decide_eq_true_eq]
  omega

theorem uuidText_unescaped : ∀ c ∈ (uuidText u).toList, isUnescaped c = true := by
  intro c hc
  have hbounds := uuidText_bounds u c hc
  by_cases hhyphen : c.toNat = 45
  · obtain rfl : c = '-' := Char.toNat_inj.mp hhyphen
    decide
  · simp only [isUnescaped, Bool.or_eq_true, Bool.and_eq_true, decide_eq_true_eq]
    omega

/-- The units of the text of a `uuid`. -/
theorem js_uuidText : js (uuidText u) =
    (uuidText u).toList.map fun c => UInt16.ofNat c.toNat := by
  have hchar : ∀ c ∈ (uuidText u).toList, Utf16.encodeChar c = [UInt16.ofNat c.toNat] := by
    intro c hc
    have hbounds := uuidText_bounds u c hc
    rw [Utf16.encodeChar, if_pos (by omega)]
  unfold js Utf16.encode
  rw [List.flatMap_congr hchar, List.map_eq_flatMap]

theorem uuidText_word : (js (uuidText u)).all isWordOrHyphen = true := by
  rw [js_uuidText, List.all_map, List.all_eq_true]
  intro c hc
  have hbounds := uuidText_bounds u c hc
  have hunit : (UInt16.ofNat c.toNat).toNat = c.toNat := Utf16.unit_toNat (by omega)
  by_cases hhyphen : c.toNat = 45
  · obtain rfl : c = '-' := Char.toNat_inj.mp hhyphen
    decide
  · simp only [Function.comp, isWordOrHyphen, hunit, Bool.or_eq_true, Bool.and_eq_true,
      decide_eq_true_eq]
    omega

theorem js_uuidText_ne_nil : js (uuidText u) ≠ [] := by
  rw [js_uuidText, uuidText, String.toList_ofList]
  exact nofun

/-- **The links of the pages lead where they say.** -/
theorem navigate_uuid : navigate (js "/a/" ++ js (uuidText u)) = .analysis (js (uuidText u)) ∧
    navigate (js "/j/" ++ js (uuidText u)) = .job (js (uuidText u)) := by
  have hroute : ∀ path ∈ ["/a/", "/j/"],
      routeOf (locationHash (js path ++ js (uuidText u))) = js path ++ js (uuidText u) := by
    intro path hpath
    rw [← js_append]
    refine routeOf_locationHash ?_ ?_ ?_
    · rw [js_append]
      exact fun h => js_uuidText_ne_nil u (List.append_eq_nil_iff.mp h).2
    · rw [js_append]
      simp only [List.mem_cons, List.not_mem_nil, or_false] at hpath
      rcases hpath with rfl | rfl <;> rfl
    · rw [String.toList_append]
      intro c hc
      rcases List.mem_append.mp hc with hc | hc
      · simp only [List.mem_cons, List.not_mem_nil, or_false] at hpath
        rcases hpath with rfl | rfl
        · exact List.all_eq_true.mp (by decide : "/a/".toList.all Url.keepFragment = true) c hc
        · exact List.all_eq_true.mp (by decide : "/j/".toList.all Url.keepFragment = true) c hc
      · exact uuidText_keepFragment u c hc
  have hid : ∀ path, routeId path (path ++ js (uuidText u)) = some (js (uuidText u)) := by
    intro path
    have hprefix : path.isPrefixOf (path ++ js (uuidText u)) = true :=
      List.isPrefixOf_iff_prefix.mpr (List.prefix_append _ _)
    have hne : (js (uuidText u)).isEmpty = false :=
      List.isEmpty_eq_false_iff.mpr (js_uuidText_ne_nil u)
    unfold routeId
    dsimp only
    rw [List.drop_left' rfl, hprefix, hne, uuidText_word]
    rfl
  have hother : routeId (js "/a/") (js "/j/" ++ js (uuidText u)) = none := rfl
  unfold navigate
  constructor
  · rw [hroute _ (List.mem_cons_self ..), pageOfRoute, hid]
  · rw [hroute _ (List.mem_cons_of_mem _ (List.mem_cons_self ..)), pageOfRoute, hid, hother]

end

/-! ## The answers to a link -/

theorem pathParam_encode {id segment : JsString} (h : encodeURIComponent id = some segment) :
    pathParam segment = id.text := by
  unfold encodeURIComponent at h
  split at h
  · rename_i hwell
    obtain ⟨cs, hcs⟩ := Utf16.wellFormed_iff.mp hwell
    obtain rfl := Option.some.inj h
    have hkeep : ∀ c, isUnescaped c = true → c.toNat < 128 ∧ c ≠ '%' :=
      fun c hc => ⟨(bounds_of_isUnescaped hc).1, (bounds_of_isUnescaped hc).2.1⟩
    rw [pathParam, Percent.decode_encode hkeep, Utf8.decodeFrom_encode, JsString.text,
      Utf16.lossy, hcs, List.filterMap_map, List.map_map]
    simp [Function.comp_def]
  · cases h

theorem encodeURIComponent_uuidText (u : Uuid) :
    encodeURIComponent (js (uuidText u)) = some (js (uuidText u)) := by
  have hwell : Utf16.wellFormed (js (uuidText u)) = true :=
    Utf16.wellFormed_iff.mpr ⟨_, Utf16.decode_encode _⟩
  have hchars : (Utf16.decode (js (uuidText u))).filterMap id = (uuidText u).toList := by
    rw [js, Utf16.decode_encode, List.filterMap_map]
    exact List.filterMap_some
  rw [encodeURIComponent, if_pos hwell, hchars,
    encode_kept (fun c hc => (bounds_of_isUnescaped hc).1) (uuidText_unescaped u)]
  rfl

theorem apiGet_uuid (number : JsString → JsNumber) (handler : String → ApiResponse)
    (delivery : Delivery) (u : Uuid) : apiGet number handler delivery (js (uuidText u)) =
      request number (delivery.fetch (handler (uuidText u))) := by
  have hparam := pathParam_encode (encodeURIComponent_uuidText u)
  rw [JsString.text_js] at hparam
  unfold apiGet
  rw [encodeURIComponent_uuidText]
  dsimp only
  rw [hparam]

theorem request_not_ok (number : JsString → JsNumber) {response : ApiResponse}
    (h : response.ok = false) : ∃ cause, request number (some response) = .error cause := by
  unfold request
  dsimp only
  split
  · exact ⟨_, rfl⟩
  · rw [h]
    exact ⟨_, rfl⟩

/-- The body of a 200 is got as it was sent. -/
theorem request_sent (host : Host) {body : JsValue} (h : body.distinctKeys = true) :
    request host.number (some (host.send 200 body)) = .ok (body.reread host.number) := by
  have hread := host.read_send 200 h
  rw [Host.send, Option.bind_some] at hread
  have hne : Utf8.decodeText (Utf8.encodeText body.stringify) ≠ [] := by
    intro hempty
    rw [hempty] at hread
    cases hread
  unfold request
  dsimp only [Host.send, Option.bind_some]
  rw [if_neg hne, hread]
  rfl

theorem request_missing (host : Host) {α : Type} (found : α → ApiResponse) (missing : String) :
    ∃ cause, request host.number (some (host.sendFound found missing none)) = .error cause :=
  request_not_ok _ (by
    have hstatus := fail_status .analysisNotFound
    simp [Host.sendFound, Host.sendError, BattleCloud.fail, Host.send, ApiResponse.ok, hstatus])

/-- What does not get through is an error of the caller. -/
theorem request_undelivered (number : JsString → JsNumber) {delivery : Delivery}
    (h : delivery ≠ .delivered) (response : ApiResponse) :
    ∃ cause, request number (delivery.fetch response) = .error cause := by
  cases delivery with
  | unreachable => exact ⟨_, rfl⟩
  | lost => exact ⟨_, rfl⟩
  | cut => exact ⟨_, rfl⟩
  | refused _ hok => exact request_not_ok number hok
  | replaced _ hok => exact request_not_ok number hok
  | delivered => exact absurd rfl h

theorem getAnalysis_found (host : Host) {db : Db} {u : Uuid} {analysis : StoredAnalysis}
    (h : analysisById db u = some analysis) (hsends : host.Sends analysis) :
    getAnalysis host db false .delivered (js (uuidText u)) =
      .ok ((envelope analysis).toJs.reread host.number) := by
  unfold getAnalysis
  rw [apiGet_uuid, Delivery.fetch, Host.sendAnalysis, lookupAnalysis, uuidParam_uuidText]
  simp only [Bool.false_eq_true, if_false, Option.bind_some, h, Host.sendFound,
    Host.sendEnvelope, if_pos hsends.depth]
  exact request_sent host (envelope_keys hsends.keys)

/-! ## Links last -/

/-- What the page of an analysis shows in a later state. -/
theorem analysisView_kept (host : Host) {s s' : Fleet} (h : s.Reachable)
    (hr : StepSystem.Reachable Fleet.step s s') (hdocs : host.Documents s'.db) {a : AnalysisRow}
    (ha : a ∈ s.db.analyses) :
    ∃ a' ∈ s'.db.analyses, a.Kept a' ∧ (∃ k, ComputedBy s' k a.columns a'.document s'.log) ∧
      analysisView (getAnalysis host s'.db false .delivered (js (uuidText a.id))) =
        .envelope ((envelope a'.stored).toJs.reread host.number) := by
  have hreach : s'.Reachable := h.trans hr
  obtain ⟨a', ha', hkept⟩ := kept_of_reachable h hr ha
  obtain ⟨k, _, l₁, l₂, hlog, -, hworker, r, hrow, hid, hret⟩ :=
    (provenance_of_reachable hreach).1 a' ha'
  have hcomp : ComputedBy s' k a'.columns a'.document s'.log :=
    ⟨hworker, r, hrow, hid, by
      rw [hlog]
      exact List.mem_append_right _ (List.mem_cons_of_mem _ hret)⟩
  have hu : Table.Unique AnalysisRow.id s'.db.analyses := valid_of_reachable hreach .analysesPkey
  refine ⟨a', ha', hkept, ⟨k, hkept.columns ▸ hcomp⟩, ?_⟩
  rw [← hkept.id, getAnalysis_found host (analysisById_of_mem hu ha') (hdocs a' ha')]
  rfl

/-- **A link to an analysis stays good.** It leads to the page of the analysis, and in every state
the fleet gets to after the row was written, its page shows a row with the id, the identity and the
time it had, with a document some engine call returned for this identity. -/
theorem permalink_stable (host : Host) {s s' : Fleet} (h : s.Reachable)
    (hr : StepSystem.Reachable Fleet.step s s') (hdocs : host.Documents s'.db) :
    ∀ a ∈ s.db.analyses,
      navigate (js "/a/" ++ js (uuidText a.id)) = .analysis (js (uuidText a.id)) ∧
      ∃ a' ∈ s'.db.analyses, a.Kept a' ∧
        (∃ k, ComputedBy s' k a.columns a'.document s'.log) ∧
        analysisView (getAnalysis host s'.db false .delivered (js (uuidText a.id))) =
          .envelope ((envelope a'.stored).toJs.reread host.number) := by
  intro a ha
  exact ⟨(navigate_uuid a.id).1, analysisView_kept host h hr hdocs ha⟩

/-- Another worker comes and finds nothing. -/
theorem permalink_stable_reported :
    let s := Fleet.after Sample.reported
    let s' := StepSystem.after Fleet.step s [.spawn "host/2" Sample.config,
      .worker 1 (.reclaim Sample.evening), .worker 1 (.claim [] Sample.evening)]
    s.db.analyses.map AnalysisRow.id = [9] ∧ ∀ a ∈ s.db.analyses,
      navigate (js "/a/" ++ js (uuidText a.id)) = .analysis (js (uuidText a.id)) ∧
      ∃ a' ∈ s'.db.analyses, a.Kept a' ∧
        (∃ k, ComputedBy s' k a.columns a'.document s'.log) ∧
        analysisView (getAnalysis Sample.host s'.db false .delivered (js (uuidText a.id))) =
          .envelope ((envelope a'.stored).toJs.reread Sample.host.number) := by
  refine ⟨by decide, permalink_stable Sample.host (Fleet.reachable_after _)
    (StepSystem.reachable_after _) ?_⟩
  decide +kernel

end BattleCloud
