import BattleCloud.Web.Client

/-!
# The form

`onSubmit` of `web/src/components/submit.tsx` with the handler of the API behind it: the body it
sends, what the network and the gateway make of request and response (`Delivery`), and the page.

`submission_shown` is about every text that can be typed, every fault on either side but a failure
of the launcher that the route does not catch, and every way a response gets lost.
-/

namespace BattleCloud

/-- What becomes of a request. Whatever stands between the browser and the API may answer for it,
with anything but a success. -/
inductive Delivery where
  | unreachable
  | refused (response : ApiResponse) (notOk : response.ok = false)
  /-- The API handled the request, and its response got lost. -/
  | lost
  /-- Its response broke off. -/
  | cut
  | replaced (response : ApiResponse) (notOk : response.ok = false)
  | delivered

/-- The handler ran. -/
def Delivery.handles : Delivery → Bool
  | .unreachable | .refused _ _ => false
  | .lost | .cut | .replaced _ _ | .delivered => true

/-- What `fetch` does, if this is the response of the API. -/
def Delivery.fetch (response : ApiResponse) : Delivery → Option ApiResponse
  | .unreachable | .lost => none
  | .refused response _ | .replaced response _ => some response
  | .cut => some { response with body := none }
  | .delivered => some response

def pasteMessage : JsString := js "Paste a Showdown replay link, or the id at the end of one."

section

variable (host : Host) (cfg : ApiConfig) (env : Conditions) (s : ApiState) (clientKey : String)
  (delivery : Delivery) (input : JsString) (perspective : Perspective) (profile : Profile)

/-- The request the form sends, handled. -/
def handleForm : Handled :=
  let body := Utf8.encodeText (submitBody (parseReplayId input) perspective profile).stringify
  postAnalyses cfg env s clientKey (jsonParse host.number (Utf8.decodeText body))

/-- `onSubmit`: what it does to the page, and the state of the API behind it. -/
def onSubmit : FormEffect × ApiState :=
  if parseReplayId input = [] then (.setError pasteMessage, s)
  else
    let handled := handleForm host cfg env s clientKey input perspective profile
    (formEffect host.number (delivery.fetch (host.sendPost handled.reply)),
      if delivery.handles then handled.state else s)

end

/-- Every document can be sent. -/
def Host.Documents (host : Host) (db : Db) : Prop := ∀ a ∈ db.analyses, host.Sends a.stored

instance (host : Host) (db : Db) : Decidable (host.Documents db) :=
  inferInstanceAs (Decidable (∀ a ∈ db.analyses, _))

section

variable {host : Host} {cfg : ApiConfig} {env : Conditions} {s : ApiState} {clientKey : String}
  {body : Option JsValue}

theorem limitAndReply_sendable (submit : SubmitRequest) :
    (limitAndReply cfg env s clientKey submit).reply.Sendable host := by
  unfold limitAndReply
  split
  · trivial
  · rfl
  · unfold acquireAndReply
    split
    · rename_i failure _
      cases failure
      · rfl
      · trivial
    · unfold enqueueAndReply
      split
      · trivial
      · rename_i job created _
        dsimp only
        rcases replyAfter_cases (ensureRunning env job) (toJob job) created with hr | ⟨_, hr⟩ <;>
          rw [hr] <;> trivial

/-- A request is refused before anything is looked at, answered from the cache, or goes past it. -/
theorem postAnalyses_cases :
    (∃ reply retryAfter, reply.Listed ∧
      postAnalyses cfg env s clientKey body = .without (.failed reply retryAfter) s) ∨
    (∃ submit a, parseSubmitRequest body = some submit ∧ a ∈ s.db.analyses ∧
      a.columns = (deriveIdentity submit cfg.build).columns ∧
      postAnalyses cfg env s clientKey body = .without (.ok a.stored) s) ∨
    (∃ submit, parseSubmitRequest body = some submit ∧
      postAnalyses cfg env s clientKey body = limitAndReply cfg env s clientKey submit) := by
  unfold postAnalyses
  split
  · exact Or.inl ⟨BattleCloud.fail .invalidRequest (cfg.issues body), none, rfl, rfl⟩
  · rename_i submit hparse
    split
    · exact Or.inl ⟨.internal _, none, trivial, rfl⟩
    · rename_i cached hcached
      obtain ⟨a, ha, hcolumns, rfl⟩ := analysisByIdentity_some (statement_ok hcached)
      exact Or.inr (Or.inl ⟨submit, a, hparse, ha, hcolumns, rfl⟩)
    · exact Or.inr (Or.inr ⟨submit, hparse, rfl⟩)

theorem postAnalyses_sendable (hdocs : host.Documents s.db) :
    (postAnalyses cfg env s clientKey body).reply.Sendable host := by
  rcases postAnalyses_cases with ⟨_, _, hsend, h⟩ | ⟨_, a, _, ha, _, h⟩ | ⟨submit, _, h⟩
  · rw [h]
    exact hsend
  · rw [h]
    exact hdocs a ha
  · rw [h]
    exact limitAndReply_sendable submit

/-- The job of a 202 is in the table, of the derived identity, and queued or running. -/
theorem postAnalyses_accepted (hlaunch : env.faults.ensureRunning.Contained) {job : StoredJob}
    {created : Bool}
    (h : (postAnalyses cfg env s clientKey body).reply = .accepted job created) :
    ∃ submit, parseSubmitRequest body = some submit ∧
      ∃ j ∈ (postAnalyses cfg env s clientKey body).state.db.jobs, job = toJob j ∧ j.live = true ∧
        j.columns = (deriveIdentity submit cfg.build).columns := by
  rcases postAnalyses_cases with ⟨_, _, -, heq⟩ | ⟨_, _, -, -, -, heq⟩ | ⟨submit, hparse, heq⟩
  · rw [heq] at h
    cases h
  · rw [heq] at h
    cases h
  · rw [heq] at h ⊢
    have hlive := (limitAndReply_outcome s clientKey submit fun _ _ _ _ => hlaunch).live _ _ h
    obtain ⟨submit', hsubmit, j, hj⟩ := hlive
    obtain rfl := Option.some.inj hsubmit
    exact ⟨submit, hparse, j, hj⟩

/-- The analysis of a 200 is one of the table, of the derived identity, and nothing is written. -/
theorem postAnalyses_cached {cached : StoredAnalysis}
    (h : (postAnalyses cfg env s clientKey body).reply = .ok cached) :
    ∃ submit, parseSubmitRequest body = some submit ∧
      ∃ a ∈ s.db.analyses, cached = a.stored ∧
        a.columns = (deriveIdentity submit cfg.build).columns ∧
        (postAnalyses cfg env s clientKey body).state = s := by
  rcases postAnalyses_cases with ⟨_, _, -, heq⟩ | ⟨submit, a, hparse, ha, hcolumns, heq⟩ |
    ⟨submit, -, heq⟩
  · rw [heq] at h
    cases h
  · rw [heq] at h ⊢
    cases h
    exact ⟨submit, hparse, a, ha, rfl, hcolumns, rfl⟩
  · rw [heq] at h
    exact absurd h limitAndReply_not_ok

/-- Any other reply leaves the jobs. -/
theorem postAnalyses_jobs (hlaunch : env.faults.ensureRunning.Contained)
    (h : ∀ job created, (postAnalyses cfg env s clientKey body).reply ≠ .accepted job created) :
    (postAnalyses cfg env s clientKey body).state.db.jobs = s.db.jobs := by
  rcases postAnalyses_cases with ⟨_, _, -, heq⟩ | ⟨_, _, -, -, -, heq⟩ | ⟨submit, -, heq⟩
  · rw [heq]
    rfl
  · rw [heq]
    rfl
  · rw [heq] at h ⊢
    exact (limitAndReply_outcome s clientKey submit fun _ _ _ _ => hlaunch).jobs h

end

/-- Only a safe id is read back. -/
theorem parseSubmitRequest_of_submitBody {id : JsString} {perspective : Perspective}
    {profile : Profile} {submit : SubmitRequest}
    (h : parseSubmitRequest (some (submitBody id perspective profile)) = some submit) :
    isSafeReplayId id = true ∧ submit = ⟨id.text, perspective, profile⟩ := by
  by_cases hid : isSafeReplayId id = true
  · rw [parseSubmitRequest_submitBody hid] at h
    exact ⟨hid, (Option.some.inj h).symm⟩
  · have hkeys : js "replayId" ≠ js "perspective" ∧ js "replayId" ≠ js "profile" ∧
        js "perspective" ≠ js "profile" := by decide
    unfold isSafeReplayId at hid
    simp [parseSubmitRequest, submitBody, fieldOf, hkeys, hid] at h

theorem submitBody_received (number : JsString → JsNumber) (id : JsString)
    (perspective : Perspective) (profile : Profile) :
    jsonParse number (Utf8.decodeText
      (Utf8.encodeText (submitBody id perspective profile).stringify)) =
      some (submitBody id perspective profile) := by
  have hkeys : (submitBody id perspective profile).distinctKeys = true := by
    have hnodup : [js "replayId", js "perspective", js "profile"].Nodup := by decide
    simp [submitBody, JsValue.distinctKeys, JsValue.distinctFields, -List.nodup_cons, hnodup]
  rw [JsonText.decodeText_stringify, jsonParse_stringify hkeys]
  rfl

/-- What the page says is what became of the submission. -/
structure FormShown (cfg : ApiConfig) (s : ApiState) (typed : SubmitRequest) (delivery : Delivery)
    (page : FormEffect) (after : ApiState) : Prop where
  /-- A route is one of a job that waits or runs, or of an analysis, of what was typed. -/
  navigate : ∀ route, page = .navigate route →
    (∃ j ∈ after.db.jobs, route = js "/j/" ++ js (uuidText j.id) ∧ j.live = true ∧
      j.columns = (deriveIdentity typed cfg.build).columns) ∨
    (∃ a ∈ s.db.analyses, route = js "/a/" ++ js (uuidText a.id) ∧
      a.columns = (deriveIdentity typed cfg.build).columns ∧ after = s)
  /-- With an error nothing was enqueued, unless the response of the handler was lost. -/
  error : ∀ message, page = .setError message →
    (delivery.handles = true → delivery = .delivered) → after.db.jobs = s.db.jobs

theorem FormShown.of_error {cfg : ApiConfig} {s after : ApiState} {typed : SubmitRequest}
    {delivery : Delivery} {page : FormEffect} (hpage : ∀ route, page ≠ .navigate route)
    (hjobs : (delivery.handles = true → delivery = .delivered) → after.db.jobs = s.db.jobs) :
    FormShown cfg s typed delivery page after :=
  ⟨fun route h => absurd h (hpage route), fun _ _ h => hjobs h⟩

/-- A response that is none of success opens no route. -/
theorem formEffect_not_ok (number : JsString → JsNumber) {response : ApiResponse}
    (h : response.ok = false) (route : JsString) :
    formEffect number (some response) ≠ .navigate route := by
  intro hpage
  unfold formEffect submit at hpage
  cases hparse : response.body.bind fun body => jsonParse number (Utf8.decodeText body) with
  | none => simp [hparse, Except.bind] at hpage
  | some payload =>
    cases hproperty : property payload "error" <;>
      simp [hparse, h, hproperty, Except.bind] at hpage

section

variable {host : Host} {cfg : ApiConfig} {env : Conditions} {s : ApiState} {clientKey : String}
  {delivery : Delivery} {input : JsString} {perspective : Perspective} {profile : Profile}

/-- What was typed is what is handled. -/
theorem handleForm_eq : handleForm host cfg env s clientKey input perspective profile =
    postAnalyses cfg env s clientKey
      (some (submitBody (parseReplayId input) perspective profile)) := by
  unfold handleForm
  dsimp only
  rw [submitBody_received]

theorem pageOf_failed (reply : ErrorReply) (retryAfter : Option Int) :
    ∃ message, pageOf host (.failed reply retryAfter) = .setError message := by
  cases reply with
  | fail status kind message => cases kind <;> exact ⟨_, rfl⟩
  | internal cause => exact ⟨_, rfl⟩

theorem page_delivered (hdocs : host.Documents s.db) :
    formEffect host.number (some (host.sendPost
      (handleForm host cfg env s clientKey input perspective profile).reply)) =
      pageOf host (handleForm host cfg env s clientKey input perspective profile).reply := by
  rw [handleForm_eq]
  exact formEffect_sendPost host (postAnalyses_sendable hdocs)

theorem shown_delivered (hdocs : host.Documents s.db)
    (hlaunch : env.faults.ensureRunning.Contained) :
    FormShown cfg s ⟨(parseReplayId input).text, perspective, profile⟩ .delivered
      (formEffect host.number (some (host.sendPost
        (handleForm host cfg env s clientKey input perspective profile).reply)))
      (handleForm host cfg env s clientKey input perspective profile).state := by
  rw [page_delivered hdocs, handleForm_eq]
  generalize hbody : some (submitBody (parseReplayId input) perspective profile) = body
  cases hreply : (postAnalyses cfg env s clientKey body).reply with
  | ok cached =>
    obtain ⟨submit, hparse, a, ha, rfl, hcolumns, hstate⟩ := postAnalyses_cached hreply
    obtain ⟨-, rfl⟩ := parseSubmitRequest_of_submitBody (hbody ▸ hparse)
    refine ⟨fun route hroute => Or.inr ⟨a, ha, ?_, hcolumns, hstate⟩, nofun⟩
    cases hroute
    rfl
  | accepted job created =>
    obtain ⟨submit, hparse, j, hj, rfl, hlive, hcolumns⟩ := postAnalyses_accepted hlaunch hreply
    obtain ⟨-, rfl⟩ := parseSubmitRequest_of_submitBody (hbody ▸ hparse)
    refine ⟨fun route hroute => Or.inl ⟨j, hj, ?_, hlive, hcolumns⟩, nofun⟩
    cases hroute
    rfl
  | failed reply retryAfter =>
    obtain ⟨message, hpage⟩ := @pageOf_failed host reply retryAfter
    rw [hpage]
    refine .of_error (by exact nofun) fun _ => postAnalyses_jobs hlaunch fun job created h => ?_
    rw [h] at hreply
    cases hreply

end

/-- **The page shows what became of the submission**, whatever was typed, whatever fails in a way
the route catches and wherever a response gets lost: it opens a job or an analysis of what was
typed, or it shows an error and nothing was enqueued. -/
theorem submission_shown (host : Host) (cfg : ApiConfig) (env : Conditions) {s : ApiState}
    (hdocs : host.Documents s.db) (hlaunch : env.faults.ensureRunning.Contained)
    (clientKey : String) (delivery : Delivery) (input : JsString) (perspective : Perspective)
    (profile : Profile) :
    let r := onSubmit host cfg env s clientKey delivery input perspective profile
    FormShown cfg s ⟨(parseReplayId input).text, perspective, profile⟩ delivery r.1 r.2 ∧
      (parseReplayId input ≠ [] → delivery = .delivered → r.1 =
        pageOf host (handleForm host cfg env s clientKey input perspective profile).reply) := by
  dsimp only
  unfold onSubmit
  by_cases hempty : parseReplayId input = []
  · rw [if_pos hempty]
    exact ⟨.of_error nofun fun _ => rfl, fun h => absurd hempty h⟩
  rw [if_neg hempty]
  dsimp only
  have hshown := @shown_delivered host cfg env s clientKey input perspective profile hdocs hlaunch
  have hpage := @page_delivered host cfg env s clientKey input perspective profile hdocs
  generalize handleForm host cfg env s clientKey input perspective profile = handled
    at hshown hpage ⊢
  cases delivery with
  | unreachable => exact ⟨.of_error nofun fun _ => rfl, nofun⟩
  | refused response hok =>
    exact ⟨.of_error (formEffect_not_ok host.number hok) fun _ => rfl, nofun⟩
  | lost => exact ⟨.of_error nofun fun h => (nomatch h rfl), nofun⟩
  | cut => exact ⟨.of_error nofun fun h => (nomatch h rfl), nofun⟩
  | replaced response hok =>
    exact ⟨.of_error (formEffect_not_ok host.number hok) fun h => (nomatch h rfl), nofun⟩
  | delivered => exact ⟨hshown, fun _ _ => hpage⟩

namespace Sample

/-- A number in the digits of an integer. -/
def number (text : JsString) : JsNumber :=
  .num (text.foldl (fun n u => n * 10 + (u.toNat - 48)) 0) 0

/-- The error handler of Fastify without the code of an error. -/
def host : Host where
  number := number
  reason _ := []
  levels := 4000
  thrownBody cause := [(js "statusCode", .num 500 0),
    (js "error", .str (js "Internal Server Error")),
    (js "message", .str (cause.text.toOption.getD []))]
  thrownBody_error _ := ⟨_, rfl⟩
  thrownBody_keys _ := by rfl

end Sample

/-- A link to a battle that was analyzed. -/
theorem submission_shown_served :
    let input := js "https://replay.pokemonshowdown.com/gen9ou-2672927429?p2"
    let r := onSubmit Sample.host Sample.apiConfig Sample.conditions Sample.served "192.0.2.1"
      .delivered input .p1 .quick
    FormShown Sample.apiConfig Sample.served ⟨(parseReplayId input).text, .p1, .quick⟩ .delivered
        r.1 r.2 ∧
      (parseReplayId input ≠ [] → Delivery.delivered = .delivered → r.1 = pageOf Sample.host
        (handleForm Sample.host Sample.apiConfig Sample.conditions Sample.served "192.0.2.1" input
          .p1 .quick).reply) := by
  have hdocs : Sample.host.Documents Sample.served.db := by decide +kernel
  exact submission_shown Sample.host Sample.apiConfig Sample.conditions hdocs trivial "192.0.2.1"
    .delivered _ .p1 .quick

end BattleCloud
