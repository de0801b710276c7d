import BattleCloud.Api.Views
import BattleCloud.Contract.RoundTrip
import BattleCloud.Web.ReplayLink

/-!
# The client of the API

What the API answers `POST /v1/analyses` with, down to the bytes; `submit` of
`web/src/api.ts`, which reads such an answer; and what the form of `web/src/components/submit.tsx`
does with the result.

`formEffect_sendPost`: the bytes carry the reply of the route to the page. A document may come back
with other numbers, if `Number` reads them otherwise; the ids, the kind and the message do not.
-/

namespace BattleCloud

open NumberText (numberText)

/-! ## Bodies -/

mutual

/-- The value a body is made of, with its strings in UTF-16. -/
def Json.toJs : Json → JsValue
  | .null => .null
  | .bool b => .bool b
  | .num m e => .num m e
  | .str s => .str (js s)
  | .arr xs => .arr (Json.toJsAll xs)
  | .obj fields => .obj (Json.toJsFields fields)

def Json.toJsAll : List Json → List JsValue
  | [] => []
  | x :: xs => x.toJs :: Json.toJsAll xs

def Json.toJsFields : List (String × Json) → List (JsString × JsValue)
  | [] => []
  | (k, v) :: fields => (js k, v.toJs) :: Json.toJsFields fields

end

/-- `{ error: { kind, message } }`. -/
def errorBody (kind : String) (message : JsString) : JsValue :=
  .obj [(js "error", .obj [(js "kind", .str (js kind)), (js "message", .str message)])]

/-- `{ ...jobView(job), created }`. -/
def acceptedBody (job : StoredJob) (created : Bool) : JsValue :=
  match (jobView job).toJs with
  | .obj fields => .obj (setField (js "created") (.bool created) fields)
  | v => v

/-! ## Responses -/

structure ApiResponse where
  status : Nat
  statusText : JsString
  /-- Reading the body rejects if it breaks off. -/
  body : Option (List UInt8)

/-- `response.ok`. -/
def ApiResponse.ok (response : ApiResponse) : Bool := 200 ≤ response.status && response.status < 300

/-- What the routes leave to others: which number a numeric text is, the text that goes with a
status, how many levels `JSON.stringify` has room for on the stack, and the body Fastify sends for
an error a handler throws. That has the text of the status as its `error`. -/
structure Host where
  number : JsString → JsNumber
  reason : Nat → JsString
  levels : Nat
  thrownBody : Thrown → List (JsString × JsValue)
  thrownBody_error : ∀ cause, ∃ text, fieldOf (thrownBody cause) "error" = some (.str text)
  thrownBody_keys : ∀ cause, (JsValue.obj (thrownBody cause)).distinctKeys = true

section

variable (host : Host)

/-- `reply.code(status).send(body)` of a body with the few levels of its own. -/
def Host.send (status : Nat) (body : JsValue) : ApiResponse :=
  ⟨status, host.reason status, some (Utf8.encodeText body.stringify)⟩

def Host.sendError : ErrorReply → ApiResponse
  | .fail status kind message => host.send status (errorBody kind.value message)
  | .internal cause => host.send 500 (.obj (host.thrownBody cause))

/-- An envelope is as deep as its document, and Fastify answers with the error where
`JSON.stringify` throws. -/
def Host.sendEnvelope (cached : StoredAnalysis) : ApiResponse :=
  if (envelope cached).toJs.depth ≤ host.levels then host.send 200 (envelope cached).toJs
  else host.sendError (.internal rangeError)

def Host.sendPost : PostReply → ApiResponse
  | .ok cached => host.sendEnvelope cached
  | .accepted job created => host.send 202 (acceptedBody job created)
  | .failed reply _ => host.sendError reply

end

/-! ## The client -/

/-- What is thrown at the caller: an `ApiError`, or the error of the runtime. -/
inductive ClientError where
  | api (kind : JsValue) (message : JsString) (status : Nat)
  | runtime

/-- `value.key`; reading `null` throws. -/
def property (v : JsValue) (key : String) : Except ClientError (Option JsValue) :=
  match v with
  | .null => .error .runtime
  | .obj fields => .ok (fieldOf fields key)
  | _ => .ok none

/-- `value?.key`. -/
def optionalProperty (v : Option JsValue) (key : String) : Option JsValue :=
  match v with
  | some (.obj fields) => fieldOf fields key
  | _ => none

/-- `value ?? fallback`. -/
def orElse (v : Option JsValue) (fallback : JsString) : JsValue :=
  match v with
  | none | some .null => .str fallback
  | some v => v

mutual

/-- `String(value)`; it throws for an object that has a `toString` of its own, which is no
function. -/
def JsValue.toText : JsValue → Except ClientError JsString
  | .null => .ok (js "null")
  | .bool b => .ok (if b then js "true" else js "false")
  | .num m e => .ok (numberText m e)
  | .infinite negative => .ok (if negative then js "-Infinity" else js "Infinity")
  | .str s => .ok s
  | .arr xs => JsValue.joinText xs
  | .obj fields =>
    if (fieldOf fields "toString").isSome then .error .runtime else .ok (js "[object Object]")

/-- `xs.join()`. -/
def JsValue.joinText : List JsValue → Except ClientError JsString
  | [] => .ok []
  | [x] => if x matches .null then .ok [] else x.toText
  | x :: y :: xs =>
    (if x matches .null then .ok [] else x.toText).bind fun text =>
    (JsValue.joinText (y :: xs)).map fun rest => text ++ 44 :: rest

end

/-- `new ApiError(error?.kind ?? 'unknown', error?.message ?? response.statusText, ..)`. -/
def apiError (response : ApiResponse) (error : Option JsValue) : ClientError :=
  match (orElse (optionalProperty error "message") response.statusText).toText with
  | .ok message =>
    .api (orElse (optionalProperty error "kind") (js "unknown")) message response.status
  | .error cause => cause

/-- A `fetch` that rejects. -/
def unreachable : ClientError :=
  .api (.str (js "unreachable")) (js "the API could not be reached") 0

section

variable (number : JsString → JsNumber)

inductive SubmitResult where
  | job (payload : JsValue)
  | analysis (payload : JsValue)

def submit : Option ApiResponse → Except ClientError SubmitResult
  | none => .error unreachable
  | some response =>
    match response.body.bind fun body => jsonParse number (Utf8.decodeText body) with
    | none => .error .runtime
    | some payload =>
      if !response.ok then
        (property payload "error").bind fun error => .error (apiError response error)
      else .ok (if response.status = 200 then .analysis payload else .job payload)

end

/-! ## The form -/

/-- What a submission does to the page. -/
inductive FormEffect where
  | navigate (route : JsString)
  | setError (message : JsString)

/-- A template that ends in a value. -/
def template (text : String) : Option JsValue → Except ClientError JsString
  | none => .ok (js text ++ js "undefined")
  | some v => v.toText.map fun value => js text ++ value

/-- The route of a result. -/
def SubmitResult.route : SubmitResult → Except ClientError JsString
  | .analysis payload => (property payload "analysisId").bind (template "/a/")
  | .job payload => (property payload "jobId").bind (template "/j/")

def rateLimitedMessage : JsString :=
  js ("That is 20 submissions this hour from your address, which is the limit. Each one costs a " ++
    "couple of CPU-minutes, so the cap is real rather than decorative.")

/-- The text of the `catch`. -/
def ClientError.shown : ClientError → JsString
  | .api kind message _ =>
    match kind with
    | .str s => if s = js "rate_limited" then rateLimitedMessage else message
    | _ => message
  | .runtime => js "Something went wrong."

/-- The end of `onSubmit`, from what `fetch` did. -/
def formEffect (number : JsString → JsNumber) (fetched : Option ApiResponse) : FormEffect :=
  match (submit number fetched).bind SubmitResult.route with
  | .ok route => .navigate route
  | .error cause => .setError cause.shown

/-! ## What the API sends is received -/

theorem fieldOf_reread (number : JsString → JsNumber) (fields : List (JsString × JsValue))
    (key : String) : fieldOf (JsValue.rereadFields number fields) key =
      (fieldOf fields key).map (JsValue.reread number) := by
  induction fields with
  | nil => rfl
  | cons f fields ih =>
    obtain ⟨k, v⟩ := f
    unfold fieldOf at ih ⊢
    rw [JsValue.rereadFields, List.find?_cons, List.find?_cons]
    by_cases hk : k = js key
    · simp [hk]
    · simpa [hk] using ih

/-- The whole of a body is read, as `Number` reads its numbers. -/
theorem Host.read_send (host : Host) (status : Nat) {body : JsValue}
    (h : body.distinctKeys = true) :
    ((host.send status body).body.bind fun bytes => jsonParse host.number (Utf8.decodeText bytes)) =
      some (body.reread host.number) := by
  rw [Host.send, Option.bind_some, JsonText.decodeText_stringify, jsonParse_stringify h]

theorem errorBody_keys (kind : String) (message : JsString) :
    (errorBody kind message).distinctKeys = true := by
  simp [errorBody, JsValue.distinctKeys, JsValue.distinctFields]
  decide

theorem errorBody_reread (number : JsString → JsNumber) (kind : String) (message : JsString) :
    (errorBody kind message).reread number = errorBody kind message := rfl

/-- No kind of the table goes with a status of success. -/
theorem fail_status (kind : ErrorKind) : ¬ ((statusOf kind).getD 500 < 300) := by
  cases kind <;> decide

/-- **A failure arrives as it was sent.** -/
theorem submit_fail (host : Host) (kind : ErrorKind) (message : JsString) :
    submit host.number (some (host.sendError (BattleCloud.fail kind message))) =
      .error (.api (.str (js kind.value)) message ((statusOf kind).getD 500)) := by
  have hread := host.read_send ((statusOf kind).getD 500) (errorBody_keys kind.value message)
  have hok : (host.send ((statusOf kind).getD 500) (errorBody kind.value message)).ok = false := by
    simp [ApiResponse.ok, Host.send, fail_status kind]
  rw [errorBody_reread] at hread
  have hmessage : js "kind" ≠ js "message" := by decide
  simp only [Host.sendError, BattleCloud.fail, submit, hread, hok]
  simp [errorBody, property, Except.bind, apiError, optionalProperty, orElse, fieldOf, hmessage,
    JsValue.toText, Host.send]

theorem submit_internal (host : Host) (cause : Thrown) :
    submit host.number (some (host.sendError (.internal cause))) =
      .error (.api (.str (js "unknown")) (host.reason 500) 500) := by
  have hread := host.read_send 500 (host.thrownBody_keys cause)
  obtain ⟨text, htext⟩ := host.thrownBody_error cause
  have herror : fieldOf (JsValue.rereadFields host.number (host.thrownBody cause)) "error" =
      some (.str text) := by
    rw [fieldOf_reread, htext]
    rfl
  have hok : (host.send 500 (.obj (host.thrownBody cause))).ok = false := by
    simp [ApiResponse.ok, Host.send]
  simp only [Host.sendError, submit, hread, hok, JsValue.reread]
  simp [property, herror, Except.bind, apiError, optionalProperty, orElse, JsValue.toText,
    Host.send]

/-! ## Bodies of success -/

theorem js_injective : Function.Injective js := fun s t h => by
  rw [← JsString.text_js s, h, JsString.text_js]

theorem toJsFields_eq (fields : List (String × Json)) :
    Json.toJsFields fields = fields.map fun f => (js f.1, f.2.toJs) := by
  induction fields with
  | nil => rfl
  | cons f fields ih => rw [Json.toJsFields, ih, List.map_cons]

theorem fieldOf_toJs (fields : List (String × Json)) (key : String) :
    fieldOf (Json.toJsFields fields) key = ((Json.obj fields).get? key).map Json.toJs := by
  induction fields with
  | nil => rfl
  | cons f fields ih =>
    obtain ⟨k, v⟩ := f
    unfold fieldOf at ih ⊢
    rw [Json.toJsFields, List.find?_cons]
    by_cases hk : k = key
    · subst hk
      rw [Zod.get?_cons_self]
      simp
    · rw [Zod.get?_cons_of_ne hk, ← ih]
      simp [js_injective.ne hk]

/-- A body of different keys, whose values have different keys as well. -/
theorem toJs_keys {fields : List (String × Json)} (hkeys : (fields.map Prod.fst).Nodup)
    (h : ∀ f ∈ fields, f.2.toJs.distinctKeys = true) :
    (Json.obj fields).toJs.distinctKeys = true := by
  have hall : JsValue.distinctFields (Json.toJsFields fields) = true := by
    clear hkeys
    induction fields with
    | nil => rfl
    | cons f fields ih =>
      obtain ⟨hf, hfields⟩ := List.forall_mem_cons.mp h
      rw [Json.toJsFields, JsValue.distinctFields, hf, ih hfields]
      rfl
  have hnodup : ((Json.toJsFields fields).map Prod.fst).Nodup := by
    have hmap := hkeys.map js_injective
    rw [List.map_map] at hmap
    rw [toJsFields_eq, List.map_map]
    exact hmap
  rw [Json.toJs, JsValue.distinctKeys, hall, Bool.and_true]
  exact decide_eq_true hnodup

theorem nullable_keys {α : Type} {f : α → Json} (h : ∀ a, (f a).toJs.distinctKeys = true)
    (x : Option α) : (nullable f x).toJs.distinctKeys = true := by
  cases x with
  | none => rfl
  | some a => exact h a

theorem envelope_keys {cached : StoredAnalysis} (h : cached.document.toJs.distinctKeys = true) :
    (envelope cached).toJs.distinctKeys = true := by
  have hkeys : ["analysisId", "seed", "createdAt", "document"].Nodup := by decide
  refine toJs_keys hkeys ?_
  simp only [List.forall_mem_cons]
  exact ⟨rfl, rfl, rfl, h, List.forall_mem_nil _⟩

/-- The properties of a job's view, with `created`. -/
def acceptedFields (job : StoredJob) (created : Bool) : List (String × Json) :=
  [("jobId", .str (uuidText job.id)), ("status", .str job.status.text),
    ("replayId", .str job.replayId), ("perspective", .str job.perspective.text),
    ("profile", .str job.profile.name), ("estimatedTurns", nullable intJson job.estimatedTurns),
    ("estimatedSearchMs", nullable intJson job.estimatedSearchMs),
    ("analysisId", nullable (fun i => .str (uuidText i)) job.analysisId),
    ("errorKind", nullable (fun k => .str k.value) job.errorKind),
    ("createdAt", .str job.createdAt), ("updatedAt", .str job.updatedAt),
    ("created", .bool created)]

theorem acceptedBody_eq (job : StoredJob) (created : Bool) :
    acceptedBody job created = (Json.obj (acceptedFields job created)).toJs := by
  have hview : (jobView job).toJs =
      .obj (Json.toJsFields ((acceptedFields job created).take 11)) := rfl
  have hkeys : (Json.toJsFields ((acceptedFields job created).take 11)).map Prod.fst =
      ["jobId", "status", "replayId", "perspective", "profile", "estimatedTurns",
        "estimatedSearchMs", "analysisId", "errorKind", "createdAt", "updatedAt"].map js := rfl
  have hfresh : js "created" ∉
      (Json.toJsFields ((acceptedFields job created).take 11)).map Prod.fst := by
    rw [hkeys]
    decide
  rw [acceptedBody, hview]
  dsimp only
  rw [JsonText.setField_fresh _ hfresh]
  rfl

theorem acceptedBody_keys (job : StoredJob) (created : Bool) :
    (acceptedBody job created).distinctKeys = true := by
  have hkeys : ["jobId", "status", "replayId", "perspective", "profile", "estimatedTurns",
      "estimatedSearchMs", "analysisId", "errorKind", "createdAt", "updatedAt",
      "created"].Nodup := by decide
  rw [acceptedBody_eq]
  refine toJs_keys hkeys ?_
  simp only [acceptedFields, List.forall_mem_cons]
  exact ⟨rfl, rfl, rfl, rfl, rfl, nullable_keys (fun _ => rfl) _, nullable_keys (fun _ => rfl) _,
    nullable_keys (fun _ => rfl) _, nullable_keys (fun _ => rfl) _, rfl, rfl, rfl,
    List.forall_mem_nil _⟩

/-- The document has different keys at every level, as a `jsonb` value does, and the stack has room
for its levels. -/
structure Host.Sends (host : Host) (cached : StoredAnalysis) : Prop where
  keys : cached.document.toJs.distinctKeys = true
  depth : (envelope cached).toJs.depth ≤ host.levels

instance (host : Host) (cached : StoredAnalysis) : Decidable (host.Sends cached) :=
  decidable_of_iff (_ ∧ _) ⟨fun h => ⟨h.1, h.2⟩, fun h => ⟨h.keys, h.depth⟩⟩

theorem submit_ok (host : Host) {cached : StoredAnalysis} (h : host.Sends cached) :
    submit host.number (some (host.sendPost (.ok cached))) =
      .ok (.analysis ((envelope cached).toJs.reread host.number)) := by
  have hread := host.read_send 200 (envelope_keys h.keys)
  have hok : (host.send 200 (envelope cached).toJs).ok = true := rfl
  simp only [Host.sendPost, Host.sendEnvelope, if_pos h.depth, submit, hread, hok]
  rfl

theorem submit_accepted (host : Host) (job : StoredJob) (created : Bool) :
    submit host.number (some (host.sendPost (.accepted job created))) =
      .ok (.job ((acceptedBody job created).reread host.number)) := by
  have hread := host.read_send 202 (acceptedBody_keys job created)
  have hok : (host.send 202 (acceptedBody job created)).ok = true := rfl
  simp only [Host.sendPost, submit, hread, hok]
  rfl

/-! ## The page -/

/-- What each reply of the route does to the page. -/
def pageOf (host : Host) : PostReply → FormEffect
  | .ok cached => .navigate (js "/a/" ++ js (uuidText cached.id))
  | .accepted job _ => .navigate (js "/j/" ++ js (uuidText job.id))
  | .failed (.fail _ .rateLimited _) _ => .setError rateLimitedMessage
  | .failed (.fail _ _ message) _ => .setError message
  | .failed (.internal _) _ => .setError (host.reason 500)

/-- The status is the one of the table. -/
def ErrorReply.Listed : ErrorReply → Prop
  | .fail status kind _ => status = (statusOf kind).getD 500
  | .internal _ => True

/-- The document can be sent, and the status is a listed one. -/
def PostReply.Sendable (host : Host) : PostReply → Prop
  | .ok cached => host.Sends cached
  | .accepted _ _ => True
  | .failed reply _ => reply.Listed

/-- **The page shows what the route replied.** -/
theorem formEffect_sendPost (host : Host) {reply : PostReply} (h : reply.Sendable host) :
    formEffect host.number (some (host.sendPost reply)) = pageOf host reply := by
  rcases reply with cached | ⟨job, created⟩ | ⟨status | cause, retryAfter⟩
  · have hid : fieldOf (JsValue.rereadFields host.number (Json.toJsFields
        [("analysisId", .str (uuidText cached.id)), ("seed", intJson cached.seed),
          ("createdAt", .str cached.createdAt), ("document", cached.document)])) "analysisId" =
        some (.str (js (uuidText cached.id))) := by
      rw [fieldOf_reread, fieldOf_toJs]
      rfl
    rw [formEffect, submit_ok host h]
    simp only [Except.bind, SubmitResult.route, envelope, Json.toJs, JsValue.reread, property, hid]
    rfl
  · have hid : fieldOf (JsValue.rereadFields host.number (Json.toJsFields
        (acceptedFields job created))) "jobId" = some (.str (js (uuidText job.id))) := by
      rw [fieldOf_reread, fieldOf_toJs]
      rfl
    rw [formEffect, submit_accepted, acceptedBody_eq]
    simp only [Except.bind, SubmitResult.route, Json.toJs, JsValue.reread, property, hid]
    rfl
  · rename_i kind message
    obtain rfl : status = (statusOf kind).getD 500 := h
    have hshown : formEffect host.number (some (host.sendError (BattleCloud.fail kind message))) =
        .setError (if js kind.value = js "rate_limited" then rateLimitedMessage else message) := by
      rw [formEffect, submit_fail]
      rfl
    have hvalue : js kind.value = js "rate_limited" ↔ kind = .rateLimited := by
      rw [js_injective.eq_iff]
      cases kind <;> decide
    refine hshown.trans ?_
    by_cases hkind : kind = .rateLimited
    · rw [if_pos (hvalue.mpr hkind), hkind]
      rfl
    · rw [if_neg (mt hvalue.mp hkind)]
      cases kind with
      | rateLimited => exact absurd rfl hkind
      | _ => rfl
  · rw [formEffect, Host.sendPost, submit_internal]
    have hkind : js "unknown" ≠ js "rate_limited" := by decide
    simp only [Except.bind, ClientError.shown, if_neg hkind]
    rfl

end BattleCloud
