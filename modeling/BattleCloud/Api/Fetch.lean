import BattleCloud.Contract.Js
import BattleCloud.Db.Schema

/-!
# `fetchReplay`

`api/src/replay/fetch.ts`, and the `catch` of the submission route that answers its failures. The
injected `fetch` and the stream it opens are a script of what they do (`FetchBehaviour`): a
rejection, or a response whose reads give chunks and then the end or an error. Beside the error
stands whether the timer has fired; that is not something the code sees.

`new URL`, `TextDecoder` and `JSON.parse` are functions of the environment: nothing below depends
on what they compute, only on where they refuse.

The result of `fetchReplay` carries what was checked of it, so the columns of `replays` can be
read off it without another check.
-/

namespace BattleCloud

/-! ## What can be thrown -/

/-- A value that was thrown, as far as the code looks at one. Looking may throw in its turn:
`String` does for a value without a primitive form. -/
inductive Thrown where
  /-- `cause instanceof Error && cause.name === 'AbortError'`, and `String(cause)`. -/
  | mk (isAbortError : Except Thrown Bool) (text : Except Thrown JsString)

def Thrown.isAbortError : Thrown → Except Thrown Bool
  | .mk isAbortError _ => isAbortError

def Thrown.text : Thrown → Except Thrown JsString
  | .mk _ text => text

/-- An `Error` as the runtime makes one. -/
def Thrown.ofError (name message : JsString) : Thrown :=
  .mk (.ok (name = js "AbortError")) (.ok (name ++ js ": " ++ message))

/-- What leaves the function when it does not resolve. -/
inductive Failure where
  | replayFetchError (kind : ErrorKind) (message : JsString)
  | unclassified (cause : Thrown)

/-- `ReplayDeps` without the seam itself, and the functions of the runtime. -/
structure ReplayDeps where
  maxBytes : Nat
  timeoutMs : Nat
  /-- `new URL(path, deps.baseUrl).href`; `none` is a `TypeError`. -/
  newUrl : JsString → Option JsString
  /-- `new TextDecoder().decode`. -/
  decode : List UInt8 → JsString
  /-- `JSON.parse`; `none` is a `SyntaxError`. -/
  parse : JsString → Option JsValue

/-! ## What the host does -/

/-- How the reads of a body end. -/
inductive StreamEnd where
  | done
  | fails (cause : Thrown) (expired : Bool)

/-- A body: what each `read()` gives before the last one. `none` is an `undefined` value. -/
structure Body where
  reads : List (Option (List UInt8))
  ends : StreamEnd

structure HttpResponse where
  status : Nat
  body : Option Body

/-- `response.ok`. -/
def HttpResponse.isOk (r : HttpResponse) : Bool := 200 ≤ r.status && r.status ≤ 299

/-- What the injected `fetch` does. -/
inductive FetchBehaviour where
  | rejects (cause : Thrown) (expired : Bool)
  | responds (response : HttpResponse)

/-! ## Texts -/

/-- `\uXXXX`. -/
def unicodeEscape (u : UInt16) : JsString :=
  let digit (n : Nat) : UInt16 := if n < 10 then UInt16.ofNat (48 + n) else UInt16.ofNat (87 + n)
  let n := u.toNat
  js "\\u" ++ [digit (n / 4096), digit (n / 256 % 16), digit (n / 16 % 16), digit (n % 16)]

def quoteUnit (u : UInt16) : JsString :=
  if u = 34 then js "\\\"" else if u = 92 then js "\\\\" else if u = 8 then js "\\b"
  else if u = 12 then js "\\f" else if u = 10 then js "\\n" else if u = 13 then js "\\r"
  else if u = 9 then js "\\t" else if u < 32 || Utf16.isHigh u || Utf16.isLow u then unicodeEscape u
  else [u]

def quoteUnits : JsString → JsString
  | [] => []
  | [u] => quoteUnit u
  | u :: v :: us =>
    if Utf16.isHigh u && Utf16.isLow v then u :: v :: quoteUnits us
    else quoteUnit u ++ quoteUnits (v :: us)

/-- `JSON.stringify` of a string. -/
def jsonQuote (s : JsString) : JsString := js "\"" ++ quoteUnits s ++ js "\""

/-- White space and line terminators, as `trim` takes them. -/
def isWhitespace (u : UInt16) : Bool :=
  (9 ≤ u && u ≤ 13) || (0x2000 ≤ u && u ≤ 0x200A) ||
    [0x20, 0xA0, 0x1680, 0x2028, 0x2029, 0x202F, 0x205F, 0x3000, 0xFEFF].contains u

/-- `s.trim() === ''`. -/
def isBlank (s : JsString) : Bool := s.all isWhitespace

example : jsonQuote (js "a\"\n") = js "\"a\\\"\\n\"" := by decide

/-! ## The fetch -/

/-- What `fetchReplay` resolves with. -/
structure FetchedReplay where
  id : JsString
  log : JsString
  raw : List (JsString × JsValue)
  safe : isSafeReplayId id = true
  logField : fieldOf raw "log" = some (.str log)
  usable : isBlank log = false

/-- The loop of `readCapped`; `total` is the length of `chunks`. -/
def readLoop (maxBytes : Nat) (ends : StreamEnd) (total : Nat) (chunks : List UInt8) :
    List (Option (List UInt8)) → Except Failure (List UInt8)
  | [] =>
    match ends with
    | .done => .ok chunks
    -- nothing catches a rejected `read()`: the `finally` only cancels the stream
    | .fails cause _ => .error (.unclassified cause)
  | none :: reads => readLoop maxBytes ends total chunks reads
  | some value :: reads =>
    if maxBytes < total + value.length then
      .error (.replayFetchError .replayTooLarge (js s!"replay body exceeded {maxBytes} bytes"))
    else readLoop maxBytes ends (total + value.length) (chunks ++ value) reads

def readCapped (deps : ReplayDeps) (response : HttpResponse) : Except Failure JsString :=
  match response.body with
  | none => .error (.replayFetchError .replayMalformed (js "response had no body"))
  | some body => (readLoop deps.maxBytes body.ends 0 [] body.reads).map deps.decode

/-- From the body's text to the payload. -/
def validate (deps : ReplayDeps) (replayId : JsString) (safe : isSafeReplayId replayId = true)
    (text : JsString) : Except Failure FetchedReplay :=
  match deps.parse text with
  | none => .error (.replayFetchError .replayMalformed (js "replay body was not valid JSON"))
  | some (.obj raw) =>
    match hlog : fieldOf raw "log" with
    | some (.str log) =>
      if hb : isBlank log = false then
        .ok { id := replayId, log, raw, safe, logField := hlog, usable := hb }
      else .error (.replayFetchError .replayEmptyLog
        (js "replay " ++ replayId ++ js " returned no usable log"))
    | _ => .error (.replayFetchError .replayEmptyLog
        (js "replay " ++ replayId ++ js " returned no usable log"))
  | some _ => .error (.replayFetchError .replayMalformed (js "replay body was not a JSON object"))

/-- The second `try`, once the headers are there. -/
def receive (deps : ReplayDeps) (replayId : JsString) (safe : isSafeReplayId replayId = true)
    (href : JsString) (response : HttpResponse) : Except Failure FetchedReplay :=
  if response.status = 404 then
    .error (.replayFetchError .replayNotFound (js "no replay at " ++ href))
  else if response.isOk then
    (readCapped deps response).bind (validate deps replayId safe)
  else .error (.replayFetchError .replayTransportFailure
    (js s!"replay fetch returned HTTP {response.status}"))

/-- `TypeError: Invalid URL`. -/
def invalidUrl : Thrown := .ofError (js "TypeError") (js "Invalid URL")

/-- The `catch` around the call of `deps.fetch`. -/
def rejected (deps : ReplayDeps) (cause : Thrown) : Failure :=
  match cause.isAbortError with
  | .error thrown => .unclassified thrown
  | .ok true =>
    .replayFetchError .replayTimeout (js s!"replay fetch timed out after {deps.timeoutMs}ms")
  | .ok false =>
    match cause.text with
    | .error thrown => .unclassified thrown
    | .ok text => .replayFetchError .replayTransportFailure (js "replay fetch failed: " ++ text)

def fetchReplay (deps : ReplayDeps) (replayId : JsString) (fetch : FetchBehaviour) :
    Except Failure FetchedReplay :=
  if safe : isSafeReplayId replayId = true then
    match deps.newUrl (replayId ++ js ".json") with
    | none => .error (.unclassified invalidUrl)
    | some href =>
      match fetch with
      | .rejects cause _ => .error (rejected deps cause)
      | .responds response => receive deps replayId safe href response
  else .error (.replayFetchError .invalidReplayId (js "unsafe replay id: " ++ jsonQuote replayId))

/-! ## The answer of the route -/

/-- `STATUS`. -/
def statusOf : ErrorKind → Option Nat
  | .invalidRequest => some 400
  | .invalidReplayId => some 400
  | .unknownProfile => some 400
  | .replayNotFound => some 404
  | .analysisNotFound => some 404
  | .replayEmptyLog => some 422
  | .replayMalformed => some 422
  | .replayTooLarge => some 413
  | .rateLimited => some 429
  | .replayTransportFailure => some 502
  | .replayTimeout => some 504
  | _ => none

/-- The reply to a request that failed: the kind and the message of the body, or a 500 that says
neither. -/
inductive ErrorReply where
  | fail (status : Nat) (kind : ErrorKind) (message : JsString)
  | internal (cause : Thrown)

def fail (kind : ErrorKind) (message : JsString) : ErrorReply :=
  .fail ((statusOf kind).getD 500) kind message

/-- The `catch` around the acquisition of the replay; what it throws again is a 500. -/
def Failure.reply : Failure → ErrorReply
  | .replayFetchError kind message => BattleCloud.fail kind message
  | .unclassified cause => .internal cause

/-! ## Every failure names a kind of the acquisition -/

/-- The kinds the contract lists under replay acquisition. -/
def replayKinds : List ErrorKind :=
  [.invalidReplayId, .replayNotFound, .replayEmptyLog, .replayTooLarge, .replayMalformed,
    .replayTransportFailure, .replayTimeout]

theorem statusOf_replayKinds {kind : ErrorKind} (h : kind ∈ replayKinds) :
    ∃ status, statusOf kind = some status := by
  refine Option.isSome_iff_exists.mp ?_
  revert h
  cases kind <;> decide

/-- A kind, when there is one, is one of the acquisition. -/
def Failure.OfReplay : Failure → Prop
  | .replayFetchError kind _ => kind ∈ replayKinds
  | .unclassified _ => True

theorem Failure.ofReplay_of_mem {kind : ErrorKind} (h : kind ∈ replayKinds)
    (message : JsString) : (Failure.replayFetchError kind message).OfReplay := h

theorem readLoop_kind {maxBytes total : Nat} {ends : StreamEnd} {chunks : List UInt8}
    {reads : List (Option (List UInt8))} {failure : Failure}
    (h : readLoop maxBytes ends total chunks reads = .error failure) : failure.OfReplay := by
  fun_induction readLoop maxBytes ends total chunks reads with
  | case1 => cases h
  | case2 cause expired =>
    obtain rfl := Except.error.inj h
    trivial
  | case3 _ _ _ ih => exact ih h
  | case4 =>
    obtain rfl := Except.error.inj h
    exact Failure.ofReplay_of_mem (by decide) _
  | case5 _ _ _ _ _ ih => exact ih h

theorem readCapped_kind {deps : ReplayDeps} {response : HttpResponse} {failure : Failure}
    (h : readCapped deps response = .error failure) : failure.OfReplay := by
  unfold readCapped at h
  split at h
  · obtain rfl := Except.error.inj h
    exact Failure.ofReplay_of_mem (by decide) _
  · exact readLoop_kind (except_map_error.mp h)

theorem validate_kind {deps : ReplayDeps} {replayId : JsString}
    {safe : isSafeReplayId replayId = true} {text : JsString} {failure : Failure}
    (h : validate deps replayId safe text = .error failure) :
    ∃ kind message, failure = .replayFetchError kind message ∧ kind ∈ replayKinds := by
  unfold validate at h
  split at h
  · exact ⟨_, _, (Except.error.inj h).symm, by decide⟩
  · split at h
    · split at h
      · cases h
      · exact ⟨_, _, (Except.error.inj h).symm, by decide⟩
    · exact ⟨_, _, (Except.error.inj h).symm, by decide⟩
  · exact ⟨_, _, (Except.error.inj h).symm, by decide⟩

theorem receive_kind {deps : ReplayDeps} {replayId : JsString}
    {safe : isSafeReplayId replayId = true} {href : JsString} {response : HttpResponse}
    {failure : Failure} (h : receive deps replayId safe href response = .error failure) :
    failure.OfReplay := by
  unfold receive at h
  split at h
  · obtain rfl := Except.error.inj h
    exact Failure.ofReplay_of_mem (by decide) _
  · split at h
    · rcases except_bind_error.mp h with h | ⟨text, -, h⟩
      · exact readCapped_kind h
      · obtain ⟨kind, message, rfl, hkind⟩ := validate_kind h
        exact hkind
    · obtain rfl := Except.error.inj h
      exact Failure.ofReplay_of_mem (by decide) _

theorem rejected_kind (deps : ReplayDeps) (cause : Thrown) : (rejected deps cause).OfReplay := by
  unfold rejected
  split
  · trivial
  · exact Failure.ofReplay_of_mem (by decide) _
  · split
    · trivial
    · exact Failure.ofReplay_of_mem (by decide) _

theorem fetchReplay_kind {deps : ReplayDeps} {replayId : JsString} {fetch : FetchBehaviour}
    {failure : Failure} (h : fetchReplay deps replayId fetch = .error failure) :
    failure.OfReplay := by
  unfold fetchReplay at h
  split at h
  · split at h
    · obtain rfl := Except.error.inj h
      trivial
    · split at h
      · obtain rfl := Except.error.inj h
        exact rejected_kind deps _
      · exact receive_kind h
  · obtain rfl := Except.error.inj h
    exact Failure.ofReplay_of_mem (by decide) _

/-! ## Failures below HTTP -/

/-- A failure below HTTP: the rejection of `fetch`, or of a `read()` after the headers. -/
inductive Fault where
  | fetch (cause : Thrown) (expired : Bool)
  | read (cause : Thrown) (expired : Bool)

/-- The kind of a failure below HTTP. -/
def belowHttp (timedOut : Bool) : ErrorKind :=
  if timedOut then .replayTimeout else .replayTransportFailure

theorem belowHttp_injective : Function.Injective belowHttp := by
  intro a b h
  cases a <;> cases b <;> first | rfl | cases h

/-- What the contract calls the fault. -/
def Fault.kind : Fault → ErrorKind
  | .fetch _ expired | .read _ expired => belowHttp expired

/-- The value shows without a throw whether it is an `AbortError`, and if it is none has a text. -/
def Thrown.Shows (cause : Thrown) (abort : Bool) : Prop :=
  cause.isAbortError = .ok abort ∧ (abort = false → cause.text.isOk = true)

/-- The fault is a rejection of `fetch`, and shows an `AbortError` exactly if the timer has
fired. -/
def Fault.Recognised : Fault → Prop
  | .fetch cause expired => cause.Shows expired
  | .read _ _ => False

/-- The bytes of the chunks. -/
def bytesOf (reads : List (Option (List UInt8))) : List UInt8 := (reads.filterMap id).flatten

/-- The read that fails: a body is read only after a status that is OK, and no further than the
cap. -/
def HttpResponse.fault (maxBytes : Nat) (response : HttpResponse) : Option Fault :=
  match response.body with
  | some ⟨reads, .fails cause expired⟩ =>
    if response.isOk && (bytesOf reads).length ≤ maxBytes then some (.read cause expired) else none
  | _ => none

/-- The fault the request runs into. -/
def FetchBehaviour.fault (maxBytes : Nat) : FetchBehaviour → Option Fault
  | .rejects cause expired => some (.fetch cause expired)
  | .responds response => response.fault maxBytes

/-- The loop stops at the first chunk past the cap, which is there if all of them are too many. -/
theorem readLoop_eq {maxBytes total : Nat} (ends : StreamEnd) (chunks : List UInt8)
    {reads : List (Option (List UInt8))} (htotal : total ≤ maxBytes) :
    readLoop maxBytes ends total chunks reads =
      if maxBytes < total + (bytesOf reads).length then
        .error (.replayFetchError .replayTooLarge (js s!"replay body exceeded {maxBytes} bytes"))
      else
        readLoop maxBytes ends (total + (bytesOf reads).length) (chunks ++ bytesOf reads) [] := by
  induction reads generalizing total chunks with
  | nil =>
    rw [if_neg (by simpa [bytesOf] using htotal)]
    simp [bytesOf, readLoop]
  | cons read reads ih =>
    cases read with
    | none => exact ih chunks htotal
    | some value =>
      have hbytes : bytesOf (some value :: reads) = value ++ bytesOf reads := rfl
      rw [hbytes, List.length_append, ← Nat.add_assoc, ← List.append_assoc]
      by_cases hcap : maxBytes < total + value.length
      · rw [if_pos (by omega), readLoop, if_pos hcap]
      · rw [readLoop, if_neg hcap]
        exact ih (chunks ++ value) (by omega)

theorem readCapped_unclassified {deps : ReplayDeps} {response : HttpResponse} {cause : Thrown} :
    readCapped deps response = .error (.unclassified cause) ↔
      ∃ reads expired, response.body = some ⟨reads, .fails cause expired⟩ ∧
        (bytesOf reads).length ≤ deps.maxBytes := by
  unfold readCapped
  cases hbody : response.body with
  | none => simp
  | some body =>
    obtain ⟨reads, ends⟩ := body
    simp only [except_map_error, Option.some.injEq, Body.mk.injEq]
    rw [readLoop_eq ends [] (Nat.zero_le _), Nat.zero_add]
    by_cases hcap : deps.maxBytes < (bytesOf reads).length
    · rw [if_pos hcap]
      constructor
      · intro h
        cases h
      · rintro ⟨_, _, ⟨rfl, -⟩, hle⟩
        omega
    · rw [if_neg hcap]
      cases ends with
      | done => simp [readLoop]
      | fails cause' expired =>
        simp only [readLoop, Except.error.injEq, Failure.unclassified.injEq, StreamEnd.fails.injEq]
        constructor
        · rintro rfl
          exact ⟨reads, expired, ⟨rfl, rfl, rfl⟩, Nat.le_of_not_lt hcap⟩
        · rintro ⟨_, _, ⟨-, h, -⟩, -⟩
          exact h

/-- **Past the headers, only a `read()` that is reached and rejects leaves the failure without a
kind.** -/
theorem receive_unclassified {deps : ReplayDeps} {replayId : JsString}
    (safe : isSafeReplayId replayId = true) (href : JsString) (response : HttpResponse)
    {cause : Thrown} :
    receive deps replayId safe href response = .error (.unclassified cause) ↔
      ∃ expired, response.fault deps.maxBytes = some (.read cause expired) := by
  have hfault : (∃ expired, response.fault deps.maxBytes = some (.read cause expired)) ↔
      response.isOk = true ∧ readCapped deps response = .error (.unclassified cause) := by
    rw [readCapped_unclassified]
    unfold HttpResponse.fault
    cases response.body with
    | none => simp
    | some body =>
      obtain ⟨reads, ends⟩ := body
      cases ends with
      | done => simp
      | fails cause' expired =>
        by_cases hok : response.isOk = true <;>
          by_cases hcap : (bytesOf reads).length ≤ deps.maxBytes <;> simp [hok, hcap]
  rw [hfault]
  unfold receive
  by_cases h404 : response.status = 404
  · have hok : response.isOk = false := by
      unfold HttpResponse.isOk
      rw [h404]
      rfl
    simp [h404, hok]
  · rw [if_neg h404]
    by_cases hok : response.isOk = true
    · rw [if_pos hok, except_bind_error]
      refine ⟨?_, fun h => Or.inl h.2⟩
      rintro (h | ⟨text, -, h⟩)
      · exact ⟨hok, h⟩
      · obtain ⟨kind, message, h, -⟩ := validate_kind h
        cases h
    · simp [hok]

theorem HttpResponse.fault_read {maxBytes : Nat} {response : HttpResponse} {fault : Fault}
    (h : response.fault maxBytes = some fault) :
    ∃ cause expired, fault = .read cause expired := by
  unfold HttpResponse.fault at h
  split at h
  · split at h
    · exact ⟨_, _, (Option.some.inj h).symm⟩
    · cases h
  · cases h

/-! ## What the contract promises -/

/-- A run of `fetchReplay` is classified: it resolves with a usable log or rejects with a
`ReplayFetchError`, whose kind is the fault's if the request runs into one, and the route answers
the failure with the code of its kind. -/
structure Classified (deps : ReplayDeps) (replayId : JsString) (fetch : FetchBehaviour) :
    Prop where
  settles : (∃ p, fetchReplay deps replayId fetch = .ok p ∧ p.id = replayId ∧
      isBlank p.log = false) ∨
    ∃ kind message, fetchReplay deps replayId fetch = .error (.replayFetchError kind message)
  faultKind : isSafeReplayId replayId = true → ∀ fault, fetch.fault deps.maxBytes = some fault →
    ∃ message,
      fetchReplay deps replayId fetch = .error (.replayFetchError fault.kind message)
  answered : ∀ failure, fetchReplay deps replayId fetch = .error failure →
    ∃ status kind message, failure.reply = .fail status kind message ∧
      statusOf kind = some status

/-- Nothing but `fetch` itself throws below HTTP, and it throws what shows an `AbortError` exactly
when the timer has fired. -/
def Foreseen (deps : ReplayDeps) (replayId : JsString) (fetch : FetchBehaviour) : Prop :=
  isSafeReplayId replayId = true →
    (deps.newUrl (replayId ++ js ".json")).isSome = true ∧
      ∀ fault, fetch.fault deps.maxBytes = some fault → fault.Recognised

theorem validate_id {deps : ReplayDeps} {replayId : JsString}
    {safe : isSafeReplayId replayId = true} {text : JsString} {p : FetchedReplay}
    (h : validate deps replayId safe text = .ok p) : p.id = replayId := by
  unfold validate at h
  split at h
  · cases h
  · split at h
    · split at h
      · obtain rfl := Except.ok.inj h
        rfl
      · cases h
    · cases h
  · cases h

theorem receive_id {deps : ReplayDeps} {replayId : JsString}
    {safe : isSafeReplayId replayId = true} {href : JsString} {response : HttpResponse}
    {p : FetchedReplay} (h : receive deps replayId safe href response = .ok p) :
    p.id = replayId := by
  unfold receive at h
  split at h
  · cases h
  · split at h
    · obtain ⟨text, -, h⟩ := except_bind_ok.mp h
      exact validate_id h
    · cases h

theorem fetchReplay_id {deps : ReplayDeps} {replayId : JsString} {fetch : FetchBehaviour}
    {p : FetchedReplay} (h : fetchReplay deps replayId fetch = .ok p) : p.id = replayId := by
  unfold fetchReplay at h
  split at h
  · split at h
    · cases h
    · split at h
      · cases h
      · exact receive_id h
  · cases h

/-- What a rejection that shows what it is becomes. -/
theorem rejected_of_shows {deps : ReplayDeps} {cause : Thrown} {abort : Bool}
    (h : cause.Shows abort) :
    ∃ message, rejected deps cause = .replayFetchError (belowHttp abort) message := by
  obtain ⟨habort, htext⟩ := h
  unfold rejected
  rw [habort]
  cases abort with
  | true => exact ⟨_, rfl⟩
  | false =>
    cases hprinted : cause.text with
    | ok text => exact ⟨_, rfl⟩
    | error thrown =>
      have hok := htext rfl
      rw [hprinted] at hok
      cases hok

/-- Only such a rejection is given a kind. -/
theorem shows_of_rejected {deps : ReplayDeps} {cause : Thrown} {kind : ErrorKind}
    {message : JsString} (h : rejected deps cause = .replayFetchError kind message) :
    ∃ abort, cause.Shows abort ∧ kind = belowHttp abort := by
  unfold rejected at h
  split at h
  · cases h
  · rename_i habort
    exact ⟨true, ⟨habort, fun hfalse => by cases hfalse⟩, (Failure.replayFetchError.inj h).1.symm⟩
  · rename_i habort
    split at h
    · cases h
    · rename_i text htext
      exact ⟨false, ⟨habort, fun _ => by rw [htext]; rfl⟩, (Failure.replayFetchError.inj h).1.symm⟩

section

variable {deps : ReplayDeps} {replayId : JsString} (hsafe : isSafeReplayId replayId = true)

include hsafe

theorem fetchReplay_invalidUrl (hurl : deps.newUrl (replayId ++ js ".json") = none)
    (fetch : FetchBehaviour) :
    fetchReplay deps replayId fetch = .error (.unclassified invalidUrl) := by
  unfold fetchReplay
  simp only [hsafe, dite_true, hurl]

theorem fetchReplay_rejects (hurl : (deps.newUrl (replayId ++ js ".json")).isSome = true)
    (cause : Thrown) (expired : Bool) :
    fetchReplay deps replayId (.rejects cause expired) = .error (rejected deps cause) := by
  obtain ⟨href, hhref⟩ := Option.isSome_iff_exists.mp hurl
  unfold fetchReplay
  simp only [hsafe, dite_true, hhref]

/-- A response is left without a kind exactly by a read. -/
theorem fetchReplay_responds (hurl : (deps.newUrl (replayId ++ js ".json")).isSome = true)
    (response : HttpResponse) {cause : Thrown} :
    fetchReplay deps replayId (.responds response) = .error (.unclassified cause) ↔
      ∃ expired, response.fault deps.maxBytes = some (.read cause expired) := by
  obtain ⟨href, hhref⟩ := Option.isSome_iff_exists.mp hurl
  unfold fetchReplay
  simp only [hsafe, dite_true, hhref]
  exact receive_unclassified hsafe href response

end

theorem fetchReplay_refused {deps : ReplayDeps} {replayId : JsString}
    (hsafe : ¬ isSafeReplayId replayId = true) (fetch : FetchBehaviour) :
    fetchReplay deps replayId fetch = .error (.replayFetchError .invalidReplayId
      (js "unsafe replay id: " ++ jsonQuote replayId)) := by
  unfold fetchReplay
  rw [dif_neg hsafe]

/-- Without such a failure the request settles as it should. -/
theorem settles_of_classified {deps : ReplayDeps} {replayId : JsString} {fetch : FetchBehaviour}
    (h : ¬ ∃ cause, fetchReplay deps replayId fetch = .error (.unclassified cause)) :
    (∃ p, fetchReplay deps replayId fetch = .ok p ∧ p.id = replayId ∧ isBlank p.log = false) ∨
      ∃ kind message,
        fetchReplay deps replayId fetch = .error (.replayFetchError kind message) := by
  cases hf : fetchReplay deps replayId fetch with
  | ok p => exact Or.inl ⟨p, rfl, fetchReplay_id hf, p.usable⟩
  | error failure =>
    cases failure with
    | replayFetchError kind message => exact Or.inr ⟨kind, message, rfl⟩
    | unclassified cause => exact absurd ⟨cause, hf⟩ h

theorem Failure.reply_of_kind {kind : ErrorKind} {status : Nat} (h : statusOf kind = some status)
    (message : JsString) :
    (Failure.replayFetchError kind message).reply = .fail status kind message := by
  simp [Failure.reply, BattleCloud.fail, h]

theorem Classified.foreseen {deps : ReplayDeps} {replayId : JsString} {fetch : FetchBehaviour}
    (h : Classified deps replayId fetch) : Foreseen deps replayId fetch := by
  intro hsafe
  have hnone : ∀ cause, fetchReplay deps replayId fetch ≠ .error (.unclassified cause) := by
    intro cause hc
    obtain ⟨status, kind, message, hr, -⟩ := h.answered _ hc
    cases hr
  have hurl : (deps.newUrl (replayId ++ js ".json")).isSome = true := by
    cases hurl : deps.newUrl (replayId ++ js ".json") with
    | none => exact absurd (fetchReplay_invalidUrl hsafe hurl fetch) (hnone invalidUrl)
    | some href => rfl
  refine ⟨hurl, fun fault hf => ?_⟩
  cases fetch with
  | responds response =>
    obtain ⟨cause, expired, rfl⟩ := HttpResponse.fault_read hf
    exact absurd ((fetchReplay_responds hsafe hurl response).mpr ⟨expired, hf⟩) (hnone cause)
  | rejects cause expired =>
    obtain rfl : Fault.fetch cause expired = fault := Option.some.inj hf
    obtain ⟨message, hm⟩ := h.faultKind hsafe _ hf
    rw [fetchReplay_rejects hsafe hurl cause expired] at hm
    obtain ⟨abort, hshows, hkind⟩ := shows_of_rejected (Except.error.inj hm)
    obtain rfl : expired = abort := belowHttp_injective hkind
    exact hshows

/-- A foreseen request leaves with a kind, its fault's if it runs into one. -/
theorem Foreseen.kind {deps : ReplayDeps} {replayId : JsString} {fetch : FetchBehaviour}
    (h : Foreseen deps replayId fetch) (hsafe : isSafeReplayId replayId = true) {fault : Fault}
    (hf : fetch.fault deps.maxBytes = some fault) :
    ∃ message, fetchReplay deps replayId fetch = .error (.replayFetchError fault.kind message) := by
  obtain ⟨hurl, hrec⟩ := h hsafe
  cases fetch with
  | responds response =>
    obtain ⟨_, _, rfl⟩ := HttpResponse.fault_read hf
    exact (hrec _ hf).elim
  | rejects cause expired =>
    obtain rfl : Fault.fetch cause expired = fault := Option.some.inj hf
    obtain ⟨message, hm⟩ := @rejected_of_shows deps cause expired (hrec _ hf)
    rw [fetchReplay_rejects hsafe hurl cause expired, hm]
    exact ⟨message, rfl⟩

theorem Foreseen.not_unclassified {deps : ReplayDeps} {replayId : JsString}
    {fetch : FetchBehaviour} (h : Foreseen deps replayId fetch) :
    ¬ ∃ cause, fetchReplay deps replayId fetch = .error (.unclassified cause) := by
  rintro ⟨cause, hc⟩
  by_cases hsafe : isSafeReplayId replayId = true
  · obtain ⟨hurl, hrec⟩ := h hsafe
    cases fetch with
    | responds response =>
      obtain ⟨expired, hf⟩ := (fetchReplay_responds hsafe hurl response).mp hc
      exact hrec _ hf
    | rejects cause' expired =>
      obtain ⟨message, hm⟩ := h.kind hsafe rfl
      rw [hm] at hc
      cases hc
  · rw [fetchReplay_refused hsafe fetch] at hc
    cases hc

theorem Foreseen.classified {deps : ReplayDeps} {replayId : JsString} {fetch : FetchBehaviour}
    (h : Foreseen deps replayId fetch) : Classified deps replayId fetch := by
  have hnone := h.not_unclassified
  refine ⟨settles_of_classified hnone, fun hsafe fault hf => h.kind hsafe hf, fun failure hf => ?_⟩
  cases failure with
  | unclassified cause => exact absurd ⟨cause, hf⟩ hnone
  | replayFetchError kind message =>
    obtain ⟨status, hs⟩ := statusOf_replayKinds (fetchReplay_kind hf)
    exact ⟨status, kind, message, Failure.reply_of_kind hs message, hs⟩

/-- **A fetch is classified exactly if whatever fails below HTTP is `fetch` itself, with a value
that shows whether the timer has fired.** -/
theorem fetchReplay_classified_iff (deps : ReplayDeps) (replayId : JsString)
    (fetch : FetchBehaviour) :
    Classified deps replayId fetch ↔ Foreseen deps replayId fetch :=
  ⟨Classified.foreseen, Foreseen.classified⟩

namespace Sample

/-- The default host and limits, and a parser that refuses every text. -/
def replayDeps : ReplayDeps :=
  { maxBytes := 5 * 1024 * 1024
    timeoutMs := 20000
    newUrl := fun path => some (js "https://replay.pokemonshowdown.com/" ++ path)
    decode := fun bytes => bytes.map fun b => UInt16.ofNat b.toNat
    parse := fun _ => none }

/-- The headers and one chunk arrive, then the connection breaks. -/
def brokenBody : FetchBehaviour :=
  .responds ⟨200, some ⟨[some [123]], .fails (.ofError (js "TypeError") (js "terminated")) false⟩⟩

end Sample

/-- A connection that breaks in the middle of the body is a 500. -/
theorem fetchReplay_broken_body :
    ¬ Classified Sample.replayDeps (js "gen9ou-1") Sample.brokenBody := by
  intro h
  exact (h.foreseen (by decide)).2 _ rfl

end BattleCloud
