import BattleCloud.Api.RateLimiter
import BattleCloud.Api.Storing

/-!
# `POST /v1/analyses`

The handler of `api/src/routes.ts` from the body of the request to its reply, over the four tables
and `lastSweep` of the instance. `Faults` says which of the awaited steps reject, and what the
launcher does; a statement that rejects has no effect. The handler runs alone: what other requests
and workers do between its statements is the subject of the fleet.

`Handled` is the reply, the state it leaves, and the row the `enqueue` statement returned if it
committed. `Outcome` is that the reply is a 202 exactly in that case, and what each of the other
replies leaves behind. **`submission_atomic_iff`**: it holds of a request unless the request comes
to the launcher and the launcher fails in a way the route does not catch.
-/

namespace BattleCloud

/-- The part of the configuration the handler reads, and the text zod gives of a body it does not
accept. -/
structure ApiConfig where
  build : EngineBuild
  limiter : RateLimiterConfig
  replay : ReplayDeps
  /-- `parsed.error.issues.map((i) => i.message).join('; ')`. -/
  issues : Option JsValue → JsString

/-- The four tables, and what the limiter of the instance keeps. -/
structure ApiState where
  db : Db
  windows : List RateLimitWindow
  lastSweep : Int

/-- What `deps.launcher.ensureRunning()` does. -/
inductive LaunchOutcome where
  | resolves
  | rejects (cause : Thrown)
  /-- It throws before there is a promise. -/
  | throws (cause : Thrown)

/-- The route's `catch` takes the failure: there is a rejection, and a text of it to be logged. -/
def LaunchOutcome.Contained : LaunchOutcome → Prop
  | .resolves => True
  | .rejects cause => cause.text.isOk = true
  | .throws _ => False

/-- The awaited steps that reject. -/
structure Faults where
  analysisByIdentity : Bool
  consumeRateLimit : Bool
  sweepRateLimits : Bool
  replayLog : Bool
  upsertReplay : Bool
  enqueue : Bool
  ensureRunning : LaunchOutcome

/-- What a request meets: the faults, the clock at its two readings, what the host of the replay
does, the levels `JSON.stringify` has room for on the stack, and what Postgres generates. -/
structure Conditions where
  faults : Faults
  consumedAt : Int
  refusedAt : Int
  fetch : FetchBehaviour
  stringifyLevels : Nat
  newId : Uuid
  now : Timestamptz

inductive PostReply where
  /-- 200 with the cached analysis. -/
  | ok (analysis : StoredAnalysis)
  /-- 202 with the job. -/
  | accepted (job : StoredJob) (created : Bool)
  /-- Any other reply; a refusal of the limiter says when to come back. -/
  | failed (reply : ErrorReply) (retryAfter : Option Int)

structure Handled where
  reply : PostReply
  state : ApiState
  enqueued : Option (JobRow × Bool)
  /-- The text of the launch that failed, as it is logged. -/
  warned : Option JsString

/-! ## The awaited steps -/

/-- A rejected query. -/
def queryError : Thrown := .ofError (js "error") (js "query failed")

/-- What `JSON.stringify` throws of a value nested too deeply. -/
def rangeError : Thrown := .ofError (js "RangeError") (js "Maximum call stack size exceeded")

/-- A statement, which Postgres may refuse and a fault may reject. -/
def statement {α : Type} (fault : Bool) (x : Except DbError α) : Except Thrown α :=
  if fault then .error queryError
  else
    match x with
    | .ok a => .ok a
    | .error _ => .error queryError

variable (cfg : ApiConfig) (env : Conditions)

/-- `RateLimiter.tryConsume`: what it leaves, and what it returns. -/
def tryConsume (s : ApiState) (key : String) : ApiState × Except Thrown Bool :=
  if env.faults.consumeRateLimit then (s, .error queryError)
  else
    let r := consumeRateLimit s.windows key (cfg.limiter.windowStart env.consumedAt)
      cfg.limiter.limit
    let s := { s with windows := r.1 }
    if env.consumedAt - s.lastSweep < cfg.limiter.windowMs then (s, .ok r.2)
    else
      let s := { s with lastSweep := env.consumedAt }
      if env.faults.sweepRateLimits then (s, .error queryError)
      else
        ({ s with windows :=
            sweepRateLimits s.windows (cfg.limiter.windowStart env.consumedAt) }, .ok r.2)

/-- `RateLimiter.retryAfterSeconds`. -/
def retryAfterSeconds : Int :=
  max 0 ((cfg.limiter.windowStart env.refusedAt + cfg.limiter.windowMs - env.refusedAt + 999) /
    1000)

/-- `upsertReplay`; the players are written before there is a query to reject. -/
def upsertFetched (db : Db) (payload : FetchedReplay) : Except Thrown Db :=
  match storeReplay env.stringifyLevels db payload with
  | .error .stackOverflow => .error rangeError
  | .error (.query e) => statement env.faults.upsertReplay (.error e)
  | .ok db' => statement env.faults.upsertReplay (.ok db')

/-- The `try` block: the replay is stored, and how many turns it is estimated to have. -/
def acquireReplay (db : Db) (submit : SubmitRequest) : Except Failure (Db × Nat) :=
  match statement env.faults.replayLog (.ok (replayLog db submit.replayId)) with
  | .error cause => .error (.unclassified cause)
  | .ok (some storedLog) => .ok (db, estimateTurns storedLog)
  | .ok none =>
    (fetchReplay cfg.replay (js submit.replayId) env.fetch).bind fun payload =>
    match upsertFetched env db payload with
    | .error cause => .error (.unclassified cause)
    | .ok db' => .ok (db', estimateTurns payload.log.text)

/-- `store.enqueue` of a request. -/
def enqueueRequest (db : Db) (submit : SubmitRequest) (estimatedTurns : Nat) :
    Except Thrown (Db × JobRow × Bool) :=
  statement env.faults.enqueue (enqueue db (deriveIdentity submit cfg.build) submit.profile
    estimatedTurns (estimateDuration estimatedTurns submit.profile) env.newId env.now)

/-- `await deps.launcher.ensureRunning().catch(..)` for a job that waits: the text of the warning,
or what leaves the handler. -/
def ensureRunning (job : JobRow) : Except Thrown (Option JsString) :=
  if job.status = .queued then
    match env.faults.ensureRunning with
    | .resolves => .ok none
    -- `String(cause)`, with nothing around the handler of the `catch`
    | .rejects cause => cause.text.map some
    | .throws cause => .error cause
  else .ok none

/-! ## The handler -/

/-- The reply when the launch is over. -/
def replyAfter (launch : Except Thrown (Option JsString)) (job : StoredJob) (created : Bool) :
    PostReply :=
  match launch with
  | .ok _ => .accepted job created
  | .error cause => .failed (.internal cause) none

theorem replyAfter_cases (launch : Except Thrown (Option JsString)) (job : StoredJob)
    (created : Bool) : replyAfter launch job created = .accepted job created ∨
      ∃ cause, replyAfter launch job created = .failed (.internal cause) none := by
  cases launch with
  | ok warned => exact Or.inl rfl
  | error cause => exact Or.inr ⟨cause, rfl⟩

/-- A reply without an enqueue. -/
def Handled.without (reply : PostReply) (s : ApiState) : Handled :=
  { reply, state := s, enqueued := none, warned := none }

/-- From the enqueue on. -/
def enqueueAndReply (s : ApiState) (submit : SubmitRequest) (estimatedTurns : Nat) : Handled :=
  match enqueueRequest cfg env s.db submit estimatedTurns with
  | .error cause => .without (.failed (.internal cause) none) s
  | .ok (db, job, created) =>
    { reply := replyAfter (ensureRunning env job) (toJob job) created
      state := { s with db }
      enqueued := some (job, created)
      warned := (ensureRunning env job).toOption.join }

/-- After the limiter. -/
def acquireAndReply (s : ApiState) (submit : SubmitRequest) : Handled :=
  match acquireReplay cfg env s.db submit with
  | .error failure => .without (.failed failure.reply none) s
  | .ok (db, estimatedTurns) => enqueueAndReply cfg env { s with db } submit estimatedTurns

/-- After the cache. -/
def limitAndReply (s : ApiState) (clientKey : String) (submit : SubmitRequest) : Handled :=
  match tryConsume cfg env s clientKey with
  | (s, .error cause) => .without (.failed (.internal cause) none) s
  | (s, .ok false) =>
    .without (.failed (BattleCloud.fail .rateLimited (js "submission rate exceeded"))
      (some (retryAfterSeconds cfg env))) s
  | (s, .ok true) => acquireAndReply cfg env s submit

def postAnalyses (s : ApiState) (clientKey : String) (body : Option JsValue) : Handled :=
  match parseSubmitRequest body with
  | none => .without (.failed (BattleCloud.fail .invalidRequest (cfg.issues body)) none) s
  | some submit =>
    match statement env.faults.analysisByIdentity
        (analysisByIdentity s.db (deriveIdentity submit cfg.build)) with
    | .error cause => .without (.failed (.internal cause) none) s
    | .ok (some cached) => .without (.ok cached) s
    | .ok none => limitAndReply cfg env s clientKey submit

/-! ## What each step leaves -/

variable {cfg} {env}

theorem statement_ok {α : Type} {fault : Bool} {x : Except DbError α} {a : α}
    (h : statement fault x = .ok a) : x = .ok a := by
  unfold statement at h
  split at h
  · cases h
  · cases x with
    | ok b => exact congrArg Except.ok (Except.ok.inj h)
    | error e => cases h

theorem tryConsume_db (s : ApiState) (key : String) : (tryConsume cfg env s key).1.db = s.db := by
  unfold tryConsume
  split
  · rfl
  · dsimp only
    split
    · rfl
    · split <;> rfl

/-- The replays are as they were, or there is one more, of this id, which was not there. -/
def ReplaysKept (replayId : String) (db db' : Db) : Prop :=
  db'.replays = db.replays ∨
    ∃ r, r.id = replayId ∧ (∀ r' ∈ db.replays, r'.id ≠ r.id) ∧ db'.replays = db.replays ++ [r]

theorem upsertFetched_ok {db db' : Db} {p : FetchedReplay}
    (h : upsertFetched env db p = .ok db') : storeReplay env.stringifyLevels db p = .ok db' := by
  unfold upsertFetched at h
  split at h
  · cases h
  · cases statement_ok h
  · rename_i hstore
    rw [hstore]
    exact congrArg Except.ok (Except.ok.inj (statement_ok h))

theorem storeReplay_kept {levels : Nat} {db db' : Db} {p : FetchedReplay}
    (h : storeReplay levels db p = .ok db') :
    db'.jobs = db.jobs ∧ db'.analyses = db.analyses ∧ ReplaysKept p.id.text db db' := by
  obtain ⟨-, r, hr, h⟩ := storeReplay_ok.mp h
  obtain ⟨hid, -⟩ := FetchedReplay.row_ok hr
  rcases insertReplay_cases db r with ⟨hok, -⟩ | ⟨hok, hnew⟩
  · rw [hok] at h
    obtain rfl := Except.ok.inj h
    exact ⟨rfl, rfl, Or.inl rfl⟩
  · rw [hok] at h
    obtain ⟨-, rfl⟩ := Db.commit_ok.mp h
    exact ⟨rfl, rfl, Or.inr ⟨r, hid, hnew, rfl⟩⟩

/-- The `try` block touches no other table, and adds no other replay than the one asked for. -/
theorem acquireReplay_ok {db db' : Db} {submit : SubmitRequest} {turns : Nat}
    (h : acquireReplay cfg env db submit = .ok (db', turns)) :
    db'.jobs = db.jobs ∧ db'.analyses = db.analyses ∧ ReplaysKept submit.replayId db db' := by
  unfold acquireReplay at h
  split at h
  · cases h
  · obtain ⟨rfl, -⟩ := Prod.mk.inj (Except.ok.inj h)
    exact ⟨rfl, rfl, Or.inl rfl⟩
  · obtain ⟨payload, hp, h⟩ := except_bind_ok.mp h
    split at h
    · cases h
    · rename_i hstore
      obtain ⟨rfl, -⟩ := Prod.mk.inj (Except.ok.inj h)
      have hkept := storeReplay_kept (upsertFetched_ok hstore)
      rw [fetchReplay_id hp, JsString.text_js] at hkept
      exact hkept

/-- The `catch` answers no failure as an invalid request. -/
theorem acquireReplay_error {db : Db} {submit : SubmitRequest} {failure : Failure}
    (h : acquireReplay cfg env db submit = .error failure) : failure.OfReplay := by
  unfold acquireReplay at h
  split at h
  · obtain rfl := Except.error.inj h
    trivial
  · cases h
  · rcases except_bind_error.mp h with h | ⟨payload, -, h⟩
    · exact fetchReplay_kind h
    · split at h
      · obtain rfl := Except.error.inj h
        trivial
      · cases h

/-! ## The outcome -/

/-- The replies that promise not to have written anything. -/
def PostReply.ReadOnly : PostReply → Prop
  | .ok _ => True
  | .failed (.fail _ kind _) _ => kind = .invalidRequest
  | _ => False

/-- What handling a body, parsed as `request`, leaves of the state `s` it came to. -/
structure Outcome (cfg : ApiConfig) (s : ApiState) (request : Option SubmitRequest) (h : Handled) :
    Prop where
  /-- 202 exactly if the `enqueue` statement committed. -/
  accepted_iff : (∃ job created, h.reply = .accepted job created) ↔ h.enqueued.isSome = true
  /-- Its job is in the table, of the derived identity, and queued or running. -/
  live : ∀ job created, h.reply = .accepted job created →
    ∃ submit ∈ request, ∃ j ∈ h.state.db.jobs, job = toJob j ∧ j.live = true ∧
      j.columns = (deriveIdentity submit cfg.build).columns
  /-- Any other reply leaves the jobs as they were. -/
  jobs : (∀ job created, h.reply ≠ .accepted job created) → h.state.db.jobs = s.db.jobs
  analyses : h.state.db.analyses = s.db.analyses
  replays : h.state.db.replays = s.db.replays ∨
    ∃ submit ∈ request, ReplaysKept submit.replayId s.db h.state.db
  readOnly : h.reply.ReadOnly → h.state = s

/-- A reply without an enqueue, over tables that are those of `s` but for the replay. -/
theorem Outcome.without {s s' : ApiState} {request : Option SubmitRequest} {reply : PostReply}
    (hreply : ∀ job created, reply ≠ .accepted job created) (hjobs : s'.db.jobs = s.db.jobs)
    (hanalyses : s'.db.analyses = s.db.analyses)
    (hreplays : s'.db.replays = s.db.replays ∨
      ∃ submit ∈ request, ReplaysKept submit.replayId s.db s'.db)
    (hread : reply.ReadOnly → s' = s) :
    Outcome cfg s request (.without reply s') where
  accepted_iff := by
    simp only [Handled.without, Option.isSome_none, Bool.false_eq_true, iff_false]
    rintro ⟨job, created, h⟩
    exact hreply job created h
  live := fun job created h => absurd h (hreply job created)
  jobs := fun _ => hjobs
  analyses := hanalyses
  replays := hreplays
  readOnly := hread

/-- A reply that leaves the state as it was. -/
theorem Outcome.same {s : ApiState} {request : Option SubmitRequest} {reply : PostReply}
    (hreply : ∀ job created, reply ≠ .accepted job created) :
    Outcome cfg s request (.without reply s) :=
  .without hreply rfl rfl (Or.inl rfl) fun _ => rfl

/-- The launch is caught unless it is one of a job that waits. -/
theorem ensureRunning_ok_iff {job : JobRow} :
    (∃ warned, ensureRunning env job = .ok warned) ↔
      (job.status = .queued → env.faults.ensureRunning.Contained) := by
  unfold ensureRunning
  by_cases hq : job.status = .queued
  · rw [if_pos hq]
    cases env.faults.ensureRunning with
    | resolves => simp [LaunchOutcome.Contained]
    | throws cause => simp [LaunchOutcome.Contained, hq]
    | rejects cause =>
      cases htext : cause.text <;>
        simp [LaunchOutcome.Contained, hq, htext, Except.map, Except.isOk, Except.toBool]
  · rw [if_neg hq]
    simp [hq]

/-- An enqueue whose launch is caught. -/
theorem enqueueAndReply_outcome {s s' : ApiState} {submit : SubmitRequest} (turns : Nat)
    (hjobs : s'.db.jobs = s.db.jobs) (hanalyses : s'.db.analyses = s.db.analyses)
    (hreplays : ReplaysKept submit.replayId s.db s'.db)
    (hlaunch : ∀ db job created,
      enqueueRequest cfg env s'.db submit turns = .ok (db, job, created) →
        job.status = .queued → env.faults.ensureRunning.Contained) :
    Outcome cfg s (some submit) (enqueueAndReply cfg env s' submit turns) := by
  unfold enqueueAndReply
  split
  · refine .without ?_ hjobs hanalyses (Or.inr ⟨submit, rfl, hreplays⟩) (fun h => h.elim)
    intro job created h
    cases h
  · rename_i db job created hen
    obtain ⟨warned, hwarned⟩ := ensureRunning_ok_iff.mpr (hlaunch db job created hen)
    rw [hwarned, replyAfter]
    obtain ⟨hcolumns, hcases⟩ := enqueue_ok (statement_ok hen)
    have hdb : db.analyses = s'.db.analyses ∧ db.replays = s'.db.replays ∧ job ∈ db.jobs ∧
        job.live = true := by
      rcases hcases with ⟨-, rfl, hj, hl⟩ | ⟨-, -, hj, hd, -⟩
      · exact ⟨rfl, rfl, hj, hl⟩
      · rw [hd]
        refine ⟨rfl, rfl, List.mem_append_right _ List.mem_cons_self, ?_⟩
        rw [hj]
        rfl
    obtain ⟨ha, hr, hj, hl⟩ := hdb
    exact {
      accepted_iff := ⟨fun _ => rfl, fun _ => ⟨_, _, rfl⟩⟩
      live := by
        intro job' created' h
        cases h
        exact ⟨submit, rfl, job, hj, rfl, hl, hcolumns⟩
      jobs := fun h => absurd rfl (h _ _)
      analyses := ha.trans hanalyses
      replays := by
        refine Or.inr ⟨submit, rfl, ?_⟩
        unfold ReplaysKept
        rw [hr]
        exact hreplays
      readOnly := fun h => h.elim }

/-- An enqueue whose launch is not: it has committed, and the reply is none of a job. -/
theorem enqueueAndReply_thrown {s s' : ApiState} {request : Option SubmitRequest}
    {submit : SubmitRequest} {turns : Nat} {db : Db} {job : JobRow} {created : Bool}
    (hen : enqueueRequest cfg env s'.db submit turns = .ok (db, job, created))
    (hq : job.status = .queued) (hlaunch : ¬ env.faults.ensureRunning.Contained) :
    ¬ Outcome cfg s request (enqueueAndReply cfg env s' submit turns) := by
  intro hout
  have haccepted := hout.accepted_iff
  unfold enqueueAndReply at haccepted
  rw [hen] at haccepted
  dsimp only at haccepted
  cases he : ensureRunning env job with
  | ok warned => exact hlaunch (ensureRunning_ok_iff.mp ⟨warned, he⟩ hq)
  | error cause =>
    rw [he] at haccepted
    obtain ⟨job', created', hreply⟩ := haccepted.mpr rfl
    cases hreply

theorem Failure.reply_not_readOnly {failure : Failure} (h : failure.OfReplay)
    (retryAfter : Option Int) : ¬ (PostReply.failed failure.reply retryAfter).ReadOnly := by
  cases failure with
  | unclassified cause => exact fun h => h
  | replayFetchError kind message =>
    rintro (rfl : kind = .invalidRequest)
    have hkind : ErrorKind.invalidRequest ∈ replayKinds := h
    exact absurd hkind (by decide)

/-- The acquisition and the enqueue go through, and this is the job. -/
def GivesJob (cfg : ApiConfig) (env : Conditions) (db : Db) (submit : SubmitRequest)
    (job : JobRow) : Prop :=
  ∃ db₁ turns db₂ created, acquireReplay cfg env db submit = .ok (db₁, turns) ∧
    enqueueRequest cfg env db₁ submit turns = .ok (db₂, job, created)

theorem acquireAndReply_outcome {s s' : ApiState} {submit : SubmitRequest} (hdb : s'.db = s.db)
    (hlaunch : ∀ job, GivesJob cfg env s.db submit job → job.status = .queued →
      env.faults.ensureRunning.Contained) :
    Outcome cfg s (some submit) (acquireAndReply cfg env s' submit) := by
  unfold acquireAndReply
  split
  · rename_i failure hacq
    refine .without ?_ (by rw [hdb]) (by rw [hdb]) (Or.inl (by rw [hdb])) ?_
    · intro job created h
      cases h
    · exact fun h => absurd h (Failure.reply_not_readOnly (acquireReplay_error hacq) none)
  · rename_i db turns hacq
    rw [hdb] at hacq
    obtain ⟨hjobs, hanalyses, hreplays⟩ := acquireReplay_ok hacq
    refine enqueueAndReply_outcome turns hjobs hanalyses hreplays fun db' job created hen => ?_
    exact hlaunch job ⟨db, turns, db', created, hacq, hen⟩

theorem limitAndReply_outcome (s : ApiState) (clientKey : String) (submit : SubmitRequest)
    (hlaunch : (tryConsume cfg env s clientKey).2 = .ok true →
      ∀ job, GivesJob cfg env s.db submit job → job.status = .queued →
        env.faults.ensureRunning.Contained) :
    Outcome cfg s (some submit) (limitAndReply cfg env s clientKey submit) := by
  have hdb := @tryConsume_db cfg env s clientKey
  unfold limitAndReply
  split
  · rename_i s' cause heq
    rw [heq] at hdb
    refine .without ?_ (by rw [hdb]) (by rw [hdb]) (Or.inl (by rw [hdb])) (fun h => h.elim)
    intro job created h
    cases h
  · rename_i s' heq
    rw [heq] at hdb
    refine .without ?_ (by rw [hdb]) (by rw [hdb]) (Or.inl (by rw [hdb])) ?_
    · intro job created h
      cases h
    · intro h
      cases h
  · rename_i s' heq
    rw [heq] at hdb hlaunch
    exact acquireAndReply_outcome hdb (hlaunch rfl)

/-! ## The requests that come to the launcher -/

section

variable {db : Db} {submit : SubmitRequest} {job : JobRow}

/-- With no running job of the identity the job waits. -/
theorem GivesJob.queued (h : GivesJob cfg env db submit job)
    (hidle : ∀ j ∈ db.jobs, j.columns = (deriveIdentity submit cfg.build).columns →
      j.status ≠ .running) : job.status = .queued := by
  obtain ⟨db₁, turns, db₂, created, hacq, hen⟩ := h
  obtain ⟨hjobs, -⟩ := acquireReplay_ok hacq
  obtain ⟨hcolumns, ⟨-, -, hj, hlive⟩ | ⟨-, -, hj, -⟩⟩ := enqueue_ok (statement_ok hen)
  · have hrunning := hidle job (hjobs ▸ hj) hcolumns
    unfold JobRow.live at hlive
    rw [Bool.or_eq_true, decide_eq_true_eq, decide_eq_true_eq] at hlive
    exact hlive.resolve_right hrunning
  · rw [hj]
    rfl

/-- A job that waits is the only live one of its identity. -/
theorem GivesJob.idle (hv : db.Valid) (h : GivesJob cfg env db submit job)
    (hq : job.status = .queued) : ∀ j ∈ db.jobs,
      j.columns = (deriveIdentity submit cfg.build).columns → j.status ≠ .running := by
  obtain ⟨db₁, turns, db₂, created, hacq, hen⟩ := h
  obtain ⟨hjobs, -⟩ := acquireReplay_ok hacq
  intro j hj hcol hrunning
  have hlive : j.live = true := by
    unfold JobRow.live
    rw [hrunning]
    rfl
  obtain ⟨hcolumns, ⟨-, -, hmem, hl⟩ | ⟨-, hnone, -⟩⟩ := enqueue_ok (statement_ok hen)
  · have hunique : Table.UniqueWhere JobRow.live JobRow.columns db.jobs := hv .jobsActiveIdentityKey
    rw [hjobs] at hmem
    rw [hunique.eq hj hmem hlive hl (hcol.trans hcolumns.symm), hq] at hrunning
    cases hrunning
  · exact hnone j (hjobs ▸ hj) hlive hcol

end

/-- The request comes to the launcher: its body is accepted, its analysis is not there, the limiter
lets it pass, its replay is acquired and its job enqueued, which no worker is running. -/
def Launches (cfg : ApiConfig) (env : Conditions) (s : ApiState) (clientKey : String)
    (body : Option JsValue) : Prop :=
  ∃ submit, parseSubmitRequest body = some submit ∧
    statement env.faults.analysisByIdentity
      (analysisByIdentity s.db (deriveIdentity submit cfg.build)) = .ok none ∧
    (tryConsume cfg env s clientKey).2 = .ok true ∧
    (∃ job, GivesJob cfg env s.db submit job) ∧
    ∀ j ∈ s.db.jobs, j.columns = (deriveIdentity submit cfg.build).columns → j.status ≠ .running

/-- It does come there. -/
theorem Launches.enqueues {s : ApiState} {clientKey : String} {body : Option JsValue}
    (h : Launches cfg env s clientKey body) :
    ∃ s' submit turns db job created,
      postAnalyses cfg env s clientKey body = enqueueAndReply cfg env s' submit turns ∧
      enqueueRequest cfg env s'.db submit turns = .ok (db, job, created) ∧
      job.status = .queued := by
  obtain ⟨submit, hparse, hmissed, hallowed, ⟨job, hgives⟩, hidle⟩ := h
  have hq := hgives.queued hidle
  obtain ⟨db₁, turns, db₂, created, hacq, hen⟩ := hgives
  have hdb := @tryConsume_db cfg env s clientKey
  rcases hconsume : tryConsume cfg env s clientKey with ⟨s', allowed⟩
  rw [hconsume] at hallowed hdb
  obtain rfl : allowed = .ok true := hallowed
  replace hdb : s'.db = s.db := hdb
  refine ⟨{ s' with db := db₁ }, submit, turns, db₂, job, created, ?_, hen, hq⟩
  unfold postAnalyses
  simp only [hparse, hmissed]
  unfold limitAndReply
  rw [hconsume]
  dsimp only
  unfold acquireAndReply
  rw [hdb, hacq]

/-- **A submission is answered 202 exactly if its enqueue committed, and every other reply leaves
the jobs as they were, exactly if the request does not come to the launcher or the launcher's
failure is caught.** -/
theorem submission_atomic_iff (cfg : ApiConfig) (env : Conditions) {s : ApiState}
    (hv : s.db.Valid) (clientKey : String) (body : Option JsValue) :
    Outcome cfg s (parseSubmitRequest body) (postAnalyses cfg env s clientKey body) ↔
      (Launches cfg env s clientKey body → env.faults.ensureRunning.Contained) := by
  constructor
  · intro hout hlaunches
    by_contra hlaunch
    obtain ⟨s', submit, turns, db, job, created, heq, hen, hq⟩ := hlaunches.enqueues
    rw [heq] at hout
    exact enqueueAndReply_thrown hen hq hlaunch hout
  · intro hlaunch
    unfold Launches at hlaunch
    unfold postAnalyses
    cases hparse : parseSubmitRequest body with
    | none => exact .same fun job created h => by cases h
    | some submit =>
      dsimp only
      split
      · exact .same fun job created h => by cases h
      · exact .same fun job created h => by cases h
      · rename_i hmissed
        refine limitAndReply_outcome s clientKey submit fun hallowed job hgives hq => ?_
        exact hlaunch ⟨submit, hparse, hmissed, hallowed, ⟨job, hgives⟩, hgives.idle hv hq⟩

namespace Sample

def apiConfig : ApiConfig :=
  { build := ⟨"v0.0.47", "2026-07"⟩
    limiter := ⟨20, 3600000, by decide, by decide⟩
    replay := replayDeps
    issues := fun _ => js "Required" }

/-- No fault, and a host that refuses the connection. -/
def conditions : Conditions :=
  { faults := ⟨false, false, false, false, false, false, .resolves⟩
    consumedAt := 1788739200000
    refusedAt := 1788739200000
    fetch := .rejects (.ofError (js "TypeError") (js "fetch failed")) false
    stringifyLevels := 4000
    newId := 8
    now := ⟨1788739203000000, by decide⟩ }

def submission : Option JsValue :=
  some (.obj [(js "replayId", .str (js "gen9ou-1")), (js "perspective", .str (js "p2"))])

def replayRow : ReplayRow := ⟨"gen9ou-1", "gen9ou", none, .arr [], "|turn|1", 7⟩

/-- The replay is stored, and nothing else. -/
def replayStored : ApiState := ⟨{ Db.empty with replays := [replayRow] }, [], 1788739200000⟩

theorem replayStored_valid : replayStored.db.Valid :=
  Db.valid_empty.appendReplay (r := replayRow) (fun _ h => absurd h List.not_mem_nil) (by decide)

/-- `Object.create(null)`. -/
def unprintable : Thrown :=
  .mk (.ok false)
    (.error (.ofError (js "TypeError") (js "Cannot convert object to primitive value")))

def launcherFails (launch : LaunchOutcome) : Conditions :=
  { conditions with faults := { conditions.faults with ensureRunning := launch } }

end Sample

/-- The launcher rejects with an `Error`: the job is accepted all the same. -/
theorem submission_atomic_iff_warned :
    Outcome Sample.apiConfig Sample.replayStored (parseSubmitRequest Sample.submission)
      (postAnalyses Sample.apiConfig
        (Sample.launcherFails (.rejects (.ofError (js "Error") (js "AccessDenied"))))
        Sample.replayStored "203.0.113.7" Sample.submission) :=
  (submission_atomic_iff Sample.apiConfig _ Sample.replayStored_valid "203.0.113.7" _).mpr
    fun _ => rfl

/-- The launcher rejects with a value that has no text: the job is inserted and the reply is a
500. -/
theorem submission_atomic_unprintable :
    ¬ ∀ (cfg : ApiConfig) (env : Conditions) (s : ApiState) (clientKey : String)
      (body : Option JsValue), s.db.Valid →
        Outcome cfg s (parseSubmitRequest body) (postAnalyses cfg env s clientKey body) := by
  intro h
  have hout := h Sample.apiConfig (Sample.launcherFails (.rejects Sample.unprintable))
    Sample.replayStored "203.0.113.7" Sample.submission Sample.replayStored_valid
  obtain ⟨job, created, hreply⟩ := hout.accepted_iff.mpr (by decide)
  have hinternal : (postAnalyses Sample.apiConfig
      (Sample.launcherFails (.rejects Sample.unprintable)) Sample.replayStored "203.0.113.7"
      Sample.submission).reply = .failed (.internal _) none := rfl
  rw [hinternal] at hreply
  cases hreply

end BattleCloud
