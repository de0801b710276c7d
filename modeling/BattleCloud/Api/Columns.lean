import BattleCloud.Api.Estimate
import BattleCloud.Api.Submit
import BattleCloud.Contract.JsonText
import BattleCloud.Lib.System
import BattleCloud.Lib.Utf8

/-!
# The estimates fit their columns

What a submission writes into `estimated_turns`, `estimated_search_ms` and `payload_bytes` is
computed from a log the host of the replay chose. The log is a string of the decoded body, so it
has no more units than the body has bytes, whatever is wrong with its UTF-8; one turn takes eight
of them, and one unit is three bytes of the stored text at most.

`estimates_fit` is about a log that was just fetched, and about one any sequence of submissions has
left in the table.
-/

namespace BattleCloud

/-- `DEFAULT_MAX_BYTES`. -/
def defaultMaxBytes : Nat := 5 * 1024 * 1024

/-- The functions of the runtime; the host, the timer and the limit are any. -/
structure IsRuntime (deps : ReplayDeps) : Prop where
  decode : deps.decode = Utf8.decodeText
  parse : ∃ number, deps.parse = jsonParse number

/-- A turn count an `integer` column takes, with every estimate made of it. -/
structure TurnsFit (turns : Nat) : Prop where
  count : turns < 2147483648
  duration : ∀ profile, 0 ≤ estimateDuration turns profile ∧
    estimateDuration turns profile < 2147483648

/-- The columns of one replay. -/
structure LogFits (log : String) : Prop where
  turns : TurnsFit (estimateTurns log)
  bytes : log.utf8ByteSize < 2147483648

/-! ## From the body to the log -/

theorem readCapped_ok {deps : ReplayDeps} {response : HttpResponse} {text : JsString}
    (h : readCapped deps response = .ok text) :
    ∃ body, response.body = some body ∧ (bytesOf body.reads).length ≤ deps.maxBytes ∧
      text = deps.decode (bytesOf body.reads) := by
  unfold readCapped at h
  split at h
  · cases h
  · rename_i body hbody
    obtain ⟨reads, ends⟩ := body
    obtain ⟨bytes, hbytes, rfl⟩ := except_map_ok.mp h
    rw [readLoop_eq ends [] (Nat.zero_le _), Nat.zero_add, List.nil_append] at hbytes
    split at hbytes
    · cases hbytes
    · rename_i hcap
      cases ends with
      | done =>
        obtain rfl := Except.ok.inj hbytes
        exact ⟨_, hbody, Nat.le_of_not_lt hcap, rfl⟩
      | fails cause expired => cases hbytes

theorem validate_raw {deps : ReplayDeps} {replayId : JsString}
    {safe : isSafeReplayId replayId = true} {text : JsString} {p : FetchedReplay}
    (h : validate deps replayId safe text = .ok p) : deps.parse text = some (.obj p.raw) := by
  unfold validate at h
  split at h
  · cases h
  · rename_i raw hraw
    split at h
    · split at h
      · obtain rfl := Except.ok.inj h
        exact hraw
      · cases h
    · cases h
  · cases h

/-- An accepted payload is parsed from the whole of a body within the limit. -/
theorem fetchReplay_parsed {deps : ReplayDeps} {replayId : JsString} {fetch : FetchBehaviour}
    {p : FetchedReplay} (h : fetchReplay deps replayId fetch = .ok p) :
    ∃ response body, fetch = .responds response ∧ response.body = some body ∧
      (bytesOf body.reads).length ≤ deps.maxBytes ∧
      deps.parse (deps.decode (bytesOf body.reads)) = some (.obj p.raw) := by
  unfold fetchReplay at h
  split at h
  · split at h
    · cases h
    · split at h
      · cases h
      · rename_i response
        unfold receive at h
        split at h
        · cases h
        · split at h
          · obtain ⟨text, htext, hp⟩ := except_bind_ok.mp h
            obtain ⟨body, hbody, hcap, rfl⟩ := readCapped_ok htext
            exact ⟨response, body, rfl, hbody, hcap, validate_raw hp⟩
          · cases h
  · cases h

/-- **The log has no more units than the body has bytes.** -/
theorem length_log_le {deps : ReplayDeps} (hruntime : IsRuntime deps) {bytes : List UInt8}
    {p : FetchedReplay} (h : deps.parse (deps.decode bytes) = some (.obj p.raw)) :
    p.log.length ≤ bytes.length := by
  obtain ⟨number, hparse⟩ := hruntime.parse
  rw [hparse, hruntime.decode] at h
  have hlog := length_le_units p.logField
  have hunits := units_jsonParse h
  rw [JsValue.units] at hunits
  have hdecode := Utf8.length_decodeText_le bytes
  omega

/-! ## From the log to the columns -/

theorem estimateDuration_le (turns : Nat) (profile : Profile) :
    0 ≤ estimateDuration turns profile ∧ estimateDuration turns profile ≤ 1000 * turns := by
  cases profile <;> simp only [estimateDuration, searchTimeMs, Profile.params] <;> omega

/-- A log of this many units at most has small estimates. -/
theorem logFits_of_length {log : JsString} (h : log.length ≤ defaultMaxBytes) :
    LogFits log.text := by
  have hmax : defaultMaxBytes = 5242880 := rfl
  have hturns := JsString.eight_mul_estimateTurns_le log
  have hbytes := Utf8.utf8ByteSize_lossy_le log
  rw [hmax] at h
  have htext : log.text.utf8ByteSize < 2147483648 := by
    unfold JsString.text
    omega
  refine ⟨⟨?_, fun profile => ?_⟩, htext⟩
  · rw [estimateTurns_text]
    omega
  · have hduration := estimateDuration_le (estimateTurns log.text) profile
    rw [estimateTurns_text] at hduration ⊢
    omega

/-- **What is fetched within the limit fits.** -/
theorem fetchReplay_fits {deps : ReplayDeps} (hruntime : IsRuntime deps) {replayId : JsString}
    {response : HttpResponse} {p : FetchedReplay}
    (hbody : ∀ body ∈ response.body, (bytesOf body.reads).length ≤ defaultMaxBytes)
    (h : fetchReplay deps replayId (.responds response) = .ok p) : LogFits p.log.text := by
  obtain ⟨_, body, hresponse, hb, -, hparse⟩ := fetchReplay_parsed h
  obtain rfl := FetchBehaviour.responds.inj hresponse
  exact logFits_of_length (Nat.le_trans (length_log_le hruntime hparse) (hbody body hb))

/-! ## The logs that are stored -/

/-- A payload the service can have fetched. -/
def Fetched (p : FetchedReplay) : Prop :=
  ∃ deps replayId fetch, IsRuntime deps ∧ deps.maxBytes = defaultMaxBytes ∧
    fetchReplay deps replayId fetch = .ok p

theorem Fetched.logFits {p : FetchedReplay} (h : Fetched p) : LogFits p.log.text := by
  obtain ⟨deps, replayId, fetch, hruntime, hmax, h⟩ := h
  obtain ⟨_, body, -, -, hcap, hparse⟩ := fetchReplay_parsed h
  rw [hmax] at hcap
  exact logFits_of_length (Nat.le_trans (length_log_le hruntime hparse) hcap)

/-- What can happen to the tables: a submission stores the payload it has fetched, or something
else happens. -/
inductive TableAction where
  | store (levels : Nat) (p : FetchedReplay)
  | other (effect : Db → Db)

def TableAction.step (db : Db) : TableAction → Option Db
  | .store levels p => (storeReplay levels db p).toOption
  | .other effect => some (effect db)

/-- Only a submission adds a replay. -/
def TableAction.Allowed (db : Db) : TableAction → Prop
  | .store _ p => Fetched p
  | .other effect => ∀ r ∈ (effect db).replays, r ∈ db.replays

/-- The table's logs fit. -/
def LogsFit (db : Db) : Prop := ∀ r ∈ db.replays, LogFits r.log

theorem LogsFit.store {levels : Nat} {db db' : Db} {p : FetchedReplay} (hdb : LogsFit db)
    (hp : Fetched p) (h : storeReplay levels db p = .ok db') : LogsFit db' := by
  obtain ⟨-, r, hr, h⟩ := storeReplay_ok.mp h
  have hlog := (FetchedReplay.row_ok hr).2.1
  rcases insertReplay_cases db r with ⟨hok, -⟩ | ⟨hok, -⟩
  · rw [hok] at h
    obtain rfl := Except.ok.inj h
    exact hdb
  · rw [hok] at h
    obtain ⟨-, rfl⟩ := Db.commit_ok.mp h
    refine List.forall_mem_append.mpr ⟨hdb, List.forall_mem_singleton.mpr ?_⟩
    rw [hlog]
    exact hp.logFits

section

variable {db₀ db : Db} (h₀ : db₀.replays = [])
  (h : StepSystem.Reach TableAction.step TableAction.Allowed db₀ db)

include h₀ h

/-- **Whatever was stored fits.** -/
theorem logsFit_of_reach : LogsFit db := by
  refine StepSystem.Reach.invariant (I := LogsFit) ?_ ?_ h
  · intro r hr
    rw [h₀] at hr
    cases hr
  · intro db a db' hdb hallowed hstep
    cases a with
    | store levels p =>
      rw [TableAction.step] at hstep
      cases hs : storeReplay levels db p with
      | ok db'' =>
        rw [hs] at hstep
        obtain rfl := Option.some.inj hstep
        exact hdb.store hallowed hs
      | error e =>
        rw [hs] at hstep
        cases hstep
    | other effect =>
      obtain rfl := Option.some.inj hstep
      exact fun r hr => hdb r (hallowed r hr)

/-- **So does the estimate of every submission**, of a stored log and of a fetched one. -/
theorem acquireReplay_fits {cfg : ApiConfig} (hruntime : IsRuntime cfg.replay)
    (hmax : cfg.replay.maxBytes = defaultMaxBytes) {env : Conditions} {submit : SubmitRequest}
    {db' : Db} {turns : Nat} (hacquire : acquireReplay cfg env db submit = .ok (db', turns)) :
    TurnsFit turns := by
  unfold acquireReplay at hacquire
  split at hacquire
  · cases hacquire
  · rename_i storedLog hlog
    obtain ⟨-, rfl⟩ := Prod.mk.inj (Except.ok.inj hacquire)
    obtain ⟨r, hr, rfl⟩ := Option.map_eq_some_iff.mp (Except.ok.inj (statement_ok hlog))
    exact (logsFit_of_reach h₀ h r (List.mem_of_find?_eq_some hr)).turns
  · obtain ⟨payload, hfetch, hacquire⟩ := except_bind_ok.mp hacquire
    split at hacquire
    · cases hacquire
    · obtain ⟨-, rfl⟩ := Prod.mk.inj (Except.ok.inj hacquire)
      exact (Fetched.logFits ⟨_, _, _, hruntime, hmax, hfetch⟩).turns

end

/-! ## A submission is a run of the tables -/

section

variable {cfg : ApiConfig} (hruntime : IsRuntime cfg.replay)
  (hmax : cfg.replay.maxBytes = defaultMaxBytes) {env : Conditions}

include hruntime hmax

theorem acquireReplay_reach {db db' : Db} {submit : SubmitRequest} {turns : Nat}
    (h : acquireReplay cfg env db submit = .ok (db', turns)) :
    StepSystem.Reach TableAction.step TableAction.Allowed db db' := by
  unfold acquireReplay at h
  split at h
  · cases h
  · obtain ⟨rfl, -⟩ := Prod.mk.inj (Except.ok.inj h)
    exact .init
  · obtain ⟨payload, hfetch, h⟩ := except_bind_ok.mp h
    split at h
    · cases h
    · rename_i hstore
      obtain ⟨rfl, -⟩ := Prod.mk.inj (Except.ok.inj h)
      refine .next (a := .store env.stringifyLevels payload) .init
        ⟨_, _, _, hruntime, hmax, hfetch⟩ ?_
      rw [TableAction.step, upsertFetched_ok hstore]
      rfl

/-- **What a submission leaves is reached by the store of its payload, and what adds no
replay.** -/
theorem postAnalyses_reach (s : ApiState) (clientKey : String) (body : Option JsValue) :
    StepSystem.Reach TableAction.step TableAction.Allowed s.db
      (postAnalyses cfg env s clientKey body).state.db := by
  unfold postAnalyses
  split
  · exact .init
  · rename_i submit _
    split
    · exact .init
    · exact .init
    · have hdb := @tryConsume_db cfg env s clientKey
      unfold limitAndReply
      split
      · rename_i heq
        rw [heq] at hdb
        exact hdb ▸ .init
      · rename_i heq
        rw [heq] at hdb
        exact hdb ▸ .init
      · rename_i s' heq
        rw [heq] at hdb
        unfold acquireAndReply
        split
        · exact hdb ▸ .init
        · rename_i db turns hacquire
          have hreach := acquireReplay_reach hruntime hmax hacquire
          rw [hdb] at hreach
          unfold enqueueAndReply
          split
          · exact hreach
          · rename_i db' job created henqueue
            have hreplays : db'.replays = db.replays := by
              obtain ⟨-, ⟨-, hd, -⟩ | ⟨-, -, -, hd, -⟩⟩ := enqueue_ok (statement_ok henqueue) <;>
                rw [hd]
            refine .next (a := .other fun _ => db') hreach (fun r hr => ?_) rfl
            exact hreplays ▸ hr

end

/-! ## The headline -/

/-- **The estimates fit their columns.** For a body within the limit that is accepted, however it
is cut and whatever its bytes are, the turns, the duration under any profile and the length of the
stored text are 32-bit integers that are not negative; so they are for every stored log and every
estimate of a submission, after any run of submissions and other work on the tables. -/
theorem estimates_fit :
    (∀ {deps : ReplayDeps}, IsRuntime deps → ∀ {replayId : JsString} {response : HttpResponse}
      {p : FetchedReplay},
      (∀ body ∈ response.body, (bytesOf body.reads).length ≤ defaultMaxBytes) →
      fetchReplay deps replayId (.responds response) = .ok p →
      TurnsFit p.log.estimateTurns ∧ p.payloadBytes < 2147483648) ∧
    ∀ {db₀ db : Db}, db₀.replays = [] →
      StepSystem.Reach TableAction.step TableAction.Allowed db₀ db →
      (∀ r ∈ db.replays, LogFits r.log) ∧
      ∀ {cfg : ApiConfig}, IsRuntime cfg.replay → cfg.replay.maxBytes = defaultMaxBytes →
        ∀ {env : Conditions} {submit : SubmitRequest} {db' : Db} {turns : Nat},
        acquireReplay cfg env db submit = .ok (db', turns) → TurnsFit turns := by
  refine ⟨fun hruntime _ _ p hbody h => ?_, fun h₀ h => ⟨logsFit_of_reach h₀ h, ?_⟩⟩
  · have hfits := fetchReplay_fits hruntime hbody h
    refine ⟨?_, hfits.bytes⟩
    rw [← estimateTurns_text]
    exact hfits.turns
  · intro cfg hruntime hmax env submit db' turns hacquire
    exact acquireReplay_fits h₀ h hruntime hmax hacquire

namespace Sample

/-- The default host and limits, with the functions of the runtime. -/
def runtimeDeps : ReplayDeps :=
  { replayDeps with
    decode := Utf8.decodeText
    parse := jsonParse fun _ => .num 0 0 }

/-- A log of one turn and `…` in two chunks, cut inside the ellipsis, with a stray byte. -/
def cutBody : HttpResponse :=
  ⟨200, some ⟨[some ((js "\x7b\"log\":\"|turn|1\\r\\n").map UInt16.toUInt8 ++ [0xE2, 0x80]), none,
    some [0xA6, 0xFF, 0x22, 0x7D]], .done⟩⟩

end Sample

theorem estimates_fit_cut : ∃ p,
    fetchReplay Sample.runtimeDeps (js "gen9ou-1") (.responds Sample.cutBody) = .ok p ∧
      TurnsFit p.log.estimateTurns ∧ p.payloadBytes < 2147483648 := by
  have hbody : ∀ body ∈ Sample.cutBody.body, (bytesOf body.reads).length ≤ defaultMaxBytes := by
    decide
  have hok : (fetchReplay Sample.runtimeDeps (js "gen9ou-1")
      (.responds Sample.cutBody)).isOk = true := by decide
  cases h : fetchReplay Sample.runtimeDeps (js "gen9ou-1") (.responds Sample.cutBody) with
  | ok p => exact ⟨p, rfl, estimates_fit.1 ⟨rfl, _, rfl⟩ hbody h⟩
  | error failure =>
    rw [h] at hok
    cases hok

end BattleCloud
