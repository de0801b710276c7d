import BattleCloud.Api.Submit
import BattleCloud.Fleet.Model

/-!
# A handled request among the runs of the fleet

`postAnalyses` handles a request in one go, the fleet step by step among everything else. A request
handled alone is a run of the fleet's steps, to the same tables and the same answer
(`postAnalyses_steps`); a step that rejects is the `abort` of the submission.

The fleet fetches a `jsonb` value, of which `upsertReplay` binds three fields. For a row made of
JavaScript values `ReplayRow.toPayload` has the same columns, unless the players are null: the host
sent an infinity there (`1e999`), which `JSON.stringify` writes as null (`FinitePlayers`).
-/

namespace BattleCloud

/-! ## The payload of a row -/

/-- A payload with these columns. -/
def ReplayRow.toPayload (r : ReplayRow) : ReplayPayload :=
  { id := r.id
    log := r.log
    raw := .obj (("formatid", .str r.format) :: ("players", r.players) ::
      (r.rating.map fun n => ("rating", Json.num n 0)).toList) }

theorem pgText_self {s t : String} (h : pgText s = .ok t) : pgText t = .ok t := by
  obtain rfl := pgText_ok h
  exact h

theorem int4_self {n m : Int} (h : int4 n = .ok m) : int4 m = .ok m := by
  obtain rfl := int4_ok h
  exact h

/-- A rating column is written again as it is. -/
theorem ratingColumn_self {v : JsValue} {rating : Option Int} (h : int4Param v = .ok rating) :
    ratingColumn (rating.map fun n => (n, 0)) = .ok rating := by
  unfold int4Param at h
  split at h
  · obtain rfl := Except.ok.inj h
    rfl
  · obtain ⟨n, hn, rfl⟩ := except_map_ok.mp h
    unfold integralInt4 at hn
    split at hn
    · have hn' := int4_self hn
      simp [ratingColumn, integralInt4, hn', Except.map]
    · cases hn
  · cases h

theorem ReplayRow.toPayload_rating (r : ReplayRow) :
    r.toPayload.rating = r.rating.map fun n => (n, 0) := by
  unfold ReplayPayload.rating toPayload
  cases r.rating <;> rfl

theorem ReplayRow.toPayload_players {r : ReplayRow} (h : r.players ≠ .null) :
    r.toPayload.players = r.players := by
  have hget : r.toPayload.raw.get? "players" = some r.players := rfl
  unfold ReplayPayload.players
  rw [hget]
  split
  · rename_i hnone
    cases hnone
  · rename_i hnull
    exact absurd (Option.some.inj hnull) h
  · rename_i hsome
    exact (Option.some.inj hsome).symm

theorem jsonbParam_ok {v : JsValue} {j : Json} (h : jsonbParam v = .ok j) :
    v.toJsonb = some j := by
  unfold jsonbParam at h
  split at h
  · rename_i hv
    rw [hv, Except.ok.inj h]
  · cases h

/-- Only a null and an infinity are written as null. -/
theorem JsValue.of_toJsonb_null {v : JsValue} (h : v.toJsonb = some .null) :
    v = .null ∨ ∃ b, v = .infinite b := by
  cases v with
  | null => exact Or.inl rfl
  | infinite b => exact Or.inr ⟨b, rfl⟩
  | bool b => cases h
  | num m e => cases h
  | str s =>
    obtain ⟨_, -, h⟩ := Option.map_eq_some_iff.mp h
    cases h
  | arr xs =>
    rw [JsValue.toJsonb] at h
    obtain ⟨_, -, h⟩ := Option.map_eq_some_iff.mp h
    cases h
  | obj fields =>
    rw [JsValue.toJsonb] at h
    obtain ⟨_, -, h⟩ := Option.map_eq_some_iff.mp h
    cases h

theorem players_ne_null {p : FetchedReplay} {j : Json}
    (h : ∀ b, fieldOf p.raw "players" ≠ some (.infinite b)) (hj : jsonbParam p.players = .ok j) :
    j ≠ .null := by
  rintro rfl
  have hv := jsonbParam_ok hj
  unfold FetchedReplay.players at hv
  split at hv
  · cases hv
  · cases hv
  · rename_i v hnull hf
    rcases JsValue.of_toJsonb_null hv with rfl | ⟨b, rfl⟩
    · exact hnull rfl
    · exact h b hf

/-- **The row of a fetched replay is the row of a payload.** -/
theorem FetchedReplay.toPayload_row {p : FetchedReplay} {r : ReplayRow} (h : p.row = .ok r)
    (hp : ∀ b, fieldOf p.raw "players" ≠ some (.infinite b)) : r.toPayload.row = .ok r := by
  unfold FetchedReplay.row at h
  obtain ⟨id, hid, h⟩ := except_bind_ok.mp h
  obtain ⟨format, hformat, h⟩ := except_bind_ok.mp h
  obtain ⟨rating, hrating, h⟩ := except_bind_ok.mp h
  obtain ⟨players, hplayers, h⟩ := except_bind_ok.mp h
  obtain ⟨log, hlog, h⟩ := except_bind_ok.mp h
  obtain ⟨bytes, hbytes, h⟩ := except_bind_ok.mp h
  obtain rfl := Except.ok.inj h
  have hnull := players_ne_null hp hplayers
  have hjsonb : pgJsonb players = .ok players :=
    if_pos (JsValue.nulFree_toJsonb _ (jsonbParam_ok hplayers))
  have hbytes' : int4 (log.utf8ByteSize : Nat) = .ok bytes := by
    rw [pgText_ok hlog]
    exact hbytes
  unfold ReplayPayload.row
  rw [ReplayRow.toPayload_rating, ReplayRow.toPayload_players hnull]
  refine except_bind_ok.mpr ⟨id, pgText_self hid, ?_⟩
  refine except_bind_ok.mpr ⟨format, pgText_self hformat, ?_⟩
  refine except_bind_ok.mpr ⟨rating, ratingColumn_self hrating, ?_⟩
  refine except_bind_ok.mpr ⟨players, hjsonb, ?_⟩
  refine except_bind_ok.mpr ⟨log, pgText_self hlog, ?_⟩
  exact except_bind_ok.mpr ⟨bytes, hbytes', rfl⟩

/-! ## The rest of a submission -/

/-- The answer a reply is. -/
def PostReply.response : PostReply → Response
  | .ok analysis => .ok analysis
  | .accepted job created => .accepted job created
  | .failed (.fail _ kind _) _ => .error kind
  | .failed (.internal _) _ => .internal

/-- From this phase, steps of the submission alone lead to these tables and this answer. -/
def Answers (i : Nat) (request : SubmitRequest) (build : EngineBuild) (phase : SubmissionPhase)
    (db db' : Db) (response : Response) : Prop :=
  ∀ s : Fleet, s.db = db → s.submissions[i]? = some ⟨request, build, phase⟩ →
    ∃ (actions : List SubmissionAction) (s' : Fleet),
      StepSystem.exec Fleet.step s (actions.map (Action.submission i)) = some s' ∧
      s'.db = db' ∧ s'.submissions[i]? = some ⟨request, build, .answered response⟩

namespace Answers

variable {i : Nat} {request : SubmitRequest} {build : EngineBuild} {phase phase' : SubmissionPhase}
  {db db₁ db' : Db} {response : Response} {e : Event}

theorem answered : Answers i request build (.answered response) db db response :=
  fun s hdb hs => ⟨[], s, rfl, hdb, hs⟩

theorem step (action : SubmissionAction)
    (h : submissionStep db i ⟨request, build, phase⟩ action = some (db₁, phase', e))
    (hrest : Answers i request build phase' db₁ db' response) :
    Answers i request build phase db db' response := by
  rintro s rfl hs
  obtain ⟨hlt, -⟩ := List.getElem?_eq_some_iff.mp hs
  obtain ⟨actions, s', hexec, hdb', hs'⟩ := hrest
    { s with db := db₁
             submissions := s.submissions.set i ⟨request, build, phase'⟩
             log := e :: s.log } rfl (List.getElem?_set_self hlt)
  refine ⟨action :: actions, s', ?_, hdb', hs'⟩
  rw [List.map_cons, StepSystem.exec]
  simp only [Fleet.step, hs, Option.bind_some, h, Option.map_some]
  exact hexec

end Answers

/-! ## The handler -/

/-- What the host sends for the players is no infinity. -/
def FinitePlayers (cfg : ApiConfig) (env : Conditions) (submit : SubmitRequest) : Prop :=
  ∀ p, fetchReplay cfg.replay (js submit.replayId) env.fetch = .ok p →
    ∀ b, fieldOf p.raw "players" ≠ some (.infinite b)

section Handler

variable {cfg : ApiConfig} {env : Conditions} {i : Nat} {submit : SubmitRequest}

/-- A rejection anywhere is an abort. -/
theorem answers_abort {phase : SubmissionPhase} {db : Db}
    (h : submissionStep db i ⟨submit, cfg.build, phase⟩ .abort =
      some (db, .answered .internal, .quiet)) :
    Answers i submit cfg.build phase db db .internal :=
  .step .abort h .answered

theorem enqueueAndReply_answers (s : ApiState) (turns : Nat) :
    Answers i submit cfg.build (.enqueueing turns) s.db
      (enqueueAndReply cfg env s submit turns).state.db
      (enqueueAndReply cfg env s submit turns).reply.response := by
  unfold enqueueAndReply
  split
  · exact answers_abort rfl
  · rename_i db job created hen
    have hok : enqueue s.db (deriveIdentity submit cfg.build) submit.profile turns
        (estimateDuration turns submit.profile) env.newId env.now = .ok (db, job, created) :=
      statement_ok hen
    have hstep : submissionStep s.db i ⟨submit, cfg.build, .enqueueing turns⟩
        (.enqueue env.newId env.now) =
        some (db, if job.status = .queued then .launching (toJob job) created
            else .answered (.accepted (toJob job) created),
          if created then .created i job.id job.columns else .joined i job.id) := by
      simp only [submissionStep, Submission.identity, hok]
    by_cases hq : job.status = .queued
    · rw [if_pos hq] at hstep
      refine .step _ hstep ?_
      cases ensureRunning env job with
      | ok warned => exact .step .respond rfl .answered
      | error cause => exact answers_abort rfl
    · rw [if_neg hq] at hstep
      have hidle : ensureRunning env job = .ok none := if_neg hq
      rw [hidle]
      exact .step _ hstep .answered

theorem replayLog_step (db : Db) {found : Option String}
    (h : replayLog db submit.replayId = found) :
    submissionStep db i ⟨submit, cfg.build, .acquiring⟩ .replayLog =
      some (db, found.elim .fetching fun log => .enqueueing (estimateTurns log), .quiet) := by
  subst h
  simp only [submissionStep]
  cases replayLog db submit.replayId <;> rfl

/-- A failed acquisition is answered with its kind. -/
theorem acquireReplay_fails {db : Db} {failure : Failure}
    (h : acquireReplay cfg env db submit = .error failure) :
    Answers i submit cfg.build .acquiring db db (PostReply.failed failure.reply none).response := by
  unfold acquireReplay at h
  split at h
  · obtain rfl := Except.error.inj h
    exact answers_abort rfl
  · cases h
  · rename_i hlog
    refine .step .replayLog (replayLog_step db (Except.ok.inj (statement_ok hlog))) ?_
    rcases except_bind_error.mp h with h | ⟨p, -, h⟩
    · cases failure with
      | replayFetchError kind message => exact .step (.fetch (.error kind)) rfl .answered
      | unclassified cause => exact answers_abort rfl
    · split at h
      · obtain rfl := Except.error.inj h
        exact answers_abort rfl
      · cases h

/-- An acquired replay is in the tables, and its log is estimated. -/
theorem acquireReplay_answers {db db₁ db' : Db} {turns : Nat} {response : Response}
    (hp : FinitePlayers cfg env submit)
    (h : acquireReplay cfg env db submit = .ok (db₁, turns))
    (hrest : Answers i submit cfg.build (.enqueueing turns) db₁ db' response) :
    Answers i submit cfg.build .acquiring db db' response := by
  unfold acquireReplay at h
  split at h
  · cases h
  · rename_i log hlog
    obtain ⟨rfl, rfl⟩ := Prod.mk.inj (Except.ok.inj h)
    exact .step .replayLog (replayLog_step db (Except.ok.inj (statement_ok hlog))) hrest
  · rename_i hlog
    refine .step .replayLog (replayLog_step db (Except.ok.inj (statement_ok hlog))) ?_
    obtain ⟨p, hfetch, h⟩ := except_bind_ok.mp h
    split at h
    · cases h
    · rename_i d hstore
      obtain ⟨rfl, rfl⟩ := Prod.mk.inj (Except.ok.inj h)
      obtain ⟨-, r, hr, hins⟩ := storeReplay_ok.mp (upsertFetched_ok hstore)
      obtain ⟨hid, hlog', -⟩ := FetchedReplay.row_ok hr
      rw [fetchReplay_id hfetch, JsString.text_js] at hid
      have hpayload :
          (⟨submit.replayId, r.log, r.toPayload.raw⟩ : ReplayPayload) = r.toPayload := by
        rw [← hid]
        rfl
      have hupsert : submissionStep db i ⟨submit, cfg.build, .storing r.toPayload⟩ .upsertReplay =
          some (d, .enqueueing (estimateTurns p.log.text), .upserted i) := by
        have hok : upsertReplay db r.toPayload = .ok d :=
          except_bind_ok.mpr ⟨r, FetchedReplay.toPayload_row hr (hp p hfetch), hins⟩
        have hturns : estimateTurns r.toPayload.log = estimateTurns p.log.text := by
          rw [← hlog']
          rfl
        simp only [submissionStep, hok, hturns]
      refine .step (.fetch (.ok (r.log, r.toPayload.raw))) rfl ?_
      rw [hpayload]
      exact .step .upsertReplay hupsert hrest

theorem acquireAndReply_answers (s : ApiState)
    (hp : FinitePlayers cfg env submit) :
    Answers i submit cfg.build .acquiring s.db (acquireAndReply cfg env s submit).state.db
      (acquireAndReply cfg env s submit).reply.response := by
  unfold acquireAndReply
  split
  · rename_i failure h
    exact acquireReplay_fails h
  · rename_i db turns h
    exact acquireReplay_answers hp h (enqueueAndReply_answers { s with db } turns)

theorem limitAndReply_answers (s : ApiState) (clientKey : String)
    (hp : FinitePlayers cfg env submit) :
    Answers i submit cfg.build .limiting s.db (limitAndReply cfg env s clientKey submit).state.db
      (limitAndReply cfg env s clientKey submit).reply.response := by
  have hdb := @tryConsume_db cfg env s clientKey
  unfold limitAndReply
  split
  · rename_i s' cause heq
    rw [heq] at hdb
    rw [← hdb]
    exact answers_abort rfl
  · rename_i s' heq
    rw [heq] at hdb
    rw [← hdb]
    exact .step (.tryConsume false) rfl .answered
  · rename_i s' heq
    rw [heq] at hdb
    rw [← hdb]
    exact .step (.tryConsume true) rfl (acquireAndReply_answers s' hp)

/-- **A request handled alone is a run of the fleet's steps.** -/
theorem postAnalyses_steps {s : ApiState} {clientKey : String} {body : Option JsValue}
    (hbody : parseSubmitRequest body = some submit)
    (hp : FinitePlayers cfg env submit) :
    Answers i submit cfg.build .received s.db (postAnalyses cfg env s clientKey body).state.db
      (postAnalyses cfg env s clientKey body).reply.response := by
  unfold postAnalyses
  rw [hbody]
  simp only
  split
  · exact answers_abort rfl
  · rename_i cached hlookup
    have hok : analysisByIdentity s.db (deriveIdentity submit cfg.build) = .ok (some cached) :=
      statement_ok hlookup
    have hstep : submissionStep s.db i ⟨submit, cfg.build, .received⟩ .lookup =
        some (s.db, .answered (.ok cached), .served i cached) := by
      simp only [submissionStep, Submission.identity, hok]
    exact .step .lookup hstep .answered
  · rename_i hlookup
    have hok : analysisByIdentity s.db (deriveIdentity submit cfg.build) = .ok none :=
      statement_ok hlookup
    have hstep : submissionStep s.db i ⟨submit, cfg.build, .received⟩ .lookup =
        some (s.db, .limiting, .missed i (deriveIdentity submit cfg.build).columns) := by
      simp only [submissionStep, Submission.identity, hok]
      rfl
    exact .step .lookup hstep (limitAndReply_answers s clientKey hp)

end Handler

/-- The launcher fails after the enqueue. -/
theorem postAnalyses_steps_warned :
    let env := Sample.launcherFails (.rejects (.ofError (js "Error") (js "AccessDenied")))
    let r := postAnalyses Sample.apiConfig env Sample.replayStored "203.0.113.7" Sample.submission
    (∃ job, r.reply.response = .accepted job true) ∧
      Answers 0 ⟨"gen9ou-1", .p2, .ladderParity⟩ Sample.apiConfig.build .received
        Sample.replayStored.db r.state.db r.reply.response := by
  refine ⟨⟨_, rfl⟩, postAnalyses_steps rfl ?_⟩
  rintro p hfetch
  cases hfetch

end BattleCloud
