import BattleCloud.Api.List
import BattleCloud.Api.Submit
import BattleCloud.Contract.Zod
import BattleCloud.Fleet.Model

/-!
# The bodies of the API

`envelope` and `jobView` of `api/src/routes.ts`, the page of the list, and the routes that send
them with a 200. Nothing on the way out runs the schemas of the contract; `responses_conform_iff`
compares every body with the schema published for it.
-/

namespace BattleCloud

open Zod (accepts)

/-! ## Views -/

/-- The text of `job_status`. -/
def JobStatus.text : JobStatus → String
  | .queued => "queued"
  | .running => "running"
  | .succeeded => "succeeded"
  | .failed => "failed"
  | .cancelled => "cancelled"

/-- A nullable column as the driver gives it. -/
def nullable {α : Type} (f : α → Json) : Option α → Json
  | none => .null
  | some a => f a

def intJson (n : Int) : Json := .num n 0

def envelope (analysis : StoredAnalysis) : Json :=
  .obj [("analysisId", .str (uuidText analysis.id)), ("seed", intJson analysis.seed),
    ("createdAt", .str analysis.createdAt), ("document", analysis.document)]

def jobView (job : StoredJob) : Json :=
  .obj [("jobId", .str (uuidText job.id)), ("status", .str job.status.text),
    ("replayId", .str job.replayId), ("perspective", .str job.perspective.text),
    ("profile", .str job.profile.name), ("estimatedTurns", nullable intJson job.estimatedTurns),
    ("estimatedSearchMs", nullable intJson job.estimatedSearchMs),
    ("analysisId", nullable (fun i => .str (uuidText i)) job.analysisId),
    ("errorKind", nullable (fun k => .str k.value) job.errorKind),
    ("createdAt", .str job.createdAt), ("updatedAt", .str job.updatedAt)]

/-- A row of the page. -/
def summaryView (x : AnalysisSummary) : Json :=
  .obj [("analysisId", .str (uuidText x.analysisId)), ("replayId", .str x.replayId),
    ("format", .str x.format), ("rating", nullable intJson x.rating),
    ("players", .arr (x.players.map .str)), ("perspective", .str x.perspective.text),
    ("totalTurns", intJson x.totalTurns), ("gradableTurns", intJson x.gradableTurns),
    ("searchBudgetMsPerTurn", intJson x.searchBudgetMsPerTurn),
    ("opponentSamples", intJson x.opponentSamples), ("createdAt", .str x.createdAt)]

def pageView (analyses : List AnalysisSummary) (nextCursor : Option String) : Json :=
  .obj [("analyses", .arr (analyses.map summaryView)), ("nextCursor", nullable .str nextCursor)]

/-! ## Requests -/

/-- The `uuid` a path parameter is, if Postgres takes it for one. -/
def uuidParam (s : String) : Option Uuid :=
  (uuidIn s).bind fun n => if h : n < 2 ^ 128 then some ⟨n, h⟩ else none

/-- A request to one of the four routes of the contract. -/
inductive ApiRequest where
  | submit (clientKey : String) (body : Option JsValue)
  | analysis (analysisId : String)
  | job (jobId : String)
  | list (query : ListQuery)

/-- The body of a 200, and `none` for another status. A `uuid` that is none is refused by
Postgres, which the two lookups by id answer as a row that is not there. -/
def ApiRequest.body200 (cfg : ApiConfig) (env : Conditions) (P : Instants) (s : ApiState) :
    ApiRequest → Option Json
  | .submit clientKey body =>
    match (postAnalyses cfg env s clientKey body).reply with
    | .ok cached => some (envelope cached)
    | _ => none
  | .analysis analysisId => ((uuidParam analysisId).bind (analysisById s.db)).map envelope
  | .job jobId => ((uuidParam jobId).bind (jobById s.db)).map jobView
  | .list query =>
    match listAnalyses P s.db query with
    | .ok analyses nextCursor => some (pageView analyses nextCursor)
    | _ => none

/-- The schema published for the body. -/
def ApiRequest.schema : ApiRequest → Zod.Schema
  | .submit .. => analysisEnvelopeSchema
  | .analysis _ => analysisEnvelopeSchema
  | .job _ => jobSchema
  | .list _ => analysisPageSchema

/-- `GET /v1/jobs/{id}`. -/
def ApiRequest.isJob : ApiRequest → Bool
  | .job _ => true
  | _ => false

/-! ## The views and their schemas -/

theorem accepts_intJson (n : Int) : accepts .int (some (intJson n)) = true := by
  simp [intJson, accepts]

theorem accepts_perspective (p : Perspective) :
    accepts perspectiveSchema (some (.str p.text)) = true := by
  cases p <;> decide

/-- A nullable column conforms if its values do. -/
theorem accepts_nullable {α : Type} {f : α → Json} {schema : Zod.Schema}
    (h : ∀ a, accepts schema (some (f a)) = true) (x : Option α) :
    accepts (.nullable schema) (some (nullable f x)) = true := by
  cases x with
  | none => simp [nullable, accepts]
  | some a =>
    have ha := h a
    cases hf : f a with
    | null => simp [nullable, hf, accepts]
    | _ => rw [hf] at ha; simpa [nullable, hf, accepts] using ha

theorem envelope_conforms {analysis : StoredAnalysis}
    (h : accepts schemaV1DocumentSchema (some analysis.document) = true) :
    accepts analysisEnvelopeSchema (some (envelope analysis)) = true := by
  refine Zod.accepts_record rfl (by decide) ?_
  refine .cons ?_ (.cons (accepts_intJson _) (.cons ?_ (.cons h .nil)))
  · rfl
  · rfl

theorem summary_conforms (x : AnalysisSummary) :
    accepts analysisSummarySchema (some (summaryView x)) = true := by
  have hplayers : accepts (.array .string) (some (.arr (x.players.map .str))) = true := by
    simp [accepts]
  have hrating := accepts_nullable accepts_intJson x.rating
  refine Zod.accepts_record rfl (by decide) ?_
  exact .cons rfl (.cons rfl (.cons rfl (.cons hrating (.cons hplayers
    (.cons (accepts_perspective _) (.cons (accepts_intJson _) (.cons (accepts_intJson _)
    (.cons (accepts_intJson _) (.cons (accepts_intJson _) (.cons rfl .nil))))))))))

theorem page_conforms (analyses : List AnalysisSummary) (nextCursor : Option String) :
    accepts analysisPageSchema (some (pageView analyses nextCursor)) = true := by
  have hrows : accepts (.array analysisSummarySchema) (some (.arr (analyses.map summaryView))) =
      true := by
    simp only [accepts, List.all_map, List.all_eq_true]
    exact fun x _ => summary_conforms x
  have hcursor : accepts (.nullable .string) (some (nullable .str nextCursor)) = true :=
    accepts_nullable (fun _ => rfl) nextCursor
  exact Zod.accepts_record rfl (by decide) (.cons hrows (.cons hcursor .nil))

/-- A job is sent with `updatedAt`, which `JobSchema` does not declare. -/
theorem jobView_rejected (job : StoredJob) : accepts jobSchema (some (jobView job)) = false :=
  Zod.not_accepts_of_key (k := "updatedAt") (by simp [Zod.keys]) (by decide)

/-! ## Every 200 -/

theorem uuidParam_uuidText (u : Uuid) : uuidParam (uuidText u) = some u := by
  unfold uuidParam
  rw [uuidIn_uuidText, Option.bind_some, dif_pos u.isLt]

/-- The documents the API stores and serves are schema-v1 documents. -/
def DocumentsConform (db : Db) : Prop :=
  ∀ a ∈ db.analyses, accepts schemaV1DocumentSchema (some a.document) = true

/-- Past the cache no submission is answered with a 200. -/
theorem limitAndReply_not_ok {cfg : ApiConfig} {env : Conditions} {s : ApiState}
    {clientKey : String} {submit : SubmitRequest} {cached : StoredAnalysis} :
    (limitAndReply cfg env s clientKey submit).reply ≠ .ok cached := by
  intro h
  unfold limitAndReply at h
  split at h
  · cases h
  · cases h
  · unfold acquireAndReply at h
    split at h
    · cases h
    · unfold enqueueAndReply at h
      split at h
      · cases h
      · rename_i job created _
        rcases replyAfter_cases (ensureRunning env job) (toJob job) created with hr | ⟨_, hr⟩ <;>
          cases hr.symm.trans h

theorem postAnalyses_ok {cfg : ApiConfig} {env : Conditions} {s : ApiState} {clientKey : String}
    {body : Option JsValue} {cached : StoredAnalysis}
    (h : (postAnalyses cfg env s clientKey body).reply = .ok cached) :
    ∃ a ∈ s.db.analyses, cached = a.stored := by
  unfold postAnalyses at h
  split at h
  · cases h
  · split at h
    · cases h
    · rename_i row hrow
      obtain rfl : row = cached := by
        cases h
        rfl
      obtain ⟨a, ha, -, hcached⟩ := analysisByIdentity_some (statement_ok hrow)
      exact ⟨a, ha, hcached⟩
    · exact absurd h limitAndReply_not_ok

/-- **A 200 conforms to its published schema exactly if it is not a job's.** -/
theorem responses_conform_iff {cfg : ApiConfig} {env : Conditions} {P : Instants} {s : ApiState}
    (hdocs : DocumentsConform s.db) {request : ApiRequest} {body : Json}
    (h : request.body200 cfg env P s = some body) :
    accepts request.schema (some body) = true ↔ request.isJob = false := by
  have hstored : ∀ a ∈ s.db.analyses,
      accepts analysisEnvelopeSchema (some (envelope a.stored)) = true :=
    fun a ha => envelope_conforms (hdocs a ha)
  cases request with
  | submit clientKey submitted =>
    simp only [ApiRequest.body200] at h
    split at h
    · rename_i cached hreply
      obtain ⟨a, ha, rfl⟩ := postAnalyses_ok hreply
      obtain rfl := Option.some.inj h
      simpa [ApiRequest.schema, ApiRequest.isJob] using hstored a ha
    · cases h
  | analysis analysisId =>
    obtain ⟨cached, hc, rfl⟩ := Option.map_eq_some_iff.mp h
    obtain ⟨u, -, hc⟩ := Option.bind_eq_some_iff.mp hc
    obtain ⟨a, ha, rfl⟩ := Option.map_eq_some_iff.mp hc
    simpa [ApiRequest.schema, ApiRequest.isJob] using hstored a (List.mem_of_find?_eq_some ha)
  | job jobId =>
    obtain ⟨job, -, rfl⟩ := Option.map_eq_some_iff.mp h
    simp [ApiRequest.schema, ApiRequest.isJob, jobView_rejected]
  | list query =>
    simp only [ApiRequest.body200] at h
    split at h
    · obtain rfl := Option.some.inj h
      simpa [ApiRequest.schema, ApiRequest.isJob] using page_conforms _ _
    · cases h

namespace Sample

/-- A schema-v1 document of a battle without turns. -/
def schemaV1 : Json :=
  .obj [("schemaVersion", .num 1 0), ("replayId", .str "gen9ou-2672927429"),
    ("format", .str "gen9ou"), ("perspective", .str "p1"),
    ("engine", .obj [("searchBudgetMsPerTurn", .num 200 0), ("opponentSamples", .num 2 0),
      ("threads", .num 4 0), ("usageStatsCutoff", .num 1500 0), ("pokeEngineTag", .str "v0.0.47")]),
    ("totalTurns", .num 0 0), ("gradableTurns", .num 0 0), ("turns", .arr [])]

/-- The tables after these steps of the fleet. -/
def tables (actions : List Action) : ApiState := ⟨(Fleet.after actions).db, [], 0⟩

/-- A submission is analyzed and its document stored as row 9. -/
def served : ApiState :=
  tables (submitFirst 7 ++ analyze 0 "host/1" ⟨schemaV1, 1200, false⟩ ++ report 0 9)

end Sample

theorem responses_conform_iff_served :
    ∃ body, (ApiRequest.analysis (uuidText 9)).body200 Sample.apiConfig Sample.conditions
        Instants.iso Sample.served = some body ∧
      (accepts analysisEnvelopeSchema (some body) = true ↔
        (ApiRequest.analysis (uuidText 9)).isJob = false) := by
  have hdocs : DocumentsConform Sample.served.db := by
    unfold DocumentsConform
    decide
  have hrow : (analysisById Sample.served.db 9).isSome = true := by decide
  obtain ⟨cached, hcached⟩ := Option.isSome_iff_exists.mp hrow
  have hbody : (ApiRequest.analysis (uuidText 9)).body200 Sample.apiConfig Sample.conditions
      Instants.iso Sample.served = some (envelope cached) := by
    simp [ApiRequest.body200, uuidParam_uuidText, hcached]
  exact ⟨_, hbody, responses_conform_iff hdocs hbody⟩

/-- The job of a first submission is sent in a body `JobSchema` rejects. -/
theorem job_response_rejected :
    (Fleet.after (Sample.submitFirst 7)).Reachable ∧
      DocumentsConform (Sample.tables (Sample.submitFirst 7)).db ∧
      ∃ body, (ApiRequest.job (uuidText 7)).body200 Sample.apiConfig Sample.conditions
          Instants.iso (Sample.tables (Sample.submitFirst 7)) = some body ∧
        accepts jobSchema (some body) = false := by
  refine ⟨Fleet.reachable_after _, ?_, ?_⟩
  · unfold DocumentsConform
    decide
  · have hrow : (jobById (Sample.tables (Sample.submitFirst 7)).db 7).isSome = true := by decide
    obtain ⟨job, hjob⟩ := Option.isSome_iff_exists.mp hrow
    refine ⟨jobView job, ?_, jobView_rejected job⟩
    simp [ApiRequest.body200, uuidParam_uuidText, hjob]

end BattleCloud
