import BattleCloud.Api.RateLimiter
import BattleCloud.Api.Views
import BattleCloud.Db.Migrations

/-!
# The tables in the migrated schema

`Db` keeps the tables as typed rows with a list of constraints, the migrations make a schema of
columns, checks, keys and indexes (`Migrations.schema0004`). Here the rows are written out column
by column (`Db.database`), each definition of the schema is read off them, and the tables meet the
schema exactly if the constraints hold and the numbers fit their columns (`database_valid_iff`).
-/

namespace BattleCloud

open Migrations (Name)
open Ddl (Row Value TableDef Index)

/-! ## Rows -/

/-- What the typed rows do not say: when a replay was fetched, and how a `jsonb` is written. -/
structure Unread where
  fetchedAt : ReplayRow → Int
  jsonbText : Json → String

def orNull {α : Type} (f : α → Value) : Option α → Value
  | none => .null
  | some a => f a

def uuidValue (u : Uuid) : Value := .uuid (BitVec.ofFin u)

def IdentityColumns.tuple (c : IdentityColumns) : Row Name
  | .replay_id => .text c.replayId
  | .perspective => .text c.perspective.text
  | .search_budget_ms_per_turn => .integer c.searchBudgetMsPerTurn
  | .opponent_samples => .integer c.opponentSamples
  | .threads => .integer c.threads
  | .usage_stats_cutoff => .integer c.usageStatsCutoff
  | .usage_stats_dataset => .text c.usageStatsDataset
  | .poke_engine_tag => .text c.pokeEngineTag
  | .seed => .integer c.seed
  | _ => .null

def ReplayRow.tuple (u : Unread) (r : ReplayRow) : Row Name
  | .id => .text r.id
  | .format => .text r.format
  | .rating => orNull .integer r.rating
  | .players => .jsonb (u.jsonbText r.players)
  | .log => .text r.log
  | .payload_bytes => .integer r.payloadBytes
  | .fetched_at => .timestamptz (u.fetchedAt r)
  | _ => .null

def AnalysisRow.tuple (u : Unread) (a : AnalysisRow) : Row Name
  | .id => uuidValue a.id
  | .document => .jsonb (u.jsonbText a.document)
  | .total_turns => .integer a.totalTurns
  | .gradable_turns => .integer a.gradableTurns
  | .wall_ms => .integer a.wallMs
  | .degraded => .boolean a.degraded
  | .created_at => .timestamptz a.createdAt.us
  | name => a.columns.tuple name

def JobRow.tuple (j : JobRow) : Row Name
  | .id => uuidValue j.id
  | .profile => .text j.profile.name
  | .status => .text j.status.text
  | .attempts => .integer j.attempts
  | .claimed_by => orNull .text j.claimedBy
  | .claimed_at => orNull (fun t => .timestamptz t.us) j.claimedAt
  | .lease_expires_at => orNull .timestamptz j.leaseExpiresAt
  | .estimated_turns => orNull .integer j.estimatedTurns
  | .estimated_search_ms => orNull .integer j.estimatedSearchMs
  | .analysis_id => orNull uuidValue j.analysisId
  | .error_kind => orNull (fun k => .text k.value) j.errorKind
  | .error_detail => orNull .text j.errorDetail
  | .created_at => .timestamptz j.createdAt.us
  | .updated_at => .timestamptz j.updatedAt.us
  | name => j.columns.tuple name

def RateLimitWindow.tuple (w : RateLimitWindow) : Row Name
  | .client_key => .text w.clientKey
  | .window_start => .timestamptz (1000 * w.windowStart)
  | .count => .integer w.count
  | _ => .null

/-- The tables with the windows of the limiter, as the migrations left them to be filled. -/
def Db.database (u : Unread) (windows : List RateLimitWindow) (db : Db) : Ddl.Database Name where
  schema := Migrations.schema0004
  rows
    | .replays => db.replays.map (ReplayRow.tuple u)
    | .analyses => db.analyses.map (AnalysisRow.tuple u)
    | .jobs => db.jobs.map JobRow.tuple
    | .rate_limit_windows => windows.map RateLimitWindow.tuple
    | _ => []

/-! ## Numbers that fit -/

def Int4 (n : Int) : Prop := -2 ^ 31 ≤ n ∧ n < 2 ^ 31

@[mk_iff]
structure IdentityColumns.Fits (c : IdentityColumns) : Prop where
  searchBudgetMsPerTurn : Int4 c.searchBudgetMsPerTurn
  opponentSamples : Int4 c.opponentSamples
  threads : Int4 c.threads
  usageStatsCutoff : Int4 c.usageStatsCutoff
  seed : Int4 c.seed

@[mk_iff]
structure ReplayRow.Fits (r : ReplayRow) : Prop where
  rating : ∀ n ∈ r.rating, Int4 n
  payloadBytes : Int4 r.payloadBytes

@[mk_iff]
structure AnalysisRow.Fits (a : AnalysisRow) : Prop where
  columns : a.columns.Fits
  totalTurns : Int4 a.totalTurns
  gradableTurns : Int4 a.gradableTurns
  wallMs : Int4 a.wallMs

@[mk_iff]
structure JobRow.Fits (j : JobRow) : Prop where
  columns : j.columns.Fits
  attempts : Int4 j.attempts
  estimatedTurns : ∀ n ∈ j.estimatedTurns, Int4 n
  estimatedSearchMs : ∀ n ∈ j.estimatedSearchMs, Int4 n

structure Db.Fits (db : Db) : Prop where
  replays : ∀ r ∈ db.replays, r.Fits
  analyses : ∀ a ∈ db.analyses, a.Fits
  jobs : ∀ j ∈ db.jobs, j.Fits

/-- The windows of the limiter are one for a client and a time, and their counts fit. -/
def WindowsFit (windows : List RateLimitWindow) : Prop :=
  Table.Unique RateLimitWindow.key windows ∧ ∀ w ∈ windows, Int4 w.count

/-! ## One row -/

/-- A row meets the definition of a column. -/
def Meets (enums : List (Name × List String)) (r : Row Name) (c : Ddl.Column Name) : Prop :=
  (c.notNull = true → r c.name ≠ .null) ∧ (r c.name = .null ∨ c.type.has enums (r c.name) = true)

/-- A row with nothing outside its columns. -/
theorem holds_iff {t : TableDef Name} {enums : List (Name × List String)} {r : Row Name}
    (houtside : ∀ name, name ∉ t.columns.map Ddl.Column.name → r name = .null) :
    t.Holds enums r ↔
      (∀ c ∈ t.columns, Meets enums r c) ∧ ∀ check ∈ t.checks, check.cond.eval r ≠ some false := by
  constructor
  · rintro ⟨hnull, htyped, -, hchecks⟩
    exact ⟨fun c hc => ⟨hnull c hc, htyped c hc⟩, hchecks⟩
  · rintro ⟨hcolumns, hchecks⟩
    refine ⟨fun c hc => (hcolumns c hc).1, fun c hc => (hcolumns c hc).2, ?_, hchecks⟩
    intro name hname
    refine houtside name fun hmem => ?_
    obtain ⟨c, hc, rfl⟩ := List.mem_map.mp hmem
    exact hname c hc rfl

section

variable {enums : List (Name × List String)} {r : Row Name} {name : Name}

theorem meets_mk {type : Ddl.ColumnType Name} {notNull : Bool} {default : Option Ddl.Default} :
    Meets enums r ⟨name, type, notNull, default⟩ ↔
      (notNull = true → r name ≠ .null) ∧ (r name = .null ∨ type.has enums (r name) = true) :=
  Iff.rfl

@[simp] theorem orNull_eq_null {α : Type} {f : α → Value} {o : Option α}
    (hf : ∀ a, f a ≠ .null) : orNull f o = .null ↔ o = none := by
  cases o <;> simp [orNull, hf]

/-- A column that can be null. -/
theorem orNull_has {type : Ddl.ColumnType Name} {α : Type} {f : α → Value} {o : Option α} :
    (orNull f o = .null ∨ type.has enums (orNull f o) = true) ↔
      ∀ a ∈ o, f a = .null ∨ type.has enums (f a) = true := by
  cases o <;> simp [orNull]

@[simp] theorem has_integer {n : Int} :
    Ddl.ColumnType.has enums .integer (.integer n) = true ↔ Int4 n := by
  simp [Ddl.ColumnType.has, Int4]

@[simp] theorem has_text {s : String} : Ddl.ColumnType.has enums .text (.text s) = true := rfl

@[simp] theorem has_uuid {u : Uuid} : Ddl.ColumnType.has enums .uuid (uuidValue u) = true := rfl

@[simp] theorem has_boolean {b : Bool} : Ddl.ColumnType.has enums .boolean (.boolean b) = true :=
  rfl

@[simp] theorem has_timestamptz {t : Int} :
    Ddl.ColumnType.has enums .timestamptz (.timestamptz t) = true := rfl

@[simp] theorem has_jsonb {s : String} : Ddl.ColumnType.has enums .jsonb (.jsonb s) = true := rfl

@[simp] theorem uuidValue_ne_null {u : Uuid} : uuidValue u ≠ .null := by
  rintro ⟨⟩

/-- A bound on an `integer`. -/
theorem ge_integer {n : Int} (bound : Int) (h : r name = .integer n) :
    (Ddl.Cond.ge name bound).eval r = some (decide (bound ≤ n)) := by
  have hne : Value.integer n ≠ .null := by
    rintro ⟨⟩
  rw [Ddl.Cond.eval, h, Ddl.compared_of_ne hne, Value.exceeds, Option.some.injEq, decide_eq_decide]
  omega

theorem eval_ge {n bound : Int} (h : r name = .integer n) :
    (Ddl.Cond.ge name bound).eval r ≠ some false ↔ bound ≤ n := by
  rw [ge_integer bound h]
  simp

theorem eval_gt {n bound : Int} (h : r name = .integer n) :
    (Ddl.Cond.gt name bound).eval r ≠ some false ↔ bound < n := by
  simp [Ddl.Cond.eval, Ddl.compared, Value.exceeds, h]

theorem eval_ne {s t : String} (h : r name = .text s) :
    (Ddl.Cond.ne name (.text t)).eval r ≠ some false ↔ s ≠ t := by
  simp [Ddl.Cond.eval, Ddl.compared, h]

theorem eval_perspective {p : Perspective} (h : r name = .text p.text) :
    (Ddl.Cond.oneOf name [.text "p1", .text "p2"]).eval r ≠ some false := by
  cases p <;> simp [Ddl.Cond.eval, Ddl.compared, h, Perspective.text]

end

/-- The identity, as both tables declare it. -/
theorem meets_identity {enums : List (Name × List String)} {r : Row Name} {c : IdentityColumns}
    (hr : ∀ name ∈ Migrations.datasetIdentityColumns, r name = c.tuple name) :
    (∀ column ∈ Migrations.identityDefinitions, Meets enums r column) ↔ c.Fits := by
  simp only [Migrations.datasetIdentityColumns, List.forall_mem_cons, IdentityColumns.tuple] at hr
  simp [Migrations.identityDefinitions, Migrations.required, meets_mk, hr,
    IdentityColumns.fits_iff]

theorem eval_identity {r : Row Name} {c : IdentityColumns} (table : Name)
    (hr : ∀ name ∈ Migrations.datasetIdentityColumns, r name = c.tuple name) :
    (∀ check ∈ Migrations.identityChecks table, check.cond.eval r ≠ some false) ∧
      (Migrations.datasetCheck table).cond.eval r ≠ some false ↔ c.Checks := by
  simp only [Migrations.datasetIdentityColumns, List.forall_mem_cons, IdentityColumns.tuple] at hr
  obtain ⟨-, hperspective, hbudget, hsamples, hthreads, hcutoff, hdataset, -⟩ := hr
  simp only [Migrations.identityChecks, Migrations.perspectiveCheck, Migrations.positive,
    Migrations.atLeast, Migrations.columnCheck, Migrations.datasetCheck, List.forall_mem_cons,
    eval_gt hbudget, eval_ge hsamples, eval_ge hthreads, eval_ge hcutoff, eval_ne hdataset,
    IdentityColumns.Checks]
  have htwo := eval_perspective hperspective
  simp [htwo, and_assoc]

theorem holds_replay (u : Unread) (r : ReplayRow) :
    Migrations.replays.Holds Migrations.schema0004.enums (r.tuple u) ↔
      r.Fits ∧ 0 ≤ r.payloadBytes := by
  have hbytes : r.tuple u .payload_bytes = .integer r.payloadBytes := rfl
  rw [holds_iff]
  · simp only [Migrations.replays, Migrations.required, Migrations.nullable, Migrations.defaulting,
      meets_mk, List.forall_mem_cons, Migrations.atLeast, Migrations.columnCheck, eval_ge hbytes,
      ReplayRow.tuple, orNull_has]
    simp [ReplayRow.fits_iff]
  · intro name hname
    unfold ReplayRow.tuple
    split <;> first | rfl | exact absurd (by decide) hname

theorem AnalysisRow.tuple_identity (u : Unread) (a : AnalysisRow) :
    ∀ name ∈ Migrations.datasetIdentityColumns, a.tuple u name = a.columns.tuple name := by
  simp [Migrations.datasetIdentityColumns, AnalysisRow.tuple]

theorem JobRow.tuple_identity (j : JobRow) :
    ∀ name ∈ Migrations.datasetIdentityColumns, j.tuple name = j.columns.tuple name := by
  simp [Migrations.datasetIdentityColumns, JobRow.tuple]

theorem holds_analysis (u : Unread) (a : AnalysisRow) :
    (Migrations.withDataset Migrations.analyses).Holds Migrations.schema0004.enums (a.tuple u) ↔
      a.Fits ∧ a.columns.Checks ∧ 0 ≤ a.totalTurns ∧ 0 ≤ a.gradableTurns ∧ 0 ≤ a.wallMs := by
  have htotal : a.tuple u .total_turns = .integer a.totalTurns := rfl
  have hgradable : a.tuple u .gradable_turns = .integer a.gradableTurns := rfl
  have hwall : a.tuple u .wall_ms = .integer a.wallMs := rfl
  have hchecks := eval_identity .analyses (a.tuple_identity u)
  rw [holds_iff]
  · simp only [Migrations.withDataset, Migrations.analyses, Migrations.required,
      Migrations.defaulting, meets_mk, meets_identity (a.tuple_identity u), List.forall_mem_append,
      List.forall_mem_cons, Migrations.atLeast, Migrations.columnCheck, eval_ge htotal,
      eval_ge hgradable, eval_ge hwall, AnalysisRow.tuple, IdentityColumns.tuple]
    rw [← hchecks, AnalysisRow.fits_iff]
    simp
    tauto
  · intro name hname
    unfold AnalysisRow.tuple
    split <;> try exact absurd (by decide) hname
    unfold IdentityColumns.tuple
    split <;> first | rfl | exact absurd (by decide) hname

/-! The conditions of `jobs`. -/

theorem eval_estimate {r : Row Name} {name : Name} {o : Option Int}
    (h : r name = orNull .integer o) :
    (Ddl.Cond.or (.isNull name) (.ge name 0)).eval r ≠ some false ↔ ∀ n ∈ o, 0 ≤ n := by
  cases o with
  | none => simp [Ddl.Cond.eval, h, orNull, Ddl.or3]
  | some n =>
    have hnull : (Ddl.Cond.isNull name).eval r = some false := by simp [Ddl.Cond.eval, h, orNull]
    show Ddl.or3 ((Ddl.Cond.isNull name).eval r) ((Ddl.Cond.ge name 0).eval r) ≠ some false ↔ _
    rw [hnull, ge_integer 0 h]
    simp

theorem eval_claimIsAllOrNothing (j : JobRow) :
    (Ddl.Cond.or
        (.and (.and (.isNull .claimed_by) (.isNull .claimed_at)) (.isNull .lease_expires_at))
        (.and (.and (.notNull .claimed_by) (.notNull .claimed_at))
          (.notNull .lease_expires_at))).eval j.tuple ≠ some false ↔ j.ClaimIsAllOrNothing := by
  simp [Ddl.Cond.eval, JobRow.tuple, JobRow.ClaimIsAllOrNothing, Option.isSome_iff_ne_none]
  tauto

theorem eval_succeededHasAnalysis (j : JobRow) :
    (Ddl.Cond.or (.ne .status (.text "succeeded")) (.notNull .analysis_id)).eval j.tuple ≠
      some false ↔ j.SucceededHasAnalysis := by
  have hstatus : j.status.text = "succeeded" ↔ j.status = .succeeded := by
    cases j.status <;> simp [JobStatus.text]
  simp [Ddl.Cond.eval, JobRow.tuple, JobRow.SucceededHasAnalysis, Ddl.compared_of_ne, hstatus,
    Option.isSome_iff_ne_none, imp_iff_not_or]

theorem eval_failedHasKind (j : JobRow) :
    (Ddl.Cond.or (.ne .status (.text "failed")) (.notNull .error_kind)).eval j.tuple ≠
      some false ↔ j.FailedHasKind := by
  have hstatus : j.status.text = "failed" ↔ j.status = .failed := by
    cases j.status <;> simp [JobStatus.text]
  simp [Ddl.Cond.eval, JobRow.tuple, JobRow.FailedHasKind, Ddl.compared_of_ne, hstatus,
    Option.isSome_iff_ne_none, imp_iff_not_or]

theorem holds_job (j : JobRow) :
    (Migrations.withDataset Migrations.jobs).Holds Migrations.schema0004.enums j.tuple ↔
      j.Fits ∧ j.columns.Checks ∧ j.EstimatesCheck ∧ j.ClaimIsAllOrNothing ∧
        j.SucceededHasAnalysis ∧ j.FailedHasKind := by
  have hattempts : j.tuple .attempts = .integer j.attempts := rfl
  have hturns : j.tuple .estimated_turns = orNull .integer j.estimatedTurns := rfl
  have hms : j.tuple .estimated_search_ms = orNull .integer j.estimatedSearchMs := rfl
  have hstatus : Ddl.ColumnType.has Migrations.schema0004.enums (.enum .job_status)
      (.text j.status.text) = true := by
    cases j.status <;> decide
  have hchecks := eval_identity .jobs j.tuple_identity
  rw [holds_iff]
  · simp only [Migrations.withDataset, Migrations.jobs, Migrations.required,
      Migrations.defaulting, Migrations.nullable, meets_mk, meets_identity j.tuple_identity,
      List.forall_mem_append, List.forall_mem_cons, Migrations.atLeast, Migrations.columnCheck,
      eval_ge hattempts, eval_claimIsAllOrNothing, eval_succeededHasAnalysis, eval_failedHasKind,
      eval_estimate hturns, eval_estimate hms]
    simp only [JobRow.tuple, IdentityColumns.tuple, orNull_has]
    rw [← hchecks, JobRow.fits_iff, JobRow.EstimatesCheck]
    simp [hstatus]
    tauto
  · intro name hname
    unfold JobRow.tuple
    split <;> try exact absurd (by decide) hname
    unfold IdentityColumns.tuple
    split <;> first | rfl | exact absurd (by decide) hname

theorem holds_window (w : RateLimitWindow) :
    Migrations.rateLimitWindows.Holds Migrations.schema0004.enums w.tuple ↔ Int4 w.count := by
  have hcount : w.tuple .count = .integer w.count := rfl
  rw [holds_iff]
  · simp only [Migrations.rateLimitWindows, Migrations.required, meets_mk, List.forall_mem_cons,
      Migrations.atLeast, Migrations.columnCheck, eval_ge hcount, RateLimitWindow.tuple]
    simp
  · intro name hname
    unfold RateLimitWindow.tuple
    split <;> first | rfl | exact absurd (by decide) hname

/-! ## Indexes -/

/-- A unique index over rows that are written out. -/
theorem admits_unique {ρ κ : Type} {i : Index Name} {f : ρ → Row Name} {live : ρ → Bool}
    {key : ρ → κ} {t : List ρ} (hi : i.unique = true) (hl : ∀ x, i.covers (f x) = live x)
    (hk : ∀ x y, i.key (f x) = i.key (f y) ↔ key x = key y) :
    i.Admits (t.map f) ↔ Table.UniqueWhere live key t := by
  rw [Index.Admits, Table.uniqueWhere_map hl hk]
  exact ⟨fun h => h hi, fun h _ => h⟩

theorem admits_of_not_unique {i : Index Name} {rows : List (Row Name)} (hi : i.unique = false) :
    i.Admits rows := by
  intro h
  rw [hi] at h
  cases h

@[simp] theorem uuidValue_inj {u v : Uuid} : uuidValue u = uuidValue v ↔ u = v := by
  simp [uuidValue]

theorem admits_replaysPkey (u : Unread) (t : List ReplayRow) :
    (Migrations.primaryKey .replays).Admits (t.map (ReplayRow.tuple u)) ↔
      Table.Unique ReplayRow.id t := by
  rw [Table.unique_iff_uniqueWhere]
  refine admits_unique rfl (fun r => ?_) fun r r' => ?_
  · simp [Index.covers, Migrations.primaryKey, ReplayRow.tuple]
  · simp [Index.key, Migrations.primaryKey, ReplayRow.tuple]

theorem admits_analysesPkey (u : Unread) (t : List AnalysisRow) :
    (Migrations.primaryKey .analyses).Admits (t.map (AnalysisRow.tuple u)) ↔
      Table.Unique AnalysisRow.id t := by
  rw [Table.unique_iff_uniqueWhere]
  refine admits_unique rfl (fun a => ?_) fun a a' => ?_
  · simp [Index.covers, Migrations.primaryKey, AnalysisRow.tuple]
  · simp [Index.key, Migrations.primaryKey, AnalysisRow.tuple]

theorem admits_jobsPkey (t : List JobRow) :
    (Migrations.primaryKey .jobs).Admits (t.map JobRow.tuple) ↔ Table.Unique JobRow.id t := by
  rw [Table.unique_iff_uniqueWhere]
  refine admits_unique rfl (fun j => ?_) fun j j' => ?_
  · simp [Index.covers, Migrations.primaryKey, JobRow.tuple]
  · simp [Index.key, Migrations.primaryKey, JobRow.tuple]

theorem admits_windowsPkey (t : List RateLimitWindow) :
    Migrations.rateLimitWindowsPkey.Admits (t.map RateLimitWindow.tuple) ↔
      Table.Unique RateLimitWindow.key t := by
  rw [Table.unique_iff_uniqueWhere]
  refine admits_unique rfl (fun w => ?_) fun w w' => ?_
  · simp [Index.covers, Migrations.rateLimitWindowsPkey, Ddl.uniqueConstraint,
      RateLimitWindow.tuple]
  · simp [Index.key, Migrations.rateLimitWindowsPkey, Ddl.uniqueConstraint,
      RateLimitWindow.tuple, RateLimitWindow.key]

/-- The nine columns are the identity. -/
theorem IdentityColumns.tuple_inj {c d : IdentityColumns}
    (h : ∀ name ∈ Migrations.datasetIdentityColumns, c.tuple name = d.tuple name) : c = d := by
  have hperspective : c.perspective = d.perspective := by
    have htext := h .perspective (by decide)
    rw [IdentityColumns.tuple, IdentityColumns.tuple, Value.text.injEq] at htext
    have hof := congrArg Perspective.ofText? htext
    rw [Perspective.ofText?_text, Perspective.ofText?_text] at hof
    exact Option.some.inj hof
  simp only [Migrations.datasetIdentityColumns, List.forall_mem_cons, IdentityColumns.tuple,
    Value.text.injEq, Value.integer.injEq] at h
  obtain ⟨hreplay, -, hbudget, hsamples, hthreads, hcutoff, hdataset, htag, hseed, -⟩ := h
  cases c
  cases d
  simp only [IdentityColumns.mk.injEq]
  exact ⟨hreplay, hperspective, hbudget, hsamples, hthreads, hcutoff, hdataset, htag, hseed⟩

/-- An index over the identity tells two rows apart by it. -/
theorem key_identity {i : Index Name} (hi : i.columns = Migrations.datasetIdentityColumns)
    {r r' : Row Name} {c c' : IdentityColumns}
    (hr : ∀ name ∈ Migrations.datasetIdentityColumns, r name = c.tuple name)
    (hr' : ∀ name ∈ Migrations.datasetIdentityColumns, r' name = c'.tuple name) :
    i.key r = i.key r' ↔ c = c' := by
  rw [Index.key_eq, hi]
  constructor
  · intro h
    exact IdentityColumns.tuple_inj fun name hname => by
      rw [← hr name hname, ← hr' name hname, h name hname]
  · rintro rfl name hname
    rw [hr name hname, hr' name hname]

theorem admits_analysesKey (u : Unread) (t : List AnalysisRow) :
    (Migrations.analysesKey Migrations.datasetIdentityColumns).Admits
      (t.map (AnalysisRow.tuple u)) ↔ Table.Unique AnalysisRow.columns t := by
  rw [Table.unique_iff_uniqueWhere]
  refine admits_unique rfl (fun a => ?_) fun a a' =>
    key_identity rfl (a.tuple_identity u) (a'.tuple_identity u)
  simp [Index.covers, Migrations.analysesKey, Ddl.uniqueConstraint,
    Migrations.datasetIdentityColumns, AnalysisRow.tuple, IdentityColumns.tuple]

theorem admits_activeIdentityKey (t : List JobRow) :
    (Migrations.activeIdentityKey Migrations.datasetIdentityColumns).Admits (t.map JobRow.tuple) ↔
      Table.UniqueWhere JobRow.live JobRow.columns t := by
  refine admits_unique rfl (fun j => ?_) fun j j' =>
    key_identity rfl j.tuple_identity j'.tuple_identity
  simp [Index.covers, Migrations.activeIdentityKey, Migrations.isActive, Ddl.Cond.eval,
    Migrations.datasetIdentityColumns, JobRow.tuple, IdentityColumns.tuple, Ddl.compared_of_ne]
  cases hs : j.status <;> simp [JobRow.live, JobStatus.text, hs]

/-! ## The tables -/

theorem schema0004_tables : Migrations.schema0004.tables =
    [Migrations.replays, Migrations.withDataset Migrations.analyses,
      Migrations.withDataset Migrations.jobs, Migrations.rateLimitWindows] := rfl

theorem forall_index {P : Index Name → Prop} :
    (∀ i ∈ Migrations.schema0004.indexes, P i) ↔
      (P (Migrations.primaryKey .replays) ∧ P (Migrations.primaryKey .analyses) ∧
        P (Migrations.primaryKey .jobs) ∧
        P (Migrations.analysesKey Migrations.datasetIdentityColumns) ∧
        P (Migrations.activeIdentityKey Migrations.datasetIdentityColumns) ∧
        P Migrations.rateLimitWindowsPkey) ∧
      P Migrations.analysesReplayIdx ∧ P Migrations.jobsLeaseIdx ∧
      P Migrations.jobsClaimableIdx ∧ P Migrations.rateLimitWindowsExpiryIdx ∧
      P Migrations.analysesRecentIdx := by
  simp only [Migrations.schema0004, Migrations.schema0003, Migrations.schema0002,
    Migrations.identityIndexes, Finset.mem_insert, Finset.mem_union, Finset.mem_singleton,
    or_imp, forall_and, forall_eq]
  tauto

section

variable (u : Unread) (windows : List RateLimitWindow) (db : Db)

theorem database_holds :
    (∀ t ∈ Migrations.schema0004.tables, ∀ r ∈ (db.database u windows).rows t.name,
      t.Holds Migrations.schema0004.enums r) ↔
      (∀ r ∈ db.replays, r.Fits ∧ 0 ≤ r.payloadBytes) ∧
      (∀ a ∈ db.analyses, a.Fits ∧ a.columns.Checks ∧ 0 ≤ a.totalTurns ∧ 0 ≤ a.gradableTurns ∧
        0 ≤ a.wallMs) ∧
      (∀ j ∈ db.jobs, j.Fits ∧ j.columns.Checks ∧ j.EstimatesCheck ∧ j.ClaimIsAllOrNothing ∧
        j.SucceededHasAnalysis ∧ j.FailedHasKind) ∧
      ∀ w ∈ windows, Int4 w.count := by
  have hreplays : (db.database u windows).rows Migrations.replays.name =
    db.replays.map (ReplayRow.tuple u) := rfl
  have hanalyses : (db.database u windows).rows (Migrations.withDataset Migrations.analyses).name =
    db.analyses.map (AnalysisRow.tuple u) := rfl
  have hjobs : (db.database u windows).rows (Migrations.withDataset Migrations.jobs).name =
    db.jobs.map JobRow.tuple := rfl
  have hwindows : (db.database u windows).rows Migrations.rateLimitWindows.name =
    windows.map RateLimitWindow.tuple := rfl
  rw [schema0004_tables, List.forall_mem_cons, List.forall_mem_cons, List.forall_mem_cons,
    List.forall_mem_singleton, hreplays, hanalyses, hjobs, hwindows]
  simp only [List.forall_mem_map, holds_replay, holds_analysis, holds_job, holds_window]

theorem database_foreign :
    (∀ t ∈ Migrations.schema0004.tables, ∀ fk ∈ t.foreignKeys,
      ∀ r ∈ (db.database u windows).rows t.name,
        r fk.column = .null ∨
          ∃ r' ∈ (db.database u windows).rows fk.target, r' fk.targetColumn = r fk.column) ↔
      (∀ a ∈ db.analyses, ∃ r ∈ db.replays, r.id = a.columns.replayId) ∧
      ∀ j ∈ db.jobs, j.AnalysisStored db := by
  have hreplay : ∀ a : AnalysisRow, (a.tuple u .replay_id = .null ∨
      ∃ r ∈ db.replays.map (ReplayRow.tuple u), r .id = a.tuple u .replay_id) ↔
        ∃ r ∈ db.replays, r.id = a.columns.replayId := by
    intro a
    simp [AnalysisRow.tuple, IdentityColumns.tuple, ReplayRow.tuple]
  have hanalysis : ∀ j : JobRow, (j.tuple .analysis_id = .null ∨
      ∃ r ∈ db.analyses.map (AnalysisRow.tuple u), r .id = j.tuple .analysis_id) ↔
        j.AnalysisStored db := by
    intro j
    unfold JobRow.AnalysisStored
    simp only [JobRow.tuple]
    cases j.analysisId <;> simp [orNull, AnalysisRow.tuple]
  rw [schema0004_tables]
  constructor
  · intro h
    refine ⟨fun a ha => (hreplay a).mp ?_, fun j hj => (hanalysis j).mp ?_⟩
    · exact h (Migrations.withDataset Migrations.analyses) (by simp) _ (List.mem_singleton_self _) _
        (List.mem_map_of_mem ha)
    · exact h (Migrations.withDataset Migrations.jobs) (by simp) _ (List.mem_singleton_self _) _
        (List.mem_map_of_mem hj)
  · rintro ⟨hanalyses, hjobs⟩
    simp only [List.forall_mem_cons]
    refine ⟨fun fk hfk => absurd hfk List.not_mem_nil, fun fk hfk r hr => ?_,
      fun fk hfk r hr => ?_, fun fk hfk => absurd hfk List.not_mem_nil,
      fun t ht => absurd ht List.not_mem_nil⟩
    · obtain rfl := List.mem_singleton.mp hfk
      obtain ⟨a, ha, rfl⟩ := List.mem_map.mp hr
      exact (hreplay a).mpr (hanalyses a ha)
    · obtain rfl := List.mem_singleton.mp hfk
      obtain ⟨j, hj, rfl⟩ := List.mem_map.mp hr
      exact (hanalysis j).mpr (hjobs j hj)

theorem database_unique :
    (∀ i ∈ Migrations.schema0004.indexes, i.Admits ((db.database u windows).rows i.table)) ↔
      Table.Unique ReplayRow.id db.replays ∧ Table.Unique AnalysisRow.id db.analyses ∧
      Table.Unique JobRow.id db.jobs ∧ Table.Unique AnalysisRow.columns db.analyses ∧
      Table.UniqueWhere JobRow.live JobRow.columns db.jobs ∧
      Table.Unique RateLimitWindow.key windows := by
  rw [forall_index, ← admits_replaysPkey u, ← admits_analysesPkey u, ← admits_jobsPkey,
    ← admits_analysesKey u, ← admits_activeIdentityKey, ← admits_windowsPkey]
  refine and_iff_left ⟨?_, ?_, ?_, ?_, ?_⟩
  all_goals exact admits_of_not_unique rfl

/-- **The tables meet the migrated schema exactly if the constraints hold and the numbers fit.** -/
theorem database_valid_iff :
    (db.database u windows).Valid ↔ db.Valid ∧ db.Fits ∧ WindowsFit windows := by
  constructor
  · rintro ⟨hholds, hforeign, hunique, -⟩
    obtain ⟨hreplays, hanalyses, hjobs, hwindows⟩ := (database_holds u windows db).mp hholds
    obtain ⟨hreplay, hanalysis⟩ := (database_foreign u windows db).mp hforeign
    obtain ⟨hreplaysKey, hanalysesKey, hjobsKey, hidentity, hactive, hwindowsKey⟩ :=
      (database_unique u windows db).mp hunique
    refine ⟨fun c => ?_, ?_, hwindowsKey, hwindows⟩
    · cases c with
      | replaysPkey => exact hreplaysKey
      | replaysPayloadBytesCheck => exact fun r hr => (hreplays r hr).2
      | analysesPkey => exact hanalysesKey
      | analysesReplayIdFkey => exact hreplay
      | analysesIdentityKey => exact hidentity
      | analysesIdentityChecks => exact fun a ha => (hanalyses a ha).2.1
      | analysesTotalTurnsCheck => exact fun a ha => (hanalyses a ha).2.2.1
      | analysesGradableTurnsCheck => exact fun a ha => (hanalyses a ha).2.2.2.1
      | analysesWallMsCheck => exact fun a ha => (hanalyses a ha).2.2.2.2
      | jobsPkey => exact hjobsKey
      | jobsIdentityChecks => exact fun j hj => (hjobs j hj).2.1
      | jobsEstimatesCheck => exact fun j hj => (hjobs j hj).2.2.1
      | jobsAnalysisIdFkey => exact hanalysis
      | jobsClaimIsAllOrNothing => exact fun j hj => (hjobs j hj).2.2.2.1
      | jobsSucceededHasAnalysis => exact fun j hj => (hjobs j hj).2.2.2.2.1
      | jobsFailedHasKind => exact fun j hj => (hjobs j hj).2.2.2.2.2
      | jobsActiveIdentityKey => exact hactive
    · exact ⟨fun r hr => (hreplays r hr).1, fun a ha => (hanalyses a ha).1,
        fun j hj => (hjobs j hj).1⟩
  · rintro ⟨hv, hfits, hwindowsKey, hwindows⟩
    refine ⟨(database_holds u windows db).mpr ⟨fun r hr => ?_, fun a ha => ?_, fun j hj => ?_,
      hwindows⟩, (database_foreign u windows db).mpr ⟨hv .analysesReplayIdFkey,
      hv .jobsAnalysisIdFkey⟩, (database_unique u windows db).mpr ⟨hv .replaysPkey,
      hv .analysesPkey, hv .jobsPkey, hv .analysesIdentityKey, hv .jobsActiveIdentityKey,
      hwindowsKey⟩, fun name hname => ?_⟩
    · exact ⟨hfits.replays r hr, hv .replaysPayloadBytesCheck r hr⟩
    · exact ⟨hfits.analyses a ha, hv .analysesIdentityChecks a ha, hv .analysesTotalTurnsCheck a ha,
        hv .analysesGradableTurnsCheck a ha, hv .analysesWallMsCheck a ha⟩
    · exact ⟨hfits.jobs j hj, hv .jobsIdentityChecks j hj, hv .jobsEstimatesCheck j hj,
        hv .jobsClaimIsAllOrNothing j hj, hv .jobsSucceededHasAnalysis j hj,
        hv .jobsFailedHasKind j hj⟩
    · have hne : ∀ t ∈ Migrations.schema0004.tables, t.name ≠ name := hname
      simp only [schema0004_tables, List.forall_mem_cons] at hne
      obtain ⟨hreplays, hanalyses, hjobs, hlimits, -⟩ := hne
      simp only [Db.database]
      split <;> first | rfl | contradiction

end

end BattleCloud
