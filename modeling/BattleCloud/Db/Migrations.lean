import BattleCloud.Db.Migrate
import BattleCloud.Lib.Ddl

/-!
# The migrations

The scripts of `migrations/`, statement by statement, and the directory the runner finds them in.
The schema after each of them is what its script makes of the one before, and its reverse makes
that one of it again, the indexes in whatever order (`Reverses`).
-/

namespace BattleCloud

namespace Migrations

open Ddl

/-- The names in the scripts, and those Postgres makes of them. -/
inductive Name where
  -- tables
  | replays | analyses | jobs | rate_limit_windows
  -- columns
  | id | format | rating | players | log | payload_bytes | fetched_at | replay_id | perspective
  | search_budget_ms_per_turn | opponent_samples | threads | usage_stats_cutoff
  | usage_stats_dataset | poke_engine_tag | seed | document | total_turns | gradable_turns
  | wall_ms | degraded | created_at | profile | status | attempts | claimed_by | claimed_at
  | lease_expires_at | estimated_turns | estimated_search_ms | analysis_id | error_kind
  | error_detail | updated_at | client_key | window_start | count
  -- a type, constraints and indexes
  | job_status | analyses_identity_key | jobs_claim_is_all_or_nothing
  | jobs_succeeded_has_analysis | jobs_failed_has_kind | analyses_replay_idx
  | jobs_active_identity_key | jobs_claimable_idx | jobs_lease_idx
  | rate_limit_windows_expiry_idx | analyses_recent_idx
  -- `{table}_pkey`, `{table}_{column}_check` and `{table}_{column}_fkey`
  | pkey (table : Name)
  | check (table column : Name)
  | fkey (table column : Name)
  deriving DecidableEq

/-! ## `0001_initial` -/

/-- `NOT NULL`. -/
def required (name : Name) (type : ColumnType Name) : Column Name := ⟨name, type, true, none⟩

def nullable (name : Name) (type : ColumnType Name) : Column Name := ⟨name, type, false, none⟩

/-- `NOT NULL DEFAULT`. -/
def defaulting (name : Name) (type : ColumnType Name) (default : Default) : Column Name :=
  ⟨name, type, true, some default⟩

/-- The primary key `id`. -/
def primaryKey (table : Name) : Index Name := ⟨.pkey table, table, [.id], [], true, none, true⟩

/-- `CHECK` beside a column. -/
def columnCheck (table column : Name) (cond : Cond Name) : Check Name := ⟨.check table column, cond⟩

def atLeast (table column : Name) (bound : Int) : Check Name :=
  columnCheck table column (.ge column bound)

def positive (table column : Name) : Check Name := columnCheck table column (.gt column 0)

def perspectiveCheck (table : Name) : Check Name :=
  columnCheck table .perspective (.oneOf .perspective [.text "p1", .text "p2"])

/-- The columns of the identity. -/
def identityColumns : List Name :=
  [.replay_id, .perspective, .search_budget_ms_per_turn, .opponent_samples, .threads,
    .usage_stats_cutoff, .poke_engine_tag, .seed]

def identityDefinitions : List (Column Name) :=
  [required .replay_id .text, required .perspective .text,
    required .search_budget_ms_per_turn .integer, required .opponent_samples .integer,
    required .threads .integer, required .usage_stats_cutoff .integer,
    required .poke_engine_tag .text, required .seed .integer]

def identityChecks (table : Name) : List (Check Name) :=
  [perspectiveCheck table, positive table .search_budget_ms_per_turn,
    atLeast table .opponent_samples 1, atLeast table .threads 1,
    atLeast table .usage_stats_cutoff 0]

def replays : TableDef Name where
  name := .replays
  columns := [required .id .text, required .format .text, nullable .rating .integer,
    defaulting .players .jsonb (.value (.jsonb "[]")), required .log .text,
    required .payload_bytes .integer, defaulting .fetched_at .timestamptz (.call "now")]
  checks := [atLeast .replays .payload_bytes 0]
  foreignKeys := []

def analyses : TableDef Name where
  name := .analyses
  columns := [defaulting .id .uuid (.call "gen_random_uuid")] ++ identityDefinitions ++
    [required .document .jsonb, required .total_turns .integer,
      required .gradable_turns .integer, required .wall_ms .integer,
      defaulting .degraded .boolean (.value (.boolean false)),
      defaulting .created_at .timestamptz (.call "now")]
  checks := identityChecks .analyses ++ [atLeast .analyses .total_turns 0,
    atLeast .analyses .gradable_turns 0, atLeast .analyses .wall_ms 0]
  foreignKeys := [⟨.fkey .analyses .replay_id, .replay_id, .replays, .id, .cascade⟩]

def jobs : TableDef Name where
  name := .jobs
  columns := [defaulting .id .uuid (.call "gen_random_uuid")] ++ identityDefinitions ++
    [required .profile .text, defaulting .status (.enum .job_status) (.value (.text "queued")),
      defaulting .attempts .integer (.value (.integer 0)), nullable .claimed_by .text,
      nullable .claimed_at .timestamptz, nullable .lease_expires_at .timestamptz,
      nullable .estimated_turns .integer, nullable .estimated_search_ms .integer,
      nullable .analysis_id .uuid, nullable .error_kind .text, nullable .error_detail .text,
      defaulting .created_at .timestamptz (.call "now"),
      defaulting .updated_at .timestamptz (.call "now")]
  checks := identityChecks .jobs ++ [atLeast .jobs .attempts 0,
    columnCheck .jobs .estimated_turns
      (.or (.isNull .estimated_turns) (.ge .estimated_turns 0)),
    columnCheck .jobs .estimated_search_ms
      (.or (.isNull .estimated_search_ms) (.ge .estimated_search_ms 0)),
    ⟨.jobs_claim_is_all_or_nothing,
      .or (.and (.and (.isNull .claimed_by) (.isNull .claimed_at)) (.isNull .lease_expires_at))
        (.and (.and (.notNull .claimed_by) (.notNull .claimed_at))
          (.notNull .lease_expires_at))⟩,
    ⟨.jobs_succeeded_has_analysis,
      .or (.ne .status (.text "succeeded")) (.notNull .analysis_id)⟩,
    ⟨.jobs_failed_has_kind, .or (.ne .status (.text "failed")) (.notNull .error_kind)⟩]
  foreignKeys := [⟨.fkey .jobs .analysis_id, .analysis_id, .analyses, .id, .setNull⟩]

def jobStatus : List String := ["queued", "running", "succeeded", "failed", "cancelled"]

/-- `CONSTRAINT analyses_identity_key UNIQUE (..)`. -/
def analysesKey (columns : List Name) : Index Name :=
  uniqueConstraint .analyses .analyses_identity_key columns

def analysesReplayIdx : Index Name :=
  ⟨.analyses_replay_idx, .analyses, [.replay_id], [], false, none, false⟩

/-- `WHERE status IN ('queued', 'running')`. -/
def isActive : Cond Name := .oneOf .status [.text "queued", .text "running"]

def activeIdentityKey (columns : List Name) : Index Name :=
  ⟨.jobs_active_identity_key, .jobs, columns, [], true, some isActive, false⟩

def jobsClaimableIdx : Index Name :=
  ⟨.jobs_claimable_idx, .jobs, [.created_at, .id], [], false,
    some (.oneOf .status [.text "queued"]), false⟩

def jobsLeaseIdx : Index Name :=
  ⟨.jobs_lease_idx, .jobs, [.lease_expires_at], [], false,
    some (.oneOf .status [.text "running"]), false⟩

/-- `0001_initial.up.sql`. -/
def initialUp : List (Statement Name) :=
  [.createTable replays [primaryKey .replays],
    .createTable analyses [primaryKey .analyses, analysesKey identityColumns],
    .createIndex analysesReplayIdx,
    .createType .job_status jobStatus,
    .createTable jobs [primaryKey .jobs],
    .createIndex (activeIdentityKey identityColumns),
    .createIndex jobsClaimableIdx,
    .createIndex jobsLeaseIdx]

/-- `0001_initial.down.sql`. -/
def initialDown : List (Statement Name) :=
  [.dropIndex true .jobs_lease_idx,
    .dropIndex true .jobs_claimable_idx,
    .dropIndex true .jobs_active_identity_key,
    .dropTable true .jobs,
    .dropType true .job_status,
    .dropIndex true .analyses_replay_idx,
    .dropTable true .analyses,
    .dropTable true .replays]

/-! ## `0002_usage_stats_dataset` -/

/-- The identity with the dataset. -/
def datasetIdentityColumns : List Name :=
  [.replay_id, .perspective, .search_budget_ms_per_turn, .opponent_samples, .threads,
    .usage_stats_cutoff, .usage_stats_dataset, .poke_engine_tag, .seed]

def datasetCheck (table : Name) : Check Name :=
  columnCheck table .usage_stats_dataset (.ne .usage_stats_dataset (.text ""))

def addDataset (table : Name) : Statement Name :=
  .addColumn table .usage_stats_dataset .text true (.text "2026-07") (datasetCheck table)

/-- `0002_usage_stats_dataset.up.sql`. -/
def datasetUp : List (Statement Name) :=
  [addDataset .analyses,
    .dropDefault .analyses .usage_stats_dataset,
    addDataset .jobs,
    .dropDefault .jobs .usage_stats_dataset,
    .dropConstraint .analyses .analyses_identity_key,
    .addUnique .analyses .analyses_identity_key datasetIdentityColumns,
    .dropIndex false .jobs_active_identity_key,
    .createIndex (activeIdentityKey datasetIdentityColumns)]

/-- `0002_usage_stats_dataset.down.sql`. -/
def datasetDown : List (Statement Name) :=
  [.dropIndex false .jobs_active_identity_key,
    .dropConstraint .analyses .analyses_identity_key,
    .dropColumn .jobs .usage_stats_dataset,
    .dropColumn .analyses .usage_stats_dataset,
    .addUnique .analyses .analyses_identity_key identityColumns,
    .createIndex (activeIdentityKey identityColumns)]

/-! ## `0003_rate_limit_windows` and `0004_analyses_recent_idx` -/

def rateLimitWindows : TableDef Name where
  name := .rate_limit_windows
  columns := [required .client_key .text, required .window_start .timestamptz,
    required .count .integer]
  checks := [atLeast .rate_limit_windows .count 0]
  foreignKeys := []

def rateLimitWindowsPkey : Index Name :=
  uniqueConstraint .rate_limit_windows (.pkey .rate_limit_windows) [.client_key, .window_start]

def rateLimitWindowsExpiryIdx : Index Name :=
  ⟨.rate_limit_windows_expiry_idx, .rate_limit_windows, [.window_start], [], false, none, false⟩

/-- `0003_rate_limit_windows.up.sql`. -/
def rateLimitUp : List (Statement Name) :=
  [.createTable rateLimitWindows [rateLimitWindowsPkey], .createIndex rateLimitWindowsExpiryIdx]

/-- `0003_rate_limit_windows.down.sql`. -/
def rateLimitDown : List (Statement Name) := [.dropTable false .rate_limit_windows]

def analysesRecentIdx : Index Name :=
  ⟨.analyses_recent_idx, .analyses, [.created_at, .id], [.created_at, .id], false, none,
    false⟩

/-- `0004_analyses_recent_idx.up.sql`. -/
def recentUp : List (Statement Name) := [.createIndex analysesRecentIdx]

/-- `0004_analyses_recent_idx.down.sql`. -/
def recentDown : List (Statement Name) := [.dropIndex false .analyses_recent_idx]

/-! ## The schemas -/

def emptySchema : Schema Name := ⟨[], [], ∅⟩

/-- The indexes of `analyses` and `jobs`, the two keys over the columns given. -/
def identityIndexes (columns : List Name) : Finset (Index Name) :=
  {activeIdentityKey columns, analysesKey columns, jobsLeaseIdx, jobsClaimableIdx,
    analysesReplayIdx, primaryKey .replays, primaryKey .analyses, primaryKey .jobs}

def schema0001 : Schema Name :=
  ⟨[(.job_status, jobStatus)], [replays, analyses, jobs], identityIndexes identityColumns⟩

/-- A table with the dataset; its column has lost the default it was added with. -/
def withDataset (t : TableDef Name) : TableDef Name :=
  { t with
    columns := t.columns ++ [required .usage_stats_dataset .text]
    checks := t.checks ++ [datasetCheck t.name] }

def schema0002 : Schema Name :=
  ⟨schema0001.enums, [replays, withDataset analyses, withDataset jobs],
    identityIndexes datasetIdentityColumns⟩

def schema0003 : Schema Name :=
  { schema0002 with
    tables := schema0002.tables ++ [rateLimitWindows]
    indexes := insert rateLimitWindowsExpiryIdx (schema0002.indexes ∪ {rateLimitWindowsPkey}) }

def schema0004 : Schema Name :=
  { schema0003 with indexes := insert analysesRecentIdx schema0003.indexes }

/-- A script makes one schema of another, and its reverse the other of the one. -/
def Reverses (up down : List (Statement Name)) (S S' : Schema Name) : Prop :=
  defineAll up S = some S' ∧ defineAll down S' = some S

/-- `0001` builds the indexes in another order. -/
theorem identityIndexes_eq (columns : List Name) :
    {jobsLeaseIdx, jobsClaimableIdx, activeIdentityKey columns, analysesReplayIdx,
      primaryKey .replays, primaryKey .analyses, analysesKey columns, primaryKey .jobs} =
        identityIndexes columns := by
  ext i
  simp only [identityIndexes, Finset.mem_insert, Finset.mem_singleton]
  tauto

theorem reverses_initial : Reverses initialUp initialDown emptySchema schema0001 := by
  refine ⟨?_, rfl⟩
  rw [schema0001, ← identityIndexes_eq]
  rfl

theorem reverses_dataset : Reverses datasetUp datasetDown schema0001 schema0002 := ⟨rfl, rfl⟩

theorem reverses_rateLimit : Reverses rateLimitUp rateLimitDown schema0002 schema0003 := ⟨rfl, rfl⟩

theorem reverses_recent : Reverses recentUp recentDown schema0003 schema0004 := ⟨rfl, rfl⟩

/-! ## The directory -/

/-- The statements of a script, for the runner. -/
def scriptOf (statements : List (Statement Name)) : Script (Database Name) :=
  statements.map Statement.exec

def directory : Directory (Database Name) where
  ups := [("0001_initial", scriptOf initialUp), ("0002_usage_stats_dataset", scriptOf datasetUp),
    ("0003_rate_limit_windows", scriptOf rateLimitUp),
    ("0004_analyses_recent_idx", scriptOf recentUp)]
  downs := [("0001_initial", scriptOf initialDown),
    ("0002_usage_stats_dataset", scriptOf datasetDown),
    ("0003_rate_limit_windows", scriptOf rateLimitDown),
    ("0004_analyses_recent_idx", scriptOf recentDown)]

theorem run_scriptOf (statements : List (Statement Name)) (db : Database Name) :
    (scriptOf statements).run db = run statements db := by
  rw [scriptOf, Script.run, List.foldlM_map]
  rfl

theorem directory_sorted : directory.sorted = directory.ups := rfl

end Migrations

end BattleCloud
