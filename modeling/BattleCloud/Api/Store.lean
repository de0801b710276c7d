import BattleCloud.Api.Replay
import BattleCloud.Db.Queue

/-!
# `Store`: the statements the API makes

`api/src/store.ts`. The nine identity fields travel positionally: `identityValues` lists the
values, `identityColumns` and `lookupColumns` list the columns `$1..$9` stand for in the `INSERT`
and in the `WHERE`, and `IdentityColumns.ofBindings` reads a row off the pairs. That the two lists
line up is `insertBindings_ok` and `lookupBindings_ok`, not a definition.

A statement returns `Except DbError`; one that fails leaves the tables as they were. `toJob` and
the `created_at` of an analysis are the texts `new Date(..).toISOString()` gives, so a
`StoredJob` is what a client sees.
-/

namespace BattleCloud

/-! ## Binding the identity -/

inductive IdentityColumn where
  | replayId
  | perspective
  | searchBudgetMsPerTurn
  | opponentSamples
  | threads
  | usageStatsCutoff
  | usageStatsDataset
  | pokeEngineTag
  | seed
  deriving DecidableEq

/-- `IDENTITY_COLUMNS`. -/
def identityColumns : List IdentityColumn :=
  [.replayId, .perspective, .searchBudgetMsPerTurn, .opponentSamples, .threads, .usageStatsCutoff,
    .usageStatsDataset, .pokeEngineTag, .seed]

/-- The columns `$1..$9` are compared with in `analysisByIdentity`. -/
def lookupColumns : List IdentityColumn :=
  [.replayId, .perspective, .searchBudgetMsPerTurn, .opponentSamples, .threads, .usageStatsCutoff,
    .usageStatsDataset, .pokeEngineTag, .seed]

def identityValues (id : AnalysisIdentity) : List SqlValue :=
  [.text id.replayId, .text id.perspective.text, .integer id.searchBudgetMsPerTurn,
    .integer id.opponentSamples, .integer id.threads, .integer id.usageStatsCutoff,
    .text id.usageStatsDataset, .text id.pokeEngineTag, .integer id.seed]

/-- The value bound to a `text` column. -/
def textOf (bs : List (IdentityColumn × SqlValue)) (c : IdentityColumn) : Except DbError String :=
  match bs.lookup c with
  | some (.text s) => pgText s
  | _ => .error .badValue

/-- The value bound to an `integer` column. -/
def int4Of (bs : List (IdentityColumn × SqlValue)) (c : IdentityColumn) : Except DbError Int :=
  match bs.lookup c with
  | some (.integer n) => int4 n
  | _ => .error .badValue

/-- The value bound to `perspective`, whose `CHECK` admits two texts. -/
def perspectiveOf (bs : List (IdentityColumn × SqlValue)) : Except DbError Perspective :=
  (textOf bs .perspective).bind fun s =>
    match Perspective.ofText? s with
    | some p => .ok p
    | none => .error .badValue

/-- The nine columns of a row whose columns are bound to these values. -/
def IdentityColumns.ofBindings (bs : List (IdentityColumn × SqlValue)) :
    Except DbError IdentityColumns :=
  (textOf bs .replayId).bind fun replayId =>
  (perspectiveOf bs).bind fun perspective =>
  (int4Of bs .searchBudgetMsPerTurn).bind fun searchBudgetMsPerTurn =>
  (int4Of bs .opponentSamples).bind fun opponentSamples =>
  (int4Of bs .threads).bind fun threads =>
  (int4Of bs .usageStatsCutoff).bind fun usageStatsCutoff =>
  (textOf bs .usageStatsDataset).bind fun usageStatsDataset =>
  (textOf bs .pokeEngineTag).bind fun pokeEngineTag =>
  (int4Of bs .seed).bind fun seed =>
  .ok { replayId, perspective, searchBudgetMsPerTurn, opponentSamples, threads, usageStatsCutoff,
        usageStatsDataset, pokeEngineTag, seed }

/-- The row an identity is meant to be stored under, field by field. -/
def AnalysisIdentity.columns (id : AnalysisIdentity) : IdentityColumns :=
  { replayId := id.replayId
    perspective := id.perspective
    searchBudgetMsPerTurn := id.searchBudgetMsPerTurn
    opponentSamples := id.opponentSamples
    threads := id.threads
    usageStatsCutoff := id.usageStatsCutoff
    usageStatsDataset := id.usageStatsDataset
    pokeEngineTag := id.pokeEngineTag
    seed := id.seed }

theorem textOf_ok {bs : List (IdentityColumn × SqlValue)} {c : IdentityColumn} {s t : String}
    (h : textOf bs c = .ok t) (hb : bs.lookup c = some (.text s)) : t = s := by
  unfold textOf at h
  rw [hb] at h
  exact pgText_ok h

theorem int4Of_ok {bs : List (IdentityColumn × SqlValue)} {c : IdentityColumn} {n m : Int}
    (h : int4Of bs c = .ok m) (hb : bs.lookup c = some (.integer n)) : m = n := by
  unfold int4Of at h
  rw [hb] at h
  exact int4_ok h

theorem perspectiveOf_ok {bs : List (IdentityColumn × SqlValue)} {p q : Perspective}
    (h : perspectiveOf bs = .ok q) (hb : bs.lookup .perspective = some (.text p.text)) : q = p := by
  unfold perspectiveOf at h
  obtain ⟨s, hs, h⟩ := except_bind_ok.mp h
  obtain rfl := textOf_ok hs hb
  rw [Perspective.ofText?_text] at h
  exact (Except.ok.inj h).symm

/-- A row is the one its bindings spell, whatever the order they come in. -/
theorem ofBindings_ok {bs : List (IdentityColumn × SqlValue)} {id : AnalysisIdentity}
    {c : IdentityColumns} (h : IdentityColumns.ofBindings bs = .ok c)
    (h₁ : bs.lookup .replayId = some (.text id.replayId))
    (h₂ : bs.lookup .perspective = some (.text id.perspective.text))
    (h₃ : bs.lookup .searchBudgetMsPerTurn = some (.integer id.searchBudgetMsPerTurn))
    (h₄ : bs.lookup .opponentSamples = some (.integer id.opponentSamples))
    (h₅ : bs.lookup .threads = some (.integer id.threads))
    (h₆ : bs.lookup .usageStatsCutoff = some (.integer id.usageStatsCutoff))
    (h₇ : bs.lookup .usageStatsDataset = some (.text id.usageStatsDataset))
    (h₈ : bs.lookup .pokeEngineTag = some (.text id.pokeEngineTag))
    (h₉ : bs.lookup .seed = some (.integer id.seed)) : c = id.columns := by
  unfold IdentityColumns.ofBindings at h
  obtain ⟨c₁, e₁, h⟩ := except_bind_ok.mp h
  obtain ⟨c₂, e₂, h⟩ := except_bind_ok.mp h
  obtain ⟨c₃, e₃, h⟩ := except_bind_ok.mp h
  obtain ⟨c₄, e₄, h⟩ := except_bind_ok.mp h
  obtain ⟨c₅, e₅, h⟩ := except_bind_ok.mp h
  obtain ⟨c₆, e₆, h⟩ := except_bind_ok.mp h
  obtain ⟨c₇, e₇, h⟩ := except_bind_ok.mp h
  obtain ⟨c₈, e₈, h⟩ := except_bind_ok.mp h
  obtain ⟨c₉, e₉, h⟩ := except_bind_ok.mp h
  rw [← Except.ok.inj h, textOf_ok e₁ h₁, perspectiveOf_ok e₂ h₂, int4Of_ok e₃ h₃,
    int4Of_ok e₄ h₄, int4Of_ok e₅ h₅, int4Of_ok e₆ h₆, textOf_ok e₇ h₇, textOf_ok e₈ h₈,
    int4Of_ok e₉ h₉]
  rfl

/-- A row is bound when each of its values is. -/
theorem ofBindings_of {bs : List (IdentityColumn × SqlValue)} {id : AnalysisIdentity}
    (h₁ : textOf bs .replayId = .ok id.replayId)
    (h₂ : perspectiveOf bs = .ok id.perspective)
    (h₃ : int4Of bs .searchBudgetMsPerTurn = .ok id.searchBudgetMsPerTurn)
    (h₄ : int4Of bs .opponentSamples = .ok id.opponentSamples)
    (h₅ : int4Of bs .threads = .ok id.threads)
    (h₆ : int4Of bs .usageStatsCutoff = .ok id.usageStatsCutoff)
    (h₇ : textOf bs .usageStatsDataset = .ok id.usageStatsDataset)
    (h₈ : textOf bs .pokeEngineTag = .ok id.pokeEngineTag)
    (h₉ : int4Of bs .seed = .ok id.seed) : IdentityColumns.ofBindings bs = .ok id.columns := by
  unfold IdentityColumns.ofBindings
  rw [h₁, h₂, h₃, h₄, h₅, h₆, h₇, h₈, h₉]
  rfl

theorem textOf_bad (bs : List (IdentityColumn × SqlValue)) (c : IdentityColumn) :
    FailsBad (textOf bs c) := by
  unfold textOf
  split
  · exact pgText_bad _
  · exact failsBad_error

theorem int4Of_bad (bs : List (IdentityColumn × SqlValue)) (c : IdentityColumn) :
    FailsBad (int4Of bs c) := by
  unfold int4Of
  split
  · exact int4_bad _
  · exact failsBad_error

theorem perspectiveOf_bad (bs : List (IdentityColumn × SqlValue)) :
    FailsBad (perspectiveOf bs) := by
  refine (textOf_bad bs _).bind fun s => ?_
  split
  · exact failsBad_ok
  · exact failsBad_error

theorem ofBindings_bad (bs : List (IdentityColumn × SqlValue)) :
    FailsBad (IdentityColumns.ofBindings bs) := by
  unfold IdentityColumns.ofBindings
  refine (textOf_bad bs _).bind fun _ => (perspectiveOf_bad bs).bind fun _ =>
    (int4Of_bad bs _).bind fun _ => (int4Of_bad bs _).bind fun _ => (int4Of_bad bs _).bind fun _ =>
    (int4Of_bad bs _).bind fun _ => (textOf_bad bs _).bind fun _ => (textOf_bad bs _).bind fun _ =>
    (int4Of_bad bs _).bind fun _ => failsBad_ok

/-- The `INSERT` of `enqueue` names the columns in the order of the values. -/
theorem insertBindings_ok {id : AnalysisIdentity} {c : IdentityColumns}
    (h : IdentityColumns.ofBindings (identityColumns.zip (identityValues id)) = .ok c) :
    c = id.columns :=
  ofBindings_ok h rfl rfl rfl rfl rfl rfl rfl rfl rfl

/-- So does the `WHERE` of `analysisByIdentity`. -/
theorem lookupBindings_ok {id : AnalysisIdentity} {c : IdentityColumns}
    (h : IdentityColumns.ofBindings (lookupColumns.zip (identityValues id)) = .ok c) :
    c = id.columns :=
  ofBindings_ok h rfl rfl rfl rfl rfl rfl rfl rfl rfl

/-! ## Analyses -/

/-- `new Date(row.created_at).toISOString()`: the driver's `Date` drops what is below a
millisecond. -/
def isoTime (t : Timestamptz) : String := Calendar.isoText (t.us / 1000)

structure StoredAnalysis where
  id : Uuid
  seed : Int
  createdAt : String
  document : Json

def AnalysisRow.stored (a : AnalysisRow) : StoredAnalysis :=
  { id := a.id, seed := a.columns.seed, createdAt := isoTime a.createdAt, document := a.document }

def analysisByIdentity (db : Db) (id : AnalysisIdentity) : Except DbError (Option StoredAnalysis) :=
  (IdentityColumns.ofBindings (lookupColumns.zip (identityValues id))).bind fun c =>
    .ok ((db.analyses.find? fun a => a.columns = c).map AnalysisRow.stored)

def analysisById (db : Db) (analysisId : Uuid) : Option StoredAnalysis :=
  (db.analyses.find? fun a => a.id = analysisId).map AnalysisRow.stored

theorem analysisByIdentity_some {db : Db} {id : AnalysisIdentity} {r : StoredAnalysis}
    (h : analysisByIdentity db id = .ok (some r)) :
    ∃ a ∈ db.analyses, a.columns = id.columns ∧ r = a.stored := by
  unfold analysisByIdentity at h
  obtain ⟨c, hc, h⟩ := except_bind_ok.mp h
  obtain rfl := lookupBindings_ok hc
  obtain ⟨a, ha, hr⟩ := Option.map_eq_some_iff.mp (Except.ok.inj h)
  exact ⟨a, List.mem_of_find?_eq_some ha, by simpa using List.find?_some ha, hr.symm⟩

theorem analysisByIdentity_none {db : Db} {id : AnalysisIdentity}
    (h : analysisByIdentity db id = .ok none) : ∀ a ∈ db.analyses, a.columns ≠ id.columns := by
  unfold analysisByIdentity at h
  obtain ⟨c, hc, h⟩ := except_bind_ok.mp h
  obtain rfl := lookupBindings_ok hc
  have hn := Option.map_eq_none_iff.mp (Except.ok.inj h)
  rw [List.find?_eq_none] at hn
  intro a ha he
  exact hn a ha (by simpa using he)

theorem analysisById_of_mem {db : Db} (hu : Table.Unique AnalysisRow.id db.analyses)
    {a : AnalysisRow} (ha : a ∈ db.analyses) : analysisById db a.id = some a.stored := by
  unfold analysisById
  cases hf : db.analyses.find? fun b => b.id = a.id with
  | none =>
    rw [List.find?_eq_none] at hf
    exact absurd (by simp) (hf a ha)
  | some b =>
    have hb : b.id = a.id := by simpa using List.find?_some hf
    rw [hu.eq (List.mem_of_find?_eq_some hf) ha hb]
    rfl

theorem analysisByIdentity_bad (db : Db) (id : AnalysisIdentity) :
    FailsBad (analysisByIdentity db id) :=
  (ofBindings_bad _).bind fun _ => failsBad_ok

/-! ## Replays -/

/-- A JSON number written as text for an `integer` column: refused unless it is integral. -/
def integralInt4 (n : Int × Nat) : Except DbError Int :=
  if n.1 % 10 ^ n.2 = 0 then int4 (n.1 / 10 ^ n.2) else .error .badValue

/-- A `jsonb` value takes no U+0000 in its strings. -/
def pgJsonb (j : Json) : Except DbError Json := if j.nulFree then .ok j else .error .badValue

theorem pgJsonb_bad (j : Json) : FailsBad (pgJsonb j) := by
  unfold pgJsonb
  split
  · exact failsBad_ok
  · exact failsBad_error

/-- The rating column of an `upsertReplay`. -/
def ratingColumn : Option (Int × Nat) → Except DbError (Option Int)
  | none => .ok none
  | some n => (integralInt4 n).map some

/-- The row `upsertReplay` proposes for a payload. -/
def ReplayPayload.row (p : ReplayPayload) : Except DbError ReplayRow :=
  (pgText p.id).bind fun id =>
  (pgText p.format).bind fun format =>
  (ratingColumn p.rating).bind fun rating =>
  (pgJsonb p.players).bind fun players =>
  (pgText p.log).bind fun log =>
  (int4 p.payloadBytes).bind fun payloadBytes =>
  .ok { id, format, rating, players, log, payloadBytes }

/-- `INSERT INTO replays .. ON CONFLICT (id) DO NOTHING`. -/
def upsertReplay (db : Db) (p : ReplayPayload) : Except DbError Db :=
  p.row.bind fun r =>
    if db.replays.any fun r' => r'.id = r.id then .ok db
    else ({ db with replays := db.replays ++ [r] } : Db).commit

def replayLog (db : Db) (replayId : String) : Option String :=
  (db.replays.find? fun r => r.id = replayId).map ReplayRow.log

theorem ReplayPayload.row_id {p : ReplayPayload} {r : ReplayRow} (h : p.row = .ok r) :
    r.id = p.id := by
  unfold ReplayPayload.row at h
  obtain ⟨i, hi, h⟩ := except_bind_ok.mp h
  obtain ⟨_, _, h⟩ := except_bind_ok.mp h
  obtain ⟨_, _, h⟩ := except_bind_ok.mp h
  obtain ⟨_, _, h⟩ := except_bind_ok.mp h
  obtain ⟨_, _, h⟩ := except_bind_ok.mp h
  obtain ⟨_, _, h⟩ := except_bind_ok.mp h
  rw [← Except.ok.inj h]
  exact pgText_ok hi

theorem ReplayPayload.row_bad (p : ReplayPayload) : FailsBad p.row := by
  have hrating : FailsBad (ratingColumn p.rating) := by
    cases p.rating with
    | none => exact failsBad_ok
    | some n =>
      intro e h
      have h := except_map_error.mp h
      unfold integralInt4 at h
      split at h
      · exact int4_bad _ _ h
      · exact (Except.error.inj h).symm
  unfold ReplayPayload.row
  exact (pgText_bad _).bind fun _ => (pgText_bad _).bind fun _ => hrating.bind fun _ =>
    (pgJsonb_bad _).bind fun _ => (pgText_bad _).bind fun _ => (int4_bad _).bind fun _ =>
    failsBad_ok

/-- What `upsertReplay` does: the replay was there, or it is now the last row. -/
theorem upsertReplay_ok {db db' : Db} {p : ReplayPayload} (h : upsertReplay db p = .ok db') :
    (db' = db ∧ ∃ r ∈ db.replays, r.id = p.id) ∨
    ∃ r, r.id = p.id ∧ (∀ r' ∈ db.replays, r'.id ≠ r.id) ∧
      db' = { db with replays := db.replays ++ [r] } ∧ db'.Valid := by
  unfold upsertReplay at h
  obtain ⟨r, hr, h⟩ := except_bind_ok.mp h
  have hid := ReplayPayload.row_id hr
  split at h
  · rename_i hany
    obtain ⟨r', hr', he⟩ := List.any_eq_true.mp hany
    have he' : r'.id = r.id := by simpa using he
    exact Or.inl ⟨(Except.ok.inj h).symm, r', hr', he'.trans hid⟩
  · rename_i hany
    obtain ⟨hv, rfl⟩ := Db.commit_ok.mp h
    exact Or.inr ⟨r, hid, by simpa using hany, rfl, hv⟩

/-- An `upsertReplay` is refused for a value it binds, or for a constraint on the tables with the
new row. -/
theorem upsertReplay_error {db : Db} {p : ReplayPayload} {e : DbError}
    (h : upsertReplay db p = .error e) :
    e = .badValue ∨
      ∃ r, ({ db with replays := db.replays ++ [r] } : Db).commit = .error e := by
  unfold upsertReplay at h
  rcases except_bind_error.mp h with h | ⟨r, -, h⟩
  · exact Or.inl (ReplayPayload.row_bad _ _ h)
  · split at h
    · cases h
    · exact Or.inr ⟨r, h⟩

theorem replayLog_some {db : Db} {i log : String} (h : replayLog db i = some log) :
    ∃ r ∈ db.replays, r.id = i := by
  obtain ⟨r, hr, -⟩ := Option.map_eq_some_iff.mp h
  exact ⟨r, List.mem_of_find?_eq_some hr, by simpa using List.find?_some hr⟩

/-! ## Jobs -/

structure StoredJob where
  id : Uuid
  status : JobStatus
  replayId : String
  perspective : Perspective
  profile : Profile
  estimatedTurns : Option Int
  estimatedSearchMs : Option Int
  analysisId : Option Uuid
  errorKind : Option ErrorKind
  createdAt : String
  updatedAt : String

def toJob (row : JobRow) : StoredJob :=
  { id := row.id
    status := row.status
    replayId := row.columns.replayId
    perspective := row.columns.perspective
    profile := row.profile
    estimatedTurns := row.estimatedTurns
    estimatedSearchMs := row.estimatedSearchMs
    analysisId := row.analysisId
    errorKind := row.errorKind
    createdAt := isoTime row.createdAt
    updatedAt := isoTime row.updatedAt }

def jobById (db : Db) (jobId : Uuid) : Option StoredJob :=
  (db.jobs.find? fun j => j.id = jobId).map toJob

/-- The row an `INSERT INTO jobs` proposes; every column it does not name has its default. -/
def JobRow.fresh (newId : Uuid) (columns : IdentityColumns) (profile : Profile)
    (estimatedTurns estimatedSearchMs : Int) (now : Timestamptz) : JobRow :=
  { id := newId
    columns
    profile
    status := .queued
    attempts := 0
    claimedBy := none
    claimedAt := none
    leaseExpiresAt := none
    estimatedTurns := some estimatedTurns
    estimatedSearchMs := some estimatedSearchMs
    analysisId := none
    errorKind := none
    errorDetail := none
    createdAt := now
    updatedAt := now }

/-- The `CHECK`s of `jobs` a proposed row can fail, tried before the conflict is. -/
def JobRow.check (j : JobRow) : Except DbError Unit :=
  if ¬ j.columns.Checks then .error (.violates .jobsIdentityChecks)
  else if ¬ j.EstimatesCheck then .error (.violates .jobsEstimatesCheck)
  else .ok ()

/-- The row an `enqueue` proposes. -/
def proposedJob (id : AnalysisIdentity) (profile : Profile) (estimatedTurns estimatedSearchMs : Int)
    (newId : Uuid) (now : Timestamptz) : Except DbError JobRow :=
  (IdentityColumns.ofBindings (identityColumns.zip (identityValues id))).bind fun c =>
  (int4 estimatedTurns).bind fun turns =>
  (int4 estimatedSearchMs).bind fun searchMs =>
  .ok (JobRow.fresh newId c profile turns searchMs now)

/-- `ON CONFLICT (..) WHERE status IN ('queued', 'running') DO UPDATE SET updated_at =
jobs.updated_at`: the conflicting row is set to itself, so a join changes nothing. -/
def insertJob (db : Db) (proposed : JobRow) : Except DbError (Db × JobRow × Bool) :=
  match db.jobs.find? fun j => j.live && j.columns = proposed.columns with
  | some j => .ok (db, j, false)
  | none =>
    ({ db with jobs := db.jobs ++ [proposed] } : Db).commit.map fun db' => (db', proposed, true)

/-- `enqueue`: the tables after it, the row it returns and whether it was inserted. -/
def enqueue (db : Db) (id : AnalysisIdentity) (profile : Profile)
    (estimatedTurns estimatedSearchMs : Int) (newId : Uuid) (now : Timestamptz) :
    Except DbError (Db × JobRow × Bool) :=
  (proposedJob id profile estimatedTurns estimatedSearchMs newId now).bind fun proposed =>
  proposed.check.bind fun _ => insertJob db proposed

/-- No live job has the identity. -/
def NoLiveJob (db : Db) (c : IdentityColumns) : Prop :=
  ∀ j ∈ db.jobs, j.live = true → j.columns ≠ c

instance (db : Db) (c : IdentityColumns) : Decidable (NoLiveJob db c) :=
  inferInstanceAs (Decidable (∀ j ∈ db.jobs, _))

theorem noLiveJob_of_find {db : Db} {c : IdentityColumns}
    (h : (db.jobs.find? fun j => j.live && j.columns = c) = none) : NoLiveJob db c := by
  intro j hj hl he
  rw [List.find?_eq_none] at h
  exact h j hj (by simp [hl, he])

theorem JobRow.check_error {j : JobRow} {e : DbError} (h : j.check = .error e) :
    e = .violates .jobsIdentityChecks ∨ e = .violates .jobsEstimatesCheck := by
  unfold JobRow.check at h
  split at h
  · exact Or.inl (Except.error.inj h).symm
  · split at h
    · exact Or.inr (Except.error.inj h).symm
    · cases h

theorem proposedJob_ok {id : AnalysisIdentity} {profile : Profile} {t m : Int} {newId : Uuid}
    {now : Timestamptz} {j : JobRow} (h : proposedJob id profile t m newId now = .ok j) :
    j = JobRow.fresh newId id.columns profile t m now := by
  unfold proposedJob at h
  obtain ⟨c, hc, h⟩ := except_bind_ok.mp h
  obtain ⟨t', ht, h⟩ := except_bind_ok.mp h
  obtain ⟨m', hm, h⟩ := except_bind_ok.mp h
  rw [← Except.ok.inj h, insertBindings_ok hc, int4_ok ht, int4_ok hm]

theorem proposedJob_bad (id : AnalysisIdentity) (profile : Profile) (t m : Int) (newId : Uuid)
    (now : Timestamptz) : FailsBad (proposedJob id profile t m newId now) := by
  unfold proposedJob
  exact (ofBindings_bad _).bind fun _ => (int4_bad t).bind fun _ => (int4_bad m).bind fun _ =>
    failsBad_ok

/-- **What an enqueue does**: it returns the live job of the identity and changes nothing, or no
job of the identity is live and it appends a fresh one. -/
theorem enqueue_ok {db db' : Db} {id : AnalysisIdentity} {profile : Profile} {t m : Int}
    {newId : Uuid} {now : Timestamptz} {j : JobRow} {created : Bool}
    (h : enqueue db id profile t m newId now = .ok (db', j, created)) :
    j.columns = id.columns ∧
    ((created = false ∧ db' = db ∧ j ∈ db.jobs ∧ j.live = true) ∨
     (created = true ∧ NoLiveJob db id.columns ∧
      j = JobRow.fresh newId id.columns profile t m now ∧
      db' = { db with jobs := db.jobs ++ [j] } ∧ db'.Valid)) := by
  unfold enqueue at h
  obtain ⟨p, hp, h⟩ := except_bind_ok.mp h
  obtain rfl := proposedJob_ok hp
  obtain ⟨-, -, h⟩ := except_bind_ok.mp h
  unfold insertJob at h
  split at h
  · rename_i k hf
    have hk' := List.find?_some hf
    simp only [Bool.and_eq_true, decide_eq_true_eq] at hk'
    simp only [Except.ok.injEq, Prod.mk.injEq] at h
    obtain ⟨rfl, rfl, rfl⟩ := h
    exact ⟨hk'.2, Or.inl ⟨rfl, rfl, List.mem_of_find?_eq_some hf, hk'.1⟩⟩
  · rename_i hf
    have hnl := noLiveJob_of_find hf
    obtain ⟨d, hcm, he⟩ := except_map_ok.mp h
    obtain ⟨hv, rfl⟩ := Db.commit_ok.mp hcm
    cases he
    exact ⟨rfl, Or.inr ⟨rfl, hnl, rfl, rfl, hv⟩⟩

/-- An enqueue is refused for a value it binds, for a `CHECK` of the proposed row, or for a
constraint on the tables with the fresh row. -/
theorem enqueue_error {db : Db} {id : AnalysisIdentity} {profile : Profile} {t m : Int}
    {newId : Uuid} {now : Timestamptz} {e : DbError}
    (h : enqueue db id profile t m newId now = .error e) :
    e = .badValue ∨ e = .violates .jobsIdentityChecks ∨ e = .violates .jobsEstimatesCheck ∨
    (NoLiveJob db id.columns ∧
      ({ db with jobs := db.jobs ++ [JobRow.fresh newId id.columns profile t m now] } :
        Db).commit = .error e) := by
  unfold enqueue at h
  rcases except_bind_error.mp h with h | ⟨p, hp, h⟩
  · exact Or.inl (proposedJob_bad _ _ _ _ _ _ _ h)
  obtain rfl := proposedJob_ok hp
  rcases except_bind_error.mp h with h | ⟨-, -, h⟩
  · rcases JobRow.check_error h with h | h
    · exact Or.inr (Or.inl h)
    · exact Or.inr (Or.inr (Or.inl h))
  unfold insertJob at h
  split at h
  · cases h
  · rename_i hf
    exact Or.inr (Or.inr (Or.inr ⟨noLiveJob_of_find hf, except_map_error.mp h⟩))

theorem jobById_some {db : Db} {i : Uuid} {s : StoredJob} (h : jobById db i = some s) :
    ∃ j ∈ db.jobs, j.id = i ∧ s = toJob j := by
  obtain ⟨j, hj, rfl⟩ := Option.map_eq_some_iff.mp h
  exact ⟨j, List.mem_of_find?_eq_some hj, by simpa using List.find?_some hj, rfl⟩

end BattleCloud
