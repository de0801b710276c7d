import BattleCloud.Api.Store

/-!
# The two enqueue statements

`Store.enqueue` (`api/src/store.ts`) binds twelve values by position, `db/queries/enqueue_job.sql`
binds them by name and lists its columns in another order. Here a statement is what its text says:
the columns, the bound values, the columns and the predicate of its `ON CONFLICT`. Postgres infers
from the last two the unique index a conflict is looked up in (`inferIndex`).

`enqueue_statements_agree`: on any table and for any values both do the same and return the same,
which is what `enqueue` of `Api.Store` says.
-/

namespace BattleCloud

/-- The columns of `jobs` the two statements name, and the primary key. -/
inductive JobColumn where
  | id
  | identity (c : IdentityColumn)
  | profile
  | estimatedTurns
  | estimatedSearchMs
  deriving DecidableEq

/-! ## Unique indexes -/

structure UniqueIndex where
  columns : List JobColumn
  /-- `WHERE status IN (..)` of a partial index. -/
  predicate : Option (List JobStatus)

/-- `jobs_pkey`. -/
def jobsPkey : UniqueIndex := ⟨[.id], none⟩

/-- `jobs_active_identity_key`. -/
def jobsActiveIdentityKey : UniqueIndex :=
  ⟨[.identity .replayId, .identity .perspective, .identity .searchBudgetMsPerTurn,
    .identity .opponentSamples, .identity .threads, .identity .usageStatsCutoff,
    .identity .usageStatsDataset, .identity .pokeEngineTag, .identity .seed],
    some [.queued, .running]⟩

/-- The unique indexes of `jobs` after the migrations. -/
def jobsIndexes : List UniqueIndex := [jobsPkey, jobsActiveIdentityKey]

/-- The target of an `ON CONFLICT`: it has the columns of an index in any order, and its predicate
implies that of the index. -/
def UniqueIndex.isTarget (ix : UniqueIndex) (columns : List JobColumn)
    (predicate : Option (List JobStatus)) : Bool :=
  columns.all ix.columns.contains && ix.columns.all columns.contains &&
    ix.predicate.all fun indexed => predicate.any fun statuses => statuses.all indexed.contains

/-- The index an `ON CONFLICT` infers. -/
def inferIndex (columns : List JobColumn) (predicate : Option (List JobStatus)) :
    Option UniqueIndex :=
  jobsIndexes.find? fun ix => ix.isTarget columns predicate

/-- A value of a row. -/
inductive JobCell where
  | uuid (i : Uuid)
  | value (v : SqlValue)
  | null
  deriving DecidableEq

def IdentityColumns.value (c : IdentityColumns) : IdentityColumn → SqlValue
  | .replayId => .text c.replayId
  | .perspective => .text c.perspective.text
  | .searchBudgetMsPerTurn => .integer c.searchBudgetMsPerTurn
  | .opponentSamples => .integer c.opponentSamples
  | .threads => .integer c.threads
  | .usageStatsCutoff => .integer c.usageStatsCutoff
  | .usageStatsDataset => .text c.usageStatsDataset
  | .pokeEngineTag => .text c.pokeEngineTag
  | .seed => .integer c.seed

def JobRow.cell (j : JobRow) : JobColumn → JobCell
  | .id => .uuid j.id
  | .identity c => .value (j.columns.value c)
  | .profile => .value (.text j.profile.name)
  | .estimatedTurns => (j.estimatedTurns.map fun n => JobCell.value (.integer n)).getD .null
  | .estimatedSearchMs => (j.estimatedSearchMs.map fun n => JobCell.value (.integer n)).getD .null

/-- The row is in the index. -/
def UniqueIndex.covers (ix : UniqueIndex) (j : JobRow) : Bool :=
  ix.predicate.all fun statuses => statuses.contains j.status

/-- Two rows the index does not take together. -/
def UniqueIndex.conflicts (ix : UniqueIndex) (j k : JobRow) : Bool :=
  ix.covers j && ix.covers k && ix.columns.all fun c => j.cell c = k.cell c

/-! ## The statements -/

/-- `INSERT INTO jobs (columns) VALUES (values) ON CONFLICT (target) WHERE status IN (predicate)
DO UPDATE SET updated_at = jobs.updated_at`. -/
structure InsertJob where
  columns : List JobColumn
  values : List SqlValue
  target : List JobColumn
  predicate : Option (List JobStatus)

/-- `enqueue` of `Store`: `$1..$12`. -/
def positionalInsert (id : AnalysisIdentity) (profile : Profile)
    (estimatedTurns estimatedSearchMs : Int) : InsertJob :=
  { columns := identityColumns.map .identity ++ [.profile, .estimatedTurns, .estimatedSearchMs]
    values := identityValues id ++
      [.text profile.name, .integer estimatedTurns, .integer estimatedSearchMs]
    target := identityColumns.map .identity
    predicate := some [.queued, .running] }

/-- The parameters of `enqueue_job.sql`. -/
inductive EnqueueParam where
  | replayId
  | perspective
  | profile
  | searchBudgetMsPerTurn
  | opponentSamples
  | threads
  | usageStatsCutoff
  | usageStatsDataset
  | pokeEngineTag
  | seed
  | estimatedTurns
  | estimatedSearchMs
  deriving DecidableEq

/-- The dictionary a caller passes. -/
def enqueueParams (id : AnalysisIdentity) (profile : Profile)
    (estimatedTurns estimatedSearchMs : Int) : EnqueueParam → SqlValue
  | .replayId => .text id.replayId
  | .perspective => .text id.perspective.text
  | .profile => .text profile.name
  | .searchBudgetMsPerTurn => .integer id.searchBudgetMsPerTurn
  | .opponentSamples => .integer id.opponentSamples
  | .threads => .integer id.threads
  | .usageStatsCutoff => .integer id.usageStatsCutoff
  | .usageStatsDataset => .text id.usageStatsDataset
  | .pokeEngineTag => .text id.pokeEngineTag
  | .seed => .integer id.seed
  | .estimatedTurns => .integer estimatedTurns
  | .estimatedSearchMs => .integer estimatedSearchMs

/-- `enqueue_job.sql`. -/
def namedInsert (params : EnqueueParam → SqlValue) : InsertJob :=
  { columns :=
      [.identity .replayId, .identity .perspective, .profile, .identity .searchBudgetMsPerTurn,
        .identity .opponentSamples, .identity .threads, .identity .usageStatsCutoff,
        .identity .usageStatsDataset, .identity .pokeEngineTag, .identity .seed, .estimatedTurns,
        .estimatedSearchMs]
    values :=
      [params .replayId, params .perspective, params .profile, params .searchBudgetMsPerTurn,
        params .opponentSamples, params .threads, params .usageStatsCutoff,
        params .usageStatsDataset, params .pokeEngineTag, params .seed, params .estimatedTurns,
        params .estimatedSearchMs]
    target :=
      [.identity .replayId, .identity .perspective, .identity .searchBudgetMsPerTurn,
        .identity .opponentSamples, .identity .threads, .identity .usageStatsCutoff,
        .identity .usageStatsDataset, .identity .pokeEngineTag, .identity .seed]
    predicate := some [.queued, .running] }

/-- Why a statement fails. -/
inductive InsertError where
  /-- There is no unique index matching the `ON CONFLICT`. -/
  | noIndex
  | refused (e : DbError)

namespace InsertJob

variable (s : InsertJob)

/-- The value bound to a column. -/
def bound (c : JobColumn) : Option SqlValue := (s.columns.zip s.values).lookup c

/-- The identity columns among the bound ones. -/
def identityBindings : List (IdentityColumn × SqlValue) :=
  identityColumns.filterMap fun c => (s.bound (.identity c)).map (c, ·)

def profileOf : Except DbError Profile :=
  match s.bound .profile with
  | some (.text name) => (pgText name).bind fun name =>
    if name = Profile.ladderParity.name then .ok .ladderParity
    else if name = Profile.quick.name then .ok .quick else .error .badValue
  | _ => .error .badValue

def integerOf (c : JobColumn) : Except DbError Int :=
  match s.bound c with
  | some (.integer n) => int4 n
  | _ => .error .badValue

/-- The proposed row. -/
def proposed (newId : Uuid) (now : Timestamptz) : Except DbError JobRow :=
  (IdentityColumns.ofBindings s.identityBindings).bind fun columns =>
  s.profileOf.bind fun profile =>
  (s.integerOf .estimatedTurns).bind fun turns =>
  (s.integerOf .estimatedSearchMs).bind fun searchMs =>
  .ok (JobRow.fresh newId columns profile turns searchMs now)

/-- The insertion, or the conflicting row set to itself. -/
def insert (ix : UniqueIndex) (db : Db) (proposed : JobRow) : Except DbError (Db × JobRow × Bool) :=
  match db.jobs.find? fun j => ix.conflicts j proposed with
  | some j => .ok (db, j, false)
  | none =>
    ({ db with jobs := db.jobs ++ [proposed] } : Db).commit.map fun db' => (db', proposed, true)

/-- Execute the statement: the tables after it, the row it returns and `xmax = 0`. -/
def run (db : Db) (newId : Uuid) (now : Timestamptz) : Except InsertError (Db × JobRow × Bool) :=
  match inferIndex s.target s.predicate with
  | none => .error .noIndex
  | some ix => ((s.proposed newId now).bind fun proposed =>
      proposed.check.bind fun _ => insert ix db proposed).mapError .refused

/-! ## What they bind -/

/-- Every value reaches its own column. -/
structure Binds (s : InsertJob) (id : AnalysisIdentity) (profile : Profile)
    (estimatedTurns estimatedSearchMs : Int) : Prop where
  identity : s.identityBindings = identityColumns.zip (identityValues id)
  profile : s.bound .profile = some (.text profile.name)
  turns : s.bound .estimatedTurns = some (.integer estimatedTurns)
  searchMs : s.bound .estimatedSearchMs = some (.integer estimatedSearchMs)
  index : inferIndex s.target s.predicate = some jobsActiveIdentityKey

theorem binds_positional (id : AnalysisIdentity) (profile : Profile) (turns searchMs : Int) :
    (positionalInsert id profile turns searchMs).Binds id profile turns searchMs :=
  ⟨rfl, rfl, rfl, rfl, rfl⟩

theorem binds_named (id : AnalysisIdentity) (profile : Profile) (turns searchMs : Int) :
    (namedInsert (enqueueParams id profile turns searchMs)).Binds id profile turns searchMs :=
  ⟨rfl, rfl, rfl, rfl, rfl⟩

variable {s} {id : AnalysisIdentity} {profile : Profile} {turns searchMs : Int}

theorem Binds.profileOf (h : s.Binds id profile turns searchMs) : s.profileOf = .ok profile := by
  unfold InsertJob.profileOf
  rw [h.profile]
  cases profile <;> rfl

theorem Binds.proposed (h : s.Binds id profile turns searchMs) (newId : Uuid)
    (now : Timestamptz) :
    s.proposed newId now = proposedJob id profile turns searchMs newId now := by
  have hturns : s.integerOf .estimatedTurns = int4 turns := by
    unfold integerOf
    rw [h.turns]
  have hsearchMs : s.integerOf .estimatedSearchMs = int4 searchMs := by
    unfold integerOf
    rw [h.searchMs]
  unfold InsertJob.proposed proposedJob
  rw [h.identity, h.profileOf, hturns, hsearchMs]
  rfl

end InsertJob

/-! ## The index -/

/-- The nine columns are the identity. -/
theorem IdentityColumns.value_inj {c d : IdentityColumns} (h : ∀ i, c.value i = d.value i) :
    c = d := by
  have hperspective : c.perspective = d.perspective := by
    have htext := congrArg Perspective.ofText? (SqlValue.text.inj (h .perspective))
    rw [Perspective.ofText?_text, Perspective.ofText?_text] at htext
    exact Option.some.inj htext
  cases c
  cases d
  simp only [IdentityColumns.mk.injEq]
  exact ⟨SqlValue.text.inj (h .replayId), hperspective,
    SqlValue.integer.inj (h .searchBudgetMsPerTurn), SqlValue.integer.inj (h .opponentSamples),
    SqlValue.integer.inj (h .threads), SqlValue.integer.inj (h .usageStatsCutoff),
    SqlValue.text.inj (h .usageStatsDataset), SqlValue.text.inj (h .pokeEngineTag),
    SqlValue.integer.inj (h .seed)⟩

/-- **The inferred index sees live jobs of one identity**, and nothing else. -/
theorem jobsActiveIdentityKey_conflicts {j k : JobRow} (hk : k.live = true) :
    jobsActiveIdentityKey.conflicts j k = (j.live && j.columns = k.columns) := by
  have hcovers : ∀ j : JobRow, jobsActiveIdentityKey.covers j = j.live := by
    intro j
    cases hs : j.status <;> simp [UniqueIndex.covers, jobsActiveIdentityKey, JobRow.live, hs]
  have hcells : (jobsActiveIdentityKey.columns.all fun c => j.cell c = k.cell c) =
      decide (j.columns = k.columns) := by
    rw [Bool.eq_iff_iff, List.all_eq_true, decide_eq_true_eq]
    constructor
    · intro h
      refine IdentityColumns.value_inj fun i => ?_
      have hcell := h (.identity i) (by cases i <;> decide)
      exact JobCell.value.inj (of_decide_eq_true hcell)
    · intro h c hc
      have hcolumns : jobsActiveIdentityKey.columns = identityColumns.map .identity := rfl
      rw [hcolumns] at hc
      obtain ⟨i, -, rfl⟩ := List.mem_map.mp hc
      unfold JobRow.cell
      rw [h, decide_eq_true rfl]
  unfold UniqueIndex.conflicts
  rw [hcovers, hcovers, hk, hcells, Bool.and_true]

theorem InsertJob.insert_eq (db : Db) {proposed : JobRow} (hlive : proposed.live = true) :
    InsertJob.insert jobsActiveIdentityKey db proposed = insertJob db proposed := by
  have hconflicts : (fun j => jobsActiveIdentityKey.conflicts j proposed) =
      fun j => j.live && j.columns = proposed.columns :=
    funext fun j => jobsActiveIdentityKey_conflicts hlive
  unfold InsertJob.insert insertJob
  generalize (fun j => jobsActiveIdentityKey.conflicts j proposed) = conflicts at hconflicts ⊢
  subst hconflicts
  rfl

/-- **A statement whose values reach their columns is `enqueue`.** -/
theorem InsertJob.Binds.run {s : InsertJob} {id : AnalysisIdentity} {profile : Profile}
    {turns searchMs : Int} (h : s.Binds id profile turns searchMs) (db : Db) (newId : Uuid)
    (now : Timestamptz) :
    s.run db newId now = (enqueue db id profile turns searchMs newId now).mapError .refused := by
  unfold InsertJob.run enqueue
  rw [h.index, h.proposed]
  simp only
  cases hp : proposedJob id profile turns searchMs newId now with
  | error e => rfl
  | ok proposed =>
    obtain rfl := proposedJob_ok hp
    have hlive : (JobRow.fresh newId id.columns profile turns searchMs now).live = true := rfl
    have hinsert := InsertJob.insert_eq db hlive
    simp only [Except.bind, hinsert]

/-! ## What they return -/

/-- `Store.enqueue`: the job as a client sees it, and `created`. -/
def storeEnqueue (db : Db) (id : AnalysisIdentity) (profile : Profile)
    (estimatedTurns estimatedSearchMs : Int) (newId : Uuid) (now : Timestamptz) :
    Except InsertError (Db × StoredJob × Bool) :=
  ((positionalInsert id profile estimatedTurns estimatedSearchMs).run db newId now).map
    fun r => (r.1, toJob r.2.1, r.2.2)

/-- `RETURNING id, status, attempts, (xmax = 0) AS created`. -/
structure EnqueuedRow where
  id : Uuid
  status : JobStatus
  attempts : Nat
  created : Bool

/-- `enqueue_job.sql` with these parameters. -/
def enqueueJobSql (db : Db) (params : EnqueueParam → SqlValue) (newId : Uuid)
    (now : Timestamptz) : Except InsertError (Db × EnqueuedRow) :=
  ((namedInsert params).run db newId now).map fun r =>
    (r.1, ⟨r.2.1.id, r.2.1.status, r.2.1.attempts, r.2.2⟩)

/-- **The two enqueue statements agree.** On any tables, for any values and equal generated ones,
they fail alike, or they leave the same tables and return the same id, status and `created`; and
what they do is `enqueue`. -/
theorem enqueue_statements_agree (db : Db) (id : AnalysisIdentity) (profile : Profile)
    (turns searchMs : Int) (newId : Uuid) (now : Timestamptz) :
    (storeEnqueue db id profile turns searchMs newId now).map
        (fun r => (r.1, r.2.1.id, r.2.1.status, r.2.2)) =
      (enqueueJobSql db (enqueueParams id profile turns searchMs) newId now).map
        (fun r => (r.1, r.2.id, r.2.status, r.2.created)) ∧
    storeEnqueue db id profile turns searchMs newId now =
      ((enqueue db id profile turns searchMs newId now).mapError .refused).map
        (fun r => (r.1, toJob r.2.1, r.2.2)) := by
  unfold storeEnqueue enqueueJobSql
  rw [(InsertJob.binds_positional id profile turns searchMs).run,
    (InsertJob.binds_named id profile turns searchMs).run]
  refine ⟨?_, rfl⟩
  cases enqueue db id profile turns searchMs newId now <;> rfl

end BattleCloud
