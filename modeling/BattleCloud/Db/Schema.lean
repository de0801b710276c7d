import BattleCloud.Contract.Identity
import BattleCloud.Contract.Json
import BattleCloud.Lib.Calendar
import BattleCloud.Lib.Table

/-!
# The database after the four migrations

The tables `replays`, `analyses` and `jobs` as lists of rows, and every constraint the migrations
declare on them as a decidable predicate of the tables (`Constraint.Holds`). A statement computes
the tables it would leave; `Db.commit` refuses them when a constraint fails, as Postgres does, and
a refused statement changes nothing. `rate_limit_windows` is referenced by none of them and is
modelled with the limiter.

Column types are kept where a value can be refused: `int4` is the range of `integer`, `pgText`
refuses U+0000. `perspective` is an enumeration because of its `CHECK`. `attempts` is not bounded
above: nothing depends on its overflow.
-/

namespace BattleCloud

/-- A `uuid`; Postgres compares it as the 128-bit number it writes. -/
abbrev Uuid := Fin (2 ^ 128)

instance Uuid.neZero : NeZero (2 ^ 128) := ⟨Nat.ne_of_gt (Nat.two_pow_pos 128)⟩

/-- A reading of `now()`: microseconds since 1970-01-01, of a year with four digits. -/
structure Timestamptz where
  us : Int
  fourDigitYear : Calendar.FourDigitYear (us / 1000)

/-- `job_status`. -/
inductive JobStatus where
  | queued
  | running
  | succeeded
  | failed
  | cancelled
  deriving DecidableEq, Repr

/-! ## Rows -/

/-- The nine identity columns, as `analyses` and `jobs` both declare them. -/
structure IdentityColumns where
  replayId : String
  perspective : Perspective
  searchBudgetMsPerTurn : Int
  opponentSamples : Int
  threads : Int
  usageStatsCutoff : Int
  usageStatsDataset : String
  pokeEngineTag : String
  seed : Int
  deriving DecidableEq, Repr

structure ReplayRow where
  id : String
  format : String
  rating : Option Int
  players : Json
  log : String
  payloadBytes : Int

structure AnalysisRow where
  id : Uuid
  columns : IdentityColumns
  document : Json
  totalTurns : Int
  gradableTurns : Int
  wallMs : Int
  degraded : Bool
  createdAt : Timestamptz

structure JobRow where
  id : Uuid
  columns : IdentityColumns
  profile : Profile
  status : JobStatus
  attempts : Nat
  claimedBy : Option String
  claimedAt : Option Timestamptz
  leaseExpiresAt : Option Int
  estimatedTurns : Option Int
  estimatedSearchMs : Option Int
  analysisId : Option Uuid
  errorKind : Option ErrorKind
  errorDetail : Option String
  createdAt : Timestamptz
  updatedAt : Timestamptz

structure Db where
  replays : List ReplayRow
  analyses : List AnalysisRow
  jobs : List JobRow

/-- The tables right after the migrations. -/
def Db.empty : Db := ⟨[], [], []⟩

/-- A row of the partial index: `status IN ('queued', 'running')`. -/
def JobRow.live (j : JobRow) : Bool := j.status = .queued || j.status = .running

/-! ## Constraints -/

inductive Constraint where
  | replaysPkey
  | replaysPayloadBytesCheck
  | analysesPkey
  | analysesReplayIdFkey
  | analysesIdentityKey
  | analysesIdentityChecks
  | analysesTotalTurnsCheck
  | analysesGradableTurnsCheck
  | analysesWallMsCheck
  | jobsPkey
  | jobsIdentityChecks
  | jobsEstimatesCheck
  | jobsAnalysisIdFkey
  | jobsClaimIsAllOrNothing
  | jobsSucceededHasAnalysis
  | jobsFailedHasKind
  | jobsActiveIdentityKey
  deriving DecidableEq, Repr

/-- The `CHECK`s on the identity columns, the same on both tables. -/
def IdentityColumns.Checks (c : IdentityColumns) : Prop :=
  0 < c.searchBudgetMsPerTurn ∧ 1 ≤ c.opponentSamples ∧ 1 ≤ c.threads ∧ 0 ≤ c.usageStatsCutoff ∧
    c.usageStatsDataset ≠ ""

instance (c : IdentityColumns) : Decidable c.Checks :=
  inferInstanceAs (Decidable (_ ∧ _ ∧ _ ∧ _ ∧ _))

/-- `jobs_claim_is_all_or_nothing` on one row. -/
def JobRow.ClaimIsAllOrNothing (j : JobRow) : Prop :=
  (j.claimedBy.isNone ∧ j.claimedAt.isNone ∧ j.leaseExpiresAt.isNone) ∨
    (j.claimedBy.isSome ∧ j.claimedAt.isSome ∧ j.leaseExpiresAt.isSome)

/-- `jobs_succeeded_has_analysis` on one row. -/
def JobRow.SucceededHasAnalysis (j : JobRow) : Prop :=
  j.status ≠ .succeeded ∨ j.analysisId.isSome

/-- `jobs_failed_has_kind` on one row. -/
def JobRow.FailedHasKind (j : JobRow) : Prop := j.status ≠ .failed ∨ j.errorKind.isSome

/-- The two `CHECK`s on the estimates. -/
def JobRow.EstimatesCheck (j : JobRow) : Prop :=
  (∀ n ∈ j.estimatedTurns, 0 ≤ n) ∧ ∀ n ∈ j.estimatedSearchMs, 0 ≤ n

/-- `analysis_id uuid REFERENCES analyses(id)` on one row; null references nothing. -/
def JobRow.AnalysisStored (j : JobRow) (db : Db) : Prop :=
  (j.analysisId.all fun i => db.analyses.any fun a => a.id = i) = true

instance (j : JobRow) (db : Db) : Decidable (j.AnalysisStored db) :=
  inferInstanceAs (Decidable (_ = true))

instance (j : JobRow) : Decidable j.ClaimIsAllOrNothing := inferInstanceAs (Decidable (_ ∨ _))
instance (j : JobRow) : Decidable j.SucceededHasAnalysis := inferInstanceAs (Decidable (_ ∨ _))
instance (j : JobRow) : Decidable j.FailedHasKind := inferInstanceAs (Decidable (_ ∨ _))
instance (j : JobRow) : Decidable j.EstimatesCheck := inferInstanceAs (Decidable (_ ∧ _))

/-- What a constraint says of the tables. -/
def Constraint.Holds (db : Db) : Constraint → Prop
  | replaysPkey => Table.Unique ReplayRow.id db.replays
  | replaysPayloadBytesCheck => ∀ r ∈ db.replays, 0 ≤ r.payloadBytes
  | analysesPkey => Table.Unique AnalysisRow.id db.analyses
  | analysesReplayIdFkey => ∀ a ∈ db.analyses, ∃ r ∈ db.replays, r.id = a.columns.replayId
  | analysesIdentityKey => Table.Unique AnalysisRow.columns db.analyses
  | analysesIdentityChecks => ∀ a ∈ db.analyses, a.columns.Checks
  | analysesTotalTurnsCheck => ∀ a ∈ db.analyses, 0 ≤ a.totalTurns
  | analysesGradableTurnsCheck => ∀ a ∈ db.analyses, 0 ≤ a.gradableTurns
  | analysesWallMsCheck => ∀ a ∈ db.analyses, 0 ≤ a.wallMs
  | jobsPkey => Table.Unique JobRow.id db.jobs
  | jobsIdentityChecks => ∀ j ∈ db.jobs, j.columns.Checks
  | jobsEstimatesCheck => ∀ j ∈ db.jobs, j.EstimatesCheck
  | jobsAnalysisIdFkey => ∀ j ∈ db.jobs, j.AnalysisStored db
  | jobsClaimIsAllOrNothing => ∀ j ∈ db.jobs, j.ClaimIsAllOrNothing
  | jobsSucceededHasAnalysis => ∀ j ∈ db.jobs, j.SucceededHasAnalysis
  | jobsFailedHasKind => ∀ j ∈ db.jobs, j.FailedHasKind
  | jobsActiveIdentityKey => Table.UniqueWhere JobRow.live JobRow.columns db.jobs

instance (db : Db) (c : Constraint) : Decidable (c.Holds db) :=
  match c with
  | .replaysPkey => inferInstanceAs (Decidable (Table.Unique _ _))
  | .replaysPayloadBytesCheck => inferInstanceAs (Decidable (∀ r ∈ db.replays, _))
  | .analysesPkey => inferInstanceAs (Decidable (Table.Unique _ _))
  | .analysesReplayIdFkey => inferInstanceAs (Decidable (∀ a ∈ db.analyses, _))
  | .analysesIdentityKey => inferInstanceAs (Decidable (Table.Unique _ _))
  | .analysesIdentityChecks => inferInstanceAs (Decidable (∀ a ∈ db.analyses, _))
  | .analysesTotalTurnsCheck => inferInstanceAs (Decidable (∀ a ∈ db.analyses, _))
  | .analysesGradableTurnsCheck => inferInstanceAs (Decidable (∀ a ∈ db.analyses, _))
  | .analysesWallMsCheck => inferInstanceAs (Decidable (∀ a ∈ db.analyses, _))
  | .jobsPkey => inferInstanceAs (Decidable (Table.Unique _ _))
  | .jobsIdentityChecks => inferInstanceAs (Decidable (∀ j ∈ db.jobs, _))
  | .jobsEstimatesCheck => inferInstanceAs (Decidable (∀ j ∈ db.jobs, _))
  | .jobsAnalysisIdFkey => inferInstanceAs (Decidable (∀ j ∈ db.jobs, _))
  | .jobsClaimIsAllOrNothing => inferInstanceAs (Decidable (∀ j ∈ db.jobs, _))
  | .jobsSucceededHasAnalysis => inferInstanceAs (Decidable (∀ j ∈ db.jobs, _))
  | .jobsFailedHasKind => inferInstanceAs (Decidable (∀ j ∈ db.jobs, _))
  | .jobsActiveIdentityKey => inferInstanceAs (Decidable (Table.UniqueWhere _ _ _))

/-- Every constraint, in the order they are tried. -/
def Constraint.all : List Constraint :=
  [replaysPkey, replaysPayloadBytesCheck, analysesPkey, analysesReplayIdFkey, analysesIdentityKey,
    analysesIdentityChecks, analysesTotalTurnsCheck, analysesGradableTurnsCheck,
    analysesWallMsCheck, jobsPkey, jobsIdentityChecks, jobsEstimatesCheck, jobsAnalysisIdFkey,
    jobsClaimIsAllOrNothing, jobsSucceededHasAnalysis, jobsFailedHasKind, jobsActiveIdentityKey]

theorem Constraint.mem_all (c : Constraint) : c ∈ Constraint.all := by
  cases c <;> decide

/-- Why Postgres refuses a statement. -/
inductive DbError where
  /-- A constraint fails on the tables the statement would leave. -/
  | violates (c : Constraint)
  /-- A bound value is not one its column type takes. -/
  | badValue
  deriving DecidableEq, Repr

/-- The first constraint the tables break. -/
def Db.violated (db : Db) : Option Constraint :=
  Constraint.all.find? fun c => !decide (c.Holds db)

/-- Keep the tables a statement computed, unless a constraint fails on them. -/
def Db.commit (db : Db) : Except DbError Db :=
  match db.violated with
  | some c => .error (.violates c)
  | none => .ok db

/-- Every constraint holds. -/
def Db.Valid (db : Db) : Prop := ∀ c : Constraint, c.Holds db

theorem Db.violated_eq_none {db : Db} : db.violated = none ↔ db.Valid := by
  simp only [violated, List.find?_eq_none, Bool.not_eq_true', decide_eq_false_iff_not,
    Decidable.not_not]
  exact ⟨fun h c => h c c.mem_all, fun h c _ => h c⟩

theorem Db.commit_ok {db db' : Db} : db.commit = .ok db' ↔ db.Valid ∧ db' = db := by
  unfold commit
  cases h : db.violated with
  | none => simp [← Db.violated_eq_none, h, eq_comm]
  | some c => simp [← Db.violated_eq_none, h]

/-- A refused statement names a constraint that fails on the tables it would have left. -/
theorem Db.commit_error {db : Db} {e : DbError} (h : db.commit = .error e) :
    ∃ c, e = .violates c ∧ ¬ c.Holds db := by
  unfold commit at h
  split at h
  · rename_i c hc
    obtain rfl := Except.error.inj h
    exact ⟨c, rfl, by simpa using List.find?_some hc⟩
  · cases h

theorem Db.valid_empty : Db.empty.Valid := by
  intro c
  cases c <;> simp [Constraint.Holds, Db.empty, Table.Unique, Table.UniqueWhere]

/-- The primary key of `jobs`. -/
theorem Db.Valid.job_eq {db : Db} (hv : db.Valid) {j k : JobRow} (hj : j ∈ db.jobs)
    (hk : k ∈ db.jobs) (h : j.id = k.id) : j = k :=
  Table.Unique.eq (hv .jobsPkey) hj hk h

/-- The row an `INSERT INTO jobs` leaves last has a new id. -/
theorem Db.Valid.ne_last_job {db : Db} {x : JobRow}
    (hv : ({ db with jobs := db.jobs ++ [x] } : Db).Valid) {j : JobRow} (hj : j ∈ db.jobs) :
    j.id ≠ x.id :=
  Table.Unique.ne_last (hv .jobsPkey) hj

/-! ## Bound values -/

/-- A value a statement binds. -/
inductive SqlValue where
  | text (s : String)
  | integer (n : Int)
  deriving DecidableEq

/-- An `integer` column takes 32-bit integers. -/
def int4 (n : Int) : Except DbError Int :=
  if -2147483648 ≤ n ∧ n < 2147483648 then .ok n else .error .badValue

/-- A `text` column takes no U+0000. -/
def pgText (s : String) : Except DbError String :=
  if nulFree s then .ok s else .error .badValue

/-- The only error is a refused value. -/
def FailsBad {α : Type} (x : Except DbError α) : Prop := ∀ e, x = .error e → e = .badValue

section Except

variable {ε α β : Type} {x : Except ε α}

theorem except_bind_ok {f : α → Except ε β} {b : β} :
    x.bind f = .ok b ↔ ∃ a, x = .ok a ∧ f a = .ok b := by
  cases x with
  | error e => simp [Except.bind]
  | ok a => simp [Except.bind]

theorem except_bind_error {f : α → Except ε β} {e : ε} :
    x.bind f = .error e ↔ x = .error e ∨ ∃ a, x = .ok a ∧ f a = .error e := by
  cases x with
  | error e' => simp [Except.bind]
  | ok a => simp [Except.bind]

theorem except_map_error {f : α → β} {e : ε} : x.map f = .error e ↔ x = .error e := by
  cases x with
  | error e' => simp [Except.map]
  | ok a => simp [Except.map]

theorem except_map_ok {f : α → β} {b : β} : x.map f = .ok b ↔ ∃ a, x = .ok a ∧ f a = b := by
  cases x with
  | error e => simp [Except.map]
  | ok a => simp [Except.map]

theorem exists_map_ok {f : α → β} :
    (∃ b, x.map f = .ok b) ↔ ∃ a, x = .ok a := by
  cases x <;> simp [Except.map]

theorem except_mapError_ok {ε' : Type} {f : ε → ε'} {a : α} : x.mapError f = .ok a ↔ x = .ok a := by
  cases x <;> simp [Except.mapError]

theorem except_mapError_error {ε' : Type} {f : ε → ε'} {e' : ε'} :
    x.mapError f = .error e' ↔ ∃ e, x = .error e ∧ f e = e' := by
  cases x <;> simp [Except.mapError]

end Except

theorem failsBad_ok {α : Type} {a : α} : FailsBad (.ok a) := by
  intro e h
  cases h

theorem failsBad_error {α : Type} : FailsBad (.error .badValue : Except DbError α) := by
  intro e h
  exact (Except.error.inj h).symm

theorem FailsBad.bind {α β : Type} {x : Except DbError α} {f : α → Except DbError β}
    (hx : FailsBad x) (hf : ∀ a, FailsBad (f a)) : FailsBad (x.bind f) := by
  intro e h
  rcases except_bind_error.mp h with h | ⟨a, -, h⟩
  · exact hx e h
  · exact hf a e h

theorem int4_bad (n : Int) : FailsBad (int4 n) := by
  unfold int4
  split
  · exact failsBad_ok
  · exact failsBad_error

theorem pgText_bad (s : String) : FailsBad (pgText s) := by
  unfold pgText
  split
  · exact failsBad_ok
  · exact failsBad_error

theorem int4_ok {n m : Int} (h : int4 n = .ok m) : m = n := by
  unfold int4 at h
  split at h
  · exact (Except.ok.inj h).symm
  · cases h

theorem int4_ok_iff {n : Int} : (∃ m, int4 n = .ok m) ↔ -2147483648 ≤ n ∧ n < 2147483648 := by
  unfold int4
  by_cases h : -2147483648 ≤ n ∧ n < 2147483648 <;> simp [h]

theorem pgText_ok {s t : String} (h : pgText s = .ok t) : t = s := by
  unfold pgText at h
  split at h
  · exact (Except.ok.inj h).symm
  · cases h

theorem pgText_of_nulFree {s : String} (h : nulFree s = true) : pgText s = .ok s := if_pos h

end BattleCloud
