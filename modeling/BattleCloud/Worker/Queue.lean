import BattleCloud.Api.Store
import BattleCloud.Worker.Engine

/-!
# The worker's statements

`worker/battle_cloud_worker/queue.py`: `_load_replay` and the `_report_success` transaction (the
upsert into `analyses`, then `complete_job`, rolled back when the job is not the worker's any
more). The upsert has two paths that write different columns: a fresh row takes all of the
proposed one, an existing row takes its document, `wall_ms` and `degraded`.

`reportSuccess` evaluates both statements on one state of the tables. Between the two the fresh
row is invisible to every other transaction and an `INSERT` of the same identity waits for it,
so the upsert has the same effect at the commit as where it was issued.
-/

namespace BattleCloud

/-- `RETRYABLE`. -/
def retryableKinds : List ErrorKind := [.engineDataMissing, .engineUnavailable]

/-- `failure.detail[:2000]`. -/
def EngineFailure.errorDetail (f : EngineFailure) : String :=
  String.ofList (f.detail.toList.take 2000)

def ReplayRow.payload (r : ReplayRow) : EnginePayload :=
  { id := r.id, formatid := r.format, rating := r.rating, players := r.players, log := r.log }

/-- `_load_replay`; `none` is where it raises `REPLAY_NOT_FOUND`. -/
def loadReplay (db : Db) (replayId : String) : Option EnginePayload :=
  (db.replays.find? fun r => r.id = replayId).map ReplayRow.payload

theorem loadReplay_some {db : Db} {i : String} {p : EnginePayload} (h : loadReplay db i = some p) :
    ∃ r ∈ db.replays, r.id = i ∧ p = r.payload := by
  obtain ⟨r, hr, rfl⟩ := Option.map_eq_some_iff.mp h
  exact ⟨r, List.mem_of_find?_eq_some hr, by simpa using List.find?_some hr, rfl⟩

theorem loadReplay_isSome {db : Db} {i : String} (h : ∃ r ∈ db.replays, r.id = i) :
    loadReplay db i ≠ none := by
  obtain ⟨r, hr, he⟩ := h
  intro hn
  have hf := Option.map_eq_none_iff.mp hn
  rw [List.find?_eq_none] at hf
  exact hf r hr (by simpa using he)

/-- `_report_failure`: `fail_job` with what the failure says. -/
def reportFailure (db : Db) (workerId : String) (jobId : Uuid) (maxAttempts : Nat)
    (failure : EngineFailure) (now : Timestamptz) : Except DbError (Db × List JobRow) :=
  (pgText failure.errorDetail).bind fun detail =>
  (JobUpdate.fail jobId workerId (retryableKinds.contains failure.kind) maxAttempts failure.kind
    detail now).run db

theorem reportFailure_ok {db db' : Db} {w : String} {i : Uuid} {m : Nat} {f : EngineFailure}
    {now : Timestamptz} {rows : List JobRow}
    (h : reportFailure db w i m f now = .ok (db', rows)) :
    ∃ u, u = JobUpdate.fail i w (retryableKinds.contains f.kind) m f.kind f.errorDetail now ∧
      db' = u.apply db ∧ db'.Valid ∧ rows = Table.returning u.sel u.set db.jobs := by
  unfold reportFailure at h
  obtain ⟨d, hd, h⟩ := except_bind_ok.mp h
  obtain rfl := pgText_ok hd
  exact ⟨_, rfl, JobUpdate.run_ok h⟩

theorem reportFailure_error {db : Db} {w : String} {i : Uuid} {m : Nat} {f : EngineFailure}
    {now : Timestamptz} {e : DbError} (h : reportFailure db w i m f now = .error e) :
    e = .badValue ∨
    ((JobUpdate.fail i w (retryableKinds.contains f.kind) m f.kind f.errorDetail now).apply
      db).commit = .error e := by
  unfold reportFailure at h
  rcases except_bind_error.mp h with h | ⟨d, hd, h⟩
  · exact Or.inl (pgText_bad _ _ h)
  · obtain rfl := pgText_ok hd
    exact Or.inr (JobUpdate.run_error h)

/-! ## Values of a document -/

/-- `rint`: the nearest integer of `m / d`, the even one of two. -/
def roundHalfEven (m : Int) (d : Nat) : Int :=
  let q := m / d
  let r := m % d
  if 2 * r < d ∨ (2 * r = d ∧ q % 2 = 0) then q else q + 1

/-- Whitespace `int4in` skips. -/
def pgSpace (c : Char) : Bool := c = ' ' || ('\t' ≤ c && c ≤ '\r')

/-- The value of a digit, if it is one of the base. -/
def digitOf? (base : Nat) (c : Char) : Option Nat :=
  let d :=
    if '0' ≤ c ∧ c ≤ '9' then c.toNat - '0'.toNat
    else if 'a' ≤ c ∧ c ≤ 'z' then c.toNat - 'a'.toNat + 10
    else if 'A' ≤ c ∧ c ≤ 'Z' then c.toNat - 'A'.toNat + 10
    else base
  if d < base then some d else none

/-- Digits up to the end, after the ones read so far; an underscore stands before a digit. -/
def readDigits (base : Nat) : Nat → List Char → Option Nat
  | n, [] => some n
  | n, '_' :: c :: cs => (digitOf? base c).bind fun d => readDigits base (base * n + d) cs
  | n, c :: cs => (digitOf? base c).bind fun d => readDigits base (base * n + d) cs

/-- An integer without its sign: a decimal one does not begin with an underscore, one after a
prefix may. -/
def readUnsigned : List Char → Option Nat
  | '0' :: 'x' :: c :: cs | '0' :: 'X' :: c :: cs => readDigits 16 0 (c :: cs)
  | '0' :: 'o' :: c :: cs | '0' :: 'O' :: c :: cs => readDigits 8 0 (c :: cs)
  | '0' :: 'b' :: c :: cs | '0' :: 'B' :: c :: cs => readDigits 2 0 (c :: cs)
  | c :: cs => if c = '_' then none else readDigits 10 0 (c :: cs)
  | [] => none

/-- The integers `int4in` reads, before its range is checked. -/
def readInteger (s : String) : Option Int :=
  match (((s.toList.dropWhile pgSpace).reverse).dropWhile pgSpace).reverse with
  | '-' :: cs => (readUnsigned cs).map fun n : Nat => -(n : Int)
  | '+' :: cs => (readUnsigned cs).map fun n : Nat => (n : Int)
  | cs => (readUnsigned cs).map fun n : Nat => (n : Int)

example : [" -1_000 ", "0x_1F", "0b101", "1__0", "_1", "0x", "12a"].map readInteger =
    [some (-1000), some 31, some 5, none, none, none, none] := by decide

/-- A Python value bound to an `integer` column: an `int` as it is, a `float` by the assignment
cast, a `str` as an untyped literal; nothing else is taken. -/
def integerOf : Json → Except DbError Int
  | .num m e => int4 (roundHalfEven m (10 ^ e))
  | .str s => match readInteger s with
    | some n => int4 n
    | none => .error .badValue
  | _ => .error .badValue

/-- The integer a JSON number is, if it is one. -/
def Json.intValue? : Json → Option Int
  | .num m e => if m % 10 ^ e = 0 then some (m / 10 ^ e) else none
  | _ => none

theorem roundHalfEven_of_dvd {m : Int} {d : Nat} (hd : 0 < d) (h : m % d = 0) :
    roundHalfEven m d = m / d := by
  unfold roundHalfEven
  simp only [h]
  rw [if_pos (Or.inl (by omega))]

/-- An integral value is stored as it is. -/
theorem integerOf_intValue {j : Json} {n m : Int} (hj : j.intValue? = some n)
    (h : integerOf j = .ok m) : m = n := by
  cases j with
  | num k e =>
    simp only [Json.intValue?] at hj
    split at hj
    · rename_i hmod
      have hpos : 0 < 10 ^ e := Nat.pow_pos (by decide)
      have hr : roundHalfEven k (10 ^ e) = n := by
        rw [← Option.some.inj hj, roundHalfEven_of_dvd hpos (by exact_mod_cast hmod)]
        push_cast
        rfl
      rw [← hr]
      exact int4_ok h
    · cases hj
  | _ => cases hj

theorem integerOf_bad (j : Json) : FailsBad (integerOf j) := by
  unfold integerOf
  split
  · exact int4_bad _
  · split
    · exact int4_bad _
    · exact failsBad_error
  · exact failsBad_error

/-! ## The upsert into `analyses` -/

/-- The identity columns of the claimed row. -/
def ClaimedJob.columns (job : ClaimedJob) : IdentityColumns := job.identity.columns

/-- The named parameters of the `INSERT`, under the column each one is put in. -/
def insertBindings (job : ClaimedJob) : List (IdentityColumn × SqlValue) :=
  [(.replayId, .text job.replayId),
    (.perspective, .text job.perspective.text),
    (.searchBudgetMsPerTurn, .integer job.searchBudgetMsPerTurn),
    (.opponentSamples, .integer job.opponentSamples),
    (.threads, .integer job.threads),
    (.usageStatsCutoff, .integer job.usageStatsCutoff),
    (.usageStatsDataset, .text job.usageStatsDataset),
    (.pokeEngineTag, .text job.pokeEngineTag),
    (.seed, .integer job.seed)]

/-- The row the `INSERT` proposes. -/
def proposedAnalysis (job : ClaimedJob) (run : AnalysisRun) (newId : Uuid) (now : Timestamptz) :
    Except DbError AnalysisRow :=
  (IdentityColumns.ofBindings (insertBindings job)).bind fun columns =>
  (pgJsonb run.document).bind fun document =>
  (integerOf (run.document.getOrZero "totalTurns")).bind fun totalTurns =>
  (integerOf (run.document.getOrZero "gradableTurns")).bind fun gradableTurns =>
  (int4 run.wallMs).bind fun wallMs =>
  .ok { id := newId, columns, document, totalTurns, gradableTurns, wallMs,
        degraded := run.degraded, createdAt := now }

/-- The `CHECK`s of `analyses`, tried on the proposed row before the conflict is. -/
def AnalysisRow.check (a : AnalysisRow) : Except DbError Unit :=
  if ¬ a.columns.Checks then .error (.violates .analysesIdentityChecks)
  else if a.totalTurns < 0 then .error (.violates .analysesTotalTurnsCheck)
  else if a.gradableTurns < 0 then .error (.violates .analysesGradableTurnsCheck)
  else if a.wallMs < 0 then .error (.violates .analysesWallMsCheck)
  else .ok ()

/-- `ON CONFLICT ON CONSTRAINT analyses_identity_key DO UPDATE SET document, wall_ms, degraded`:
the row left under the proposed row's identity. -/
def written (db : Db) (proposed : AnalysisRow) : AnalysisRow :=
  match db.analyses.find? fun a => a.columns = proposed.columns with
  | some a =>
    { a with document := proposed.document, wallMs := proposed.wallMs,
             degraded := proposed.degraded }
  | none => proposed

/-- The tables with a row written under its identity. -/
def Db.putAnalysis (db : Db) (row : AnalysisRow) : Db :=
  { db with analyses := Table.put AnalysisRow.columns row db.analyses }

def insertAnalysis (db : Db) (job : ClaimedJob) (run : AnalysisRun) (newId : Uuid)
    (now : Timestamptz) : Except DbError (Db × AnalysisRow) :=
  (proposedAnalysis job run newId now).bind fun proposed =>
  proposed.check.bind fun _ =>
  (db.putAnalysis (written db proposed)).commit.map fun db' => (db', written db proposed)

/-- The `_report_success` transaction; `none` is the `psycopg.Rollback`. -/
def reportSuccess (db : Db) (workerId : String) (job : ClaimedJob) (run : AnalysisRun)
    (newId : Uuid) (now : Timestamptz) : Except DbError (Option (Db × AnalysisRow)) :=
  (insertAnalysis db job run newId now).bind fun r =>
  ((JobUpdate.complete job.id workerId r.2.id now).run r.1).map fun c =>
    if c.2.isEmpty then none else some (c.1, r.2)

theorem proposedAnalysis_ok {job : ClaimedJob} {run : AnalysisRun} {newId : Uuid}
    {now : Timestamptz} {a : AnalysisRow} (h : proposedAnalysis job run newId now = .ok a) :
    a.id = newId ∧ a.columns = job.columns ∧ a.document = run.document ∧
      integerOf (run.document.getOrZero "totalTurns") = .ok a.totalTurns ∧
      integerOf (run.document.getOrZero "gradableTurns") = .ok a.gradableTurns := by
  unfold proposedAnalysis at h
  obtain ⟨c, hc, h⟩ := except_bind_ok.mp h
  obtain ⟨d, hd, h⟩ := except_bind_ok.mp h
  obtain ⟨t, ht, h⟩ := except_bind_ok.mp h
  obtain ⟨g, hg, h⟩ := except_bind_ok.mp h
  obtain ⟨w, -, h⟩ := except_bind_ok.mp h
  obtain rfl := Except.ok.inj h
  refine ⟨rfl, ?_, ?_, ht, hg⟩
  · exact @ofBindings_ok _ job.identity _ hc rfl rfl rfl rfl rfl rfl rfl rfl rfl
  · unfold pgJsonb at hd
    split at hd
    · exact (Except.ok.inj hd).symm
    · cases hd

theorem proposedAnalysis_bad (job : ClaimedJob) (run : AnalysisRun) (newId : Uuid)
    (now : Timestamptz) : FailsBad (proposedAnalysis job run newId now) := by
  unfold proposedAnalysis
  exact (ofBindings_bad _).bind fun _ => (pgJsonb_bad _).bind fun _ =>
    (integerOf_bad _).bind fun _ => (integerOf_bad _).bind fun _ => (int4_bad _).bind fun _ =>
    failsBad_ok

/-- The constraints `AnalysisRow.check` tries. -/
def analysisChecks : List Constraint :=
  [.analysesIdentityChecks, .analysesTotalTurnsCheck, .analysesGradableTurnsCheck,
    .analysesWallMsCheck]

theorem AnalysisRow.check_error {a : AnalysisRow} {e : DbError} (h : a.check = .error e) :
    ∃ c ∈ analysisChecks, e = .violates c := by
  unfold AnalysisRow.check at h
  repeat' split at h
  · exact ⟨_, by simp [analysisChecks], (Except.error.inj h).symm⟩
  · exact ⟨_, by simp [analysisChecks], (Except.error.inj h).symm⟩
  · exact ⟨_, by simp [analysisChecks], (Except.error.inj h).symm⟩
  · exact ⟨_, by simp [analysisChecks], (Except.error.inj h).symm⟩
  · cases h

/-- **What the written row is**: the proposed row where the identity had none, else the row of the
identity with the document of the proposed one and everything a summary shows of its own. -/
theorem written_cases (db : Db) (p : AnalysisRow) :
    ((∀ a ∈ db.analyses, a.columns ≠ p.columns) ∧ written db p = p) ∨
    ∃ a ∈ db.analyses, a.columns = p.columns ∧ written db p =
      { a with document := p.document, wallMs := p.wallMs, degraded := p.degraded } := by
  unfold written
  split
  · rename_i a hf
    exact Or.inr ⟨a, List.mem_of_find?_eq_some hf, by simpa using List.find?_some hf, rfl⟩
  · rename_i hf
    rw [List.find?_eq_none] at hf
    exact Or.inl ⟨by simpa using hf, rfl⟩

theorem written_columns (db : Db) (p : AnalysisRow) : (written db p).columns = p.columns := by
  rcases written_cases db p with ⟨-, h⟩ | ⟨a, -, hc, h⟩
  · rw [h]
  · rw [h]
    exact hc

theorem written_document (db : Db) (p : AnalysisRow) : (written db p).document = p.document := by
  rcases written_cases db p with ⟨-, h⟩ | ⟨a, -, -, h⟩ <;> rw [h]

theorem insertAnalysis_ok {db db' : Db} {job : ClaimedJob} {run : AnalysisRun} {newId : Uuid}
    {now : Timestamptz} {row : AnalysisRow}
    (h : insertAnalysis db job run newId now = .ok (db', row)) :
    ∃ p, proposedAnalysis job run newId now = .ok p ∧ row = written db p ∧
      db' = db.putAnalysis row ∧ db'.Valid := by
  unfold insertAnalysis at h
  obtain ⟨p, hp, h⟩ := except_bind_ok.mp h
  obtain ⟨-, -, h⟩ := except_bind_ok.mp h
  obtain ⟨d, hc, he⟩ := except_map_ok.mp h
  obtain ⟨hv, rfl⟩ := Db.commit_ok.mp hc
  cases he
  exact ⟨p, hp, rfl, rfl, hv⟩

/-- The upsert is refused for a value it binds, for a `CHECK` of the proposed row, or for a
constraint on the tables it would leave. -/
theorem insertAnalysis_error {db : Db} {job : ClaimedJob} {run : AnalysisRun} {newId : Uuid}
    {now : Timestamptz} {e : DbError} (h : insertAnalysis db job run newId now = .error e) :
    e = .badValue ∨ (∃ c ∈ analysisChecks, e = .violates c) ∨
    ∃ p, proposedAnalysis job run newId now = .ok p ∧
      (db.putAnalysis (written db p)).commit = .error e := by
  unfold insertAnalysis at h
  rcases except_bind_error.mp h with h | ⟨p, hp, h⟩
  · exact Or.inl (proposedAnalysis_bad _ _ _ _ _ h)
  rcases except_bind_error.mp h with h | ⟨-, -, h⟩
  · exact Or.inr (Or.inl (AnalysisRow.check_error h))
  · exact Or.inr (Or.inr ⟨p, hp, except_map_error.mp h⟩)

/-- **What a report does**: the row it wrote is there and the job it completed was the worker's
own; or nothing at all. -/
theorem reportSuccess_ok {db : Db} {w : String} {job : ClaimedJob} {run : AnalysisRun}
    {newId : Uuid} {now : Timestamptz} {r : Option (Db × AnalysisRow)}
    (h : reportSuccess db w job run newId now = .ok r) :
    ∃ p, proposedAnalysis job run newId now = .ok p ∧
      ((r = none ∧ ∀ j ∈ db.jobs, j.ownedBy job.id w = false) ∨
       ∃ db', r = some (db', written db p) ∧ (∃ j ∈ db.jobs, j.ownedBy job.id w = true) ∧
        db' = (JobUpdate.complete job.id w (written db p).id now).apply
          (db.putAnalysis (written db p)) ∧ db'.Valid) := by
  unfold reportSuccess at h
  obtain ⟨⟨d, row⟩, hi, h⟩ := except_bind_ok.mp h
  obtain ⟨p, hp, rfl, rfl, -⟩ := insertAnalysis_ok hi
  refine ⟨p, hp, ?_⟩
  obtain ⟨⟨d, rows⟩, hr, he⟩ := except_map_ok.mp h
  obtain ⟨hd, hv, rfl⟩ := JobUpdate.run_ok hr
  simp only at he
  split at he
  · rename_i hempty
    rw [List.isEmpty_iff, Table.returning_eq_nil] at hempty
    exact Or.inl ⟨he.symm, hempty⟩
  · rename_i hne
    rw [List.isEmpty_iff, Table.returning_eq_nil] at hne
    have hnot : ¬ ∀ j ∈ db.jobs, j.ownedBy job.id w = false := hne
    exact Or.inr ⟨d, he.symm, by simpa using hnot, hd, hv⟩

/-- A report is refused for a value it binds, for a `CHECK` of the proposed row, or for a
constraint on the tables one of the two statements would leave. -/
theorem reportSuccess_error {db : Db} {w : String} {job : ClaimedJob} {run : AnalysisRun}
    {newId : Uuid} {now : Timestamptz} {e : DbError}
    (h : reportSuccess db w job run newId now = .error e) :
    e = .badValue ∨ (∃ c ∈ analysisChecks, e = .violates c) ∨
    ∃ p, proposedAnalysis job run newId now = .ok p ∧
      ((db.putAnalysis (written db p)).commit = .error e ∨
       ((JobUpdate.complete job.id w (written db p).id now).apply
          (db.putAnalysis (written db p))).commit = .error e) := by
  unfold reportSuccess at h
  rcases except_bind_error.mp h with h | ⟨⟨d, row⟩, hi, h⟩
  · rcases insertAnalysis_error h with h | h | ⟨p, hp, he⟩
    · exact Or.inl h
    · exact Or.inr (Or.inl h)
    · exact Or.inr (Or.inr ⟨p, hp, Or.inl he⟩)
  · obtain ⟨p, hp, rfl, rfl, -⟩ := insertAnalysis_ok hi
    exact Or.inr (Or.inr ⟨p, hp, Or.inr (JobUpdate.run_error (except_map_error.mp h))⟩)

end BattleCloud
