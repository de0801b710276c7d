import BattleCloud.Worker.Python

/-!
# What the adapter lets through

`EngineAdapter.analyze` of `worker/battle_cloud_worker/engine.py` from the check of the working
directory to the telemetry (`summarize` of `telemetry.py`), with the engine an arbitrary function
of its arguments: it may not be importable, return any value and raise anything. `run_once` catches
`EngineFailure` and nothing else, so whatever else is raised (`escaped`) ends the process and leaves
the job running.

`analyze_contained_iff`: which behaviours are contained. Three things are not: an import that raises
no `Exception`, an exception without a text, and, outside the `try`, a `turns` that is neither empty
nor a collection (`summarize_isSome_iff`). A failure that does come out is of a kind of this tier
(`analyze_kind`).

An instance of a subclass behaves as its built-in type here; what else `turns` can be is
`OtherValue`. The two floats that `degraded` compares are multiples of a quarter and a quotient of
integers, and are compared as such.
-/

namespace BattleCloud

/-! ## Telemetry -/

/-- `doc.get(key)`. -/
def fieldOrNone (fields : List (PyKey × PyValue)) (key : String) : PyValue :=
  ((fields.find? fun f => f.1 = .str (pyStr key)).map Prod.snd).getD .none

/-- A value of another type, as `summarize` meets it; `none` is where Python raises. -/
structure OtherValue where
  truth : Option Bool
  items : Option (List PyValue)
  len : Option Nat

namespace PyValue

variable (other : OtherValue)

/-- `bool(value)`. -/
def truth : PyValue → Option Bool
  | .none => some false
  | .bool b => some b
  | .int n => some (n ≠ 0)
  | .float m _ => some (m ≠ 0)
  | .nonfinite => some true
  | .str s => some (!s.isEmpty)
  | .list xs => some (!xs.isEmpty)
  | .dict fields => some (!fields.isEmpty)
  | .other => other.truth

/-- A key as a value; none of them is a `dict`. -/
def ofKey : PyKey → PyValue
  | .str s => .str s
  | .scalar _ | .other => .other

/-- What `for item in value` goes through. -/
def items : PyValue → Option (List PyValue)
  | .str s => some (s.map fun c => .str [c])
  | .list xs => some xs
  | .dict fields => some (fields.map fun f => ofKey f.1)
  | .other => other.items
  | _ => Option.none

/-- `len(value)`. -/
def len : PyValue → Option Nat
  | .str s => some s.length
  | .list xs => some xs.length
  | .dict fields => some fields.length
  | .other => other.len
  | _ => Option.none

end PyValue

/-- `samples_used` and `nulls`. -/
structure TurnTally where
  samplesUsed : List (Int × Nat)
  nulls : Nat

/-- `samples_used[used] = samples_used.get(used, 0) + 1`. -/
def countOne (used : Int) : List (Int × Nat) → List (Int × Nat)
  | [] => [(used, 1)]
  | (k, n) :: ks => if k = used then (k, n + 1) :: ks else (k, n) :: countOne used ks

/-- `isinstance(value, int)`, which a `bool` is. -/
def PyValue.int? : PyValue → Option Int
  | .int n => some n
  | .bool b => some (if b then 1 else 0)
  | _ => Option.none

/-- `value is None`. -/
def PyValue.isNone : PyValue → Bool
  | .none => true
  | _ => false

/-- One turn of the loop. -/
def TurnTally.add (t : TurnTally) : PyValue → TurnTally
  | .dict fields =>
    { samplesUsed := match (fieldOrNone fields "samplesUsed").int? with
        | some used => countOne used t.samplesUsed
        | none => t.samplesUsed
      nulls := if (fieldOrNone fields "winProbability").isNone then t.nulls + 1 else t.nulls }
  | _ => t

structure RunTelemetry where
  wallMs : Nat
  totalTurns : Nat
  budgetMsPerTurn : Int
  opponentSamples : Int
  samplesUsed : List (Int × Nat)
  nullWinProbabilityTurns : Nat

/-- `measured_ms_per_turn > expected_ms_per_turn * DEGRADATION_MARGIN`, multiplied out. -/
def RunTelemetry.degraded (t : RunTelemetry) : Bool :=
  0 < t.totalTurns && 0 < t.budgetMsPerTurn &&
    5 * t.totalTurns * (t.budgetMsPerTurn + 60 * t.opponentSamples) < 4 * t.wallMs

/-- `summarize`; `none` is where it raises. -/
def summarize (other : OtherValue) (document : PyDict) (wallMs : Nat)
    (budgetMsPerTurn opponentSamples : Int) : Option RunTelemetry := do
  let value := fieldOrNone document.fields "turns"
  let truth ← value.truth other
  -- `or []`
  let turns := if truth then value else .list []
  let items ← turns.items other
  let tally := items.foldl TurnTally.add ⟨[], 0⟩
  let totalTurns ← turns.len other
  return { wallMs, totalTurns, budgetMsPerTurn, opponentSamples
           samplesUsed := tally.samplesUsed
           nullWinProbabilityTurns := tally.nulls }

/-! ## Exceptions -/

/-- The class of an exception, as far as a handler tells. -/
inductive PyClass where
  | fileNotFoundError
  /-- Any other `Exception`. -/
  | exception
  /-- `KeyboardInterrupt` or `SystemExit`. -/
  | interrupt
  /-- Any other `BaseException`. -/
  | baseException
  deriving DecidableEq

structure PyException where
  cls : PyClass
  /-- `type(exc).__name__`. -/
  name : PyStr
  /-- `str(exc)`; `none` is where that raises. -/
  text : Option PyStr

/-- `isinstance(exc, Exception)`. -/
def PyException.isException (e : PyException) : Bool :=
  e.cls = .fileNotFoundError || e.cls = .exception

/-- What leaves `analyze` when it does not return. -/
inductive AdapterRaised where
  | engineFailure (failure : PyFailure)
  | escaped

/-- `EngineFailure(kind, ..)` with the text of an exception in its detail. -/
def engineFailure (kind : ErrorKind) (before : PyStr) (e : PyException) : AdapterRaised :=
  match e.text with
  | some text => .engineFailure ⟨kind, before ++ text⟩
  | none => .escaped

/-! ## The adapter -/

/-- What `analyze_replay` does; a value that is no `dict` by the name of its type. -/
inductive EngineResult where
  | returnsDict (document : PyDict)
  | returnsOther (typeName : PyStr)
  | raises (e : PyException)

/-- An engine: whether it can be imported, and what it does with its arguments. -/
structure Engine where
  imported : Option PyException
  analyzeReplay : EnginePayload → AnalyzeKwargs → EngineResult

/-- `AnalysisRun`. -/
structure AdapterRun where
  document : PyDict
  telemetry : RunTelemetry

/-- `_assert_cwd`; `cwd` is `none` where `Path.cwd()` raises. -/
def assertCwd (dataDir : PyStr) (cwd : Option PyStr) : Except AdapterRaised Unit :=
  match cwd with
  | none => .error .escaped
  | some current =>
    if current = dataDir then .ok ()
    else .error (.engineFailure ⟨.engineInternalError,
      pyStr "working directory moved from " ++ dataDir ++ pyStr " to " ++ current ++
        pyStr ("; the engine's usage-stats cache is keyed on a relative path and would return " ++
          "stale stats")⟩)

/-- `_load_analyze_replay`. -/
def Engine.load (engine : Engine) : Except AdapterRaised Unit :=
  match engine.imported with
  | none => .ok ()
  | some e =>
    if e.isException then
      .error (engineFailure .engineUnavailable
        (pyStr "battle_engine is not importable in this process: ") e)
    else .error .escaped

/-- `_classify`. -/
def classify (e : PyException) : AdapterRaised :=
  if e.name = pyStr "ReplayAnalysisError" then engineFailure .analysisRejected [] e
  else if e.name = pyStr "ReplayParseError" then engineFailure .analysisParseFailed [] e
  else if e.isException then engineFailure .engineInternalError (e.name ++ pyStr ": ") e
  else engineFailure .engineCrashed (e.name ++ pyStr ": ") e

/-- The call and the check of what it returned. -/
def EngineResult.document : EngineResult → Except AdapterRaised PyDict
  | .returnsDict document => .ok document
  | .returnsOther typeName => .error (.engineFailure ⟨.engineInternalError,
      pyStr "analyze_replay returned " ++ typeName ++ pyStr ", expected dict"⟩)
  | .raises e =>
    match e.cls with
    | .fileNotFoundError => .error (engineFailure .engineDataMissing [] e)
    | .interrupt => .error .escaped
    | .exception | .baseException => .error (classify e)

/-- The run, with the telemetry of its document. -/
def measured (other : OtherValue) (wallMs : Nat) (identity : AnalysisIdentity)
    (document : PyDict) : Except AdapterRaised AdapterRun :=
  match summarize other document wallMs identity.searchBudgetMsPerTurn
      identity.opponentSamples with
  | some telemetry => .ok ⟨document, telemetry⟩
  | none => .error .escaped

/-- `EngineAdapter.analyze`. -/
def analyze (dataDir : PyStr) (cwd : Option PyStr) (engine : Engine) (other : OtherValue)
    (wallMs : Nat) (payload : EnginePayload) (identity : AnalysisIdentity) :
    Except AdapterRaised AdapterRun :=
  (assertCwd dataDir cwd).bind fun _ =>
  engine.load.bind fun _ =>
  (engine.analyzeReplay payload (analyzeKwargs identity)).document.bind
    (measured other wallMs identity)

/-- What `run_once` goes on with; `none` is raised out of it. -/
def outcome? : Except AdapterRaised AdapterRun → Option (Except PyFailure PyRun)
  | .ok run => some (.ok ⟨run.document, run.telemetry.wallMs, run.telemetry.degraded⟩)
  | .error (.engineFailure failure) => some (.error failure)
  | .error .escaped => none

/-! ## What is contained -/

/-- `turns` is falsy, or a collection. -/
def turnsReadable (other : OtherValue) : PyValue → Bool
  | .bool b => !b
  | .int n => n = 0
  | .float m _ => m = 0
  | .nonfinite => false
  | .other => other.truth = some false ||
    other.truth = some true && other.items.isSome && other.len.isSome
  | _ => true

variable {other : OtherValue}

/-- **`summarize` returns exactly where `turns` can be read**; its entries are never in the way. -/
theorem summarize_isSome_iff (document : PyDict) (wallMs : Nat) (budget samples : Int) :
    (summarize other document wallMs budget samples).isSome = true ↔
      turnsReadable other (fieldOrNone document.fields "turns") = true := by
  unfold summarize
  cases hv : fieldOrNone document.fields "turns" with
  | none => simp [PyValue.truth, PyValue.items, PyValue.len, turnsReadable]
  | bool b => cases b <;> simp [PyValue.truth, PyValue.items, PyValue.len, turnsReadable]
  | int n => by_cases h : n = 0 <;> simp [PyValue.truth, PyValue.items, PyValue.len,
      turnsReadable, h]
  | float m e => by_cases h : m = 0 <;> simp [PyValue.truth, PyValue.items, PyValue.len,
      turnsReadable, h]
  | nonfinite => simp [PyValue.truth, PyValue.items, turnsReadable]
  | str s => cases s <;> simp [PyValue.truth, PyValue.items, PyValue.len, turnsReadable]
  | list xs => cases xs <;> simp [PyValue.truth, PyValue.items, PyValue.len, turnsReadable]
  | dict fs => cases fs <;> simp [PyValue.truth, PyValue.items, PyValue.len, turnsReadable]
  | other =>
    cases ht : other.truth with
    | none => simp [PyValue.truth, turnsReadable, ht]
    | some t =>
      cases t with
      | false => simp [PyValue.truth, PyValue.items, PyValue.len, turnsReadable, ht]
      | true =>
        cases hi : other.items <;> cases hl : other.len <;>
          simp [PyValue.truth, PyValue.items, PyValue.len, turnsReadable, ht, hi, hl]

/-- Nothing but an `EngineFailure` leaves the stage. -/
def Contains {α : Type} (r : Except AdapterRaised α) : Prop := r ≠ .error .escaped

@[simp] theorem contains_ok {α : Type} (a : α) : Contains (.ok a) := fun h => nomatch h

@[simp] theorem contains_engineFailure {α : Type} (failure : PyFailure) :
    Contains (.error (.engineFailure failure) : Except AdapterRaised α) := fun h => nomatch h

@[simp] theorem contains_escaped {α : Type} :
    ¬Contains (.error .escaped : Except AdapterRaised α) := fun h => h rfl

/-- Stages in a row are contained when each is, on what it gets. -/
theorem contains_bind {α β : Type} {r : Except AdapterRaised α}
    {f : α → Except AdapterRaised β} :
    Contains (r.bind f) ↔ Contains r ∧ ∀ a, r = .ok a → Contains (f a) := by
  cases r with
  | ok a => simp [Except.bind]
  | error e => simp [Except.bind, Contains]

/-- A check before the rest. -/
theorem contains_check {α : Type} {r : Except AdapterRaised Unit} {rest : Except AdapterRaised α} :
    Contains (r.bind fun _ => rest) ↔ Contains r ∧ (r = .ok () → Contains rest) := by
  rw [contains_bind]
  exact and_congr_right fun _ => ⟨fun h => h (), fun h _ => h⟩

theorem outcome?_isSome_iff (r : Except AdapterRaised AdapterRun) :
    (outcome? r).isSome = true ↔ Contains r := by
  cases r with
  | ok run => simp [outcome?]
  | error raised =>
    cases raised with
    | engineFailure failure => simp [outcome?]
    | escaped => simp [outcome?]

/-- The text is asked for wherever an exception becomes a failure. -/
theorem contains_error_engineFailure {α : Type} (kind : ErrorKind) (before : PyStr)
    (e : PyException) :
    Contains (.error (engineFailure kind before e) : Except AdapterRaised α) ↔
      e.text.isSome = true := by
  unfold engineFailure
  cases e.text <;> simp

/-- So for every branch of `_classify`. -/
theorem contains_classify {α : Type} (e : PyException) :
    Contains (.error (classify e) : Except AdapterRaised α) ↔ e.text.isSome = true := by
  unfold classify
  split
  · exact contains_error_engineFailure ..
  split
  · exact contains_error_engineFailure ..
  split <;> exact contains_error_engineFailure ..

theorem contains_assertCwd (dataDir : PyStr) (cwd : Option PyStr) :
    Contains (assertCwd dataDir cwd) ↔ cwd.isSome = true := by
  cases cwd with
  | none => simp [assertCwd]
  | some current => by_cases h : current = dataDir <;> simp [assertCwd, h]

theorem assertCwd_ok_iff {dataDir : PyStr} {cwd : Option PyStr} :
    assertCwd dataDir cwd = .ok () ↔ cwd = some dataDir := by
  cases cwd with
  | none => simp [assertCwd]
  | some current => simp [assertCwd]

theorem contains_load (engine : Engine) :
    Contains engine.load ↔
      ∀ e, engine.imported = some e → e.isException = true ∧ e.text.isSome = true := by
  unfold Engine.load
  cases engine.imported with
  | none => simp
  | some e => cases he : e.isException <;> simp [he, contains_error_engineFailure]

theorem Engine.load_ok_iff {engine : Engine} :
    engine.load = .ok () ↔ engine.imported = none := by
  unfold Engine.load
  cases engine.imported with
  | none => simp
  | some e => cases he : e.isException <;> simp [he]

theorem contains_document {result : EngineResult}
    (hexit : ∀ e, result = .raises e → e.cls ≠ .interrupt) :
    Contains result.document ↔ ∀ e, result = .raises e → e.text.isSome = true := by
  cases result with
  | returnsDict document => simp [EngineResult.document]
  | returnsOther typeName => simp [EngineResult.document]
  | raises e =>
    have hcls := hexit e rfl
    cases hc : e.cls with
    | interrupt => exact absurd hc hcls
    | fileNotFoundError =>
      simp [EngineResult.document, hc, contains_error_engineFailure]
    | exception => simp [EngineResult.document, hc, contains_classify]
    | baseException => simp [EngineResult.document, hc, contains_classify]

theorem EngineResult.document_ok_iff {result : EngineResult} {d : PyDict} :
    result.document = .ok d ↔ result = .returnsDict d := by
  cases result with
  | returnsDict document => simp [EngineResult.document]
  | returnsOther typeName => simp [EngineResult.document]
  | raises e => cases hc : e.cls <;> simp [EngineResult.document, hc]

theorem contains_measured {wallMs : Nat} {identity : AnalysisIdentity} {document : PyDict} :
    Contains (measured other wallMs identity document) ↔
      turnsReadable other (fieldOrNone document.fields "turns") = true := by
  rw [← summarize_isSome_iff document wallMs identity.searchBudgetMsPerTurn
    identity.opponentSamples]
  unfold measured
  cases summarize other document wallMs identity.searchBudgetMsPerTurn
    identity.opponentSamples <;> simp

/-- The engine's behaviour on these arguments as the adapter can take it: an import fails with an
`Exception`, what is raised has a text, and the document's `turns` can be read. -/
structure Containable (engine : Engine) (other : OtherValue) (payload : EnginePayload)
    (identity : AnalysisIdentity) : Prop where
  imported : ∀ e, engine.imported = some e → e.isException = true ∧ e.text.isSome = true
  raised : engine.imported = none → ∀ e,
    engine.analyzeReplay payload (analyzeKwargs identity) = .raises e → e.text.isSome = true
  returned : engine.imported = none → ∀ d,
    engine.analyzeReplay payload (analyzeKwargs identity) = .returnsDict d →
      turnsReadable other (fieldOrNone d.fields "turns") = true

variable {dataDir : PyStr} {cwd : Option PyStr} {engine : Engine} {wallMs : Nat}
  {payload : EnginePayload} {identity : AnalysisIdentity}

/-- The stages behind the check of the working directory. -/
theorem contains_run
    (hexit : ∀ e, engine.analyzeReplay payload (analyzeKwargs identity) = .raises e →
      e.cls ≠ .interrupt) :
    Contains (engine.load.bind fun _ =>
        (engine.analyzeReplay payload (analyzeKwargs identity)).document.bind
          (measured other wallMs identity)) ↔
      Containable engine other payload identity := by
  rw [contains_check, contains_load, contains_bind, contains_document hexit, Engine.load_ok_iff]
  simp only [EngineResult.document_ok_iff, contains_measured]
  constructor
  · rintro ⟨himported, hrest⟩
    exact ⟨himported, fun h => (hrest h).1, fun h => (hrest h).2⟩
  · intro h
    exact ⟨h.imported, fun hi => ⟨h.raised hi, h.returned hi⟩⟩

/-- **The adapter contains an engine exactly where its import fails with an `Exception`, what it
raises has a text, and the `turns` of what it returns can be read.** An engine that is not run, the
process being in another directory, is contained whatever it does. -/
theorem analyze_contained_iff
    (hexit : ∀ e, engine.analyzeReplay payload (analyzeKwargs identity) = .raises e →
      e.cls ≠ .interrupt) :
    ((outcome? (analyze dataDir cwd engine other wallMs payload identity)).isSome = true ↔
      cwd.isSome = true ∧ (cwd = some dataDir → Containable engine other payload identity)) ∧
    ∀ (document : PyDict) (elapsed : Nat) (budget samples : Int),
      (summarize other document elapsed budget samples).isSome = true ↔
        turnsReadable other (fieldOrNone document.fields "turns") = true := by
  refine ⟨?_, summarize_isSome_iff⟩
  rw [outcome?_isSome_iff, analyze, contains_check, contains_assertCwd, assertCwd_ok_iff,
    contains_run hexit]

namespace Sample

def enginePayload : EnginePayload :=
  { id := "gen9ou-1", formatid := "gen9ou", rating := some 1500, players := .arr [], log := "|" }

def engineIdentity : AnalysisIdentity :=
  { replayId := "gen9ou-1", perspective := .p1, searchBudgetMsPerTurn := 200, opponentSamples := 2
    threads := 1, usageStatsCutoff := 1500, usageStatsDataset := "2026-07"
    pokeEngineTag := "v1", seed := 7 }

/-- An engine that always does the same. -/
def engineDoing (result : EngineResult) : Engine :=
  { imported := none, analyzeReplay := fun _ _ => result }

/-- A document with these `turns`. -/
def documentOf (turns : PyValue) : PyDict :=
  { fields := [(.str (pyStr "turns"), turns)]
    distinct := by
      show [pyStr "turns"].Nodup
      decide }

/-- A value with neither items nor a length. -/
def plainObject : OtherValue := { truth := some true, items := none, len := none }

/-- A panic out of the extension. -/
def panicException : PyException :=
  { cls := .baseException, name := pyStr "PanicException", text := some (pyStr "index") }

end Sample

theorem analyze_contained_panic :
    (outcome? (analyze [] (some []) (Sample.engineDoing (.raises Sample.panicException))
      Sample.plainObject 0 Sample.enginePayload Sample.engineIdentity)).isSome = true := by
  have hexit : ∀ e, EngineResult.raises Sample.panicException = .raises e →
      e.cls ≠ .interrupt := by
    rintro e ⟨⟩
    decide
  refine (analyze_contained_iff hexit).1.mpr ⟨rfl, fun _ => ⟨?_, ?_, ?_⟩⟩
  · rintro e ⟨⟩
  · rintro - e ⟨⟩
    rfl
  · rintro - d ⟨⟩

/-- A document whose `turns` is a number: `summarize` raises, and so does the adapter. -/
theorem turns_five_escapes :
    summarize Sample.plainObject (Sample.documentOf (.int 5)) 0 200 2 = none ∧
    outcome? (analyze [] (some [])
      (Sample.engineDoing (.returnsDict (Sample.documentOf (.int 5)))) Sample.plainObject 0
      Sample.enginePayload Sample.engineIdentity) = none := by
  constructor <;> rfl

/-! ## What the failures say -/

/-- The kinds of this tier. -/
def engineKinds : List ErrorKind :=
  [.engineUnavailable, .engineDataMissing, .analysisRejected, .analysisParseFailed,
    .engineCrashed, .engineInternalError]

/-- A failure that left the stage is of this tier. -/
def OfTier {α : Type} (r : Except AdapterRaised α) : Prop :=
  ∀ failure, r = .error (.engineFailure failure) → failure.kind ∈ engineKinds

theorem ofTier_bind {α β : Type} {r : Except AdapterRaised α} {f : α → Except AdapterRaised β}
    (hr : OfTier r) (hf : ∀ a, OfTier (f a)) : OfTier (r.bind f) := by
  cases r with
  | ok a => exact hf a
  | error e =>
    rintro failure ⟨⟩
    exact hr failure rfl

theorem ofTier_engineFailure {α : Type} {kind : ErrorKind} (h : kind ∈ engineKinds)
    (before : PyStr) (e : PyException) :
    OfTier (.error (engineFailure kind before e) : Except AdapterRaised α) := by
  intro failure hf
  unfold engineFailure at hf
  cases ht : e.text with
  | none => simp [ht] at hf
  | some text =>
    simp only [ht, Except.error.injEq, AdapterRaised.engineFailure.injEq] at hf
    rw [← hf]
    exact h

theorem ofTier_classify {α : Type} (e : PyException) :
    OfTier (.error (classify e) : Except AdapterRaised α) := by
  unfold classify
  split
  · exact ofTier_engineFailure (by decide) _ _
  split
  · exact ofTier_engineFailure (by decide) _ _
  split <;> exact ofTier_engineFailure (by decide) _ _

theorem ofTier_assertCwd (dataDir : PyStr) (cwd : Option PyStr) :
    OfTier (assertCwd dataDir cwd) := by
  intro failure hf
  unfold assertCwd at hf
  split at hf
  · cases hf
  · split at hf
    · cases hf
    · cases hf
      simp [engineKinds]

theorem ofTier_load (engine : Engine) : OfTier engine.load := by
  unfold Engine.load
  split
  · rintro failure ⟨⟩
  · split
    · exact ofTier_engineFailure (by decide) _ _
    · rintro failure ⟨⟩

theorem ofTier_measured (document : PyDict) : OfTier (measured other wallMs identity document) := by
  intro failure hf
  unfold measured at hf
  split at hf <;> cases hf

theorem ofTier_document (result : EngineResult) : OfTier result.document := by
  cases result with
  | returnsDict document => rintro failure ⟨⟩
  | returnsOther typeName =>
    rintro failure ⟨⟩
    simp [engineKinds]
  | raises e =>
    simp only [EngineResult.document]
    cases e.cls with
    | fileNotFoundError => exact ofTier_engineFailure (by decide) _ _
    | interrupt => rintro failure ⟨⟩
    | exception => exact ofTier_classify e
    | baseException => exact ofTier_classify e

/-- **Every failure the adapter raises is of a kind of this tier.** -/
theorem analyze_kind {failure : PyFailure}
    (h : analyze dataDir cwd engine other wallMs payload identity =
      .error (.engineFailure failure)) : failure.kind ∈ engineKinds := by
  exact ofTier_bind (ofTier_assertCwd _ _) (fun _ => ofTier_bind (ofTier_load _) fun _ =>
    ofTier_bind (ofTier_document _) ofTier_measured) failure h

end BattleCloud
