import BattleCloud.Contract.Js
import BattleCloud.Db.Invariant

/-!
# What the engine returns, and what the worker binds of it

`worker/battle_cloud_worker/queue.py`: `_report_success` and `_report_failure` on the Python
values they are given. The document of a run is any `dict`, the detail of a failure any `str`:
neither is looked at before it is bound. A subclass of a built-in type is dumped as the type.

`json.dumps` writes a `str` as UTF-16 escapes and a float that is not finite as a token that is no
JSON, and raises for a value or key it does not know; `jsonb` refuses such a token, U+0000 and a
surrogate without its partner. What is left of the dict is `PyValue.toJsonb`, and `storable` says
of the dict itself when there is something. The two counts are bound as they stand in the dict.

Whatever is refused on the way (by `json.dumps`, by the driver or by the column) is raised out of
the report, which is `.badValue` here. `storeAnalysis` is the transaction on the row proposed.
-/

namespace BattleCloud

/-! ## Strings -/

/-- A `str`: code points, surrogates among them. -/
abbrev PyStr := List (Fin 0x110000)

/-- A string of the source. -/
def pyStr (s : String) : PyStr := s.toList.map fun c => Fin.ofNat 0x110000 c.toNat

namespace PyStr

def isSurrogate (c : Fin 0x110000) : Bool := 0xD800 ≤ c.val && c.val < 0xE000

/-- The characters of a string; `none` is where `.encode('utf-8')` raises. -/
def chars? : PyStr → Option (List Char)
  | [] => some []
  | c :: cs =>
    if isSurrogate c then none else (chars? cs).map (Char.ofNat c.val :: ·)

/-- A string bound to a `text` column. -/
def param (s : PyStr) : Except DbError String :=
  match s.chars? with
  | some cs => pgText (String.ofList cs)
  | none => .error .badValue

/-- The units `json.dumps` escapes. -/
def units (s : PyStr) : JsString := s.flatMap fun c => Utf16.encodePoint c.val

end PyStr

/-! ## Values -/

/-- The text of a key that is no string: a constant or a number. -/
def isScalarText (s : PyStr) : Bool :=
  [pyStr "null", pyStr "true", pyStr "false", pyStr "NaN", pyStr "Infinity",
    pyStr "-Infinity"].contains s ||
    (!s.isEmpty && s.all fun c => (pyStr "+-.0123456789e").contains c)

inductive PyKey where
  | str (s : PyStr)
  /-- `None`, a `bool` or a number, by the text `json.dumps` writes for it. -/
  | scalar (text : { s : PyStr // isScalarText s = true })
  /-- A key `json.dumps` raises for. -/
  | other
  deriving DecidableEq

inductive PyValue where
  | none
  | bool (b : Bool)
  | int (n : Int)
  /-- A finite `float`, by the decimal `m / 10 ^ e` its `repr` is. -/
  | float (m : Int) (e : Nat)
  /-- `nan`, `inf` or `-inf`. -/
  | nonfinite
  | str (s : PyStr)
  /-- A `list` or a `tuple`. -/
  | list (xs : List PyValue)
  | dict (fields : List (PyKey × PyValue))
  /-- A value `json.dumps` raises for: of another type, in itself, or nested too deep. -/
  | other

/-- The key, if it is a string. -/
def PyKey.str? : PyKey → Option PyStr
  | .str s => some s
  | _ => none

/-- A `dict`, in the order of its keys. -/
structure PyDict where
  fields : List (PyKey × PyValue)
  distinct : (fields.filterMap fun f => f.1.str?).Nodup

/-- `doc.get(key, 0)`. -/
def PyDict.getOrZero (d : PyDict) (key : String) : PyValue :=
  ((d.fields.find? fun f => f.1 = .str (pyStr key)).map Prod.snd).getD (.int 0)

/-! ## `json.dumps` into `jsonb` -/

namespace PyKey

def storable : PyKey → Bool
  | .str s => s.units.storable
  | .scalar _ => true
  | .other => false

/-- The key in the `jsonb` value. -/
def text? : PyKey → Option String
  | .str s => s.units.toJsonb
  | .scalar s => some s.val.units.text
  | .other => .none

end PyKey

/-- The fields `jsonb` keeps: of equal keys the last. -/
def lastOfEach : List (String × Json) → List (String × Json)
  | [] => []
  | f :: fs => if fs.any fun g => g.1 = f.1 then lastOfEach fs else f :: lastOfEach fs

mutual

/-- Nothing in the value is refused on its way into a `jsonb` column. -/
def PyValue.storable : PyValue → Bool
  | .none => true
  | .bool _ => true
  -- `int` to text raises past 4300 digits
  | .int n => n.natAbs < 10 ^ 4300
  | .float _ _ => true
  | .nonfinite => false
  | .str s => s.units.storable
  | .list xs => PyValue.storableAll xs
  | .dict fields => PyValue.storableFields fields
  | .other => false

def PyValue.storableAll : List PyValue → Bool
  | [] => true
  | x :: xs => x.storable && PyValue.storableAll xs

def PyValue.storableFields : List (PyKey × PyValue) → Bool
  | [] => true
  | (k, v) :: fs => k.storable && v.storable && PyValue.storableFields fs

end

mutual

/-- `json.dumps(value)` as a `jsonb` value; `none` is where something raises. -/
def PyValue.toJsonb : PyValue → Option Json
  | .none => some .null
  | .bool b => some (.bool b)
  | .int n => if n.natAbs < 10 ^ 4300 then some (.num n 0) else .none
  | .float m e => some (.num m e)
  | .nonfinite => .none
  | .str s => s.units.toJsonb.map .str
  | .list xs => (PyValue.toJsonbAll xs).map .arr
  | .dict fields => (PyValue.toJsonbFields fields).map fun fs => .obj (lastOfEach fs)
  | .other => .none

def PyValue.toJsonbAll : List PyValue → Option (List Json)
  | [] => some []
  | x :: xs => x.toJsonb.bind fun j => (PyValue.toJsonbAll xs).map (j :: ·)

def PyValue.toJsonbFields : List (PyKey × PyValue) → Option (List (String × Json))
  | [] => some []
  | (k, v) :: fs => k.text?.bind fun key => v.toJsonb.bind fun j =>
    (PyValue.toJsonbFields fs).map ((key, j) :: ·)

end

/-- `%(document)s`, a `jsonb` column. -/
def PyDict.jsonb (d : PyDict) : Except DbError Json :=
  match (PyValue.dict d.fields).toJsonb with
  | some j => .ok j
  | none => .error .badValue

/-- A value bound to an `integer` column: the driver dumps a `bool` as a boolean, a `str` as an
untyped literal, `None` as null, and a `dict` not at all. -/
def PyValue.integer : PyValue → Except DbError Int
  | .int n => int4 n
  | .float m e => int4 (roundHalfEven m (10 ^ e))
  | .str s => match s.chars?.bind fun cs => readInteger (String.ofList cs) with
    | some n => int4 n
    | .none => .error .badValue
  | _ => .error .badValue

/-! ## The reports -/

/-- An `AnalysisRun`: its document and what is stored of its telemetry. -/
structure PyRun where
  document : PyDict
  wallMs : Nat
  degraded : Bool

/-- An `EngineFailure`. -/
structure PyFailure where
  kind : ErrorKind
  detail : PyStr

/-- The row the `INSERT` of `_report_success` proposes. -/
def PyRun.proposed (job : ClaimedJob) (run : PyRun) (newId : Uuid) (now : Timestamptz) :
    Except DbError AnalysisRow :=
  (IdentityColumns.ofBindings (insertBindings job)).bind fun columns =>
  run.document.jsonb.bind fun document =>
  (run.document.getOrZero "totalTurns").integer.bind fun totalTurns =>
  (run.document.getOrZero "gradableTurns").integer.bind fun gradableTurns =>
  (int4 run.wallMs).bind fun wallMs =>
  .ok { id := newId, columns, document, totalTurns, gradableTurns, wallMs,
        degraded := run.degraded, createdAt := now }

/-- The transaction of `_report_success` on the proposed row; `none` is the `psycopg.Rollback`. -/
def storeAnalysis (db : Db) (workerId : String) (jobId : Uuid) (now : Timestamptz)
    (proposed : AnalysisRow) : Except DbError (Option (Db × AnalysisRow)) :=
  proposed.check.bind fun _ =>
  (db.putAnalysis (written db proposed)).commit.bind fun db' =>
  ((JobUpdate.complete jobId workerId (written db proposed).id now).run db').map fun c =>
    if c.2.isEmpty then none else some (c.1, written db proposed)

/-- `_report_success`. -/
def PyRun.report (db : Db) (workerId : String) (job : ClaimedJob) (run : PyRun) (newId : Uuid)
    (now : Timestamptz) : Except DbError (Option (Db × AnalysisRow)) :=
  (run.proposed job newId now).bind (storeAnalysis db workerId job.id now)

/-- `_report_failure`. -/
def PyFailure.report (db : Db) (workerId : String) (jobId : Uuid) (maxAttempts : Nat)
    (failure : PyFailure) (now : Timestamptz) : Except DbError (Db × List JobRow) :=
  (PyStr.param (failure.detail.take 2000)).bind fun detail =>
  (JobUpdate.fail jobId workerId (retryableKinds.contains failure.kind) maxAttempts failure.kind
    detail now).run db

/-- `run_once` once the engine has answered; `lostSeen` is what `hb.lost.is_set()` said. -/
def conclude (db : Db) (workerId : String) (maxAttempts : Nat) (job : ClaimedJob) (lostSeen : Bool)
    (outcome : Except PyFailure PyRun) (newId : Uuid) (now : Timestamptz) : Except DbError Db :=
  match outcome with
  | .error failure => (failure.report db workerId job.id maxAttempts now).map Prod.fst
  | .ok run =>
    if lostSeen then .ok db
    else (run.report db workerId job newId now).map fun r => (r.map Prod.fst).getD db

/-! ## What is accepted -/

theorem PyKey.text?_isSome (k : PyKey) : k.text?.isSome = k.storable := by
  cases k with
  | str s => exact s.units.toJsonb_isSome
  | scalar text => rfl
  | other => rfl

mutual

/-- **A value gets into the column exactly if it is storable.** -/
theorem PyValue.toJsonb_isSome : ∀ v : PyValue, v.toJsonb.isSome = v.storable
  | .none => rfl
  | .bool _ => rfl
  | .int n => by
    rw [PyValue.toJsonb, PyValue.storable]
    by_cases h : n.natAbs < 10 ^ 4300
    · rw [if_pos h, decide_eq_true h]
      rfl
    · rw [if_neg h, decide_eq_false h]
      rfl
  | .float _ _ => rfl
  | .nonfinite => rfl
  | .str s => by rw [PyValue.toJsonb, Option.isSome_map, JsString.toJsonb_isSome, PyValue.storable]
  | .list xs => by
    rw [PyValue.toJsonb, Option.isSome_map, PyValue.toJsonbAll_isSome xs, PyValue.storable]
  | .dict fields => by
    rw [PyValue.toJsonb, Option.isSome_map, PyValue.toJsonbFields_isSome fields, PyValue.storable]
  | .other => rfl

theorem PyValue.toJsonbAll_isSome :
    ∀ xs : List PyValue, (PyValue.toJsonbAll xs).isSome = PyValue.storableAll xs
  | [] => rfl
  | x :: xs => by
    rw [PyValue.toJsonbAll, isSome_bind_map, PyValue.toJsonb_isSome x,
      PyValue.toJsonbAll_isSome xs, PyValue.storableAll]

theorem PyValue.toJsonbFields_isSome : ∀ fs : List (PyKey × PyValue),
    (PyValue.toJsonbFields fs).isSome = PyValue.storableFields fs
  | [] => rfl
  | (k, v) :: fs => by
    have hv := PyValue.toJsonb_isSome v
    have hfs := PyValue.toJsonbFields_isSome fs
    have hk := k.text?_isSome
    rw [PyValue.toJsonbFields, PyValue.storableFields, ← hv, ← hfs, ← hk]
    cases k.text? with
    | none => rfl
    | some key => exact isSome_bind_map v.toJsonb _ fun j js => (key, j) :: js

end

theorem PyDict.jsonb_ok_iff {d : PyDict} :
    (∃ j, d.jsonb = .ok j) ↔ (PyValue.dict d.fields).storable = true := by
  rw [← PyValue.toJsonb_isSome]
  unfold PyDict.jsonb
  cases (PyValue.dict d.fields).toJsonb <;> simp

/-- A code point of a string a `text` column takes. -/
def PyStr.Textual (c : Fin 0x110000) : Prop := c ≠ 0 ∧ PyStr.isSurrogate c = false

theorem PyStr.not_surrogate {c : Fin 0x110000} (h : PyStr.isSurrogate c = false) :
    c.val < 0xD800 ∨ 0xE000 ≤ c.val := by
  unfold PyStr.isSurrogate at h
  rw [Bool.and_eq_false_iff, decide_eq_false_iff_not, decide_eq_false_iff_not] at h
  omega

theorem PyStr.toNat_ofNat {c : Fin 0x110000} (h : PyStr.isSurrogate c = false) :
    (Char.ofNat c.val).toNat = c.val := by
  refine Utf16.toNat_ofNat ?_
  rcases PyStr.not_surrogate h with h | h
  · exact Or.inl h
  · exact Or.inr ⟨h, c.isLt⟩

theorem PyStr.chars?_cons {c : Fin 0x110000} (h : PyStr.isSurrogate c = false) (s : PyStr) :
    PyStr.chars? (c :: s) = s.chars?.map (Char.ofNat c.val :: ·) := by
  rw [PyStr.chars?, h]
  rfl

theorem PyStr.chars?_some_iff {s : PyStr} :
    (∃ cs, s.chars? = some cs ∧ '\x00' ∉ cs) ↔ ∀ c ∈ s, PyStr.Textual c := by
  induction s with
  | nil => simp [PyStr.chars?]
  | cons c s ih =>
    rw [List.forall_mem_cons, ← ih]
    cases hc : PyStr.isSurrogate c with
    | true => simp [PyStr.chars?, PyStr.Textual, hc]
    | false =>
      have hzero : '\x00' = Char.ofNat c.val ↔ c = 0 := by
        rw [← Char.toNat_inj, PyStr.toNat_ofNat hc, eq_comm, Fin.ext_iff]
        rfl
      rw [PyStr.chars?_cons hc]
      constructor
      · rintro ⟨_, h, hno⟩
        obtain ⟨cs, hcs, rfl⟩ := Option.map_eq_some_iff.mp h
        rw [List.mem_cons, not_or, hzero] at hno
        exact ⟨⟨hno.1, hc⟩, cs, hcs, hno.2⟩
      · rintro ⟨⟨hne, -⟩, cs, hcs, hno⟩
        refine ⟨_, Option.map_eq_some_iff.mpr ⟨cs, hcs, rfl⟩, ?_⟩
        rw [List.mem_cons, not_or, hzero]
        exact ⟨hne, hno⟩

/-- **A string is bound to a `text` column exactly if it is UTF-8 without U+0000.** -/
theorem PyStr.param_ok_iff {s : PyStr} : (∃ t, s.param = .ok t) ↔ ∀ c ∈ s, PyStr.Textual c := by
  rw [← PyStr.chars?_some_iff]
  unfold PyStr.param pgText nulFree
  cases s.chars? with
  | none => simp
  | some cs => by_cases h : '\x00' ∈ cs <;> simp [h]

/-! ## Outcomes that are recorded -/

/-- What the tables ask of a run: a document `jsonb` takes, two counts that `integer` columns take
and that are not negative, and a time in 32 bits. -/
structure PyRun.Recordable (run : PyRun) : Prop where
  document : (PyValue.dict run.document.fields).storable = true
  totalTurns : ∃ n, (run.document.getOrZero "totalTurns").integer = .ok n ∧ 0 ≤ n
  gradableTurns : ∃ n, (run.document.getOrZero "gradableTurns").integer = .ok n ∧ 0 ≤ n
  wallMs : run.wallMs < 2147483648

/-- What they ask of a failure: UTF-8 without U+0000 in what is kept of its detail. -/
def PyFailure.Recordable (f : PyFailure) : Prop := ∀ c ∈ f.detail.take 2000, PyStr.Textual c

/-- An outcome of `adapter.analyze` the worker can report. -/
def Recordable : Except PyFailure PyRun → Prop
  | .ok run => run.Recordable
  | .error failure => failure.Recordable

/-- **A run is recordable exactly if it proposes a row that meets the `CHECK`s**, for a job whose
identity is bound and checked. -/
theorem PyRun.recordable_iff {job : ClaimedJob} {run : PyRun}
    (hb : IdentityColumns.ofBindings (insertBindings job) = .ok job.columns)
    (hc : job.columns.Checks) (newId : Uuid) (now : Timestamptz) :
    (∃ p, run.proposed job newId now = .ok p ∧ p.check = .ok ()) ↔ run.Recordable := by
  have hwall : (∃ m, int4 run.wallMs = .ok m) ↔ run.wallMs < 2147483648 := by
    rw [int4_ok_iff]
    omega
  constructor
  · rintro ⟨p, hp, hcheck⟩
    unfold PyRun.proposed at hp
    obtain ⟨columns, -, hp⟩ := except_bind_ok.mp hp
    obtain ⟨document, hd, hp⟩ := except_bind_ok.mp hp
    obtain ⟨t, ht, hp⟩ := except_bind_ok.mp hp
    obtain ⟨g, hg, hp⟩ := except_bind_ok.mp hp
    obtain ⟨w, hw, hp⟩ := except_bind_ok.mp hp
    obtain rfl := Except.ok.inj hp
    obtain ⟨-, ht₀, hg₀, -⟩ := AnalysisRow.check_ok.mp hcheck
    exact ⟨PyDict.jsonb_ok_iff.mp ⟨_, hd⟩, ⟨t, ht, ht₀⟩, ⟨g, hg, hg₀⟩, hwall.mp ⟨w, hw⟩⟩
  · rintro ⟨hdoc, ⟨t, ht, ht₀⟩, ⟨g, hg, hg₀⟩, hw⟩
    obtain ⟨document, hd⟩ := PyDict.jsonb_ok_iff.mpr hdoc
    obtain ⟨w, hw⟩ := hwall.mpr hw
    refine ⟨_, except_bind_ok.mpr ⟨_, hb, except_bind_ok.mpr ⟨_, hd, except_bind_ok.mpr ⟨_, ht,
      except_bind_ok.mpr ⟨_, hg, except_bind_ok.mpr ⟨_, hw, rfl⟩⟩⟩⟩⟩, ?_⟩
    rw [int4_ok hw]
    exact AnalysisRow.check_ok.mpr ⟨hc, ht₀, hg₀, Int.natCast_nonneg _⟩

theorem PyRun.proposed_ok {job : ClaimedJob} {run : PyRun} {newId : Uuid} {now : Timestamptz}
    {p : AnalysisRow} (h : run.proposed job newId now = .ok p) :
    p.id = newId ∧ p.columns = job.columns := by
  unfold PyRun.proposed at h
  obtain ⟨c, hc, h⟩ := except_bind_ok.mp h
  obtain ⟨_, _, h⟩ := except_bind_ok.mp h
  obtain ⟨_, _, h⟩ := except_bind_ok.mp h
  obtain ⟨_, _, h⟩ := except_bind_ok.mp h
  obtain ⟨_, _, h⟩ := except_bind_ok.mp h
  obtain rfl := Except.ok.inj h
  exact ⟨rfl, @ofBindings_ok _ job.identity _ hc rfl rfl rfl rfl rfl rfl rfl rfl rfl⟩

/-! ## The statements of a report -/

section Statements

variable {db : Db} (workerId : String) (now : Timestamptz)

theorem fail_valid (hv : db.Valid) (hq : QueueInv db) (job : Uuid) (r : Bool) (m : Nat)
    (k : ErrorKind) (d : String) : ((JobUpdate.fail job workerId r m k d now).apply db).Valid := by
  exact hv.apply hq (JobUpdate.next_of_sel rfl) fun j hj _ => hv .jobsAnalysisIdFkey j hj

/-- **A recordable failure is reported.** -/
theorem PyFailure.report_ok (hv : db.Valid) (hq : QueueInv db) {f : PyFailure} (h : f.Recordable)
    (job : Uuid) (m : Nat) :
    ∃ d rows, f.report db workerId job m now =
      .ok ((JobUpdate.fail job workerId (retryableKinds.contains f.kind) m f.kind d now).apply db,
        rows) := by
  obtain ⟨d, hd⟩ := PyStr.param_ok_iff.mpr h
  exact ⟨d, _, except_bind_ok.mpr ⟨d, hd, JobUpdate.run_eq (fail_valid _ _ hv hq _ _ _ _ _)⟩⟩

theorem PyRun.report_eq {job : ClaimedJob} {run : PyRun} {newId : Uuid} {p : AnalysisRow}
    (h : run.proposed job newId now = .ok p) :
    run.report db workerId job newId now = storeAnalysis db workerId job.id now p := by
  unfold PyRun.report
  rw [h]
  rfl

/-- **The transaction of a report** on a row that meets the `CHECK`s: it is rolled back, or the
job is completed with the row written. -/
theorem storeAnalysis_ok (hv : db.Valid) (hq : QueueInv db) {p : AnalysisRow}
    (hp : p.check = .ok ()) (hr : ∃ r ∈ db.replays, r.id = p.columns.replayId)
    (hid : ∀ a ∈ db.analyses, a.id ≠ p.id) (job : Uuid) :
    (storeAnalysis db workerId job now p = .ok none ∧
      ∀ j ∈ db.jobs, j.ownedBy job workerId = false) ∨
    (storeAnalysis db workerId job now p =
        .ok (some ((JobUpdate.complete job workerId (written db p).id now).apply
          (db.putAnalysis (written db p)), written db p)) ∧
      ∃ j ∈ db.jobs, j.ownedBy job workerId = true) := by
  have hput := hv.putAnalysis hp hr hid
  have hstored : ∀ j ∈ db.jobs,
      (j.complete (written db p).id now).AnalysisStored (db.putAnalysis (written db p)) := by
    intro j _
    unfold JobRow.AnalysisStored
    exact List.any_eq_true.mpr ⟨written db p, Table.mem_put_self, decide_eq_true rfl⟩
  have hcomplete := hput.apply (hq.putAnalysis (written db p))
    (u := .complete job workerId (written db p).id now) (JobUpdate.next_of_sel rfl)
    fun j hj _ => hstored j hj
  unfold storeAnalysis
  rw [hp, Db.commit_ok.mpr ⟨hput, rfl⟩]
  simp only [Except.bind, JobUpdate.run_eq hcomplete, Except.map]
  by_cases ho : ∀ j ∈ db.jobs, j.ownedBy job workerId = false
  · refine Or.inl ⟨?_, ho⟩
    rw [if_pos]
    exact List.isEmpty_iff.mpr (Table.returning_eq_nil.mpr ho)
  · refine Or.inr ⟨?_, by simpa using ho⟩
    rw [if_neg]
    rw [List.isEmpty_iff, Table.returning_eq_nil]
    exact ho

end Statements

end BattleCloud
