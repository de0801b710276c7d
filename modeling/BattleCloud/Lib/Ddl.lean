import BattleCloud.Lib.Table
import Mathlib.Data.Finset.Dedup
import Mathlib.Data.Finset.Union
import Mathlib.Logic.Function.Basic

/-!
# Data definition

Tables whose definition changes under their rows: columns are added and dropped, unique
constraints and partial indexes taken away and built again. A statement changes the definition
(`define`), then the rows (`fill`), and is refused where one of them breaks what it adds
(`Admits`). The three do not look at each other, so a script can be run on the definition alone
(`run_eq_some`).

Names are of any type. A row gives a value for every name, `null` where there is no such column.
Indexes are a set, so that a script that drops one and builds it again restores the schema.

* `Index.admits_map`: an index does not see a column outside it.
* `Index.Admits.mono`: a unique index with more columns asks for less.
* `Index.admits_iff`: one column less is still unique exactly if no two rows differ in it alone.
-/

namespace Ddl

/-! ## Rows and conditions -/

/-- The value of a column. One of an enumeration is its label. -/
inductive Value where
  | null
  | text (s : String)
  | integer (n : Int)
  | boolean (b : Bool)
  | uuid (bits : BitVec 128)
  | timestamptz (instant : Int)
  | jsonb (text : String)
  deriving DecidableEq

abbrev Row (ν : Type) := ν → Value

/-- SQL's conditions; `none` is unknown. -/
inductive Cond (ν : Type) where
  | isNull (column : ν)
  | notNull (column : ν)
  | oneOf (column : ν) (values : List Value)
  | ne (column : ν) (value : Value)
  | gt (column : ν) (bound : Int)
  | ge (column : ν) (bound : Int)
  | and (a b : Cond ν)
  | or (a b : Cond ν)
  deriving DecidableEq

def and3 : Option Bool → Option Bool → Option Bool
  | some false, _ => some false
  | _, some false => some false
  | some true, some true => some true
  | _, _ => none

def or3 : Option Bool → Option Bool → Option Bool
  | some true, _ => some true
  | _, some true => some true
  | some false, some false => some false
  | _, _ => none

/-- A comparison with `null` is unknown. -/
def compared (v : Value) (b : Bool) : Option Bool := if v = .null then none else some b

/-- Conditions that are known are as in `Bool`. -/
@[simp] theorem and3_some (a b : Bool) : and3 (some a) (some b) = some (a && b) := by
  cases a <;> cases b <;> rfl

@[simp] theorem or3_some (a b : Bool) : or3 (some a) (some b) = some (a || b) := by
  cases a <;> cases b <;> rfl

@[simp] theorem compared_null (b : Bool) : compared .null b = none := rfl

theorem compared_of_ne {v : Value} (h : v ≠ .null) (b : Bool) : compared v b = some b := if_neg h

def Value.exceeds (v : Value) (bound : Int) : Bool :=
  match v with
  | .integer n => bound < n
  | _ => false

namespace Cond

variable {ν : Type}

def eval (r : Row ν) : Cond ν → Option Bool
  | isNull column => some (r column = .null)
  | notNull column => some (r column ≠ .null)
  | oneOf column values => compared (r column) (values.contains (r column))
  | ne column value => compared (r column) (r column ≠ value)
  | gt column bound => compared (r column) ((r column).exceeds bound)
  | ge column bound => compared (r column) ((r column).exceeds (bound - 1))
  | and a b => and3 (a.eval r) (b.eval r)
  | or a b => or3 (a.eval r) (b.eval r)

/-- The columns a condition reads. -/
def columns : Cond ν → List ν
  | isNull column | notNull column | oneOf column _ | ne column _ | gt column _ | ge column _ =>
    [column]
  | and a b | or a b => a.columns ++ b.columns

theorem eval_congr {r r' : Row ν} : ∀ {cond : Cond ν}, (∀ c ∈ cond.columns, r c = r' c) →
    cond.eval r = cond.eval r'
  | isNull c, h | notNull c, h | oneOf c _, h | ne c _, h | gt c _, h | ge c _, h => by
    simp only [eval, h c (List.mem_singleton_self c)]
  | and a b, h | or a b, h => by
    rw [eval, eval, eval_congr fun c hc => h c (List.mem_append_left _ hc),
      eval_congr fun c hc => h c (List.mem_append_right _ hc)]

end Cond

/-! ## Definitions -/

inductive ColumnType (ν : Type) where
  | text
  | integer
  | boolean
  | uuid
  | timestamptz
  | jsonb
  | enum (name : ν)
  deriving DecidableEq

/-- `DEFAULT`: a value, or a function called for every new row. -/
inductive Default where
  | value (v : Value)
  | call (function : String)
  deriving DecidableEq

structure Column (ν : Type) where
  name : ν
  type : ColumnType ν
  notNull : Bool
  default : Option Default
  deriving DecidableEq

structure Check (ν : Type) where
  name : ν
  cond : Cond ν
  deriving DecidableEq

inductive OnDelete where
  | cascade
  | setNull
  deriving DecidableEq

structure ForeignKey (ν : Type) where
  name : ν
  column : ν
  target : ν
  targetColumn : ν
  onDelete : OnDelete
  deriving DecidableEq

structure TableDef (ν : Type) where
  name : ν
  columns : List (Column ν)
  checks : List (Check ν)
  foreignKeys : List (ForeignKey ν)
  deriving DecidableEq

/-- An index, or the index behind a unique constraint. -/
structure Index (ν : Type) where
  name : ν
  table : ν
  columns : List ν
  /-- Those of the columns that are sorted `DESC`. -/
  descending : List ν
  unique : Bool
  predicate : Option (Cond ν)
  constraint : Bool
  deriving DecidableEq

@[ext]
structure Schema (ν : Type) where
  enums : List (ν × List String)
  tables : List (TableDef ν)
  indexes : Finset (Index ν)

variable {ν : Type}

section

variable [DecidableEq ν]

-- part by part: two sets of indexes may be one in another order
instance : DecidableEq (Schema ν) := fun S T =>
  decidable_of_iff (S.enums = T.enums ∧ S.tables = T.tables ∧ S.indexes = T.indexes)
    Schema.ext_iff.symm

def ColumnType.has (enums : List (ν × List String)) : ColumnType ν → Value → Bool
  | .text, .text _ | .boolean, .boolean _ | .uuid, .uuid _ | .timestamptz, .timestamptz _
  | .jsonb, .jsonb _ => true
  | .integer, .integer n => -2 ^ 31 ≤ n && n < 2 ^ 31
  | .enum name, .text label => enums.any fun e => e.1 = name && e.2.contains label
  | _, _ => false

namespace Schema

variable (S : Schema ν)

/-- Tables and indexes share their names. -/
def hasRelation (name : ν) : Bool :=
  S.tables.any (fun t => t.name = name) || decide (∃ i ∈ S.indexes, i.name = name)

def hasColumns (table : ν) (columns : List ν) : Bool :=
  S.tables.any fun t =>
    t.name = table && columns.all fun column => t.columns.any fun c => c.name = column

def hasType : ColumnType ν → Bool
  | .enum name => S.enums.any fun e => e.1 = name
  | _ => true

/-- A foreign key refers to these columns. -/
def isTarget (table : ν) (columns : List ν) : Bool :=
  S.tables.any fun t => t.foreignKeys.any fun fk => fk.target = table && columns = [fk.targetColumn]

def alter (table : ν) (f : TableDef ν → TableDef ν) : Schema ν :=
  { S with tables := S.tables.map fun t => if t.name = table then f t else t }

end Schema

/-- The columns an index reads. -/
def Index.reads (i : Index ν) : List ν :=
  i.columns ++ (i.predicate.map Cond.columns).getD []

/-! ## Statements -/

inductive Statement (ν : Type) where
  | createType (name : ν) (labels : List String)
  | dropType (ifExists : Bool) (name : ν)
  /-- With the indexes of its primary key and its unique constraints. -/
  | createTable (table : TableDef ν) (indexes : List (Index ν))
  | dropTable (ifExists : Bool) (name : ν)
  | createIndex (index : Index ν)
  | dropIndex (ifExists : Bool) (name : ν)
  | addColumn (table name : ν) (type : ColumnType ν) (notNull : Bool) (default : Value)
    (check : Check ν)
  | dropDefault (table column : ν)
  | dropColumn (table column : ν)
  | addUnique (table name : ν) (columns : List ν)
  | dropConstraint (table name : ν)

/-- The index behind a unique constraint. -/
def uniqueConstraint (table name : ν) (columns : List ν) : Index ν :=
  ⟨name, table, columns, [], true, none, true⟩

namespace Statement

/-- What a statement does to the definition; `none` is an error. -/
def define (S : Schema ν) : Statement ν → Option (Schema ν)
  | createType name labels =>
    if S.enums.any fun e => e.1 = name then none
    else some { S with enums := S.enums ++ [(name, labels)] }
  | dropType ifExists name =>
    if S.hasType (.enum name) then
      if S.tables.any fun t => t.columns.any fun c => c.type = .enum name then none
      else some { S with enums := S.enums.filter fun e => e.1 ≠ name }
    else if ifExists then some S else none
  | createTable table indexes =>
    if S.hasRelation table.name || (indexes.any fun i => S.hasRelation i.name) ||
        !(table.columns.all fun c => S.hasType c.type) ||
        !(table.foreignKeys.all fun fk => S.hasColumns fk.target [fk.targetColumn]) then none
    else some { S with tables := S.tables ++ [table], indexes := S.indexes ∪ indexes.toFinset }
  | dropTable ifExists name =>
    if S.hasColumns name [] then
      -- a foreign key of another table holds it
      if S.tables.any fun t =>
          t.name ≠ name && t.foreignKeys.any fun fk => fk.target = name then none
      else some { S with
        tables := S.tables.filter fun t => t.name ≠ name
        indexes := S.indexes.filter fun i => i.table ≠ name }
    else if ifExists then some S else none
  | createIndex i =>
    if S.hasRelation i.name || !S.hasColumns i.table i.reads then none
    else some { S with indexes := insert i S.indexes }
  | dropIndex ifExists name =>
    if ∃ i ∈ S.indexes, i.name = name then
      -- a constraint holds its index
      if ∃ i ∈ S.indexes, i.name = name ∧ i.constraint = true then none
      else some { S with indexes := S.indexes.filter fun i => i.name ≠ name }
    else if ifExists then some S else none
  | addColumn table name type notNull default check =>
    if !S.hasColumns table [] || S.hasColumns table [name] ||
        !(default = .null || type.has S.enums default) then none
    else some (S.alter table fun t =>
      { t with
        columns := t.columns ++ [⟨name, type, notNull, some (.value default)⟩]
        checks := t.checks ++ [check] })
  | dropDefault table column =>
    if S.hasColumns table [column] then
      some (S.alter table fun t =>
        { t with columns :=
          t.columns.map fun c => if c.name = column then { c with default := none } else c })
    else none
  | dropColumn table column =>
    if !S.hasColumns table [column] || S.isTarget table [column] then none
    else
      let S := S.alter table fun t =>
        { t with
          columns := t.columns.filter fun c => c.name ≠ column
          checks := t.checks.filter fun c => column ∉ c.cond.columns
          foreignKeys := t.foreignKeys.filter fun fk => fk.column ≠ column }
      some { S with indexes := S.indexes.filter fun i => ¬(i.table = table ∧ column ∈ i.reads) }
  | addUnique table name columns =>
    if S.hasRelation name || !S.hasColumns table columns then none
    else some { S with indexes := insert (uniqueConstraint table name columns) S.indexes }
  | dropConstraint table name =>
    if (∃ i ∈ S.indexes, i.name = name ∧ i.table = table ∧ i.constraint = true) ∧
        ∀ i ∈ S.indexes, i.name = name → S.isTarget table i.columns = false then
      some { S with indexes := S.indexes.filter fun i => i.name ≠ name }
    else none

end Statement

/-! ## Tables with rows -/

abbrev Rows (ν : Type) := ν → List (Row ν)

/-- A unique index enters the rows of its predicate that have no `null` in its columns. -/
def Index.covers (i : Index ν) (r : Row ν) : Bool :=
  (i.predicate.all fun cond => cond.eval r = some true) && i.columns.all fun c => r c ≠ .null

def Index.key (i : Index ν) (r : Row ν) : List Value := i.columns.map r

def Index.Admits (i : Index ν) (rows : List (Row ν)) : Prop :=
  i.unique = true → Table.UniqueWhere i.covers i.key rows

instance (i : Index ν) (rows : List (Row ν)) : Decidable (i.Admits rows) :=
  inferInstanceAs (Decidable (_ → _))

namespace Statement

/-- What a statement does to the rows. -/
def fill (rows : Rows ν) : Statement ν → Rows ν
  | addColumn table name _ _ default _ =>
    Function.update rows table ((rows table).map fun r => Function.update r name default)
  | dropColumn table column =>
    Function.update rows table ((rows table).map fun r => Function.update r column .null)
  | dropTable _ name => Function.update rows name []
  | _ => rows

/-- The rows, as it leaves them, meet what it adds. -/
def Admits (rows : Rows ν) : Statement ν → Prop
  | addColumn table name _ notNull _ check =>
    ∀ r ∈ rows table, (notNull = true → r name ≠ .null) ∧ check.cond.eval r ≠ some false
  | createIndex i => i.Admits (rows i.table)
  | addUnique table name columns => (uniqueConstraint table name columns).Admits (rows table)
  | _ => True

instance (rows : Rows ν) : (st : Statement ν) → Decidable (st.Admits rows)
  | addColumn .. => inferInstanceAs (Decidable (∀ r ∈ _, _))
  | createIndex i => inferInstanceAs (Decidable (i.Admits _))
  | addUnique table name columns =>
    inferInstanceAs (Decidable ((uniqueConstraint table name columns).Admits _))
  | createType .. | dropType .. | createTable .. | dropTable .. | dropIndex .. | dropDefault ..
  | dropColumn .. | dropConstraint .. => inferInstanceAs (Decidable True)

end Statement

structure Database (ν : Type) where
  schema : Schema ν
  rows : Rows ν

/-- A statement on a database; `none` is an error. -/
def Statement.exec (st : Statement ν) (db : Database ν) : Option (Database ν) :=
  (st.define db.schema).bind fun schema =>
    if st.Admits (st.fill db.rows) then some ⟨schema, st.fill db.rows⟩ else none

/-- A row meets the definition of its table. -/
structure TableDef.Holds (t : TableDef ν) (enums : List (ν × List String)) (r : Row ν) :
    Prop where
  notNull : ∀ c ∈ t.columns, c.notNull = true → r c.name ≠ .null
  typed : ∀ c ∈ t.columns, r c.name = .null ∨ c.type.has enums (r c.name) = true
  outside : ∀ name, (∀ c ∈ t.columns, c.name ≠ name) → r name = .null
  checks : ∀ check ∈ t.checks, check.cond.eval r ≠ some false

/-- The rows meet the schema. -/
structure Database.Valid (db : Database ν) : Prop where
  holds : ∀ t ∈ db.schema.tables, ∀ r ∈ db.rows t.name, t.Holds db.schema.enums r
  foreign : ∀ t ∈ db.schema.tables, ∀ fk ∈ t.foreignKeys, ∀ r ∈ db.rows t.name,
    r fk.column = .null ∨ ∃ r' ∈ db.rows fk.target, r' fk.targetColumn = r fk.column
  unique : ∀ i ∈ db.schema.indexes, i.Admits (db.rows i.table)
  outside : ∀ name, (∀ t ∈ db.schema.tables, t.name ≠ name) → db.rows name = []

/-! ## Scripts -/

def run (script : List (Statement ν)) (db : Database ν) : Option (Database ν) :=
  script.foldlM (fun db st => st.exec db) db

def defineAll (script : List (Statement ν)) (S : Schema ν) : Option (Schema ν) :=
  script.foldlM (fun S st => st.define S) S

def fillAll (script : List (Statement ν)) (rows : Rows ν) : Rows ν :=
  script.foldl Statement.fill rows

def AdmitsAll : List (Statement ν) → Rows ν → Prop
  | [], _ => True
  | st :: script, rows => st.Admits (st.fill rows) ∧ AdmitsAll script (st.fill rows)

/-- **A script runs on the definition and on the rows.** -/
theorem run_eq_some {script : List (Statement ν)} {db db' : Database ν} :
    run script db = some db' ↔ defineAll script db.schema = some db'.schema ∧
      AdmitsAll script db.rows ∧ db'.rows = fillAll script db.rows := by
  induction script generalizing db with
  | nil =>
    obtain ⟨S, rows⟩ := db
    obtain ⟨S', rows'⟩ := db'
    simp [run, defineAll, fillAll, AdmitsAll, eq_comm]
  | cons st script ih =>
    rw [run, defineAll, List.foldlM_cons, List.foldlM_cons, AdmitsAll, fillAll, List.foldl_cons]
    change (st.exec db).bind (run script) = some db' ↔
      (st.define db.schema).bind (defineAll script) = some db'.schema ∧ _
    rw [Statement.exec]
    cases st.define db.schema with
    | none => simp
    | some S =>
      rw [Option.bind_some, Option.bind_some]
      by_cases h : st.Admits (st.fill db.rows)
      · rw [if_pos h, Option.bind_some, ih]
        simp only [h, true_and]
        rfl
      · rw [if_neg h]
        simp [h]

/-- Without rows there is nothing to fill. -/
theorem fillAll_empty (script : List (Statement ν)) :
    fillAll script (fun _ => []) = fun _ => [] := by
  have hfill : ∀ st : Statement ν, st.fill (fun _ => []) = fun _ => [] := by
    intro st
    cases st <;> first | rfl | exact Function.update_eq_self_iff.mpr rfl
  induction script with
  | nil => rfl
  | cons st script ih => rw [fillAll, List.foldl_cons, hfill]; exact ih

/-- And nothing to refuse. -/
theorem admitsAll_empty (script : List (Statement ν)) : AdmitsAll script (fun _ => []) := by
  induction script with
  | nil => trivial
  | cons st script ih =>
    have hfill : st.fill (fun _ => []) = fun _ => [] := fillAll_empty [st]
    rw [AdmitsAll, hfill]
    refine ⟨?_, ih⟩
    cases st with
    | addColumn => exact fun _ hr => absurd hr List.not_mem_nil
    | createIndex i => exact fun _ => List.nodup_nil
    | addUnique => exact fun _ => List.nodup_nil
    | _ => trivial

/-- A script on an empty database is one on its definition. -/
theorem run_empty {script : List (Statement ν)} {S S' : Schema ν}
    (h : defineAll script S = some S') :
    run script ⟨S, fun _ => []⟩ = some ⟨S', fun _ => []⟩ :=
  run_eq_some.mpr ⟨h, admitsAll_empty script, (fillAll_empty script).symm⟩

end

/-! ## Unique indexes and columns -/

namespace Index

theorem covers_iff {i : Index ν} {r : Row ν} : i.covers r = true ↔
    (∀ cond ∈ i.predicate, cond.eval r = some true) ∧ ∀ c ∈ i.columns, r c ≠ .null := by
  rw [covers, Bool.and_eq_true, List.all_eq_true]
  refine and_congr ?_ (forall₂_congr fun c _ => decide_eq_true_iff)
  cases i.predicate <;> simp

theorem covers_congr {i : Index ν} {r r' : Row ν} (h : ∀ c ∈ i.reads, r c = r' c) :
    i.covers r = i.covers r' := by
  have hcolumns : ∀ c ∈ i.columns, r c = r' c := fun c hc => h c (List.mem_append_left _ hc)
  have hall : (i.columns.all fun c => r c ≠ .null) = i.columns.all fun c => r' c ≠ .null := by
    rw [Bool.eq_iff_iff, List.all_eq_true, List.all_eq_true]
    exact forall₂_congr fun c hc => by rw [hcolumns c hc]
  rw [covers, covers, hall]
  cases hp : i.predicate with
  | none => rfl
  | some cond =>
    have hreads : ∀ c ∈ cond.columns, r c = r' c := by
      intro c hc
      refine h c (List.mem_append_right _ ?_)
      rw [hp]
      exact hc
    rw [Option.all_some, Option.all_some, Cond.eval_congr hreads]

theorem key_eq {i : Index ν} {r r' : Row ν} : i.key r = i.key r' ↔ ∀ c ∈ i.columns, r c = r' c :=
  List.map_inj_left

/-- An index does not see a column outside it. -/
theorem admits_map {i : Index ν} {rows : List (Row ν)} {f : Row ν → Row ν}
    (hf : ∀ r ∈ rows, ∀ c ∈ i.reads, f r c = r c) : i.Admits (rows.map f) ↔ i.Admits rows := by
  have hkeys : ((rows.map f).filter i.covers).map i.key = (rows.filter i.covers).map i.key := by
    rw [List.filter_map, List.map_map]
    have hcovers : rows.filter (i.covers ∘ f) = rows.filter i.covers :=
      List.filter_congr fun r hr => covers_congr (hf r hr)
    rw [hcovers]
    refine List.map_congr_left fun r hr => ?_
    exact key_eq.mpr fun c hc =>
      hf r (List.mem_of_mem_filter hr) c (List.mem_append_left _ hc)
  rw [Admits, Admits, Table.UniqueWhere, Table.UniqueWhere, hkeys]

/-- A unique index with more columns asks for less. -/
theorem Admits.mono {i j : Index ν} {rows : List (Row ν)} (h : i.Admits rows)
    (hi : i.unique = true) (hp : i.predicate = j.predicate) (hsub : i.columns ⊆ j.columns) :
    j.Admits rows := by
  intro _
  refine (h hi).mono ?_ ?_
  · intro r hr
    rw [covers_iff, ← hp] at hr
    exact covers_iff.mpr ⟨hr.1, fun c hc => hr.2 c (hsub hc)⟩
  · intro r r' hkey
    exact key_eq.mpr fun c hc => key_eq.mp hkey c (hsub hc)

/-- **One column less is still unique exactly if no two rows differ in it alone.** -/
theorem admits_iff {i j : Index ν} {rows : List (Row ν)} (h : j.Admits rows)
    (hi : i.unique = true) (hj : j.unique = true) (hp : i.predicate = j.predicate) {column : ν}
    (hsub : j.columns ⊆ column :: i.columns) (hnull : ∀ r ∈ rows, r column ≠ .null) :
    i.Admits rows ↔ ∀ r ∈ rows, ∀ r' ∈ rows, i.covers r = true → i.covers r' = true →
      (∀ c ∈ i.columns, r c = r' c) → r column = r' column := by
  have hwide : ∀ r ∈ rows, i.covers r = true → j.covers r = true := by
    intro r hr hc
    rw [covers_iff, hp] at hc
    refine covers_iff.mpr ⟨hc.1, fun c hcj => ?_⟩
    rcases List.mem_cons.mp (hsub hcj) with rfl | hci
    · exact hnull r hr
    · exact hc.2 c hci
  constructor
  · intro hadmits r hr r' hr' hc hc' hkey
    rw [(hadmits hi).eq hr hr' hc hc' (key_eq.mpr hkey)]
  · intro hdiffer _
    refine Table.uniqueWhere_iff_pairwise.mpr ?_
    refine (Table.uniqueWhere_iff_pairwise.mp (h hj)).imp_of_mem ?_
    intro r r' hr hr' hne hc hc' heq
    refine hne (hwide r hr hc) (hwide r' hr' hc') (key_eq.mpr fun c hcj => ?_)
    rcases List.mem_cons.mp (hsub hcj) with rfl | hci
    · exact hdiffer r hr r' hr' hc hc' (key_eq.mp heq)
    · exact key_eq.mp heq c hci

end Index

end Ddl
