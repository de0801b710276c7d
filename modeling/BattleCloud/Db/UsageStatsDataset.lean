import BattleCloud.Db.MigrationLog

/-!
# `0002_usage_stats_dataset`

`migration0002`: `up` labels every row of `analyses` and `jobs` with `2026-07` and `down` takes that
back. On any database with the schema of `0002` the transaction of `down` fails exactly if two
analyses, or two queued or running jobs, differ only in the dataset, and what was there stays; else
the rows lose the column and nothing more, and `up` restores them exactly if the column said
`2026-07` throughout.

Nine columns are unique where eight are, and the other way round where no two rows differ in the
ninth alone (`admitsKeys_iff`). Neither script looks at another column.
-/

namespace BattleCloud

namespace Migrations

open Ddl

/-! ## The rows -/

/-- A row as `0002` leaves it. -/
def labelled (r : Row Name) : Row Name := Function.update r .usage_stats_dataset (.text "2026-07")

/-- A row as its reverse leaves it. -/
def unlabelled (r : Row Name) : Row Name := Function.update r .usage_stats_dataset .null

/-- The rows of the two tables with an identity. -/
def onIdentityTables (f : Row Name → Row Name) (rows : Rows Name) : Rows Name := fun table =>
  if table = .analyses ∨ table = .jobs then (rows table).map f else rows table

/-- Both unique keys, over the columns given. -/
def AdmitsKeys (columns : List Name) (rows : Rows Name) : Prop :=
  (analysesKey columns).Admits (rows .analyses) ∧
    (activeIdentityKey columns).Admits (rows .jobs)

theorem onIdentityTables_onIdentityTables (f g : Row Name → Row Name) (rows : Rows Name) :
    onIdentityTables f (onIdentityTables g rows) = onIdentityTables (f ∘ g) rows := by
  funext table
  simp only [onIdentityTables]
  split <;> simp

theorem onIdentityTables_eq_self {f : Row Name → Row Name} {rows : Rows Name} :
    onIdentityTables f rows = rows ↔
      ∀ table, (table = .analyses ∨ table = .jobs) → ∀ r ∈ rows table, f r = r := by
  rw [funext_iff]
  refine forall_congr' fun table => ?_
  rw [onIdentityTables]
  split
  · rename_i h
    rw [imp_iff_right h]
    constructor
    · intro hmap r hr
      exact List.map_inj_left.mp (hmap.trans (List.map_id _).symm) r hr
    · intro hf
      exact (List.map_congr_left hf).trans (List.map_id _)
  · rename_i h
    exact ⟨fun _ h' => absurd h' h, fun _ => rfl⟩

theorem fillAll_datasetUp (rows : Rows Name) :
    fillAll datasetUp rows = onIdentityTables labelled rows := by
  funext table
  simp only [fillAll, datasetUp, addDataset, List.foldl_cons, List.foldl_nil, Statement.fill,
    onIdentityTables, Function.update_apply]
  by_cases hj : table = .jobs
  · subst hj
    rfl
  · by_cases ha : table = .analyses
    · subst ha
      rfl
    · simp [hj, ha]

theorem fillAll_datasetDown (rows : Rows Name) :
    fillAll datasetDown rows = onIdentityTables unlabelled rows := by
  funext table
  simp only [fillAll, datasetDown, List.foldl_cons, List.foldl_nil, Statement.fill,
    onIdentityTables, Function.update_apply]
  by_cases hj : table = .jobs
  · subst hj
    rfl
  · by_cases ha : table = .analyses
    · subst ha
      rfl
    · simp [hj, ha]

theorem labelled_dataset (r : Row Name) : labelled r .usage_stats_dataset = .text "2026-07" :=
  Function.update_self ..

theorem labelled_of_ne (r : Row Name) (column : Name) (h : column ≠ .usage_stats_dataset) :
    labelled r column = r column := Function.update_of_ne h _ _

theorem unlabelled_of_ne (r : Row Name) (column : Name) (h : column ≠ .usage_stats_dataset) :
    unlabelled r column = r column := Function.update_of_ne h _ _

theorem labelled_admitted {table : Name} {rows : List (Row Name)} {r : Row Name}
    (hr : r ∈ rows.map labelled) : (true = true → r .usage_stats_dataset ≠ .null) ∧
      (datasetCheck table).cond.eval r ≠ some false := by
  obtain ⟨r, -, rfl⟩ := List.mem_map.mp hr
  simp only [datasetCheck, columnCheck, Cond.eval, labelled_dataset]
  decide

/-- `0002` has nothing to refuse but two rows of one identity. -/
theorem admitsAll_datasetUp (rows : Rows Name) : AdmitsAll datasetUp rows ↔
    AdmitsKeys datasetIdentityColumns (onIdentityTables labelled rows) := by
  constructor
  · rintro ⟨-, -, -, -, -, hanalyses, -, hjobs, -⟩
    exact ⟨hanalyses, hjobs⟩
  · rintro ⟨hanalyses, hjobs⟩
    exact ⟨fun r hr => labelled_admitted hr, trivial, fun r hr => labelled_admitted hr, trivial,
      trivial, hanalyses, trivial, hjobs, trivial⟩

theorem admitsAll_datasetDown (rows : Rows Name) :
    AdmitsAll datasetDown rows ↔ AdmitsKeys identityColumns (onIdentityTables unlabelled rows) := by
  constructor
  · rintro ⟨-, -, -, -, hanalyses, hjobs, -⟩
    exact ⟨hanalyses, hjobs⟩
  · rintro ⟨hanalyses, hjobs⟩
    exact ⟨trivial, trivial, trivial, trivial, hanalyses, hjobs, trivial⟩

/-- The eight columns and the status do not see the dataset. -/
theorem admitsKeys_onIdentityTables {f : Row Name → Row Name}
    (hf : ∀ r column, column ≠ .usage_stats_dataset → f r column = r column) (rows : Rows Name) :
    AdmitsKeys identityColumns (onIdentityTables f rows) ↔ AdmitsKeys identityColumns rows := by
  have hanalyses : ∀ column ∈ (analysesKey identityColumns).reads,
      column ≠ .usage_stats_dataset := by decide
  have hjobs : ∀ column ∈ (activeIdentityKey identityColumns).reads,
      column ≠ .usage_stats_dataset := by decide
  exact and_congr (Index.admits_map fun r _ c hc => hf r c (hanalyses c hc))
    (Index.admits_map fun r _ c hc => hf r c (hjobs c hc))

/-- Nine columns are unique where eight are. -/
theorem AdmitsKeys.wider {rows : Rows Name} (h : AdmitsKeys identityColumns rows) :
    AdmitsKeys datasetIdentityColumns rows := by
  have hsub : identityColumns ⊆ datasetIdentityColumns := by decide
  exact ⟨h.1.mono rfl rfl hsub, h.2.mono rfl rfl hsub⟩

/-! ## The two scripts -/

/-- `0002` succeeds where the eight columns are unique. -/
theorem run_datasetUp {db : Database Name} (hs : db.schema = schema0001)
    (h : AdmitsKeys identityColumns db.rows) :
    run datasetUp db = some ⟨schema0002, onIdentityTables labelled db.rows⟩ := by
  refine run_eq_some.mpr ⟨hs ▸ reverses_dataset.1, ?_, (fillAll_datasetUp _).symm⟩
  rw [admitsAll_datasetUp]
  exact ((admitsKeys_onIdentityTables labelled_of_ne _).mpr h).wider

/-- Its reverse succeeds exactly there. -/
theorem run_datasetDown {db db' : Database Name} (hs : db.schema = schema0002) :
    run datasetDown db = some db' ↔ AdmitsKeys identityColumns db.rows ∧
      db' = ⟨schema0001, onIdentityTables unlabelled db.rows⟩ := by
  rw [run_eq_some, admitsAll_datasetDown, admitsKeys_onIdentityTables unlabelled_of_ne,
    fillAll_datasetDown, hs, reverses_dataset.2, Option.some_inj]
  constructor
  · rintro ⟨hschema, hkeys, hrows⟩
    obtain ⟨S, rows⟩ := db'
    cases hschema
    cases hrows
    exact ⟨hkeys, rfl⟩
  · rintro ⟨hkeys, rfl⟩
    exact ⟨rfl, hkeys, rfl⟩

/-! ## What the schemas promise -/

theorem admitsKeys_of_valid {db : Database Name} (hv : db.Valid) {columns : List Name}
    (ha : analysesKey columns ∈ db.schema.indexes)
    (hj : activeIdentityKey columns ∈ db.schema.indexes) : AdmitsKeys columns db.rows :=
  ⟨hv.unique _ ha, hv.unique _ hj⟩

theorem keys_schema0001 : analysesKey identityColumns ∈ schema0001.indexes ∧
    activeIdentityKey identityColumns ∈ schema0001.indexes := by decide

theorem keys_schema0002 : analysesKey datasetIdentityColumns ∈ schema0002.indexes ∧
    activeIdentityKey datasetIdentityColumns ∈ schema0002.indexes := by decide

/-- Before `0002` there is no dataset. -/
theorem dataset_schema0001 {db : Database Name} (hv : db.Valid) (hs : db.schema = schema0001)
    {table : Name} (ht : table = .analyses ∨ table = .jobs) {r : Row Name}
    (hr : r ∈ db.rows table) : r .usage_stats_dataset = .null := by
  have htables : ∀ table ∈ [.analyses, .jobs], ∃ t ∈ schema0001.tables, t.name = table ∧
      ∀ c ∈ t.columns, c.name ≠ .usage_stats_dataset := by decide
  obtain ⟨t, hmem, rfl, hcolumns⟩ := htables table (by simpa using ht)
  exact (hv.holds t (hs ▸ hmem) r hr).outside _ hcolumns

/-- After it the identity has no `null`. -/
theorem identity_schema0002 {db : Database Name} (hv : db.Valid) (hs : db.schema = schema0002)
    {table : Name} (ht : table = .analyses ∨ table = .jobs) {r : Row Name} (hr : r ∈ db.rows table)
    {column : Name} (hc : column ∈ datasetIdentityColumns) : r column ≠ .null := by
  have htables : ∀ table ∈ [.analyses, .jobs], ∃ t ∈ schema0002.tables, t.name = table ∧
      ∀ column ∈ datasetIdentityColumns, ∃ c ∈ t.columns, c.name = column ∧ c.notNull = true := by
    decide
  obtain ⟨t, hmem, rfl, hcolumns⟩ := htables table (by simpa using ht)
  obtain ⟨c, hmemc, rfl, hnotNull⟩ := hcolumns column hc
  exact (hv.holds t (hs ▸ hmem) r hr).notNull c hmemc hnotNull

/-- Queued or running. -/
def IsActive (r : Row Name) : Prop := r .status = .text "queued" ∨ r .status = .text "running"

/-- Two of the rows have one identity but for the dataset. -/
def DifferInDataset (p : Row Name → Prop) (rows : List (Row Name)) : Prop :=
  ∃ r ∈ rows, ∃ r' ∈ rows, p r ∧ p r' ∧ (∀ column ∈ identityColumns, r column = r' column) ∧
    r .usage_stats_dataset ≠ r' .usage_stats_dataset

/-- Two analyses, or two queued or running jobs, that only the dataset tells apart. -/
def DatasetsCollide (rows : Rows Name) : Prop :=
  DifferInDataset (fun _ => True) (rows .analyses) ∨ DifferInDataset IsActive (rows .jobs)

theorem eval_isActive (r : Row Name) : isActive.eval r = some true ↔ IsActive r := by
  unfold isActive Cond.eval compared IsActive
  split
  · rename_i h
    simp [h]
  · simp

/-- The narrow key of a table is unique exactly if no two of its rows differ only in the dataset. -/
theorem admits_iff_not_differ {db : Database Name} (hv : db.Valid) (hs : db.schema = schema0002)
    {i j : Index Name} (hj : j ∈ db.schema.indexes) (ht : i.table = .analyses ∨ i.table = .jobs)
    (hij : j = { i with columns := datasetIdentityColumns }) (hi : i.columns = identityColumns)
    (hu : i.unique = true) {p : Row Name → Prop}
    (hp : ∀ r, (∀ cond ∈ i.predicate, cond.eval r = some true) ↔ p r) :
    i.Admits (db.rows i.table) ↔ ¬DifferInDataset p (db.rows i.table) := by
  subst hij
  have hsub : datasetIdentityColumns ⊆ .usage_stats_dataset :: identityColumns := by decide
  have hsub' : identityColumns ⊆ datasetIdentityColumns := by decide
  have hcovers : ∀ r ∈ db.rows i.table, i.covers r = true ↔ p r := by
    intro r hr
    rw [Index.covers_iff, hp, and_iff_left]
    intro c hc
    exact identity_schema0002 hv hs ht hr (hsub' (hi ▸ hc))
  rw [Index.admits_iff (hv.unique _ hj) hu hu rfl (hi.symm ▸ hsub) fun r hr =>
    identity_schema0002 hv hs ht hr (by decide)]
  rw [hi]
  constructor
  · rintro h ⟨r, hr, r', hr', hpr, hpr', hcolumns, hne⟩
    exact hne (h r hr r' hr' ((hcovers r hr).mpr hpr) ((hcovers r' hr').mpr hpr') hcolumns)
  · intro h r hr r' hr' hc hc' hcolumns
    by_contra hne
    exact h ⟨r, hr, r', hr', (hcovers r hr).mp hc, (hcovers r' hr').mp hc', hcolumns, hne⟩

theorem admitsKeys_iff {db : Database Name} (hv : db.Valid) (hs : db.schema = schema0002) :
    AdmitsKeys identityColumns db.rows ↔ ¬DatasetsCollide db.rows := by
  have ha := admits_iff_not_differ (i := analysesKey identityColumns) (p := fun _ => True) hv hs
    (hs ▸ keys_schema0002.1) (Or.inl rfl) rfl rfl rfl fun r => by
      simp [analysesKey, uniqueConstraint]
  have hj := admits_iff_not_differ (i := activeIdentityKey identityColumns) (p := IsActive) hv hs
    (hs ▸ keys_schema0002.2) (Or.inr rfl) rfl rfl rfl fun r => by
      simp [activeIdentityKey, eval_isActive]
  rw [AdmitsKeys, DatasetsCollide, not_or]
  exact and_congr ha hj

/-! ## The schema `0002` leaves -/

/-- What `0002` makes of a table. -/
def migrated (t : TableDef Name) : TableDef Name :=
  if t.name = .analyses ∨ t.name = .jobs then withDataset t else t

theorem schema0002_tables : schema0002.tables = schema0001.tables.map migrated := rfl

theorem schema0002_indexes : ∀ i ∈ schema0002.indexes,
    (i ∈ schema0001.indexes ∧ .usage_stats_dataset ∉ i.reads) ∨
      i = analysesKey datasetIdentityColumns ∨ i = activeIdentityKey datasetIdentityColumns := by
  decide

/-- Nothing of `0001` reads the column. -/
theorem schema0001_reads : ∀ t ∈ schema0001.tables,
    (∀ c ∈ t.columns, c.name ≠ .usage_stats_dataset) ∧
    (∀ check ∈ t.checks, .usage_stats_dataset ∉ check.cond.columns) ∧
    ∀ fk ∈ t.foreignKeys, fk.column ≠ .usage_stats_dataset ∧
      fk.targetColumn ≠ .usage_stats_dataset := by decide

/-- A row of a table with an identity meets its new definition. -/
theorem holds_labelled {t : TableDef Name} (ht : t ∈ schema0001.tables)
    (hname : t.name = .analyses ∨ t.name = .jobs) {enums : List (Name × List String)} {r : Row Name}
    (h : t.Holds enums r) : (migrated t).Holds enums (labelled r) := by
  obtain ⟨hcolumns, hchecks, -⟩ := schema0001_reads t ht
  rw [migrated, if_pos hname]
  refine ⟨fun c hc hnotNull => ?_, fun c hc => ?_, fun name hname => ?_, fun check hcheck => ?_⟩
  · rcases List.mem_append.mp hc with hc | hc
    · rw [labelled_of_ne _ _ (hcolumns c hc)]
      exact h.notNull c hc hnotNull
    · rw [List.mem_singleton.mp hc]
      exact ne_of_eq_of_ne (labelled_dataset r) Value.noConfusion
  · rcases List.mem_append.mp hc with hc | hc
    · rw [labelled_of_ne _ _ (hcolumns c hc)]
      exact h.typed c hc
    · rw [List.mem_singleton.mp hc]
      exact Or.inr (congrArg (ColumnType.text.has enums) (labelled_dataset r))
  · have hne : name ≠ .usage_stats_dataset := by
      rintro rfl
      exact hname _ (List.mem_append_right _ List.mem_cons_self) rfl
    rw [labelled_of_ne _ _ hne]
    exact h.outside name fun c hc => hname c (List.mem_append_left _ hc)
  · rcases List.mem_append.mp hcheck with hcheck | hcheck
    · have heval : check.cond.eval (labelled r) = check.cond.eval r :=
        Cond.eval_congr fun c hc =>
          labelled_of_ne r c (ne_of_mem_of_not_mem hc (hchecks check hcheck))
      rw [heval]
      exact h.checks check hcheck
    · rw [List.mem_singleton.mp hcheck]
      exact (labelled_admitted (List.mem_map_of_mem (List.mem_singleton_self r))).2

/-- A row that comes from another has its other columns. -/
theorem exists_of_mem_onIdentityTables {f : Row Name → Row Name}
    (hf : ∀ r column, column ≠ .usage_stats_dataset → f r column = r column) {rows : Rows Name}
    {table : Name} {r' : Row Name} (h : r' ∈ onIdentityTables f rows table) :
    ∃ r ∈ rows table, ∀ column, column ≠ .usage_stats_dataset → r' column = r column := by
  rw [onIdentityTables] at h
  split at h
  · obtain ⟨r, hr, rfl⟩ := List.mem_map.mp h
    exact ⟨r, hr, hf r⟩
  · exact ⟨r', h, fun _ _ => rfl⟩

theorem mem_onIdentityTables {f : Row Name → Row Name}
    (hf : ∀ r column, column ≠ .usage_stats_dataset → f r column = r column) {rows : Rows Name}
    {table : Name} {r : Row Name} (h : r ∈ rows table) : ∃ r' ∈ onIdentityTables f rows table,
      ∀ column, column ≠ .usage_stats_dataset → r' column = r column := by
  rw [onIdentityTables]
  split
  · exact ⟨f r, List.mem_map_of_mem h, hf r⟩
  · exact ⟨r, h, fun _ _ => rfl⟩

theorem migrated_name (t : TableDef Name) : (migrated t).name = t.name := by
  rw [migrated]
  split <;> rfl

theorem migrated_foreignKeys (t : TableDef Name) : (migrated t).foreignKeys = t.foreignKeys := by
  rw [migrated]
  split <;> rfl

/-- **What `0002` leaves behind meets its schema.** -/
theorem valid_labelled {db : Database Name} (hv : db.Valid) (hs : db.schema = schema0001) :
    (⟨schema0002, onIdentityTables labelled db.rows⟩ : Database Name).Valid := by
  obtain ⟨S, rows⟩ := db
  obtain rfl : S = schema0001 := hs
  have hkeys := admitsKeys_of_valid hv keys_schema0001.1 keys_schema0001.2
  have hwide := ((admitsKeys_onIdentityTables labelled_of_ne rows).mpr hkeys).wider
  refine ⟨fun t' ht' r' hr' => ?_, fun t' ht' fk hfk r' hr' => ?_, fun i hi => ?_,
    fun name hname => ?_⟩
  · dsimp only at ht' hr' ⊢
    rw [schema0002_tables] at ht'
    obtain ⟨t, ht, rfl⟩ := List.mem_map.mp ht'
    rw [migrated_name, onIdentityTables] at hr'
    split at hr'
    · rename_i hidentity
      obtain ⟨r, hr, rfl⟩ := List.mem_map.mp hr'
      exact holds_labelled ht hidentity (hv.holds t ht r hr)
    · rename_i hidentity
      rw [migrated, if_neg hidentity]
      exact hv.holds t ht r' hr'
  · dsimp only at ht' hr' ⊢
    rw [schema0002_tables] at ht'
    obtain ⟨t, ht, rfl⟩ := List.mem_map.mp ht'
    rw [migrated_name] at hr'
    rw [migrated_foreignKeys] at hfk
    obtain ⟨hcolumn, htarget⟩ := (schema0001_reads t ht).2.2 fk hfk
    obtain ⟨r, hr, heq⟩ := exists_of_mem_onIdentityTables labelled_of_ne hr'
    rw [heq _ hcolumn]
    refine (hv.foreign t ht fk hfk r hr).imp_right ?_
    rintro ⟨r₀, hr₀, hkey⟩
    obtain ⟨r₁, hr₁, heq₁⟩ := mem_onIdentityTables labelled_of_ne hr₀
    exact ⟨r₁, hr₁, (heq₁ _ htarget).trans hkey⟩
  · rcases schema0002_indexes i hi with ⟨hi, hreads⟩ | rfl | rfl
    · have hadmits := hv.unique i hi
      dsimp only [onIdentityTables] at hadmits ⊢
      split
      · exact (Index.admits_map fun r _ c hc =>
          labelled_of_ne r c (ne_of_mem_of_not_mem hc hreads)).mpr hadmits
      · exact hadmits
    · exact hwide.1
    · exact hwide.2
  · dsimp only at hname ⊢
    have hempty : rows name = [] := by
      refine hv.outside name fun t ht => ?_
      rw [← migrated_name]
      exact hname _ (schema0002_tables ▸ List.mem_map_of_mem ht)
    rw [onIdentityTables, hempty]
    exact ite_self []

/-! ## The migration -/

theorem unlabelled_labelled {r : Row Name} (h : r .usage_stats_dataset = .null) :
    unlabelled (labelled r) = r := by
  rw [unlabelled, labelled, Function.update_idem, ← h, Function.update_eq_self]

theorem labelled_unlabelled_iff {r : Row Name} :
    labelled (unlabelled r) = r ↔ r .usage_stats_dataset = .text "2026-07" := by
  rw [labelled, unlabelled, Function.update_idem, Function.update_eq_self_iff, eq_comm]

open StepSystem (exec)

/-- **The dataset comes and goes without harm.** -/
theorem migration0002 :
    (∀ db : Database Name, db.Valid → db.schema = schema0001 →
      ∃ db', run datasetUp db = some db' ∧ db'.Valid ∧ db'.schema = schema0002 ∧
        db'.rows = onIdentityTables labelled db.rows ∧ run datasetDown db' = some db) ∧
    (∀ (dir : Directory (Database Name)) (collation : String → String → Prop)
      [DecidableRel collation] (version : String) (log : List String) (db : Database Name),
      db.Valid → db.schema = schema0002 →
      ∃ n s', exec (MigrateState.step dir collation)
          ⟨db, some log,
            .transaction version db log (downStatements version (scriptOf datasetDown)) none⟩
          (List.replicate n .advance) = some s' ∧
        (DatasetsCollide db.rows → s' = ⟨db, some log, .idle (some .failed)⟩) ∧
        (¬DatasetsCollide db.rows →
          s' = ⟨⟨schema0001, onIdentityTables unlabelled db.rows⟩,
            some (log.filter (· ≠ version)), .idle (some (.reversed version))⟩)) ∧
    (∀ db db' : Database Name, db.schema = schema0002 → run datasetDown db = some db' →
      ∃ db'', run datasetUp db' = some db'' ∧
        (db'' = db ↔ ∀ table, (table = .analyses ∨ table = .jobs) →
          ∀ r ∈ db.rows table, r .usage_stats_dataset = .text "2026-07")) := by
  refine ⟨fun db hv hs => ?_, fun dir collation _ version log db hv hs => ?_,
    fun db db' hs hdown => ?_⟩
  · have hkeys := admitsKeys_of_valid hv (hs ▸ keys_schema0001.1) (hs ▸ keys_schema0001.2)
    refine ⟨_, run_datasetUp hs hkeys, valid_labelled hv hs, rfl, rfl, ?_⟩
    refine (run_datasetDown rfl).mpr
      ⟨(admitsKeys_onIdentityTables labelled_of_ne _).mpr hkeys, ?_⟩
    have hrows : onIdentityTables (unlabelled ∘ labelled) db.rows = db.rows :=
      onIdentityTables_eq_self.mpr fun table ht r hr =>
        unlabelled_labelled (dataset_schema0001 hv hs ht hr)
    rw [onIdentityTables_onIdentityTables, hrows, ← hs]
  · obtain ⟨n, hn⟩ := exec_downTransaction dir collation version (scriptOf datasetDown) db log
    refine ⟨n, _, hn, fun hcollide => ?_, fun hcollide => ?_⟩
    · have hrun : (scriptOf datasetDown).run db = none := by
        rw [run_scriptOf, Option.eq_none_iff_forall_ne_some]
        intro db' hdown
        exact (admitsKeys_iff hv hs).mp ((run_datasetDown hs).mp hdown).1 hcollide
      rw [hrun]
    · have hrun : (scriptOf datasetDown).run db =
          some ⟨schema0001, onIdentityTables unlabelled db.rows⟩ := by
        rw [run_scriptOf]
        exact (run_datasetDown hs).mpr ⟨(admitsKeys_iff hv hs).mpr hcollide, rfl⟩
      rw [hrun]
  · obtain ⟨hkeys, rfl⟩ := (run_datasetDown hs).mp hdown
    refine ⟨_, run_datasetUp rfl ((admitsKeys_onIdentityTables unlabelled_of_ne _).mpr hkeys), ?_⟩
    have hrows : ∀ rows, (⟨schema0002, rows⟩ : Database Name) = db ↔ rows = db.rows := by
      intro rows
      constructor
      · intro h
        rw [← h]
      · intro h
        rw [h, ← hs]
    rw [hrows, onIdentityTables_onIdentityTables, onIdentityTables_eq_self]
    exact forall₂_congr fun table _ => forall₂_congr fun r _ => labelled_unlabelled_iff

namespace Sample

/-- A row of the fields given. -/
def rowOf (fields : List (Name × Value)) : Row Name := fun name => (fields.lookup name).getD .null

def replayFields : List (Name × Value) :=
  [(.id, .text "gen9ou-1"), (.format, .text "[Gen 9] OU"), (.players, .jsonb "[]"),
    (.log, .text "|turn|1"), (.payload_bytes, .integer 7), (.fetched_at, .timestamptz 0)]

/-- An analysis, with the columns `0001` does not have. -/
def analysisFields (id : BitVec 128) (added : List (Name × Value)) : List (Name × Value) :=
  [(.id, .uuid id), (.replay_id, .text "gen9ou-1"), (.perspective, .text "p1"),
    (.search_budget_ms_per_turn, .integer 200), (.opponent_samples, .integer 2),
    (.threads, .integer 1), (.usage_stats_cutoff, .integer 1500),
    (.poke_engine_tag, .text "v0.0.47"), (.seed, .integer 0), (.document, .jsonb "[]"),
    (.total_turns, .integer 1), (.gradable_turns, .integer 1), (.wall_ms, .integer 400),
    (.degraded, .boolean false), (.created_at, .timestamptz 0)] ++ added

def fieldsOf (analyses : List (List (Name × Value))) (table : Name) : List (List (Name × Value)) :=
  if table = .replays then [replayFields] else if table = .analyses then analyses else []

/-- One replay with its analyses. -/
def databaseOf (schema : Schema Name) (analyses : List (List (Name × Value))) : Database Name :=
  ⟨schema, fun table => (fieldsOf analyses table).map rowOf⟩

def unlabelledDatabase : Database Name := databaseOf schema0001 [analysisFields 1 []]

/-- One replay, analyzed with the datasets of two months. -/
def database : Database Name := databaseOf schema0002
  [analysisFields 1 [(.usage_stats_dataset, .text "2026-07")],
    analysisFields 2 [(.usage_stats_dataset, .text "2026-08")]]

theorem rowOf_outside {fields : List (Name × Value)} {name : Name}
    (h : ∀ f ∈ fields, f.1 ≠ name) : rowOf fields name = .null := by
  have hnone : fields.lookup name = none :=
    List.lookup_eq_none_iff.mpr fun f hf => bne_iff_ne.mpr (h f hf).symm
  rw [rowOf, hnone]
  rfl

/-- What is outside a row's fields and outside the tables needs no look at every name. -/
theorem databaseOf_valid {schema : Schema Name} {analyses : List (List (Name × Value))}
    (hrows : ∀ t ∈ schema.tables, ∀ fields ∈ fieldsOf analyses t.name,
      (∀ c ∈ t.columns, c.notNull = true → rowOf fields c.name ≠ .null) ∧
      (∀ c ∈ t.columns, rowOf fields c.name = .null ∨
        c.type.has schema.enums (rowOf fields c.name) = true) ∧
      (∀ f ∈ fields, ∃ c ∈ t.columns, c.name = f.1) ∧
      ∀ check ∈ t.checks, check.cond.eval (rowOf fields) ≠ some false)
    (hforeign : ∀ t ∈ schema.tables, ∀ fk ∈ t.foreignKeys,
      ∀ r ∈ (fieldsOf analyses t.name).map rowOf, r fk.column = .null ∨
        ∃ r' ∈ (fieldsOf analyses fk.target).map rowOf, r' fk.targetColumn = r fk.column)
    (hunique : ∀ i ∈ schema.indexes, i.Admits ((fieldsOf analyses i.table).map rowOf))
    (htables : ∀ table ∈ [.replays, .analyses], ∃ t ∈ schema.tables, t.name = table) :
    (databaseOf schema analyses).Valid := by
  refine ⟨fun t ht r hr => ?_, hforeign, hunique, fun name hname => ?_⟩
  · obtain ⟨fields, hfields, rfl⟩ := List.mem_map.mp hr
    obtain ⟨hnotNull, htyped, hkeys, hchecks⟩ := hrows t ht fields hfields
    refine ⟨hnotNull, htyped, fun name hname => rowOf_outside fun f hf => ?_, hchecks⟩
    obtain ⟨c, hc, hcf⟩ := hkeys f hf
    exact hcf ▸ hname c hc
  · have hne : ∀ table ∈ [.replays, .analyses], name ≠ table := by
      rintro table htable rfl
      obtain ⟨t, ht, hname'⟩ := htables name htable
      exact hname t ht hname'
    have hfields : fieldsOf analyses name = [] := by
      rw [fieldsOf, if_neg (hne _ (by decide)), if_neg (hne _ (by decide))]
    exact congrArg (List.map rowOf) hfields

theorem database_valid : database.Valid :=
  databaseOf_valid (by decide) (by decide) (by decide +kernel) (by decide)

theorem unlabelledDatabase_valid : unlabelledDatabase.Valid :=
  databaseOf_valid (by decide) (by decide) (by decide +kernel) (by decide)

theorem database_collides : DatasetsCollide database.rows :=
  Or.inl ⟨rowOf (analysisFields 1 [(.usage_stats_dataset, .text "2026-07")]), List.mem_cons_self,
    rowOf (analysisFields 2 [(.usage_stats_dataset, .text "2026-08")]),
    List.mem_cons_of_mem _ List.mem_cons_self, trivial, trivial, by decide, by decide +kernel⟩

end Sample

/-- One replay goes up, down and up again; with two months the reverse fails and both stay. -/
theorem migration0002_two_months :
    (∃ db', run datasetUp Sample.unlabelledDatabase = some db' ∧
      (run datasetDown db').bind (run datasetUp) = some db') ∧
    ∃ n, exec (MigrateState.step directory (· ≤ ·))
      ⟨Sample.database, some ["0001_initial", "0002_usage_stats_dataset"],
        .transaction "0002_usage_stats_dataset" Sample.database
          ["0001_initial", "0002_usage_stats_dataset"]
          (downStatements "0002_usage_stats_dataset" (scriptOf datasetDown)) none⟩
      (List.replicate n .advance) =
        some ⟨Sample.database, some ["0001_initial", "0002_usage_stats_dataset"],
          .idle (some .failed)⟩ := by
  constructor
  · obtain ⟨db', hup, -, hs, hrows, hdown⟩ :=
      migration0002.1 Sample.unlabelledDatabase Sample.unlabelledDatabase_valid rfl
    obtain ⟨db'', hup', hsame⟩ := migration0002.2.2 db' _ hs hdown
    obtain rfl : db'' = db' := hsame.mpr fun table ht r hr => by
      rw [hrows, onIdentityTables, if_pos ht] at hr
      obtain ⟨r, -, rfl⟩ := List.mem_map.mp hr
      exact labelled_dataset r
    exact ⟨db'', hup, by rw [hdown, Option.bind_some, hup']⟩
  · obtain ⟨n, s', hexec, hcollide, -⟩ := migration0002.2.1 directory (· ≤ ·)
      "0002_usage_stats_dataset" ["0001_initial", "0002_usage_stats_dataset"] Sample.database
      Sample.database_valid rfl
    exact ⟨n, (hcollide Sample.database_collides) ▸ hexec⟩

end Migrations

end BattleCloud
