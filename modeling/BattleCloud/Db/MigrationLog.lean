import BattleCloud.Db.Migrations
import BattleCloud.Lib.Traverse
import Mathlib.Data.List.Pairwise

/-!
# The log of the migrations

The rows of `schema_migrations` are a prefix of the sorted versions and the schema is what exactly
those `up` scripts make of the empty database, whatever commands were run and wherever they failed
or stopped (`log_matches_schema`).

* The file names, the versions and the rows are sorted three times over, and the three orders are
  the order of the leading numbers.
* `Committed` is what holds of the database, and `SessionOk` what the program knows of it. In a
  transaction that is how the rest of its statements goes on from the working copy: as all of them
  do from what is committed.
* `up` ends, with every version or with a failure; where the scripts run it ends with every
  version, and one after it applies nothing.
-/

namespace BattleCloud

/-! ## The three sorts -/

/-- Lists with different beginnings of one length are in the order of these. -/
theorem lt_iff_take_lt {α : Type} [LT α] [Std.Irrefl (α := α) (· < ·)] {width : Nat} {x y : List α}
    (hx : (x.take width).length = width) (hy : (y.take width).length = width)
    (hne : x.take width ≠ y.take width) : x < y ↔ x.take width < y.take width := by
  induction width generalizing x y with
  | zero => exact absurd rfl hne
  | succ width ih =>
    cases x with
    | nil => cases hx
    | cons c x =>
      cases y with
      | nil => cases hy
      | cons d y =>
        simp only [List.take_succ_cons, List.length_cons, Nat.add_right_cancel_iff] at hx hy hne ⊢
        rw [List.cons_lt_cons_iff, List.cons_lt_cons_iff]
        refine or_congr_right (and_congr_right fun hcd => ih hx hy ?_)
        rintro hxy
        exact hne (by rw [hcd, hxy])

/-- The number a version begins with, as its digits. -/
def number (width : Nat) (version : String) : List Char := version.toList.take width

/-- A version begins with a number of `width` digits. -/
def IsNumbered (width : Nat) (version : String) : Prop :=
  (number width version).length = width ∧ (number width version).all Char.isDigit = true

instance (width : Nat) (version : String) : Decidable (IsNumbered width version) :=
  inferInstanceAs (Decidable (_ ∧ _))

/-- The versions begin with distinct numbers of `width` digits. -/
structure Directory.Numbered {σ : Type} (dir : Directory σ) (width : Nat) : Prop where
  digits : ∀ f ∈ dir.ups, IsNumbered width f.1
  distinct : dir.ups.Pairwise fun f g => number width f.1 ≠ number width g.1

/-- A collation that sorts leading numbers of `width` digits by their digits. -/
def SortsNumbers (width : Nat) (collation : String → String → Prop) : Prop :=
  ∀ v w : String, IsNumbered width v → IsNumbered width w → number width v < number width w →
    collation v w

theorem lt_iff_number_lt {width : Nat} {v w : String} (hv : (number width v).length = width)
    (hw : (number width w).length = width) (hne : number width v ≠ number width w) :
    v < w ↔ number width v < number width w :=
  String.lt_iff_toList_lt.trans (lt_iff_take_lt hv hw hne)

theorem number_append {width : Nat} {v : String} (hv : (number width v).length = width)
    (suffix : String) : number width (v ++ suffix) = number width v := by
  have hle : width ≤ v.toList.length := by
    rw [number, List.length_take] at hv
    omega
  rw [number, String.toList_append, List.take_append_of_le_length hle, number]

namespace Directory

variable {σ : Type} {dir : Directory σ} {width : Nat}

theorem Numbered.number_ne (h : dir.Numbered width) {f g : String × Script σ} (hf : f ∈ dir.ups)
    (hg : g ∈ dir.ups) (hne : f ≠ g) : number width f.1 ≠ number width g.1 :=
  have : Std.Symm fun f g : String × Script σ => number width f.1 ≠ number width g.1 :=
    ⟨fun _ _ h => h.symm⟩
  h.distinct.forall hf hg hne

/-- The names of the files are in the order of the versions. -/
theorem Numbered.upFiles_eq (h : dir.Numbered width) : dir.upFiles = dir.sorted := by
  unfold upFiles sorted
  have hmap := List.map_insertionSort
    (fun f g : String × Script σ => f.1 ++ ".up.sql" ≤ g.1 ++ ".up.sql")
    (fun f g : String × Script σ => f.1 ≤ g.1) id dir.ups ?_
  · rwa [List.map_id, List.map_id] at hmap
  · intro f hf g hg
    by_cases hfg : f = g
    · subst hfg
      simp only [le_refl]
    · have hne := h.number_ne hg hf (Ne.symm hfg)
      have hg' := (h.digits g hg).1
      have hf' := (h.digits f hf).1
      have hlt : g.1 ++ ".up.sql" < f.1 ++ ".up.sql" ↔ g.1 < f.1 := by
        have hfile := lt_iff_number_lt (by rwa [number_append hg' ".up.sql"])
          (by rwa [number_append hf' ".up.sql"])
          (by rwa [number_append hg' ".up.sql", number_append hf' ".up.sql"])
        rw [hfile, number_append hg', number_append hf', lt_iff_number_lt hg' hf' hne]
      rw [id, id, ← not_lt, ← not_lt, hlt]

/-- The migrations are in the order of their numbers. -/
theorem Numbered.sorted_pairwise (h : dir.Numbered width) :
    dir.sorted.Pairwise fun f g => number width f.1 < number width g.1 := by
  have : Std.Total fun f g : String × Script σ => f.1 ≤ g.1 := ⟨fun f g => le_total f.1 g.1⟩
  have : IsTrans (String × Script σ) fun f g => f.1 ≤ g.1 := ⟨fun _ _ _ => le_trans⟩
  have hperm : dir.sorted.Perm dir.ups := List.perm_insertionSort _ _
  have hle : dir.sorted.Pairwise fun f g => f.1 ≤ g.1 := List.pairwise_insertionSort _ _
  have hne : dir.sorted.Pairwise fun f g => number width f.1 ≠ number width g.1 :=
    (hperm.pairwise_iff fun h => h.symm).mpr h.distinct
  refine (hle.and hne).imp_of_mem fun {f g} hf hg hfg => ?_
  have hf' := (h.digits f (hperm.mem_iff.mp hf)).1
  have hg' := (h.digits g (hperm.mem_iff.mp hg)).1
  refine (lt_iff_number_lt hf' hg' hfg.2).mp (lt_of_le_of_ne hfg.1 ?_)
  intro heq
  exact hfg.2 (by rw [heq])

theorem Numbered.isNumbered (h : dir.Numbered width) {v : String} (hv : v ∈ dir.versions) :
    IsNumbered width v := by
  obtain ⟨f, hf, rfl⟩ := List.mem_map.mp hv
  exact h.digits f ((List.mem_insertionSort _).mp hf)

theorem Numbered.versions_pairwise (h : dir.Numbered width) :
    dir.versions.Pairwise fun v w => number width v < number width w :=
  List.pairwise_map.mpr h.sorted_pairwise

theorem Numbered.versions_nodup (h : dir.Numbered width) : dir.versions.Nodup :=
  h.versions_pairwise.imp fun {v w} hlt (heq : v = w) => lt_irrefl _ (heq ▸ hlt)

/-- The database sorts the rows as the program sorts the files. -/
theorem Numbered.insertionSort_take (h : dir.Numbered width) {collation : String → String → Prop}
    [DecidableRel collation] (hc : SortsNumbers width collation) (k : Nat) :
    (dir.versions.take k).insertionSort collation = dir.versions.take k := by
  refine List.Pairwise.insertionSort_eq ?_
  refine (h.versions_pairwise.sublist (List.take_sublist k _)).imp_of_mem fun {v w} hv hw hlt => ?_
  exact hc v w (h.isNumbered (List.mem_of_mem_take hv)) (h.isNumbered (List.mem_of_mem_take hw)) hlt

theorem Numbered.mem_take (h : dir.Numbered width) {j k : Nat} {v : String}
    (hv : dir.versions[j]? = some v) : v ∈ dir.versions.take k ↔ j < k := by
  obtain ⟨hj, rfl⟩ := List.getElem?_eq_some_iff.mp hv
  rw [List.mem_take_iff_getElem]
  constructor
  · rintro ⟨i, hi, heq⟩
    have hij := (h.versions_nodup.getElem_inj_iff).mp heq
    omega
  · intro hjk
    exact ⟨j, by omega, rfl⟩

/-- What `discover` knows of its `j`-th migration. -/
theorem Numbered.discover_getElem? (h : dir.Numbered width) {migrations : List (Migration σ)}
    (hd : dir.discover = some migrations) {j : Nat} {m : Migration σ}
    (hm : migrations[j]? = some m) :
    dir.sorted[j]? = some (m.version, m.up) ∧ dir.down? m.version = some m.down := by
  rw [discover, h.upFiles_eq] at hd
  obtain ⟨f, hf, hfm⟩ := Traverse.mapM_getElem? hd hm
  obtain ⟨down, hdown, rfl⟩ := Option.map_eq_some_iff.mp hfm
  exact ⟨hf, hdown⟩

theorem Numbered.discover_length (h : dir.Numbered width) {migrations : List (Migration σ)}
    (hd : dir.discover = some migrations) : migrations.length = dir.versions.length := by
  rw [discover, h.upFiles_eq] at hd
  rw [Traverse.mapM_length hd, versions, List.length_map]

theorem versions_getElem? {j : Nat} {f : String × Script σ} (hf : dir.sorted[j]? = some f) :
    dir.versions[j]? = some f.1 := by
  rw [versions, List.getElem?_map, hf]
  rfl

theorem schemaAfter_succ (empty : σ) {k : Nat} {f : String × Script σ}
    (hf : dir.sorted[k]? = some f) :
    dir.schemaAfter empty (k + 1) =
      (dir.schemaAfter empty k).bind fun schema => f.2.run schema := by
  rw [schemaAfter, schemaAfter, List.take_add_one, hf, Option.toList_some, List.foldlM_append]
  exact congrArg (Option.bind _) (funext fun schema => Option.bind_fun_some _)

/-- The scripts of a prefix run if more of them do. -/
theorem schemaAfter_isSome {empty : σ} {j k : Nat} (hjk : j ≤ k)
    (h : (dir.schemaAfter empty k).isSome = true) : (dir.schemaAfter empty j).isSome = true := by
  have hsplit := (List.take_append_drop j (dir.sorted.take k)).symm
  rw [List.take_take, Nat.min_eq_left hjk] at hsplit
  unfold schemaAfter at h ⊢
  rw [hsplit, List.foldlM_append] at h
  obtain ⟨last, hlast⟩ := Option.isSome_iff_exists.mp h
  obtain ⟨schema, hschema, -⟩ := Option.bind_eq_some_iff.mp hlast
  rw [hschema]
  rfl

/-- Each `down` script undoes its `up` script, where the migrations before it have been applied. -/
def Undoes (dir : Directory σ) (empty : σ) : Prop :=
  ∀ (k : Nat) (version : String) (up down : Script σ), dir.sorted[k]? = some (version, up) →
    dir.down? version = some down → ∀ before after, dir.schemaAfter empty k = some before →
      up.run before = some after → ∀ schema, down.run after = some schema → schema = before

end Directory

/-! ## A transaction -/

section

variable {σ : Type}

/-- The statements of a transaction, one after the other. -/
def TxStatement.execAll (todo : List (TxStatement σ)) (working : σ × List String) :
    Option (σ × List String) :=
  todo.foldlM (fun working statement => statement.exec working) working

theorem TxStatement.execAll_cons (statement : TxStatement σ) (todo : List (TxStatement σ))
    (working : σ × List String) :
    execAll (statement :: todo) working = (statement.exec working).bind (execAll todo) := rfl

/-- A script and one more statement. -/
theorem TxStatement.execAll_script (script : Script σ) (last : TxStatement σ) (schema : σ)
    (rows : List String) : execAll (script.map .script ++ [last]) (schema, rows) =
      (script.run schema).bind fun schema => last.exec (schema, rows) := by
  induction script generalizing schema with
  | nil =>
    rw [List.map_nil, List.nil_append, execAll_cons]
    exact Option.bind_fun_some _
  | cons statement script ih =>
    rw [List.map_cons, List.cons_append, execAll_cons, Script.run, List.foldlM_cons, exec]
    cases statement schema with
    | none => rfl
    | some schema => exact ih schema

theorem execAll_upStatements {m : Migration σ} {schema schema' : σ} {rows rows' : List String}
    (h : TxStatement.execAll (upStatements m) (schema, rows) = some (schema', rows')) :
    m.up.run schema = some schema' ∧ rows' = rows ++ [m.version] := by
  rw [upStatements, TxStatement.execAll_script] at h
  obtain ⟨after, hrun, h⟩ := Option.bind_eq_some_iff.mp h
  rw [TxStatement.exec] at h
  split at h
  · cases h
  · cases h
    exact ⟨hrun, rfl⟩

/-- The transaction of `up` commits if its script runs and the version is not in the log. -/
theorem execAll_upStatements_of {m : Migration σ} {schema schema' : σ} {rows : List String}
    (hrun : m.up.run schema = some schema') (hnew : m.version ∉ rows) :
    TxStatement.execAll (upStatements m) (schema, rows) =
      some (schema', rows ++ [m.version]) := by
  rw [upStatements, TxStatement.execAll_script, hrun, Option.bind_some, TxStatement.exec,
    if_neg hnew]

theorem execAll_downStatements {version : String} {script : Script σ} {schema schema' : σ}
    {rows rows' : List String}
    (h : TxStatement.execAll (downStatements version script) (schema, rows) =
      some (schema', rows')) :
    script.run schema = some schema' ∧ rows' = rows.filter (· ≠ version) := by
  rw [downStatements, TxStatement.execAll_script] at h
  obtain ⟨after, hrun, h⟩ := Option.bind_eq_some_iff.mp h
  cases h
  exact ⟨hrun, rfl⟩

end

/-! ## What holds at every moment -/

section

variable {σ : Type} (dir : Directory σ) (empty : σ)

/-- What is committed is the first `k` migrations. -/
structure Committed (k : Nat) (schema : σ) (versions : List String) : Prop where
  le : k ≤ dir.versions.length
  versions : versions = dir.versions.take k
  schema : dir.schemaAfter empty k = some schema

/-- `up`'s loop when `k` migrations are committed: it found `k₀` and has looked at `j`. -/
def LoopOk (k : Nat) (loop : UpLoop σ) : Prop :=
  ∃ migrations j k₀, dir.discover = some migrations ∧ j ≤ migrations.length ∧
    loop.rest = migrations.drop j ∧ loop.done = dir.versions.take k₀ ∧ k = max j k₀

/-- The rest of a transaction goes on from the working copy as all of it does from what is
committed. -/
def Continues (todo : List (TxStatement σ)) (working : σ × List String)
    (whole : List (TxStatement σ)) (committed : σ × List String) : Prop :=
  TxStatement.execAll todo working = TxStatement.execAll whole committed

def SessionOk (k : Nat) (schema : σ) (versions : List String) : Session σ → Prop
  | .idle (some (.applied _)) => k = dir.versions.length ∧ dir.discover.isSome
  | .idle _ | .connected _ | .bootstrapped _ => True
  | .looping loop => LoopOk dir k loop
  | .transaction version working rows todo (some loop) =>
    ∃ migrations m, dir.discover = some migrations ∧ migrations[k]? = some m ∧
      m.version = version ∧ LoopOk dir (k + 1) loop ∧
      Continues todo (working, rows) (upStatements m) (schema, versions)
  | .transaction version working rows todo none =>
    ∃ migrations m k', dir.discover = some migrations ∧ migrations[k']? = some m ∧
      m.version = version ∧ k = k' + 1 ∧
      Continues todo (working, rows) (downStatements version m.down) (schema, versions)

/-- The invariant. -/
def LogOk (s : MigrateState σ) : Prop :=
  ∃ k, Committed dir empty k s.schema s.versions ∧ SessionOk dir k s.schema s.versions s.session

variable {dir empty} {width : Nat} {collation : String → String → Prop} [DecidableRel collation]

theorem begin_ok (h : dir.Numbered width) (hc : SortsNumbers width collation) {k : Nat}
    {s : MigrateState σ} (hs : Committed dir empty k s.schema s.versions) (command : Command) :
    SessionOk dir k s.schema s.versions (begin dir collation s command) := by
  have happlied : applied collation s = dir.versions.take k := by
    rw [applied, hs.versions, h.insertionSort_take hc]
  cases command with
  | up =>
    rw [begin]
    cases hd : dir.discover with
    | none => trivial
    | some migrations =>
      exact ⟨migrations, 0, k, hd, Nat.zero_le _, rfl, happlied, (Nat.zero_max k).symm⟩
  | down =>
    rw [begin, happlied]
    cases hlast : (dir.versions.take k).getLast? with
    | none => trivial
    | some version =>
      dsimp only
      cases hfind : dir.discover.bind fun migrations =>
          migrations.find? fun m => m.version = version with
      | none => trivial
      | some m =>
        obtain ⟨migrations, hd, hfind⟩ := Option.bind_eq_some_iff.mp hfind
        have hversion : m.version = version := by simpa using List.find?_some hfind
        obtain ⟨i, hi⟩ := List.getElem?_of_mem (List.mem_of_find?_eq_some hfind)
        -- the row is that of the migration before the `k`-th
        rw [List.getLast?_eq_getElem?, List.length_take_of_le hs.le] at hlast
        have hk : k - 1 < k := by
          by_contra hk
          rw [List.getElem?_take_eq_none (by omega)] at hlast
          cases hlast
        rw [List.getElem?_take_of_lt hk] at hlast
        have hm := Directory.versions_getElem? (h.discover_getElem? hd hi).1
        have hik : i = k - 1 := by
          have hi' := (List.getElem?_eq_some_iff.mp hm).1
          exact (List.getElem?_inj hi' h.versions_nodup).mp (by rw [hm, hlast, ← hversion])
        exact ⟨migrations, m, i, hd, hi, hversion, by omega, rfl⟩
  | status =>
    rw [begin]
    cases dir.discover <;> trivial

theorem turn_ok (h : dir.Numbered width) {k : Nat} {s : MigrateState σ}
    (hs : Committed dir empty k s.schema s.versions) {loop : UpLoop σ} (hl : LoopOk dir k loop) :
    SessionOk dir k s.schema s.versions (turn s loop) := by
  obtain ⟨migrations, j, k₀, hd, hj, hrest, hdone, hk⟩ := hl
  have hlength := h.discover_length hd
  have hle := hs.le
  rw [turn]
  cases hr : loop.rest with
  | nil =>
    -- it has looked at all of them
    rw [hrest, List.drop_eq_nil_iff] at hr
    exact ⟨by omega, by rw [hd]; rfl⟩
  | cons m rest =>
    have hm : migrations[j]? = some m := by
      rw [← List.head?_drop, ← hrest, hr]
      rfl
    have hdrop : rest = migrations.drop (j + 1) := by
      rw [← List.drop_drop, ← hrest, hr]
      rfl
    have hjlt := (List.getElem?_eq_some_iff.mp hm).1
    have hmem := h.mem_take (k := k₀) (Directory.versions_getElem? (h.discover_getElem? hd hm).1)
    dsimp only
    split
    · rename_i hin
      rw [hdone, hmem] at hin
      exact ⟨migrations, j + 1, k₀, hd, hjlt, hdrop, hdone, by omega⟩
    · rename_i hin
      rw [hdone, hmem] at hin
      have hkj : k = j := by omega
      subst hkj
      exact ⟨migrations, m, hd, hm, rfl, ⟨migrations, k + 1, k₀, hd, hjlt, hdrop, hdone, by omega⟩,
        rfl⟩

/-- The commit of `up` adds a migration. -/
theorem committed_up (h : dir.Numbered width) {k : Nat} {schema schema' : σ}
    {rows rows' : List String} (hs : Committed dir empty k schema rows)
    {migrations : List (Migration σ)} (hd : dir.discover = some migrations) {m : Migration σ}
    (hm : migrations[k]? = some m)
    (hrun : TxStatement.execAll (upStatements m) (schema, rows) = some (schema', rows')) :
    Committed dir empty (k + 1) schema' rows' := by
  obtain ⟨hup, rfl⟩ := execAll_upStatements hrun
  obtain ⟨hsorted, -⟩ := h.discover_getElem? hd hm
  have hversion := Directory.versions_getElem? hsorted
  refine ⟨(List.getElem?_eq_some_iff.mp hversion).1, ?_, ?_⟩
  · rw [hs.versions, List.take_add_one, hversion]
    rfl
  · rw [Directory.schemaAfter_succ empty hsorted, hs.schema]
    exact hup

/-- The commit of `down` takes the last one away. -/
theorem committed_down (h : dir.Numbered width) (hu : dir.Undoes empty) {k : Nat}
    {schema schema' : σ} {rows rows' : List String}
    (hs : Committed dir empty (k + 1) schema rows) {migrations : List (Migration σ)}
    (hd : dir.discover = some migrations) {m : Migration σ} (hm : migrations[k]? = some m)
    (hrun : TxStatement.execAll (downStatements m.version m.down) (schema, rows) =
      some (schema', rows')) :
    Committed dir empty k schema' rows' := by
  obtain ⟨hdown, rfl⟩ := execAll_downStatements hrun
  obtain ⟨hsorted, hreverse⟩ := h.discover_getElem? hd hm
  have hversion := Directory.versions_getElem? hsorted
  refine ⟨Nat.le_of_succ_le hs.le, ?_, ?_⟩
  · have hkeep : ∀ v ∈ dir.versions.take k, decide (v ≠ m.version) = true := by
      intro v hv
      refine decide_eq_true ?_
      rintro rfl
      exact Nat.lt_irrefl _ ((h.mem_take hversion).mp hv)
    rw [hs.versions, List.take_add_one, hversion, List.filter_append, List.filter_eq_self.mpr hkeep]
    simp
  · have hschema := hs.schema
    rw [Directory.schemaAfter_succ empty hsorted] at hschema
    obtain ⟨before, hbefore, hup⟩ := Option.bind_eq_some_iff.mp hschema
    rw [hbefore, hu k _ _ _ hsorted hreverse _ _ hbefore hup _ hdown]

theorem logOk_initial : LogOk dir empty (MigrateState.initial empty) :=
  ⟨0, ⟨Nat.zero_le _, rfl, rfl⟩, trivial⟩

theorem logOk_advance (h : dir.Numbered width) (hc : SortsNumbers width collation)
    (hu : dir.Undoes empty) {s s' : MigrateState σ} (hs : LogOk dir empty s)
    (hst : s.advance dir collation = some s') : LogOk dir empty s' := by
  obtain ⟨k, hk, hsession⟩ := hs
  obtain ⟨schema, rows, session⟩ := s
  cases session with
  | idle last => cases hst
  | connected command =>
    cases hst
    exact ⟨k, hk, trivial⟩
  | bootstrapped command =>
    cases hst
    exact ⟨k, hk, begin_ok h hc hk command⟩
  | looping loop =>
    cases hst
    exact ⟨k, hk, turn_ok h hk hsession⟩
  | transaction version working wrows todo next =>
    cases todo with
    | cons statement todo =>
      rw [MigrateState.advance] at hst
      dsimp only at hst
      split at hst
      · rename_i working' wrows' hexec
        cases hst
        cases next with
        | some loop =>
          obtain ⟨migrations, m, hd, hm, hversion, hloop, hrun⟩ := hsession
          refine ⟨k, hk, migrations, m, hd, hm, hversion, hloop, ?_⟩
          rwa [Continues, TxStatement.execAll_cons, hexec] at hrun
        | none =>
          obtain ⟨migrations, m, k', hd, hm, hversion, hk', hrun⟩ := hsession
          refine ⟨k, hk, migrations, m, k', hd, hm, hversion, hk', ?_⟩
          rwa [Continues, TxStatement.execAll_cons, hexec] at hrun
      · cases hst
        exact ⟨k, hk, trivial⟩
    | nil =>
      cases hst
      cases next with
      | some loop =>
        obtain ⟨migrations, m, hd, hm, hversion, hloop, hrun⟩ := hsession
        exact ⟨k + 1, committed_up h hk hd hm hrun.symm, hloop⟩
      | none =>
        obtain ⟨migrations, m, k', hd, hm, rfl, rfl, hrun⟩ := hsession
        exact ⟨k', committed_down h hu hk hd hm hrun.symm, trivial⟩

theorem logOk_step (h : dir.Numbered width) (hc : SortsNumbers width collation)
    (hu : dir.Undoes empty) {s s' : MigrateState σ} {a : MigrateAction} (hs : LogOk dir empty s)
    (hst : s.step dir collation a = some s') : LogOk dir empty s' := by
  cases a with
  | start command =>
    rw [MigrateState.step] at hst
    split at hst
    · cases hst
      obtain ⟨k, hk, -⟩ := hs
      exact ⟨k, hk, trivial⟩
    · cases hst
  | advance => exact logOk_advance h hc hu hs hst
  | fail =>
    rw [MigrateState.step] at hst
    split at hst
    · cases hst
    · cases hst
      obtain ⟨k, hk, -⟩ := hs
      exact ⟨k, hk, trivial⟩

end

/-! ## `up` ends -/

section

variable {σ : Type} {dir : Directory σ} {collation : String → String → Prop}
  [DecidableRel collation]

/-! A statement of a transaction is done, or refused. -/

theorem advance_done {schema : σ} {rows : Option (List String)} {version : String} {working : σ}
    {wrows : List String} {statement : TxStatement σ} {todo : List (TxStatement σ)}
    {next : Option (UpLoop σ)} {after : σ × List String}
    (h : statement.exec (working, wrows) = some after) :
    MigrateState.advance dir collation
      ⟨schema, rows, .transaction version working wrows (statement :: todo) next⟩ =
        some ⟨schema, rows, .transaction version after.1 after.2 todo next⟩ := by
  simp only [MigrateState.advance, h]

theorem advance_refused {schema : σ} {rows : Option (List String)} {version : String} {working : σ}
    {wrows : List String} {statement : TxStatement σ} {todo : List (TxStatement σ)}
    {next : Option (UpLoop σ)} (h : statement.exec (working, wrows) = none) :
    MigrateState.advance dir collation
      ⟨schema, rows, .transaction version working wrows (statement :: todo) next⟩ =
        some ⟨schema, rows, .idle (some .failed)⟩ := by
  simp only [MigrateState.advance, h]

variable (dir collation) in
/-- The program comes to such a state by itself. -/
def RunsTo (Q : MigrateState σ → Prop) (s : MigrateState σ) : Prop :=
  ∃ n s',
    StepSystem.exec (MigrateState.step dir collation) s (List.replicate n .advance) = some s' ∧ Q s'

theorem RunsTo.of_advance {Q : MigrateState σ → Prop} {s s' : MigrateState σ}
    (hst : s.advance dir collation = some s') (h : RunsTo dir collation Q s') :
    RunsTo dir collation Q s := by
  obtain ⟨n, s'', hexec, hend⟩ := h
  refine ⟨n + 1, s'', ?_, hend⟩
  rw [List.replicate_succ, StepSystem.exec, MigrateState.step, hst]
  exact hexec

variable (dir collation) in
/-- `up` comes to its end. -/
abbrev UpEnds : MigrateState σ → Prop := RunsTo dir collation fun s =>
  s.session = .idle (some .failed) ∨ ∃ count, s.session = .idle (some (.applied count))

theorem upEnds_failed (schema : σ) (rows : Option (List String)) :
    UpEnds dir collation ⟨schema, rows, .idle (some .failed)⟩ :=
  ⟨0, _, rfl, Or.inl rfl⟩

/-- A transaction ends if what comes after it does. -/
theorem upEnds_transaction (version : String) {loop : UpLoop σ}
    (hnext : ∀ schema rows, UpEnds dir collation ⟨schema, rows, .looping loop⟩) (schema : σ)
    (rows : Option (List String)) (working : σ) (wrows : List String)
    (todo : List (TxStatement σ)) : UpEnds dir collation
      ⟨schema, rows, .transaction version working wrows todo (some loop)⟩ := by
  induction todo generalizing working wrows with
  | nil => exact .of_advance rfl (hnext working (some wrows))
  | cons statement todo ih =>
    cases hexec : statement.exec (working, wrows) with
    | none => exact .of_advance (advance_refused hexec) (upEnds_failed schema rows)
    | some after => exact .of_advance (advance_done hexec) (ih after.1 after.2)

theorem upEnds_looping (rest : List (Migration σ)) (done : List String) (count : Nat) (schema : σ)
    (rows : Option (List String)) :
    UpEnds dir collation ⟨schema, rows, .looping ⟨done, rest, count⟩⟩ := by
  induction rest generalizing count schema rows with
  | nil => exact .of_advance rfl ⟨0, _, rfl, Or.inr ⟨count, rfl⟩⟩
  | cons m rest ih =>
    by_cases hm : m.version ∈ done
    · refine .of_advance ?_ (ih count schema rows)
      simp only [MigrateState.advance, turn, if_pos hm]
    · have htransaction := upEnds_transaction m.version (ih (count + 1)) schema rows schema
        (rows.getD []) (upStatements m)
      refine .of_advance ?_ htransaction
      simp only [MigrateState.advance, turn, if_neg hm, MigrateState.versions]

theorem upEnds_connected (schema : σ) (rows : Option (List String)) :
    UpEnds dir collation ⟨schema, rows, .connected .up⟩ := by
  refine .of_advance rfl (.of_advance rfl ?_)
  rw [begin]
  cases dir.discover with
  | none => exact upEnds_failed _ _
  | some migrations => exact upEnds_looping _ _ _ _ _

/-! ## `up` applies all there is -/

/-- A transaction of which every statement is done goes on behind its commit. -/
theorem runsTo_transaction {Q : MigrateState σ → Prop} (version : String) {loop : UpLoop σ}
    (schema : σ) (rows : Option (List String)) {todo : List (TxStatement σ)}
    {working after : σ × List String} (hexec : TxStatement.execAll todo working = some after)
    (hnext : RunsTo dir collation Q ⟨after.1, some after.2, .looping loop⟩) :
    RunsTo dir collation Q
      ⟨schema, rows, .transaction version working.1 working.2 todo (some loop)⟩ := by
  induction todo generalizing working with
  | nil =>
    obtain rfl : working = after := Option.some.inj hexec
    exact .of_advance rfl hnext
  | cons statement todo ih =>
    rw [TxStatement.execAll_cons] at hexec
    obtain ⟨working', hstatement, hexec⟩ := Option.bind_eq_some_iff.mp hexec
    exact .of_advance (advance_done hstatement) (ih hexec)

variable (dir) in
/-- `up` has applied this many, and now all are. -/
def AllApplied (empty : σ) (count : Nat) (s : MigrateState σ) : Prop :=
  s.session = .idle (some (.applied count)) ∧ s.versions = dir.versions ∧
    dir.schemaAfter empty dir.versions.length = some s.schema

variable {empty : σ} {width : Nat}

variable (collation) in
/-- The loop applies what is not applied, where every script runs. `k` migrations are committed; the
induction is on those the loop has not looked at. -/
theorem runsTo_allApplied (h : dir.Numbered width) {migrations : List (Migration σ)}
    (hd : dir.discover = some migrations)
    (hscripts : (dir.schemaAfter empty dir.versions.length).isSome = true) {k₀ : Nat}
    (rest : List (Migration σ)) {j k : Nat} (hrest : migrations.drop j = rest)
    (hj : j ≤ migrations.length) (hk : k = max j k₀) {schema : σ} {rows : Option (List String)}
    (hs : Committed dir empty k schema (rows.getD [])) (count : Nat) :
    RunsTo dir collation (AllApplied dir empty (count + (dir.versions.length - k)))
      ⟨schema, rows, .looping ⟨dir.versions.take k₀, rest, count⟩⟩ := by
  have hlength := h.discover_length hd
  induction rest generalizing j k schema rows count with
  | nil =>
    have hle := hs.le
    rw [List.drop_eq_nil_iff] at hrest
    obtain rfl : k = dir.versions.length := by omega
    refine .of_advance rfl ⟨0, _, rfl, ?_, hs.versions.trans List.take_length, hs.schema⟩
    simp [turn]
  | cons m rest ih =>
    have hm : migrations[j]? = some m := by
      rw [← List.head?_drop, hrest]
      rfl
    have hdrop : migrations.drop (j + 1) = rest := by
      rw [← List.drop_drop, hrest]
      rfl
    have hjlt := (List.getElem?_eq_some_iff.mp hm).1
    obtain ⟨hsorted, -⟩ := h.discover_getElem? hd hm
    have hversion := Directory.versions_getElem? hsorted
    by_cases hdone : j < k₀
    · have hin := (h.mem_take hversion).mpr hdone
      refine .of_advance ?_ (ih hdrop hjlt (by omega) hs count)
      simp only [MigrateState.advance, turn, if_pos hin]
    · obtain rfl : k = j := by omega
      have hin : m.version ∉ dir.versions.take k₀ := fun hin => hdone ((h.mem_take hversion).mp hin)
      have hnew : m.version ∉ rows.getD [] := by
        rw [hs.versions, h.mem_take hversion]
        omega
      -- the script runs, since those of all versions do
      have hnext := Directory.schemaAfter_isSome (by omega : k + 1 ≤ dir.versions.length) hscripts
      rw [Directory.schemaAfter_succ empty hsorted, hs.schema, Option.bind_some] at hnext
      obtain ⟨schema', hrun⟩ := Option.isSome_iff_exists.mp hnext
      have hexec := execAll_upStatements_of hrun hnew
      have hcommitted : Committed dir empty (k + 1) schema'
          ((some (rows.getD [] ++ [m.version])).getD []) := committed_up h hs hd hm hexec
      have hih := ih hdrop hjlt (by omega) hcommitted (count + 1)
      rw [show count + 1 + (dir.versions.length - (k + 1)) =
        count + (dir.versions.length - k) by omega] at hih
      refine .of_advance ?_ (runsTo_transaction m.version schema rows hexec hih)
      simp only [MigrateState.advance, turn, if_neg hin, MigrateState.versions]

theorem runsTo_connected (h : dir.Numbered width) (hc : SortsNumbers width collation)
    (hd : dir.discover.isSome = true)
    (hscripts : (dir.schemaAfter empty dir.versions.length).isSome = true) {k : Nat} {schema : σ}
    {rows : Option (List String)} (hs : Committed dir empty k schema (rows.getD [])) :
    RunsTo dir collation (AllApplied dir empty (dir.versions.length - k))
      ⟨schema, rows, .connected .up⟩ := by
  obtain ⟨migrations, hd⟩ := Option.isSome_iff_exists.mp hd
  have happlied : applied collation ⟨schema, some (rows.getD []), .bootstrapped .up⟩ =
      dir.versions.take k := by
    change (rows.getD []).insertionSort collation = _
    rw [hs.versions, h.insertionSort_take hc]
  have hs' : Committed dir empty k schema ((some (rows.getD [])).getD []) := hs
  have hloop := runsTo_allApplied collation h hd hscripts migrations List.drop_zero (Nat.zero_le _)
    (Nat.zero_max k).symm hs' 0
  rw [Nat.zero_add] at hloop
  refine .of_advance rfl (.of_advance ?_ hloop)
  simp only [MigrateState.advance, begin, hd]
  rw [← happlied]
  rfl

variable (dir collation) in
/-- The loop passes over what is done already. -/
theorem exec_looping_done (rest : List (Migration σ)) {done : List String}
    (hdone : ∀ m ∈ rest, m.version ∈ done) (count : Nat) (schema : σ)
    (rows : Option (List String)) :
    StepSystem.exec (MigrateState.step dir collation)
      ⟨schema, rows, .looping ⟨done, rest, count⟩⟩ (List.replicate (rest.length + 1) .advance) =
        some ⟨schema, rows, .idle (some (.applied count))⟩ := by
  induction rest with
  | nil => rfl
  | cons m rest ih =>
    obtain ⟨hm, hrest⟩ := List.forall_mem_cons.mp hdone
    rw [List.length_cons, List.replicate_succ, StepSystem.exec, MigrateState.step,
      MigrateState.advance]
    simp only [turn, if_pos hm, Option.bind_some]
    exact ih hrest

variable (dir collation) in
/-- A transaction of `down` ends with its commit, or with what was committed before it. -/
theorem exec_transaction (version : String) (schema : σ) (rows : Option (List String))
    (working : σ) (wrows : List String) (todo : List (TxStatement σ)) :
    ∃ n, StepSystem.exec (MigrateState.step dir collation)
      ⟨schema, rows, .transaction version working wrows todo none⟩ (List.replicate n .advance) =
        some (match TxStatement.execAll todo (working, wrows) with
          | some after => ⟨after.1, some after.2, .idle (some (.reversed version))⟩
          | none => ⟨schema, rows, .idle (some .failed)⟩) := by
  induction todo generalizing working wrows with
  | nil => exact ⟨1, rfl⟩
  | cons statement todo ih =>
    cases hexec : statement.exec (working, wrows) with
    | none =>
      refine ⟨1, ?_⟩
      rw [List.replicate_one, StepSystem.exec, MigrateState.step, advance_refused hexec,
        TxStatement.execAll_cons, hexec]
      rfl
    | some after =>
      obtain ⟨n, hn⟩ := ih after.1 after.2
      refine ⟨n + 1, ?_⟩
      rw [List.replicate_succ, StepSystem.exec, MigrateState.step, advance_done hexec,
        TxStatement.execAll_cons, hexec]
      exact hn

variable (dir collation) in
/-- The whole transaction of `down`. -/
theorem exec_downTransaction (version : String) (script : Script σ) (schema : σ)
    (log : List String) :
    ∃ n, StepSystem.exec (MigrateState.step dir collation)
      ⟨schema, some log, .transaction version schema log (downStatements version script) none⟩
      (List.replicate n .advance) =
        some (match script.run schema with
          | some schema' =>
            ⟨schema', some (log.filter (· ≠ version)), .idle (some (.reversed version))⟩
          | none => ⟨schema, some log, .idle (some .failed)⟩) := by
  obtain ⟨n, hn⟩ := exec_transaction dir collation version schema (some log) schema log
    (downStatements version script)
  refine ⟨n, hn.trans ?_⟩
  rw [downStatements, TxStatement.execAll_script]
  cases script.run schema <;> rfl

end

/-! ## The directory of the repository -/

theorem sortsNumbers_le (width : Nat) : SortsNumbers width (· ≤ ·) := fun _ _ hv hw hlt =>
  ((lt_iff_number_lt hv.1 hw.1 hlt.ne).mpr hlt).le

namespace Migrations

open Ddl (Database)

def emptyDatabase : Database Name := ⟨emptySchema, fun _ => []⟩

theorem directory_numbered : directory.Numbered 4 where
  digits := by decide
  distinct := by decide

theorem schemaAfter_of_reverses {k : Nat} {version : String} {ups downs : List (Ddl.Statement Name)}
    {S S' : Ddl.Schema Name} (hsorted : directory.sorted[k]? = some (version, scriptOf ups))
    (hr : Reverses ups downs S S')
    (hk : directory.schemaAfter emptyDatabase k = some ⟨S, fun _ => []⟩) :
    directory.schemaAfter emptyDatabase (k + 1) = some ⟨S', fun _ => []⟩ := by
  rw [Directory.schemaAfter_succ _ hsorted, hk, Option.bind_some, run_scriptOf]
  exact Ddl.run_empty hr.1

theorem directory_getElem? (k : Nat) : directory.sorted[k]? = directory.ups[k]? := by
  rw [directory_sorted]

/-- The schemas behind each migration. -/
theorem directory_schemaAfter :
    directory.schemaAfter emptyDatabase 1 = some ⟨schema0001, fun _ => []⟩ ∧
      directory.schemaAfter emptyDatabase 2 = some ⟨schema0002, fun _ => []⟩ ∧
      directory.schemaAfter emptyDatabase 3 = some ⟨schema0003, fun _ => []⟩ ∧
      directory.schemaAfter emptyDatabase 4 = some ⟨schema0004, fun _ => []⟩ := by
  have h1 := schemaAfter_of_reverses (directory_getElem? 0) reverses_initial rfl
  have h2 := schemaAfter_of_reverses (directory_getElem? 1) reverses_dataset h1
  have h3 := schemaAfter_of_reverses (directory_getElem? 2) reverses_rateLimit h2
  exact ⟨h1, h2, h3, schemaAfter_of_reverses (directory_getElem? 3) reverses_recent h3⟩

/-- The schemas before and after each migration. -/
theorem directory_reverses {k : Nat} {version : String} {up down : Script (Database Name)}
    (hsorted : directory.sorted[k]? = some (version, up))
    (hdown : directory.down? version = some down) :
    ∃ ups downs S S', up = scriptOf ups ∧ down = scriptOf downs ∧ Reverses ups downs S S' ∧
      directory.schemaAfter emptyDatabase k = some ⟨S, fun _ => []⟩ := by
  obtain ⟨h1, h2, h3, -⟩ := directory_schemaAfter
  rw [directory_getElem?] at hsorted
  match k, hsorted with
  | 0, rfl =>
    cases hdown.symm.trans (rfl : _ = some (scriptOf initialDown))
    exact ⟨_, _, _, _, rfl, rfl, reverses_initial, rfl⟩
  | 1, rfl =>
    cases hdown.symm.trans (rfl : _ = some (scriptOf datasetDown))
    exact ⟨_, _, _, _, rfl, rfl, reverses_dataset, h1⟩
  | 2, rfl =>
    cases hdown.symm.trans (rfl : _ = some (scriptOf rateLimitDown))
    exact ⟨_, _, _, _, rfl, rfl, reverses_rateLimit, h2⟩
  | 3, rfl =>
    cases hdown.symm.trans (rfl : _ = some (scriptOf recentDown))
    exact ⟨_, _, _, _, rfl, rfl, reverses_recent, h3⟩

theorem directory_undoes : directory.Undoes emptyDatabase := by
  intro k version up down hsorted hdown before after hbefore hup schema hrun
  obtain ⟨ups, downs, S, S', rfl, rfl, ⟨hS', hS⟩, hk⟩ := directory_reverses hsorted hdown
  cases hbefore.symm.trans hk
  rw [run_scriptOf, Ddl.run_empty hS'] at hup
  cases hup
  rw [run_scriptOf, Ddl.run_empty hS] at hrun
  exact (Option.some.inj hrun).symm

end Migrations

/-! ## The log matches the schema -/

open StepSystem (Reachable exec)

/-- **The rows are a prefix of the versions and the schema is that of the scripts in it.** `up`
ends, with every version or with a failure; with every version if each `up` has its `down` and the
scripts run; and after one that did not fail another applies nothing. -/
theorem log_matches_schema {σ : Type} (dir : Directory σ) (collation : String → String → Prop)
    [DecidableRel collation] (empty : σ) (width : Nat) (h : dir.Numbered width)
    (hc : SortsNumbers width collation) (hu : dir.Undoes empty) :
    let Reached := Reachable (MigrateState.step dir collation) (MigrateState.initial empty)
    (∀ s, Reached s → ∃ k ≤ dir.versions.length, s.versions = dir.versions.take k ∧
      dir.schemaAfter empty k = some s.schema) ∧
    (∀ s last, Reached s → s.session = .idle last →
      ∃ n s', exec (MigrateState.step dir collation) s
          (.start .up :: List.replicate n .advance) = some s' ∧
        (s'.session = .idle (some .failed) ∨ ∃ count, s'.session = .idle (some (.applied count)))) ∧
    (dir.discover.isSome = true → (dir.schemaAfter empty dir.versions.length).isSome = true →
      ∀ s last, Reached s → s.session = .idle last →
        ∃ n s', exec (MigrateState.step dir collation) s
            (.start .up :: List.replicate n .advance) = some s' ∧
          s'.session = .idle (some (.applied (dir.versions.length - s.versions.length))) ∧
          s'.versions = dir.versions ∧
          dir.schemaAfter empty dir.versions.length = some s'.schema) ∧
    (∀ s count, Reached s → s.session = .idle (some (.applied count)) →
      s.versions = dir.versions ∧
      ∃ n s', exec (MigrateState.step dir collation) s
          (.start .up :: List.replicate n .advance) = some s' ∧
        s'.session = .idle (some (.applied 0)) ∧ s'.schema = s.schema ∧
        s'.versions = s.versions) := by
  intro Reached
  have hlog : ∀ s, Reached s → LogOk dir empty s := fun s hs =>
    hs.invariant logOk_initial fun _ _ _ hI _ hst => logOk_step h hc hu hI hst
  refine ⟨fun s hs => ?_, fun s last _ hidle => ?_, fun hd hscripts s last hs hidle => ?_,
    fun s count hs hidle => ?_⟩
  · obtain ⟨k, hk, -⟩ := hlog s hs
    exact ⟨k, hk.le, hk.versions, hk.schema⟩
  · obtain ⟨schema, rows, session⟩ := s
    cases hidle
    exact upEnds_connected schema rows
  · obtain ⟨k, hk, -⟩ := hlog s hs
    obtain ⟨schema, rows, session⟩ := s
    cases hidle
    rw [hk.versions, List.length_take_of_le hk.le]
    exact runsTo_connected h hc hd hscripts hk
  · obtain ⟨k, hk, hsession⟩ := hlog s hs
    obtain ⟨schema, rows, session⟩ := s
    cases hidle
    obtain ⟨rfl, hd⟩ := hsession
    have hall := hk.versions.trans (List.take_length (l := dir.versions))
    refine ⟨hall, ?_⟩
    obtain ⟨migrations, hd⟩ := Option.isSome_iff_exists.mp hd
    have hdone : ∀ m ∈ migrations, m.version ∈ applied collation
        ⟨schema, some (rows.getD []), Session.bootstrapped Command.up⟩ := by
      intro m hm
      obtain ⟨i, hi⟩ := List.getElem?_of_mem hm
      have hversion := Directory.versions_getElem? (h.discover_getElem? hd hi).1
      refine (List.mem_insertionSort _).mpr ?_
      change m.version ∈ rows.getD []
      rw [show rows.getD [] = dir.versions from hall]
      exact List.mem_of_getElem? hversion
    have hloop := exec_looping_done dir collation migrations hdone 0 schema (some (rows.getD []))
    refine ⟨migrations.length + 1 + 2,
      ⟨schema, some (rows.getD []), .idle (some (.applied 0))⟩, ?_, rfl, rfl, rfl⟩
    simp only [List.replicate_succ, exec, MigrateState.step, MigrateState.advance, begin, hd,
      Option.bind_some] at hloop ⊢
    exact hloop

/-- `up` on the empty database applies the four migrations there are. -/
theorem log_matches_schema_directory :
    ∃ n s', exec (MigrateState.step Migrations.directory (· ≤ ·))
        (MigrateState.initial Migrations.emptyDatabase)
        (.start .up :: List.replicate n .advance) = some s' ∧
      s'.session = .idle (some (.applied 4)) ∧ s'.versions = Migrations.directory.versions ∧
      s'.schema = ⟨Migrations.schema0004, fun _ => []⟩ := by
  have hfour := Migrations.directory_schemaAfter.2.2.2
  obtain ⟨-, -, hall, -⟩ := log_matches_schema Migrations.directory (· ≤ ·)
    Migrations.emptyDatabase 4 Migrations.directory_numbered (sortsNumbers_le 4)
    Migrations.directory_undoes
  obtain ⟨n, s', hexec, hsession, hversions, hschema⟩ :=
    hall rfl (congrArg Option.isSome hfour) _ none .init rfl
  exact ⟨n, s', hexec, hsession, hversions, Option.some.inj (hschema.symm.trans hfour)⟩

end BattleCloud
