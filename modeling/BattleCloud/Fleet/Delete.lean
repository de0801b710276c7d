import BattleCloud.Fleet.Queue

/-!
# The referential actions

No statement of the repository deletes a replay or an analysis, and the migrations say what one
would do: analyses go with their replay (`ON DELETE CASCADE`), and the jobs that refer to a deleted
analysis lose it (`ON DELETE SET NULL`).

`delete_iff`: such a `DELETE` runs exactly where no succeeded job refers to an analysis it removes.
`jobs_succeeded_has_analysis` refuses every other one, and in a reachable state only a succeeded
job refers to an analysis, so the `SET NULL` never gets to a row.
-/

namespace BattleCloud

/-- The row a `DELETE` names. -/
inductive DeletedRow where
  | replay (id : String)
  | analysis (id : Uuid)

/-- The row of `replays` that goes. -/
def DeletedRow.takesReplay (d : DeletedRow) (r : ReplayRow) : Bool :=
  match d with
  | .replay id => r.id = id
  | .analysis _ => false

/-- The rows of `analyses` that go. -/
def DeletedRow.takesAnalysis (d : DeletedRow) (a : AnalysisRow) : Bool :=
  match d with
  | .replay id => a.columns.replayId = id
  | .analysis id => a.id = id

/-- The job refers to an analysis that goes. -/
def Db.refersToDeleted (db : Db) (d : DeletedRow) (j : JobRow) : Bool :=
  db.analyses.any fun a => d.takesAnalysis a && j.analysisId = some a.id

/-- `SET NULL`. -/
def JobRow.unlinked (j : JobRow) : JobRow := { j with analysisId := none }

/-- The tables after the referential actions. -/
def Db.without (db : Db) (d : DeletedRow) : Db where
  replays := db.replays.filter fun r => !d.takesReplay r
  analyses := db.analyses.filter fun a => !d.takesAnalysis a
  jobs := Table.updateWhere (db.refersToDeleted d) JobRow.unlinked db.jobs

/-- `DELETE FROM .. WHERE id = $1`. -/
def Db.delete (db : Db) (d : DeletedRow) : Except DbError Db := (db.without d).commit

variable {db : Db} {d : DeletedRow}

theorem Db.refersToDeleted_iff {j : JobRow} : db.refersToDeleted d j = true ↔
    ∃ a ∈ db.analyses, d.takesAnalysis a = true ∧ j.analysisId = some a.id := by
  simp [Db.refersToDeleted]

/-- The replay of an analysis that stays is one that stays. -/
theorem DeletedRow.takesReplay_of_stays {a : AnalysisRow} {r : ReplayRow}
    (h : d.takesAnalysis a = false) (hr : r.id = a.columns.replayId) : d.takesReplay r = false := by
  cases d with
  | replay id => simpa [takesReplay, takesAnalysis, hr] using h
  | analysis id => rfl

/-- **Every constraint but one outlasts the actions.** -/
theorem Db.Valid.without (hv : db.Valid) {c : Constraint} (hc : c ≠ .jobsSucceededHasAnalysis) :
    c.Holds (db.without d) := by
  have hjobs : ∀ {P : JobRow → Prop}, (∀ j ∈ db.jobs, P j) →
      (∀ j, P j → P j.unlinked) → ∀ j ∈ (db.without d).jobs, P j :=
    fun h hset => Table.forall_updateWhere h fun j _ hj _ => hset j hj
  cases c with
  | replaysPkey => exact Table.Unique.filter (hv .replaysPkey) _
  | replaysPayloadBytesCheck =>
    exact fun r hr => hv .replaysPayloadBytesCheck r (List.mem_of_mem_filter hr)
  | analysesPkey => exact Table.Unique.filter (hv .analysesPkey) _
  | analysesReplayIdFkey =>
    intro a ha
    obtain ⟨ha, hstays⟩ := List.mem_filter.mp ha
    obtain ⟨r, hr, hid⟩ := hv .analysesReplayIdFkey a ha
    have hkept := DeletedRow.takesReplay_of_stays (by simpa using hstays) hid
    exact ⟨r, List.mem_filter.mpr ⟨hr, by simpa using hkept⟩, hid⟩
  | analysesIdentityKey => exact Table.Unique.filter (hv .analysesIdentityKey) _
  | analysesIdentityChecks =>
    exact fun a ha => hv .analysesIdentityChecks a (List.mem_of_mem_filter ha)
  | analysesTotalTurnsCheck =>
    exact fun a ha => hv .analysesTotalTurnsCheck a (List.mem_of_mem_filter ha)
  | analysesGradableTurnsCheck =>
    exact fun a ha => hv .analysesGradableTurnsCheck a (List.mem_of_mem_filter ha)
  | analysesWallMsCheck =>
    exact fun a ha => hv .analysesWallMsCheck a (List.mem_of_mem_filter ha)
  | jobsPkey =>
    have hids : (db.without d).jobs.map JobRow.id = db.jobs.map JobRow.id :=
      Table.map_updateWhere fun _ => rfl
    have hnodup : (db.jobs.map JobRow.id).Nodup := hv .jobsPkey
    rwa [← hids] at hnodup
  | jobsIdentityChecks => exact hjobs (hv .jobsIdentityChecks) fun _ h => h
  | jobsEstimatesCheck => exact hjobs (hv .jobsEstimatesCheck) fun _ h => h
  | jobsAnalysisIdFkey =>
    intro j' hj'
    obtain ⟨j, hj, ⟨-, rfl⟩ | ⟨hkept, rfl⟩⟩ := Table.mem_updateWhere.mp hj'
    · rfl
    · -- what it refers to stays
      have hstored := hv .jobsAnalysisIdFkey j hj
      unfold JobRow.AnalysisStored at hstored ⊢
      cases hid : j.analysisId with
      | none => rfl
      | some i =>
        rw [hid, Option.all_some, List.any_eq_true] at hstored
        obtain ⟨a, ha, he⟩ := hstored
        have he : a.id = i := by simpa using he
        have hstays : d.takesAnalysis a = false := by
          by_contra ht
          have hrefers := Db.refersToDeleted_iff.mpr ⟨a, ha, by simpa using ht, by rw [hid, he]⟩
          rw [hkept] at hrefers
          cases hrefers
        rw [Option.all_some, List.any_eq_true]
        exact ⟨a, List.mem_filter.mpr ⟨ha, by simpa using hstays⟩, by simpa using he⟩
  | jobsClaimIsAllOrNothing => exact hjobs (hv .jobsClaimIsAllOrNothing) fun _ h => h
  | jobsSucceededHasAnalysis => exact absurd rfl hc
  | jobsFailedHasKind => exact hjobs (hv .jobsFailedHasKind) fun _ h => h
  | jobsActiveIdentityKey =>
    exact Table.uniqueWhere_updateWhere (hv .jobsActiveIdentityKey) fun _ _ _ => ⟨rfl, id⟩

/-- The one: a succeeded job must not lose its analysis. -/
theorem succeededHasAnalysis_without_iff (hv : db.Valid) :
    Constraint.jobsSucceededHasAnalysis.Holds (db.without d) ↔
      ∀ j ∈ db.jobs, j.status = .succeeded → db.refersToDeleted d j = false := by
  constructor
  · intro h j hj hs
    by_contra hr
    have hmem : j.unlinked ∈ (db.without d).jobs :=
      Table.mem_updateWhere.mpr ⟨j, hj, .inl ⟨by simpa using hr, rfl⟩⟩
    rcases h _ hmem with hne | hsome
    · exact hne hs
    · cases hsome
  · rintro h j' hj'
    obtain ⟨j, hj, ⟨hr, rfl⟩ | ⟨-, rfl⟩⟩ := Table.mem_updateWhere.mp hj'
    · left
      intro hs
      rw [h j hj hs] at hr
      cases hr
    · exact hv .jobsSucceededHasAnalysis j hj

/-- **When a `DELETE` runs**, and what refuses the others. -/
theorem Db.Valid.delete_cases (hv : db.Valid) :
    (db.delete d = .ok (db.without d) ∧
      ∀ j ∈ db.jobs, j.status = .succeeded → db.refersToDeleted d j = false) ∨
    (db.delete d = .error (.violates .jobsSucceededHasAnalysis) ∧
      ∃ j ∈ db.jobs, j.status = .succeeded ∧ db.refersToDeleted d j = true) := by
  cases h : db.delete d with
  | ok db' =>
    obtain ⟨hvalid, rfl⟩ := Db.commit_ok.mp h
    exact .inl ⟨rfl, (succeededHasAnalysis_without_iff hv).mp (hvalid _)⟩
  | error e =>
    obtain ⟨c, rfl, hfails⟩ := Db.commit_error h
    obtain rfl : c = .jobsSucceededHasAnalysis := by
      by_contra hc
      exact hfails (hv.without hc)
    refine .inr ⟨rfl, ?_⟩
    rw [succeededHasAnalysis_without_iff hv] at hfails
    by_contra hnone
    refine hfails fun j hj hs => Bool.eq_false_iff.mpr fun hr => ?_
    exact hnone ⟨j, hj, hs, hr⟩

/-- **When the referential actions run.** In a reachable state the `DELETE` of a replay or an
analysis leaves the tables its actions describe exactly if no succeeded job refers to an analysis
that goes; where one does, `jobs_succeeded_has_analysis` refuses it. Every job that refers to an
analysis is such a one. -/
theorem delete_iff {s : Fleet} (h : s.Reachable) (d : DeletedRow) :
    (s.db.delete d = .ok (s.db.without d) ↔
      ∀ j ∈ s.db.jobs, j.status = .succeeded →
        ∀ a ∈ s.db.analyses, d.takesAnalysis a = true → j.analysisId ≠ some a.id) ∧
    (s.db.delete d ≠ .ok (s.db.without d) →
      s.db.delete d = .error (.violates .jobsSucceededHasAnalysis)) ∧
    ∀ j ∈ s.db.jobs, s.db.refersToDeleted d j = true → j.status = .succeeded := by
  have hkeeps : ∀ j, s.db.refersToDeleted d j = false ↔
      ∀ a ∈ s.db.analyses, d.takesAnalysis a = true → j.analysisId ≠ some a.id := by
    intro j
    simp [Db.refersToDeleted]
  refine ⟨?_, ?_, ?_⟩
  · simp only [← hkeeps]
    rcases @Db.Valid.delete_cases s.db d (valid_of_reachable h) with
      ⟨hok, hall⟩ | ⟨herr, j, hj, hs, hr⟩
    · exact iff_of_true hok hall
    · refine iff_of_false ?_ ?_
      · rw [herr]
        intro he
        cases he
      · intro hall
        rw [hall j hj hs] at hr
        cases hr
  · intro hne
    rcases @Db.Valid.delete_cases s.db d (valid_of_reachable h) with ⟨hok, -⟩ | ⟨herr, -⟩
    · exact absurd hok hne
    · exact herr
  · intro j hj hr
    obtain ⟨a, -, -, hid⟩ := Db.refersToDeleted_iff.mp hr
    rw [((queue_of_reachable h).1.rows j hj).succeeded_iff, hid]
    rfl

/-- Before its report a job refers to no analysis, and its replay can be deleted. -/
theorem delete_iff_analyzed :
    (Fleet.after Sample.analyzed).db.delete (.replay "gen9ou-2672927429") =
      .ok ((Fleet.after Sample.analyzed).db.without (.replay "gen9ou-2672927429")) :=
  (delete_iff (Fleet.reachable_after Sample.analyzed) _).1.mpr (by decide)

/-- After it neither the analysis nor its replay can be. -/
theorem delete_refused_reported : ¬ ∀ (s : Fleet), s.Reachable →
    (∀ a ∈ s.db.analyses, s.db.delete (.analysis a.id) = .ok (s.db.without (.analysis a.id))) ∧
      ∀ r ∈ s.db.replays, s.db.delete (.replay r.id) = .ok (s.db.without (.replay r.id)) := by
  intro h
  have hreach := Fleet.reachable_after Sample.reported
  obtain ⟨r, hr⟩ : ∃ r, r ∈ (Fleet.after Sample.reported).db.replays :=
    List.exists_mem_of_ne_nil _ (by decide)
  have hids : ∀ r ∈ (Fleet.after Sample.reported).db.replays, r.id = "gen9ou-2672927429" := by
    decide
  have hok := (h _ hreach).2 r hr
  rw [hids r hr] at hok
  rcases @Db.Valid.delete_cases _ (.replay "gen9ou-2672927429") (valid_of_reachable hreach) with
    ⟨-, hall⟩ | ⟨herr, -⟩
  · exact absurd hall (by decide)
  · rw [hok] at herr
    cases herr

end BattleCloud
