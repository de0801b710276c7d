import BattleCloud.Fleet.Queue

/-!
# Provenance of a served analysis

Seven hand-written copies carry the identity from the request to the cache lookup. `Provenance`
says of a row of `analyses` who wrote it last and from which engine call its document comes;
`JobsPoint` ties succeeded jobs and rows to each other. Both hold in every reachable state, for
any mix of builds: the columns a worker writes are those of the job it claimed
(`proposedAnalysis_ok`), and the build half of them is its own (`Holds`).
-/

namespace BattleCloud

/-- The keyword arguments an identity stands for. -/
def IdentityColumns.kwargs (c : IdentityColumns) : AnalyzeKwargs :=
  { perspective := c.perspective
    replayId := c.replayId
    searchTimeMs := c.searchBudgetMsPerTurn
    nOpponentSamples := c.opponentSamples
    threads := c.threads
    usageStatsCutoff := c.usageStatsCutoff
    seed := c.seed }

/-- The event wrote the row of an identity. -/
def Event.stores (c : IdentityColumns) : Event → Bool
  | .completed _ _ row => row.columns = c
  | _ => false

/-- An engine call by a worker of this build, on the stored replay, with these arguments,
returned the document. -/
def ComputedBy (s : Fleet) (i : Nat) (c : IdentityColumns) (document : Json) (log : List Event) :
    Prop :=
  (∃ w, s.workers[i]? = some w ∧ w.config.pokeEngineTag = c.pokeEngineTag ∧
    w.config.usageStatsDataset = c.usageStatsDataset) ∧
  ∃ r ∈ s.db.replays, r.id = c.replayId ∧ .returned i ⟨r.payload, c.kwargs, document⟩ ∈ log

/-- The last write of the row's identity wrote this row, by a worker that had computed it. -/
def Provenance (s : Fleet) (row : AnalysisRow) : Prop :=
  ∃ i job l₁ l₂, s.log = l₁ ++ .completed i job row :: l₂ ∧
    (∀ e ∈ l₁, e.stores row.columns = false) ∧ ComputedBy s i row.columns row.document l₂

/-- Rows and succeeded jobs point at each other. -/
structure JobsPoint (db : Db) : Prop where
  row : ∀ a ∈ db.analyses, ∃ j ∈ db.jobs, j.status = .succeeded ∧ j.analysisId = some a.id ∧
    j.columns = a.columns
  job : ∀ j ∈ db.jobs, j.status = .succeeded →
    ∃ a ∈ db.analyses, j.analysisId = some a.id ∧ a.columns = j.columns

variable {s s' : Fleet}

theorem ComputedBy.mono {a : Action} (hg : Grows s s') (h : s.step a = some s') {i : Nat}
    {c : IdentityColumns} {d : Json} {log log' : List Event} (hlog : ∀ e ∈ log, e ∈ log')
    (hc : ComputedBy s i c d log) : ComputedBy s' i c d log' := by
  obtain ⟨⟨w, hw, htag, hds⟩, r, hr, hid, hret⟩ := hc
  obtain ⟨w', hw', -, hcfg, -⟩ := step_worker_persists h hw
  exact ⟨⟨w', hw', by rw [hcfg]; exact htag, by rw [hcfg]; exact hds⟩, r, hg.replays r hr, hid,
    hlog _ hret⟩

/-- A step that does not write the identity keeps a row's provenance. -/
theorem Provenance.mono {a : Action} (hg : Grows s s') (h : s.step a = some s') {e : Event}
    (hlog : s'.log = e :: s.log) {row : AnalysisRow} (he : e.stores row.columns = false)
    (hp : Provenance s row) : Provenance s' row := by
  obtain ⟨i, job, l₁, l₂, hl, hno, hc⟩ := hp
  refine ⟨i, job, e :: l₁, l₂, by rw [hlog, hl, List.cons_append], fun e' he' => ?_,
    hc.mono hg h fun _ => id⟩
  rcases List.mem_cons.mp he' with rfl | he'
  · exact he
  · exact hno e' he'

/-! ## The write -/

/-- A write keeps every row under its id and identity. -/
theorem putAnalysis_keeps (hv : s.db.Valid) (p : AnalysisRow) {a : AnalysisRow}
    (ha : a ∈ s.db.analyses) :
    ∃ a' ∈ (s.db.putAnalysis (written s.db p)).analyses, a'.id = a.id ∧ a'.columns = a.columns := by
  by_cases hc : a.columns = (written s.db p).columns
  · refine ⟨written s.db p, Table.mem_put_self, ?_, hc.symm⟩
    rw [written_columns] at hc
    rcases written_cases s.db p with ⟨hn, -⟩ | ⟨b, hb, hbc, hw⟩
    · exact absurd hc (hn a ha)
    · have hu : Table.Unique AnalysisRow.columns s.db.analyses := hv .analysesIdentityKey
      rw [hw, hu.eq ha hb (hc.trans hbc.symm)]
  · exact ⟨a, Table.mem_put_of_ne ha hc, rfl, rfl⟩

/-- What the write of a report leaves under the identity was computed by its worker. -/
theorem computedBy_written (hp : ProcessesOk s) {i : Nat} {w : Worker} {job : ClaimedJob}
    {run : AnalysisRun} {newId : Uuid} {now : Timestamptz} {p : AnalysisRow}
    (hw : s.workers[i]? = some w) (hph : w.phase = .completing job run newId now)
    (hpr : proposedAnalysis job run newId now = .ok p) :
    ComputedBy s i (written s.db p).columns (written s.db p).document s.log := by
  have hok := hp.workers i w hw
  simp only [WorkerOk, hph] at hok
  obtain ⟨hh, r, hr, hid, hret⟩ := hok
  obtain ⟨-, hc, hd, -, -⟩ := proposedAnalysis_ok hpr
  rw [written_columns, written_document, hc, hd]
  exact ⟨⟨w, hw, hh.pokeEngineTag.symm, hh.usageStatsDataset.symm⟩, r, hr, hid, hret⟩

/-- Only a completion writes `analyses`. -/
theorem Effect.analyses {e : Event} {db : Db} (h : Effect s e db) :
    (db.analyses = s.db.analyses ∧ ∀ c, e.stores c = false) ∨
    ∃ i job row, e = .completed i job row ∧ row ∈ db.analyses ∧
      ∀ a ∈ db.analyses, a = row ∨ (a ∈ s.db.analyses ∧ a.columns ≠ row.columns) := by
  cases h with
  | readOnly he =>
    refine Or.inl ⟨rfl, fun c => ?_⟩
    cases e <;> first | rfl | cases he
  | completed hw hph hpr ho =>
    exact Or.inr ⟨_, _, _, rfl, Table.mem_put_self, fun a ha => Table.mem_put ha⟩
  | _ => exact Or.inl ⟨rfl, fun _ => rfl⟩

theorem provenance_step (hv : s.db.Valid) (hp : ProcessesOk s)
    (hpr : ∀ row ∈ s.db.analyses, Provenance s row) {a : Action} (h : s.step a = some s') :
    ∀ row ∈ s'.db.analyses, Provenance s' row := by
  have hg := step_grows hv h
  obtain ⟨e, hlog, hs⟩ := step_spec hv h
  intro row hrow
  rcases hs.effect.analyses with ⟨hsame, hst⟩ | ⟨i, job, row', rfl, -, hall⟩
  · rw [hsame] at hrow
    exact (hpr row hrow).mono hg h hlog (hst _)
  · rcases hall row hrow with rfl | ⟨hold, hne⟩
    · refine ⟨i, job, [], s.log, hlog, fun _ h => (List.not_mem_nil h).elim, ?_⟩
      obtain ⟨db', heff⟩ : ∃ db', Effect s (.completed i job row) db' := ⟨_, hs.effect⟩
      have hcomp : ComputedBy s i row.columns row.document s.log := by
        cases heff with
        | readOnly hr => cases hr
        | completed hw hph hpr' _ => exact computedBy_written hp hw hph hpr'
      exact hcomp.mono hg h fun _ => id
    · exact (hpr row hold).mono hg h hlog (by simpa [Event.stores] using fun h => hne h.symm)

/-! ## Jobs and rows -/

/-- Only `complete_job` makes a job succeeded. -/
theorem JobUpdate.set_succeeded {u : JobUpdate} {j : JobRow} (hs : u.sel j = true)
    (h : (u.set j).status = .succeeded) : ∃ i w a n, u = .complete i w a n := by
  cases u with
  | claim => cases h
  | heartbeat i w l n =>
    have hj : j.status = .succeeded := h
    rw [(JobRow.ownedBy_iff.mp hs).2.1] at hj
    cases hj
  | complete i w a n => exact ⟨i, w, a, n, rfl⟩
  | fail =>
    simp only [JobUpdate.set, JobRow.fail] at h
    split at h <;> cases h
  | reclaim =>
    simp only [JobUpdate.set, JobRow.reclaim] at h
    split at h <;> cases h

/-- A job that is over stays in the table as it is. -/
theorem JobUpdate.mem_apply {u : JobUpdate} {d : Db}
    (hu : ∀ j ∈ d.jobs, u.sel j = true → j.Next (u.set j)) {j : JobRow} (hj : j ∈ d.jobs)
    (hl : j.live = false) : j ∈ (u.apply d).jobs := by
  refine Table.mem_updateWhere.mpr ⟨j, hj, Or.inr ⟨?_, rfl⟩⟩
  by_contra hs
  have hlive := (hu j hj (Bool.eq_true_of_not_eq_false hs)).live
  rw [hl] at hlive
  cases hlive

theorem not_live_of_succeeded {j : JobRow} (h : j.status = .succeeded) : j.live = false := by
  simp [JobRow.live, h]

/-- An update that is no completion keeps jobs and rows pointing at each other. -/
theorem JobsPoint.apply {db : Db} (h : JobsPoint db) {u : JobUpdate}
    (hu : ∀ j ∈ db.jobs, u.sel j = true → j.Next (u.set j))
    (hc : ∀ i w a n, u ≠ .complete i w a n) : JobsPoint (u.apply db) where
  row := by
    intro a ha
    obtain ⟨j, hj, hs, hid, hcol⟩ := h.row a ha
    exact ⟨j, JobUpdate.mem_apply hu hj (not_live_of_succeeded hs), hs, hid, hcol⟩
  job := by
    intro j' hj' hs
    obtain ⟨j, hj, ⟨hsel, rfl⟩ | ⟨-, rfl⟩⟩ := Table.mem_updateWhere.mp hj'
    · obtain ⟨i, w, a, n, rfl⟩ := JobUpdate.set_succeeded hsel hs
      exact absurd rfl (hc i w a n)
    · exact h.job j hj hs

/-- A completion points its job at the row it wrote. -/
theorem JobsPoint.complete (hv : s.db.Valid) (hp : ProcessesOk s) (h : JobsPoint s.db) {i : Nat}
    {w : Worker} {job : ClaimedJob} {run : AnalysisRun} {newId : Uuid} {now : Timestamptz}
    {p : AnalysisRow} (hw : s.workers[i]? = some w)
    (hph : w.phase = .completing job run newId now)
    (hpr : proposedAnalysis job run newId now = .ok p)
    (ho : ∃ j ∈ s.db.jobs, j.ownedBy job.id w.workerId = true) :
    JobsPoint ((JobUpdate.complete job.id w.workerId (written s.db p).id now).apply
      (s.db.putAnalysis (written s.db p))) := by
  have hok := hp.workers i w hw
  simp only [WorkerOk, hph] at hok
  obtain ⟨l, hl, hlid, hlc⟩ := hok.1.row
  have hcols : ∀ j ∈ s.db.jobs, j.ownedBy job.id w.workerId = true →
      j.columns = (written s.db p).columns := by
    intro j hj hjo
    rw [hv.job_eq hj hl ((JobRow.ownedBy_iff.mp hjo).1.trans hlid.symm), hlc, written_columns]
    exact (proposedAnalysis_ok hpr).2.1.symm
  constructor
  · intro a ha
    rcases Table.mem_put ha with rfl | ⟨ha, -⟩
    · obtain ⟨j, hj, hjo⟩ := ho
      exact ⟨_, Table.mem_updateWhere.mpr ⟨j, hj, Or.inl ⟨hjo, rfl⟩⟩, rfl, rfl, hcols j hj hjo⟩
    · obtain ⟨j, hj, hs, hid, hc⟩ := h.row a ha
      exact ⟨j, JobUpdate.mem_apply (d := s.db.putAnalysis _) (JobUpdate.next_of_sel rfl) hj
        (not_live_of_succeeded hs), hs, hid, hc⟩
  · intro j' hj' hs
    obtain ⟨j, hj, ⟨hjo, rfl⟩ | ⟨-, rfl⟩⟩ := Table.mem_updateWhere.mp hj'
    · exact ⟨written s.db p, Table.mem_put_self, rfl, (hcols j hj hjo).symm⟩
    · obtain ⟨a, ha, hid, hc⟩ := h.job j hj hs
      obtain ⟨a', ha', hid', hc'⟩ := putAnalysis_keeps hv p ha
      exact ⟨a', ha', by rw [hid, hid'], hc'.trans hc⟩

theorem Effect.jobsPoint (hv : s.db.Valid) (hp : ProcessesOk s) (h : JobsPoint s.db) {e : Event}
    {db : Db} (heff : Effect s e db) : JobsPoint db := by
  cases heff with
  | readOnly _ => exact h
  | present i => exact h
  | upserted i _ => exact ⟨h.row, h.job⟩
  | created newId now _ _ _ =>
    constructor
    · intro a ha
      obtain ⟨j, hj, hrest⟩ := h.row a ha
      exact ⟨j, List.mem_append_left _ hj, hrest⟩
    · intro j hj hs
      rcases List.mem_append.mp hj with hj | hj
      · exact h.job j hj hs
      · rw [List.mem_singleton.mp hj] at hs
        cases hs
  | claimed now hw ha hj hc =>
    exact h.apply (hv.next_of_claim hj (JobRow.claimable_iff.mp hc).1 _ _ _) fun _ _ _ _ => by
      simp
  | renewed now hw ha => exact h.apply (JobUpdate.next_of_sel rfl) fun _ _ _ _ => by simp
  | failed now hw hph ho => exact h.apply (JobUpdate.next_of_sel rfl) fun _ _ _ _ => by simp
  | reclaimed now hw => exact h.apply (JobUpdate.next_of_sel rfl) fun _ _ _ _ => by simp
  | completed hw hph hpr ho => exact h.complete hv hp hw hph hpr ho

/-! ## What is served -/

/-- A 200 serves a document computed for exactly the identity of its request. -/
def ServedOk (s : Fleet) (sub : Submission) : Prop :=
  ∀ r, sub.phase = .answered (.ok r) →
    ∃ i, ComputedBy s i (deriveIdentity sub.request sub.build).columns r.document s.log

theorem SubmissionStep.served {db db' : Db} {i : Nat} {sub : Submission} {a : SubmissionAction}
    {r : StoredAnalysis} {e : Event}
    (h : SubmissionStep db i sub a db' (.answered (.ok r)) e) :
    analysisByIdentity db sub.identity = .ok (some r) := by
  cases h with
  | hit hph hok => exact hok

theorem provenance_of_reachable (h : s.Reachable) :
    (∀ row ∈ s.db.analyses, Provenance s row) ∧ JobsPoint s.db ∧
      ∀ (i : Nat) (sub : Submission), s.submissions[i]? = some sub → ServedOk s sub := by
  refine StepSystem.Reach.invariant_of (I := fun s : Fleet =>
    (∀ row ∈ s.db.analyses, Provenance s row) ∧ JobsPoint s.db ∧
      ∀ (i : Nat) (sub : Submission), s.submissions[i]? = some sub → ServedOk s sub) ?_ ?_ h
  · exact ⟨fun row h => (List.not_mem_nil h).elim,
      ⟨fun a h => (List.not_mem_nil h).elim, fun j h => (List.not_mem_nil h).elim⟩,
      fun i sub h => by simp [Fleet.init] at h⟩
  rintro s a s' hr ⟨hpr, hj, hserved⟩ - hst
  have hv := valid_of_reachable hr
  have hp := processesOk_of_reachable hr
  have hg := step_grows hv hst
  obtain ⟨e, -, hs⟩ := step_spec hv hst
  refine ⟨provenance_step hv hp hpr hst, hs.effect.jobsPoint hv hp hj, ?_⟩
  intro i sub' hsub' r hph
  rcases step_submissions hst hsub' with
    hsub | ⟨_, _, -, -, rfl⟩ | ⟨sub, act, ph, e, -, hsub, hstep, rfl, -⟩
  · obtain ⟨k, hk⟩ := hserved i sub' hsub r hph
    exact ⟨k, hk.mono hg hst hg.log⟩
  · cases hph
  · obtain rfl : ph = .answered (.ok r) := hph
    obtain ⟨row, hrow, hc, rfl⟩ := analysisByIdentity_some (hstep.served)
    obtain ⟨k, job, l₁, l₂, hlog, -, hcomp⟩ := hpr row hrow
    rw [hc] at hcomp
    refine ⟨k, hcomp.mono hg hst fun e he => hg.log e ?_⟩
    rw [hlog]
    exact List.mem_append_right _ (List.mem_cons_of_mem _ he)

/-- **Provenance of a served analysis.** Every row of `analyses` was written last by a worker of
the row's build, from a call with the row's own parameters on the row's stored replay; succeeded
jobs and rows point at each other with equal identities; so a 200 serves a document computed with
exactly `deriveIdentity` of its request and build, and a job said to have succeeded has an
analysis id that resolves. -/
theorem analysis_provenance (h : s.Reachable) :
    (∀ row ∈ s.db.analyses, Provenance s row ∧
      ∃ j ∈ s.db.jobs, j.status = .succeeded ∧ j.analysisId = some row.id ∧
        j.columns = row.columns) ∧
    (∀ j ∈ s.db.jobs, j.status = .succeeded →
      ∃ row ∈ s.db.analyses, j.analysisId = some row.id ∧ row.columns = j.columns) ∧
    (∀ (i : Nat) (sub : Submission) (r : StoredAnalysis), s.submissions[i]? = some sub →
      sub.phase = .answered (.ok r) →
      ∃ k, ComputedBy s k (deriveIdentity sub.request sub.build).columns r.document s.log) ∧
    (∀ (id : Uuid) (job : StoredJob), jobById s.db id = some job → job.status = .succeeded →
      ∃ a r, job.analysisId = some a ∧ analysisById s.db a = some r ∧ r.id = a) := by
  obtain ⟨hpr, hj, hserved⟩ := provenance_of_reachable h
  refine ⟨fun row hrow => ⟨hpr row hrow, hj.row row hrow⟩, hj.job, ?_, ?_⟩
  · intro i sub r hsub hph
    exact hserved i sub hsub r hph
  · intro id job hjob hs
    obtain ⟨j, hjm, -, rfl⟩ := jobById_some hjob
    obtain ⟨row, hrow, hid, -⟩ := hj.job j hjm hs
    have hu : Table.Unique AnalysisRow.id s.db.analyses := valid_of_reachable h .analysesPkey
    exact ⟨row.id, row.stored, hid, analysisById_of_mem hu hrow, rfl⟩

theorem analysis_provenance_reported :
    (Fleet.after Sample.reported).db.jobs.map JobRow.analysisId = [some 9] ∧
    ∃ row ∈ (Fleet.after Sample.reported).db.analyses,
      Provenance (Fleet.after Sample.reported) row ∧ row.id = 9 := by
  refine ⟨by decide, ?_⟩
  have h := analysis_provenance (Fleet.reachable_after Sample.reported)
  obtain ⟨row, hrow⟩ : ∃ row, row ∈ (Fleet.after Sample.reported).db.analyses :=
    List.exists_mem_of_ne_nil _ (by decide)
  have hids : ∀ a ∈ (Fleet.after Sample.reported).db.analyses, a.id = 9 := by decide
  exact ⟨row, hrow, (h.1 row hrow).1, hids row hrow⟩

/-! ## What stays of a row -/

/-- A job that is over stays as it is. -/
theorem Effect.over_kept (hv : s.db.Valid) {e : Event} {db : Db} (h : Effect s e db) {j : JobRow}
    (hj : j ∈ s.db.jobs) (hl : j.live = false) : j ∈ db.jobs := by
  cases h with
  | readOnly _ => exact hj
  | present i => exact hj
  | upserted i _ => exact hj
  | created newId now _ _ _ => exact List.mem_append_left _ hj
  | claimed now hw ha hk hc =>
    exact JobUpdate.mem_apply (hv.next_of_claim hk (JobRow.claimable_iff.mp hc).1 _ _ _) hj hl
  | renewed now hw ha => exact JobUpdate.mem_apply (JobUpdate.next_of_sel rfl) hj hl
  | failed now hw hph ho => exact JobUpdate.mem_apply (JobUpdate.next_of_sel rfl) hj hl
  | reclaimed now hw => exact JobUpdate.mem_apply (JobUpdate.next_of_sel rfl) hj hl
  | completed hw hph hpr ho =>
    exact JobUpdate.mem_apply (d := s.db.putAnalysis _) (JobUpdate.next_of_sel rfl) hj hl

/-- The same analysis, perhaps with another document. -/
structure AnalysisRow.Kept (a a' : AnalysisRow) : Prop where
  id : a'.id = a.id
  columns : a'.columns = a.columns
  createdAt : a'.createdAt = a.createdAt
  totalTurns : a'.totalTurns = a.totalTurns
  gradableTurns : a'.gradableTurns = a.gradableTurns

theorem AnalysisRow.Kept.trans {a b c : AnalysisRow} (h : a.Kept b) (h' : b.Kept c) : a.Kept c :=
  ⟨h'.id.trans h.id, h'.columns.trans h.columns, h'.createdAt.trans h.createdAt,
    h'.totalTurns.trans h.totalTurns, h'.gradableTurns.trans h.gradableTurns⟩

theorem Effect.kept (hv : s.db.Valid) {e : Event} {db : Db} (h : Effect s e db)
    {a : AnalysisRow} (ha : a ∈ s.db.analyses) : ∃ a' ∈ db.analyses, a.Kept a' := by
  cases h with
  | @completed _ _ _ _ _ _ p _ _ _ _ =>
    by_cases hc : a.columns = (written s.db p).columns
    · refine ⟨written s.db p, Table.mem_put_self, ?_⟩
      rw [written_columns] at hc
      rcases written_cases s.db p with ⟨hn, -⟩ | ⟨b, hb, hbc, hw⟩
      · exact absurd hc (hn a ha)
      · have hu : Table.Unique AnalysisRow.columns s.db.analyses := hv .analysesIdentityKey
        rw [hw, hu.eq ha hb (hc.trans hbc.symm)]
        exact ⟨rfl, rfl, rfl, rfl, rfl⟩
    · exact ⟨a, Table.mem_put_of_ne ha hc, rfl, rfl, rfl, rfl, rfl⟩
  | _ => exact ⟨a, ha, rfl, rfl, rfl, rfl, rfl⟩

/-- No run loses an analysis. -/
theorem kept_of_reachable (h : s.Reachable) (hr : StepSystem.Reachable Fleet.step s s')
    {a : AnalysisRow} (ha : a ∈ s.db.analyses) : ∃ a' ∈ s'.db.analyses, a.Kept a' := by
  refine StepSystem.Reach.invariant_of
    (I := fun s' : Fleet => ∃ a' ∈ s'.db.analyses, a.Kept a') ⟨a, ha, rfl, rfl, rfl, rfl, rfl⟩ ?_ hr
  rintro s₁ x s₂ hr₁ ⟨b, hb, hkept⟩ - hst
  have hv := valid_of_reachable (h.trans hr₁)
  obtain ⟨e, -, hs⟩ := step_spec hv hst
  obtain ⟨c, hc, hkept'⟩ := hs.effect.kept hv hb
  exact ⟨c, hc, hkept.trans hkept'⟩

end BattleCloud
