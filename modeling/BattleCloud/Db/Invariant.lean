import BattleCloud.Worker.Queue

/-!
# The representation invariant of the queue

`JobRow.Ok` is what a single row of `jobs` always looks like, `QueueInv` adds the partial unique
index and the stored replay. Each statement is shown to keep `QueueInv` on the tables it would
leave, before any constraint is checked: the schema enforces only half of it, and what it does
enforce (`queueConstraints`) therefore never refuses a statement.
-/

namespace BattleCloud

/-- A row of `jobs` in a reachable state. -/
structure JobRow.Ok (j : JobRow) : Prop where
  claim :
    (j.status = .running ∧ j.claimedBy.isSome ∧ j.claimedAt.isSome ∧ j.leaseExpiresAt.isSome) ∨
    (j.status ≠ .running ∧ j.claimedBy = none ∧ j.claimedAt = none ∧ j.leaseExpiresAt = none)
  succeeded_iff : j.status = .succeeded ↔ j.analysisId.isSome
  succeeded_errorKind : j.status = .succeeded → j.errorKind = none
  failed_errorKind : j.status = .failed → j.errorKind.isSome

/-- (a)–(e) of the queue. -/
structure QueueInv (db : Db) : Prop where
  rows : ∀ j ∈ db.jobs, j.Ok
  unique : Table.UniqueWhere JobRow.live JobRow.columns db.jobs
  replay : ∀ j ∈ db.jobs, ∃ r ∈ db.replays, r.id = j.columns.replayId

/-- The constraints that back the invariant. -/
def queueConstraints : List Constraint :=
  [.jobsClaimIsAllOrNothing, .jobsSucceededHasAnalysis, .jobsFailedHasKind, .jobsActiveIdentityKey,
    .analysesReplayIdFkey]

namespace JobRow

variable {j j' : JobRow}

/-- `running` exactly when the three claim columns are set. -/
theorem Ok.running_iff (h : j.Ok) :
    j.status = .running ↔ j.claimedBy.isSome ∧ j.claimedAt.isSome ∧ j.leaseExpiresAt.isSome := by
  rcases h.claim with ⟨hs, hc⟩ | ⟨hs, h1, -, -⟩
  · exact ⟨fun _ => hc, fun _ => hs⟩
  · refine ⟨fun h => absurd h hs, fun hc => ?_⟩
    rw [h1] at hc
    exact absurd hc.1 (by simp)

/-- A released row: queued again or failed with a kind, and nobody's. -/
theorem Ok.released (hs : j'.status = .queued ∨ (j'.status = .failed ∧ j'.errorKind.isSome))
    (hc : j'.claimedBy = none ∧ j'.claimedAt = none ∧ j'.leaseExpiresAt = none)
    (ha : j'.analysisId = none) : j'.Ok := by
  rcases hs with hq | ⟨hf, hk⟩
  · constructor <;> simp [hq, hc, ha]
  · constructor <;> simp [hf, hk, hc, ha]

/-- One update keeps a row in shape. -/
theorem Next.ok (h : j.Ok) (hn : j.Next j') : j'.Ok := by
  have hrun : j.status = .running → j.analysisId = none := by
    intro hs
    have hnot : ¬ j.status = .succeeded := by rw [hs]; decide
    rw [h.succeeded_iff] at hnot
    simpa using hnot
  cases hn with
  | claim w l now hs =>
    have hnot : ¬ j.status = .succeeded := by rw [hs]; decide
    rw [h.succeeded_iff] at hnot
    constructor <;> simp [JobRow.claim] at *
    exact hnot
  | heartbeat l now hs =>
    have hc := h.running_iff.mp hs
    constructor <;> simp_all [JobRow.heartbeat]
  | complete a now hs =>
    constructor <;> simp [JobRow.complete]
  | fail r m k d now hs =>
    refine .released ?_ ⟨rfl, rfl, rfl⟩ (hrun hs)
    exact (j.fail_status r m k d now).imp_right fun hf => ⟨hf, rfl⟩
  | reclaim m now hs =>
    refine .released ?_ ⟨rfl, rfl, rfl⟩ (hrun hs)
    refine (j.reclaim_status m now).imp_right fun ⟨hf, hk⟩ => ⟨hf, ?_⟩
    rw [hk]
    rfl

theorem fresh_ok (i : Uuid) (c : IdentityColumns) (p : Profile) (t m : Int) (now : Timestamptz) :
    (JobRow.fresh i c p t m now).Ok := by
  constructor <;> simp [JobRow.fresh]

end JobRow

namespace QueueInv

variable {db : Db}

theorem empty : QueueInv Db.empty := by
  constructor <;> simp [Db.empty, Table.UniqueWhere]

/-- A property of every job row that one update keeps. -/
theorem forall_apply {P : JobRow → Prop} {u : JobUpdate} (h : ∀ j ∈ db.jobs, P j)
    (hu : ∀ j ∈ db.jobs, u.sel j = true → j.Next (u.set j))
    (hn : ∀ j j', P j → j.Next j' → P j') : ∀ j ∈ (u.apply db).jobs, P j :=
  Table.forall_updateWhere h fun j hj hp hs => hn j _ hp (hu j hj hs)

/-- **An update keeps the invariant** when every row it takes makes one of the moves. -/
theorem apply (h : QueueInv db) {u : JobUpdate}
    (hu : ∀ j ∈ db.jobs, u.sel j = true → j.Next (u.set j)) : QueueInv (u.apply db) where
  rows := forall_apply h.rows hu fun _ _ => JobRow.Next.ok
  unique := by
    refine Table.uniqueWhere_updateWhere h.unique fun j hj hs => ⟨u.set_columns j, fun _ => ?_⟩
    exact (hu j hj hs).live
  replay := by
    refine forall_apply (P := fun j => ∃ r ∈ db.replays, r.id = j.columns.replayId) h.replay hu ?_
    intro j j' hp hn
    rw [hn.columns]
    exact hp

/-- A fresh job of an identity without a live one. -/
theorem append (h : QueueInv db) {i : Uuid} {c : IdentityColumns} {p : Profile} {t m : Int}
    {now : Timestamptz} (hl : NoLiveJob db c) (hr : ∃ r ∈ db.replays, r.id = c.replayId) :
    QueueInv { db with jobs := db.jobs ++ [JobRow.fresh i c p t m now] } where
  rows := List.forall_mem_append.mpr
    ⟨h.rows, List.forall_mem_singleton.mpr (JobRow.fresh_ok i c p t m now)⟩
  unique := Table.uniqueWhere_append h.unique hl
  replay := List.forall_mem_append.mpr ⟨h.replay, List.forall_mem_singleton.mpr hr⟩

theorem putAnalysis (h : QueueInv db) (row : AnalysisRow) : QueueInv (db.putAnalysis row) :=
  ⟨h.rows, h.unique, h.replay⟩

theorem appendReplay (h : QueueInv db) (r : ReplayRow) :
    QueueInv { db with replays := db.replays ++ [r] } where
  rows := h.rows
  unique := h.unique
  replay := by
    intro j hj
    obtain ⟨r', hr', he⟩ := h.replay j hj
    exact ⟨r', List.mem_append_left _ hr', he⟩

/-- **The invariant implies what the schema checks.** -/
theorem holds (h : QueueInv db)
    (hf : ∀ a ∈ db.analyses, ∃ r ∈ db.replays, r.id = a.columns.replayId) {c : Constraint}
    (hc : c ∈ queueConstraints) : c.Holds db := by
  simp only [queueConstraints, List.mem_cons, List.not_mem_nil, or_false] at hc
  rcases hc with rfl | rfl | rfl | rfl | rfl
  · intro j hj
    rcases (h.rows j hj).claim with ⟨-, h1, h2, h3⟩ | ⟨-, h1, h2, h3⟩
    · exact Or.inr ⟨h1, h2, h3⟩
    · exact Or.inl (by simp [h1, h2, h3])
  · intro j hj
    by_cases hs : j.status = .succeeded
    · exact Or.inr ((h.rows j hj).succeeded_iff.mp hs)
    · exact Or.inl hs
  · intro j hj
    by_cases hs : j.status = .failed
    · exact Or.inr ((h.rows j hj).failed_errorKind hs)
    · exact Or.inl hs
  · exact h.unique
  · exact hf

/-- Tables with the invariant are refused for another constraint only. -/
theorem not_refused (h : QueueInv db)
    (hf : ∀ a ∈ db.analyses, ∃ r ∈ db.replays, r.id = a.columns.replayId) {e : DbError}
    (he : db.commit = .error e) : ∀ c ∈ queueConstraints, e ≠ .violates c := by
  obtain ⟨c', rfl, hn⟩ := Db.commit_error he
  intro c hc hcc
  rw [DbError.violates.injEq] at hcc
  exact hn (hcc ▸ h.holds hf hc)

end QueueInv

/-! ## Statements that cannot be refused -/

section Valid

variable {db : Db}

/-- The moves of a claim: it names the id of a queued row, and ids are unique. -/
theorem Db.Valid.next_of_claim (hv : db.Valid) {j : JobRow} (hj : j ∈ db.jobs)
    (hq : j.status = .queued) (w : String) (l : Nat) (n : Timestamptz) :
    ∀ k ∈ db.jobs, (JobUpdate.claim j.id w l n).sel k = true →
      k.Next ((JobUpdate.claim j.id w l n).set k) := by
  intro k hk hs
  have hid : k.id = j.id := by simpa [JobUpdate.sel] using hs
  rw [hv.job_eq hk hj hid]
  exact .claim w l n hq

theorem JobRow.Next.estimates {j j' : JobRow} (h : j.Next j') (he : j.EstimatesCheck) :
    j'.EstimatesCheck := by
  cases h <;> exact he

/-- Moves that reference stored analyses, if any, can only break the constraints that back the
invariant. -/
theorem Db.Valid.of_moves (hv : db.Valid) {u : JobUpdate}
    (hu : ∀ j ∈ db.jobs, u.sel j = true → j.Next (u.set j))
    (ha : ∀ j ∈ db.jobs, u.sel j = true → (u.set j).AnalysisStored db)
    (hqueue : ∀ {c}, c ∈ queueConstraints → c.Holds (u.apply db)) : (u.apply db).Valid := by
  intro c
  cases c with
  | jobsPkey =>
    show Table.Unique JobRow.id (u.apply db).jobs
    unfold Table.Unique
    rw [JobUpdate.apply_jobs, Table.map_updateWhere u.set_id]
    exact hv .jobsPkey
  | jobsIdentityChecks =>
    refine QueueInv.forall_apply (hv .jobsIdentityChecks) hu fun j j' hj hn => ?_
    rw [hn.columns]
    exact hj
  | jobsEstimatesCheck =>
    exact QueueInv.forall_apply (hv .jobsEstimatesCheck) hu fun j j' hj hn => hn.estimates hj
  | jobsAnalysisIdFkey =>
    exact Table.forall_updateWhere (hv .jobsAnalysisIdFkey) fun j hj _ hs => ha j hj hs
  | jobsClaimIsAllOrNothing => exact hqueue (by decide)
  | jobsSucceededHasAnalysis => exact hqueue (by decide)
  | jobsFailedHasKind => exact hqueue (by decide)
  | jobsActiveIdentityKey => exact hqueue (by decide)
  | replaysPkey => exact hv .replaysPkey
  | replaysPayloadBytesCheck => exact hv .replaysPayloadBytesCheck
  | analysesPkey => exact hv .analysesPkey
  | analysesReplayIdFkey => exact hv .analysesReplayIdFkey
  | analysesIdentityKey => exact hv .analysesIdentityKey
  | analysesIdentityChecks => exact hv .analysesIdentityChecks
  | analysesTotalTurnsCheck => exact hv .analysesTotalTurnsCheck
  | analysesGradableTurnsCheck => exact hv .analysesGradableTurnsCheck
  | analysesWallMsCheck => exact hv .analysesWallMsCheck

/-- **An update is executed** when every row it takes makes one of the moves and references a
stored analysis, if any. -/
theorem Db.Valid.apply (hv : db.Valid) (hq : QueueInv db) {u : JobUpdate}
    (hu : ∀ j ∈ db.jobs, u.sel j = true → j.Next (u.set j))
    (ha : ∀ j ∈ db.jobs, u.sel j = true → (u.set j).AnalysisStored db) : (u.apply db).Valid :=
  hv.of_moves hu ha fun hc => (hq.apply hu).holds (hv .analysesReplayIdFkey) hc

theorem AnalysisRow.check_ok {a : AnalysisRow} : a.check = .ok () ↔
    a.columns.Checks ∧ 0 ≤ a.totalTurns ∧ 0 ≤ a.gradableTurns ∧ 0 ≤ a.wallMs := by
  unfold AnalysisRow.check
  constructor
  · intro h
    split_ifs at h
    refine ⟨?_, ?_, ?_, ?_⟩ <;> first | assumption | omega
  · rintro ⟨hc, ht, hg, hw⟩
    rw [if_neg (not_not.mpr hc), if_neg (by omega), if_neg (by omega), if_neg (by omega)]

/-- The row the upsert leaves meets the `CHECK`s, whichever counts it has. -/
theorem written_check (hv : db.Valid) {p : AnalysisRow} (hp : p.check = .ok ()) :
    (written db p).check = .ok () := by
  obtain ⟨hchecks, hturns, hgradable, hwall⟩ := AnalysisRow.check_ok.mp hp
  rcases written_cases db p with ⟨-, hw⟩ | ⟨a, ha, hc, hw⟩
  · rw [hw]
    exact hp
  · rw [hw]
    refine AnalysisRow.check_ok.mpr ⟨?_, ?_, ?_, hwall⟩
    · exact hv .analysesIdentityChecks a ha
    · exact hv .analysesTotalTurnsCheck a ha
    · exact hv .analysesGradableTurnsCheck a ha

/-- **The upsert is executed** for a proposed row of a stored replay that meets the `CHECK`s and
has an id of its own. -/
theorem Db.Valid.putAnalysis (hv : db.Valid) {p : AnalysisRow} (hp : p.check = .ok ())
    (hr : ∃ r ∈ db.replays, r.id = p.columns.replayId) (hid : ∀ a ∈ db.analyses, a.id ≠ p.id) :
    (db.putAnalysis (written db p)).Valid := by
  obtain ⟨hchecks, hturns, hgradable, hwall⟩ := AnalysisRow.check_ok.mp (written_check hv hp)
  have hcols : Table.Unique AnalysisRow.columns db.analyses := hv .analysesIdentityKey
  have hput : ∀ {P : AnalysisRow → Prop}, (∀ a ∈ db.analyses, P a) → P (written db p) →
      ∀ a ∈ (db.putAnalysis (written db p)).analyses, P a := by
    intro P hall hw a ha
    rcases Table.mem_put ha with rfl | ⟨ha, -⟩
    · exact hw
    · exact hall a ha
  have hover : ∀ a ∈ db.analyses,
      a.columns = (written db p).columns → a.id = (written db p).id := by
    intro a ha hc
    rw [written_columns] at hc
    rcases written_cases db p with ⟨hnone, -⟩ | ⟨b, hb, hbc, hw⟩
    · exact absurd hc (hnone a ha)
    · rw [hw, hcols.eq ha hb (hc.trans hbc.symm)]
  intro c
  cases c with
  | analysesPkey =>
    refine Table.Unique.put (hv .analysesPkey) hover fun hnone a ha => ?_
    rw [written_columns] at hnone
    rcases written_cases db p with ⟨-, hw⟩ | ⟨b, hb, hbc, -⟩
    · rw [hw]
      exact hid a ha
    · exact absurd hbc (hnone b hb)
  | analysesIdentityKey => exact Table.Unique.put hcols (fun _ _ hc => hc) fun hnone => hnone
  | analysesReplayIdFkey =>
    refine hput (hv .analysesReplayIdFkey) ?_
    rw [written_columns]
    exact hr
  | analysesIdentityChecks => exact hput (hv .analysesIdentityChecks) hchecks
  | analysesTotalTurnsCheck => exact hput (hv .analysesTotalTurnsCheck) hturns
  | analysesGradableTurnsCheck => exact hput (hv .analysesGradableTurnsCheck) hgradable
  | analysesWallMsCheck => exact hput (hv .analysesWallMsCheck) hwall
  | jobsAnalysisIdFkey =>
    intro j hj
    have hold := hv .jobsAnalysisIdFkey j hj
    unfold JobRow.AnalysisStored at hold ⊢
    cases hi : j.analysisId with
    | none => rfl
    | some i =>
      rw [hi, Option.all_some, List.any_eq_true] at hold
      obtain ⟨a, ha, hai⟩ := hold
      rw [Option.all_some, List.any_eq_true]
      by_cases hc : a.columns = (written db p).columns
      · exact ⟨written db p, Table.mem_put_self, by rw [← hover a ha hc]; exact hai⟩
      · exact ⟨a, Table.mem_put_of_ne ha hc, hai⟩
  | replaysPkey => exact hv .replaysPkey
  | replaysPayloadBytesCheck => exact hv .replaysPayloadBytesCheck
  | jobsPkey => exact hv .jobsPkey
  | jobsIdentityChecks => exact hv .jobsIdentityChecks
  | jobsEstimatesCheck => exact hv .jobsEstimatesCheck
  | jobsClaimIsAllOrNothing => exact hv .jobsClaimIsAllOrNothing
  | jobsSucceededHasAnalysis => exact hv .jobsSucceededHasAnalysis
  | jobsFailedHasKind => exact hv .jobsFailedHasKind
  | jobsActiveIdentityKey => exact hv .jobsActiveIdentityKey

end Valid

end BattleCloud
