import BattleCloud.Fleet.Cluster
import BattleCloud.Fleet.Provenance

/-!
# Builds are served apart

`claim_job` asks for the engine tag and the dataset of the worker's own build. `builds_apart`: as
long as no worker of a build is alive and none is started, the queued jobs of that build stay as
they are to the last column, none of its jobs comes to succeed, and the rows of its analyses are
the ones it had, whatever the workers of other builds and the submissions do meanwhile.
`reclaim_expired` does not look at the build, so a lease that has expired is still taken from a
job of it.
-/

namespace BattleCloud

def AnalysisRow.build (a : AnalysisRow) : EngineBuild :=
  ⟨a.columns.pokeEngineTag, a.columns.usageStatsDataset⟩

/-- A run that starts no worker of a build. -/
def Without (b : EngineBuild) (_ : Fleet) : Action → Prop
  | .spawn _ config => EngineBuild.mk config.pokeEngineTag config.usageStatsDataset ≠ b
  | _ => True

instance (b : EngineBuild) (s : Fleet) (a : Action) : Decidable (Without b s a) :=
  match a with
  | .spawn _ config =>
    inferInstanceAs (Decidable (EngineBuild.mk config.pokeEngineTag config.usageStatsDataset ≠ b))
  | .submit .. | .submission .. | .worker .. | .heartbeat .. => inferInstanceAs (Decidable True)

/-- No worker of a build is alive. -/
def Unserved (b : EngineBuild) (s : Fleet) : Prop := ∀ w ∈ s.workers, w.alive = true → w.build ≠ b

instance (b : EngineBuild) (s : Fleet) : Decidable (Unserved b s) :=
  inferInstanceAs (Decidable (∀ w ∈ s.workers, _))

variable {s s' : Fleet} {b : EngineBuild}

theorem Unserved.step (h : Unserved b s) {a : Action} (hw : Without b s a)
    (hst : s.step a = some s') : Unserved b s' := by
  intro w' hw' halive
  obtain ⟨i, hi⟩ := List.mem_iff_getElem?.mp hw'
  rcases step_workers hst hi with
    hold | ⟨workerId, config, rfl, -, rfl, -⟩ | ⟨w, _, _, _, -, hold, hwst, rfl, -⟩
  · exact h w' (List.mem_of_getElem? hold) halive
  · exact hw
  · exact h w (List.mem_of_getElem? hold) hwst.alive

/-- What a worker has claimed is of its own build. -/
theorem Holds.build {i : Nat} {c : WorkerConfig} {job : ClaimedJob} (h : Holds s.db s.log i c job) :
    EngineBuild.mk job.columns.pokeEngineTag job.columns.usageStatsDataset =
      ⟨c.pokeEngineTag, c.usageStatsDataset⟩ := by
  have htag : job.columns.pokeEngineTag = c.pokeEngineTag := h.pokeEngineTag
  have hdataset : job.columns.usageStatsDataset = c.usageStatsDataset := h.usageStatsDataset
  rw [htag, hdataset]

/-- A worker that reports is alive, so what it reports on is of another build. -/
theorem Unserved.completing (h : Unserved b s) (hp : ProcessesOk s) {i : Nat} {w : Worker}
    {job : ClaimedJob} {run : AnalysisRun} {newId : Uuid} {now : Timestamptz}
    (hw : s.workers[i]? = some w) (hph : w.phase = .completing job run newId now) :
    EngineBuild.mk job.columns.pokeEngineTag job.columns.usageStatsDataset ≠ b := by
  have hholds := holds_of_reporting hp hw (Or.inr ⟨newId, now, hph⟩)
  rw [hholds.build]
  exact h w (List.mem_of_getElem? hw) (by simp [Worker.alive, hph])

/-! ## One step -/

/-- All but a claim take running rows. -/
theorem JobUpdate.running_of_sel {u : JobUpdate} (hu : u.isClaim = false) {j : JobRow}
    (hs : u.sel j = true) : j.status = .running := by
  cases u with
  | claim => cases hu
  | heartbeat => exact (JobRow.ownedBy_iff.mp hs).2.1
  | complete => exact (JobRow.ownedBy_iff.mp hs).2.1
  | fail => exact (JobRow.ownedBy_iff.mp hs).2.1
  | reclaim => exact JobRow.expired_running hs

/-- **A queued job of the build stays as it is.** -/
theorem Effect.queued_kept (hv : s.db.Valid) (hb : Unserved b s) {e : Event} {db : Db}
    (h : Effect s e db) {j : JobRow} (hj : j ∈ s.db.jobs) (hbuild : j.build = b)
    (hq : j.status = .queued) : j ∈ db.jobs := by
  have hrunning : ∀ {u : JobUpdate} {d : Db}, u.isClaim = false → d.jobs = s.db.jobs →
      j ∈ (u.apply d).jobs := by
    intro u d hu hd
    refine Table.mem_updateWhere_of_not (hd ▸ hj) ?_
    by_contra hs
    have hr := JobUpdate.running_of_sel hu (Bool.eq_true_of_not_eq_false hs)
    rw [hq] at hr
    cases hr
  cases h with
  | readOnly _ => exact hj
  | present i => exact hj
  | upserted i _ => exact hj
  | created newId now _ _ _ => exact List.mem_append_left _ hj
  | @claimed i w k locked now hw ha hk hc =>
    refine Table.mem_updateWhere_of_not hj ?_
    by_contra hs
    have hid : j.id = k.id := by simpa [JobUpdate.sel] using hs
    obtain rfl := hv.job_eq hj hk hid
    obtain ⟨-, htag, hdataset, -⟩ := JobRow.claimable_iff.mp hc
    refine hb w (List.mem_of_getElem? hw) ha ?_
    rw [← hbuild, JobRow.build, htag, hdataset]
  | renewed now _ _ => exact hrunning rfl rfl
  | failed now _ _ _ => exact hrunning rfl rfl
  | reclaimed now _ => exact hrunning rfl rfl
  | completed _ _ _ _ => exact hrunning rfl rfl

/-- **No job of the build comes to succeed.** -/
theorem Effect.succeeded_kept (hv : s.db.Valid) (hp : ProcessesOk s) (hb : Unserved b s)
    {e : Event} {db : Db} (h : Effect s e db) {j' : JobRow} (hj' : j' ∈ db.jobs)
    (hbuild : j'.build = b) (hs : j'.status = .succeeded) : j' ∈ s.db.jobs := by
  have hother : ∀ {u : JobUpdate}, (∀ i w a n, u ≠ .complete i w a n) →
      j' ∈ (u.apply s.db).jobs → j' ∈ s.db.jobs := by
    intro u hu hmem
    obtain ⟨j, hj, ⟨hsel, rfl⟩ | ⟨-, rfl⟩⟩ := Table.mem_updateWhere.mp hmem
    · obtain ⟨i, w, a, n, rfl⟩ := JobUpdate.set_succeeded hsel hs
      exact absurd rfl (hu i w a n)
    · exact hj
  cases h with
  | readOnly _ => exact hj'
  | present i => exact hj'
  | upserted i _ => exact hj'
  | created newId now _ _ _ =>
    rcases List.mem_append.mp hj' with hj | hj
    · exact hj
    · rw [List.mem_singleton.mp hj] at hs
      cases hs
  | claimed now _ _ _ _ => exact hother (fun _ _ _ _ => by simp) hj'
  | renewed now _ _ => exact hother (fun _ _ _ _ => by simp) hj'
  | failed now _ _ _ => exact hother (fun _ _ _ _ => by simp) hj'
  | reclaimed now _ => exact hother (fun _ _ _ _ => by simp) hj'
  | @completed i w job run newId now p hw hph hpr ho =>
    obtain ⟨j, hj, ⟨hsel, rfl⟩ | ⟨-, rfl⟩⟩ := Table.mem_updateWhere.mp hj'
    · obtain ⟨l, hl, hlid, hlc⟩ := (holds_of_reporting hp hw (Or.inr ⟨newId, now, hph⟩)).row
      have hjl : j = l := hv.job_eq hj hl ((JobRow.ownedBy_iff.mp hsel).1.trans hlid.symm)
      refine absurd ?_ (hb.completing hp hw hph)
      rw [← hlc, ← hjl]
      exact hbuild
    · exact hj

/-- **No analysis of the build is written.** -/
theorem Effect.analyses_kept (hp : ProcessesOk s) (hb : Unserved b s) {e : Event} {db : Db}
    (h : Effect s e db) {a : AnalysisRow} (hbuild : a.build = b) :
    a ∈ db.analyses ↔ a ∈ s.db.analyses := by
  cases h with
  | @completed i w job run newId now p hw hph hpr ho =>
    have hne : ∀ {c : AnalysisRow}, c.build = b → c.columns ≠ (written s.db p).columns := by
      intro c hc hcolumns
      rw [written_columns, (proposedAnalysis_ok hpr).2.1] at hcolumns
      refine absurd ?_ (hb.completing hp hw hph)
      rw [← hcolumns]
      exact hc
    constructor
    · intro ha
      rcases Table.mem_put ha with rfl | ⟨ha, -⟩
      · exact absurd rfl (hne hbuild)
      · exact ha
    · intro ha
      exact Table.mem_put_of_ne ha (hne hbuild)
  | _ => exact Iff.rfl

/-! ## Runs -/

/-- **A build that nobody serves waits, and is left alone.** From any reachable state without a
live worker of the build, along every run that starts none: its queued jobs stay as they are, its
succeeded jobs are those of before, and so are the rows of its analyses. -/
theorem builds_apart (h : s.Reachable) (hb : Unserved b s)
    (hr : StepSystem.Reach Fleet.step (Without b) s s') :
    (∀ j ∈ s.db.jobs, j.build = b → j.status = .queued → j ∈ s'.db.jobs) ∧
    (∀ j ∈ s'.db.jobs, j.build = b → j.status = .succeeded → j ∈ s.db.jobs) ∧
    ∀ a : AnalysisRow, a.build = b → (a ∈ s'.db.analyses ↔ a ∈ s.db.analyses) := by
  have hinit : Unserved b s ∧ (∀ j ∈ s.db.jobs, j.build = b → j.status = .queued → j ∈ s.db.jobs) ∧
      (∀ j ∈ s.db.jobs, j.build = b → j.status = .succeeded → j ∈ s.db.jobs) ∧
      ∀ a : AnalysisRow, a.build = b → (a ∈ s.db.analyses ↔ a ∈ s.db.analyses) :=
    ⟨hb, fun j hj _ _ => hj, fun j hj _ _ => hj, fun a _ => Iff.rfl⟩
  refine (StepSystem.Reach.invariant_of (I := fun s' : Fleet => Unserved b s' ∧
    (∀ j ∈ s.db.jobs, j.build = b → j.status = .queued → j ∈ s'.db.jobs) ∧
    (∀ j ∈ s'.db.jobs, j.build = b → j.status = .succeeded → j ∈ s.db.jobs) ∧
    ∀ a : AnalysisRow, a.build = b → (a ∈ s'.db.analyses ↔ a ∈ s.db.analyses)) hinit ?_ hr).2
  rintro s₁ x s₂ hr₁ ⟨hb₁, hqueued, hsucceeded, hanalyses⟩ hx hst
  have h₁ := h.trans hr₁.reachable
  have hv := valid_of_reachable h₁
  have hp := processesOk_of_reachable h₁
  obtain ⟨e, -, hs⟩ := step_spec hv hst
  refine ⟨hb₁.step hx hst, fun j hj hjb hq => ?_, fun j hj hjb hq => ?_, fun a ha => ?_⟩
  · exact hs.effect.queued_kept hv hb₁ (hqueued j hj hjb hq) hjb hq
  · exact hsucceeded j (hs.effect.succeeded_kept hv hp hb₁ hj hjb hq) hjb hq
  · exact (hs.effect.analyses_kept hp hb₁ ha).trans (hanalyses a ha)

namespace Sample

/-- A worker of another month reclaims, finds nothing and ends. -/
def otherMonth : List Action :=
  [.spawn "host/3" { config with usageStatsDataset := "2026-06" }, .worker 0 (.reclaim noon),
    .worker 0 (.claim [] noon), .worker 0 .exit]

end Sample

theorem builds_apart_otherMonth :
    let s := Fleet.after (Sample.submitFirst 7)
    let s' := StepSystem.afterIf Fleet.step (Without Sample.build) s Sample.otherMonth
    (s.db.jobs.map JobRow.id = [7] ∧ s'.workers.map Worker.alive = [false]) ∧
      ∀ j ∈ s.db.jobs, j.build = Sample.build → j.status = .queued → j ∈ s'.db.jobs :=
  ⟨by decide, (builds_apart (Fleet.reachable_after _) (by decide)
    (StepSystem.reach_afterIf Sample.otherMonth)).1⟩

end BattleCloud
