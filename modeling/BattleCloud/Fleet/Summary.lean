import BattleCloud.Api.List
import BattleCloud.Fleet.Resubmit

/-!
# The summary columns of an analysis

`total_turns` and `gradable_turns` are written when a row is inserted, from the document inserted
with them; the `ON CONFLICT` path replaces the document and leaves them. `summaries_agree`: in a
run whose reports never replace a document by one with other counts, every row shows the counts
of its document. The second job such a report needs is one of `raced`.
-/

namespace BattleCloud

/-- The two counts of a document, 0 where the key is absent; `none` where one is no integer. -/
def turnCounts (document : Json) : Option (Int × Int) :=
  (document.getOrZero "totalTurns").intValue?.bind fun total =>
  (document.getOrZero "gradableTurns").intValue?.map fun gradable => (total, gradable)

/-- The columns of the row are the counts of its document. -/
def AnalysisRow.Agrees (a : AnalysisRow) : Prop :=
  turnCounts a.document = some (a.totalTurns, a.gradableTurns)

/-- The engine returns valid documents only. -/
def ValidDocument (_ : Fleet) : Action → Prop
  | .worker _ (.analyze (.ok run)) => (turnCounts run.document).isSome
  | _ => True

/-- The job a worker is about to complete, and its run. -/
def Worker.reports (w : Worker) : Option (ClaimedJob × AnalysisRun) :=
  match w.phase with
  | .completing job run _ _ => some (job, run)
  | _ => none

/-- The step is no report of a job that is still the worker's own, or the identity has no row, or
the document of its row has the counts of the new one. -/
def SameCounts (s : Fleet) : Action → Prop
  | .worker i .complete =>
    ∀ w ∈ s.workers[i]?, ∀ r ∈ w.reports, (∃ j ∈ s.db.jobs, j.ownedBy r.1.id w.workerId = true) →
      ∀ a ∈ s.db.analyses, a.columns = r.1.columns → turnCounts r.2.document = turnCounts a.document
  | _ => True

/-- Valid documents, and no report that changes the counts of a row's document. -/
def CountsKept (s : Fleet) (a : Action) : Prop := ValidDocument s a ∧ SameCounts s a

instance (s : Fleet) (a : Action) : Decidable (ValidDocument s a) :=
  match a with
  | .worker _ (.analyze (.ok run)) =>
    inferInstanceAs (Decidable ((turnCounts run.document).isSome = true))
  | .worker _ (.analyze (.error _)) | .worker _ (.reclaim _) | .worker _ (.claim ..)
  | .worker _ .load | .worker _ (.fail _) | .worker _ (.insert ..) | .worker _ .complete
  | .worker _ .exit | .worker _ .crash | .submission .. | .submit .. | .spawn .. | .heartbeat .. =>
    inferInstanceAs (Decidable True)

instance (s : Fleet) (a : Action) : Decidable (SameCounts s a) :=
  match a with
  | .worker i .complete =>
    inferInstanceAs (Decidable (∀ w ∈ s.workers[i]?, ∀ r ∈ w.reports,
      (∃ j ∈ s.db.jobs, j.ownedBy r.1.id w.workerId = true) → ∀ a ∈ s.db.analyses,
        a.columns = r.1.columns → turnCounts r.2.document = turnCounts a.document))
  | .worker _ (.analyze _) | .worker _ (.reclaim _) | .worker _ (.claim ..)
  | .worker _ .load | .worker _ (.fail _) | .worker _ (.insert ..)
  | .worker _ .exit | .worker _ .crash | .submission .. | .submit .. | .spawn .. | .heartbeat .. =>
    inferInstanceAs (Decidable True)

instance (s : Fleet) (a : Action) : Decidable (CountsKept s a) :=
  inferInstanceAs (Decidable (_ ∧ _))

variable {s s' : Fleet}

theorem turnCounts_eq_some {document : Json} {t g : Int} :
    turnCounts document = some (t, g) ↔ (document.getOrZero "totalTurns").intValue? = some t ∧
      (document.getOrZero "gradableTurns").intValue? = some g := by
  unfold turnCounts
  rw [Option.bind_eq_some_iff]
  constructor
  · rintro ⟨t', ht, h⟩
    obtain ⟨g', hg, he⟩ := Option.map_eq_some_iff.mp h
    cases he
    exact ⟨ht, hg⟩
  · rintro ⟨ht, hg⟩
    exact ⟨t, ht, by rw [hg, Option.map_some]⟩

/-- A proposed row takes its columns from its document. -/
theorem proposedAnalysis_agrees {job : ClaimedJob} {run : AnalysisRun} {newId : Uuid}
    {now : Timestamptz} {p : AnalysisRow} (hp : proposedAnalysis job run newId now = .ok p)
    (hv : (turnCounts run.document).isSome) : p.Agrees := by
  obtain ⟨⟨t, g⟩, hc⟩ := Option.isSome_iff_exists.mp hv
  obtain ⟨-, -, hd, ht, hg⟩ := proposedAnalysis_ok hp
  unfold AnalysisRow.Agrees
  rw [hd, hc, integerOf_intValue (turnCounts_eq_some.mp hc).1 ht,
    integerOf_intValue (turnCounts_eq_some.mp hc).2 hg]

/-- The document an engine call returned. -/
def Event.document? : Event → Option Json
  | .returned _ call => some call.document
  | _ => none

def WorkerAction.document? : WorkerAction → Option Json
  | .analyze (.ok run) => some run.document
  | _ => none

theorem WorkerStep.document {db db' : Db} {hbs : List Heartbeat} {i : Nat} {w : Worker}
    {act : WorkerAction} {ph : WorkerPhase} {e : Event}
    (h : WorkerStep db hbs i w act db' ph e) : e.document? = act.document? := by
  cases h <;> rfl

/-- Only a report logs a completion, of the row it wrote for its own job. -/
theorem WorkerStep.of_completed {db db' : Db} {hbs : List Heartbeat} {i k : Nat} {w : Worker}
    {act : WorkerAction} {ph : WorkerPhase} {id : Uuid} {row : AnalysisRow}
    (h : WorkerStep db hbs i w act db' ph (.completed k id row)) :
    act = .complete ∧ ∃ job run newId now p, w.phase = .completing job run newId now ∧
      proposedAnalysis job run newId now = .ok p ∧
      (∃ j ∈ db.jobs, j.ownedBy job.id w.workerId = true) ∧ row = written db p := by
  cases h with
  | @completed job run newId now _ _ hph hok =>
    obtain ⟨p, hp, ⟨hn, -⟩ | ⟨d, hr, ho, -, -⟩⟩ := reportSuccess_ok hok
    · cases hn
    · cases hr
      exact ⟨rfl, job, run, newId, now, p, hph, hp, ho, rfl⟩

/-- Every document the engine returned is valid. -/
def ReturnsValid (log : List Event) : Prop :=
  ∀ i call, .returned i call ∈ log → (turnCounts call.document).isSome

theorem ReturnsValid.step (hv : s.db.Valid) (hr : ReturnsValid s.log) {a : Action}
    (ha : ValidDocument s a) (h : s.step a = some s') : ReturnsValid s'.log := by
  obtain ⟨e, hlog, -⟩ := step_spec hv h
  intro i call hmem
  rw [hlog] at hmem
  rcases List.mem_cons.mp hmem with rfl | hmem
  · obtain ⟨k, act, w, ph, rfl, -, hst⟩ := step_ofWorker h hlog rfl
    have hdoc := hst.document
    cases act with
    | analyze outcome =>
      cases outcome with
      | error _ => cases hdoc
      | ok run =>
        rw [Option.some.inj hdoc]
        exact ha
    | _ => cases hdoc
  · exact hr i call hmem

/-- What a report writes agrees, if the row it replaces does. -/
theorem written_agrees {db : Db} {p : AnalysisRow} (hp : p.Agrees)
    (hall : ∀ a ∈ db.analyses, a.Agrees)
    (hc : ∀ a ∈ db.analyses, a.columns = p.columns →
      turnCounts p.document = turnCounts a.document) : (written db p).Agrees := by
  rcases written_cases db p with ⟨-, hw⟩ | ⟨a, ha, hcol, hw⟩
  · rw [hw]
    exact hp
  · rw [hw]
    exact (hc a ha hcol).trans (hall a ha)

/-- **A step that keeps the counts keeps the agreement.** -/
theorem agrees_step (hv : s.db.Valid) (hp : ProcessesOk s) (hr : ReturnsValid s.log)
    (hall : ∀ a ∈ s.db.analyses, a.Agrees) {act : Action} (hc : SameCounts s act)
    (h : s.step act = some s') : ∀ a ∈ s'.db.analyses, a.Agrees := by
  obtain ⟨e, hlog, hs⟩ := step_spec hv h
  intro a ha
  rcases hs.effect.analyses with ⟨hsame, -⟩ | ⟨i, job, row, rfl, -, hrows⟩
  · exact hall a (hsame ▸ ha)
  rcases hrows a ha with rfl | ⟨hold, -⟩
  · obtain ⟨k, _, w, ph, rfl, hw, hst⟩ := step_ofWorker h hlog rfl
    obtain ⟨rfl, cj, run, newId, now, p, hph, hpr, ho, rfl⟩ := hst.of_completed
    have hok := hp.workers k w hw
    simp only [WorkerOk, hph] at hok
    obtain ⟨-, r, -, -, hret⟩ := hok
    obtain ⟨-, hcol, hd, -, -⟩ := proposedAnalysis_ok hpr
    refine written_agrees (proposedAnalysis_agrees hpr (hr _ _ hret)) hall fun a ha hac => ?_
    rw [hd]
    exact hc w hw (cj, run) (by unfold Worker.reports; rw [hph]; rfl) ho a ha (hac.trans hcol)
  · exact hall a hold

theorem agrees_of_reach (h : StepSystem.Reach Fleet.step CountsKept Fleet.init s) :
    (∀ a ∈ s.db.analyses, a.Agrees) ∧ ReturnsValid s.log := by
  refine StepSystem.Reach.invariant_of (I := fun s : Fleet =>
    (∀ a ∈ s.db.analyses, a.Agrees) ∧ ReturnsValid s.log) ?_ ?_ h
  · exact ⟨fun a h => (List.not_mem_nil h).elim, fun i call h => (List.not_mem_nil h).elim⟩
  rintro s a s' hr ⟨hall, hret⟩ ⟨hvd, hsc⟩ hst
  have hv := valid_of_reachable hr.reachable
  have hp := processesOk_of_reachable hr.reachable
  exact ⟨agrees_step hv hp hret hall hsc hst, hret.step hv hvd hst⟩

/-- **Summaries and documents agree, while no report changes the counts of a row's document.**
Every row shows the counts of its document, so each summary `recentAnalyses` lists shows those of
the document `GET /v1/analyses/{id}` serves for it. -/
theorem summaries_agree (P : Instants)
    (h : StepSystem.Reach Fleet.step CountsKept Fleet.init s) :
    (∀ a ∈ s.db.analyses, turnCounts a.document = some (a.totalTurns, a.gradableTurns)) ∧
    ∀ limit cursor rows, recentAnalyses P s.db limit cursor = .ok rows → ∀ x ∈ rows,
      ∃ r, analysisById s.db x.analysisId = some r ∧
        turnCounts r.document = some (x.totalTurns, x.gradableTurns) := by
  have hall := (agrees_of_reach h).1
  refine ⟨hall, fun limit cursor rows hrows x hx => ?_⟩
  obtain ⟨a, ha, hid, ht, hg⟩ := mem_recentAnalyses hrows hx
  refine ⟨a.stored, ?_, ?_⟩
  · rw [hid]
    exact analysisById_of_mem (valid_of_reachable h.reachable .analysesPkey) ha
  · rw [ht, hg]
    exact hall a ha

theorem summaries_agree_reported :
    (Fleet.afterIf CountsKept Sample.reported).db.analyses.map AnalysisRow.id = [9] ∧
    ∀ a ∈ (Fleet.afterIf CountsKept Sample.reported).db.analyses,
      turnCounts a.document = some (a.totalTurns, a.gradableTurns) :=
  ⟨by decide, (summaries_agree Instants.iso (Fleet.reach_afterIf CountsKept Sample.reported)).1⟩

namespace Sample

/-- The second job of a race is claimed, and its document counts one turn more. -/
def overwritten : List Action :=
  raced ++ [.submission 1 (.enqueue 8 later)] ++
    analyze 1 "host/2" ⟨document 3 3, 1200, false⟩ ++ report 1 10

end Sample

/-- The row keeps the counts of the document it does not hold any more. -/
theorem report_keeps_counts :
    ¬ ∀ s : Fleet, StepSystem.Reach Fleet.step ValidDocument Fleet.init s →
      ∀ a ∈ s.db.analyses, turnCounts a.document = some (a.totalTurns, a.gradableTurns) := by
  intro h
  have hall := h _ (Fleet.reach_afterIf ValidDocument Sample.overwritten)
  have hbad : (Fleet.afterIf ValidDocument Sample.overwritten).db.analyses.any (fun a =>
      turnCounts a.document ≠ some (a.totalTurns, a.gradableTurns)) = true := by decide
  obtain ⟨a, ha, hne⟩ := List.any_eq_true.mp hbad
  exact of_decide_eq_true hne (hall a ha)

end BattleCloud
