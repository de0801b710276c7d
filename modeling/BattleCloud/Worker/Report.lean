import BattleCloud.Fleet.Branch
import BattleCloud.Fleet.Outcome
import BattleCloud.Worker.Dumps

/-!
# The runs of the fleet among the Python ones

The fleet's runs carry the document as the `jsonb` value it becomes, and its failures a text. Every
outcome that can be recorded is one of those (`Recordable.modelled`): its report is the one of the
fleet's model (`PyRun.report_eq_reportSuccess`, `PyFailure.report_eq_reportFailure`), and what
`conclude` does in one go is a run of the worker's steps (`conclude_steps`). Any other outcome is
raised out of the loop, which is the step `crash` of the process.
-/

namespace BattleCloud

/-! ## The reports -/

theorem isName_of_all {k : String} (h : (k.toList.all fun c => c.toNat < 0x10000) = true)
    (hs : isScalarText (pyStr k) = false) : IsName k :=
  ⟨fun c hc => of_decide_eq_true (List.all_eq_true.mp h c hc), hs⟩

theorem isName_totalTurns : IsName "totalTurns" := isName_of_all (by decide) (by decide)

theorem isName_gradableTurns : IsName "gradableTurns" := isName_of_all (by decide) (by decide)

/-- The run with its document as the column has it. -/
def PyRun.stored (run : PyRun) (document : Json) : AnalysisRun :=
  ⟨document, run.wallMs, run.degraded⟩

theorem PyRun.proposed_eq {run : PyRun} {j : Json} (h : run.document.jsonb = .ok j)
    (job : ClaimedJob) (newId : Uuid) (now : Timestamptz) :
    run.proposed job newId now = proposedAnalysis job (run.stored j) newId now := by
  have hnul : pgJsonb j = .ok j := if_pos (PyValue.nulFree_toJsonb _ (PyDict.jsonb_eq_ok_iff.mp h))
  have htotal := PyDict.integer_getOrZero h isName_totalTurns
  have hgradable := PyDict.integer_getOrZero h isName_gradableTurns
  unfold PyRun.proposed proposedAnalysis PyRun.stored
  rw [h, hnul, ← htotal, ← hgradable]

theorem reportSuccess_eq (db : Db) (workerId : String) (job : ClaimedJob) (run : AnalysisRun)
    (newId : Uuid) (now : Timestamptz) :
    reportSuccess db workerId job run newId now =
      (proposedAnalysis job run newId now).bind (storeAnalysis db workerId job.id now) := by
  unfold reportSuccess insertAnalysis
  cases proposedAnalysis job run newId now with
  | error e => rfl
  | ok p =>
    unfold storeAnalysis
    simp only [Except.bind]
    cases p.check with
    | error e => rfl
    | ok u =>
      simp only
      cases (db.putAnalysis (written db p)).commit <;> rfl

/-- **A run whose document gets into the column is reported as the model's is.** -/
theorem PyRun.report_eq_reportSuccess {run : PyRun} {j : Json} (h : run.document.jsonb = .ok j)
    (db : Db) (workerId : String) (job : ClaimedJob) (newId : Uuid) (now : Timestamptz) :
    run.report db workerId job newId now =
      reportSuccess db workerId job (run.stored j) newId now := by
  rw [reportSuccess_eq, ← PyRun.proposed_eq h]
  rfl

/-- **A failure whose kept detail is text is reported as the model's is.** -/
theorem PyFailure.report_eq_reportFailure {f : PyFailure} {cs : List Char}
    (h : PyStr.chars? (f.detail.take 2000) = some cs) (db : Db) (workerId : String) (job : Uuid)
    (maxAttempts : Nat) (now : Timestamptz) :
    f.report db workerId job maxAttempts now =
      reportFailure db workerId job maxAttempts ⟨f.kind, String.ofList cs⟩ now := by
  have hparam : PyStr.param (f.detail.take 2000) = pgText (String.ofList cs) := by
    unfold PyStr.param
    rw [h]
  have hlength : cs.length ≤ 2000 := by
    rw [← (PyStr.chars?_eq_some_iff.mp h).2, PyStr.chars, List.length_map]
    exact List.length_take_le _ _
  unfold PyFailure.report reportFailure EngineFailure.errorDetail
  rw [hparam, String.toList_ofList, List.take_of_length_le hlength]

/-! ## The steps of the fleet -/

/-- The outcome as the fleet's runs have it. -/
inductive Modelled : Except PyFailure PyRun → Except EngineFailure AnalysisRun → Prop
  | run {run : PyRun} {j : Json} (h : run.document.jsonb = .ok j) :
      Modelled (.ok run) (.ok (run.stored j))
  | failure {f : PyFailure} {cs : List Char}
      (h : PyStr.chars? (f.detail.take 2000) = some cs) :
      Modelled (.error f) (.error ⟨f.kind, String.ofList cs⟩)

/-- Every outcome that can be recorded is one of theirs. -/
theorem Recordable.modelled {outcome : Except PyFailure PyRun} (h : Recordable outcome) :
    ∃ answer, Modelled outcome answer := by
  cases outcome with
  | error f =>
    obtain ⟨cs, hcs, -⟩ := PyStr.chars?_some_iff.mpr h
    exact ⟨_, .failure hcs⟩
  | ok run =>
    obtain ⟨j, hj⟩ := PyDict.jsonb_ok_iff.mpr (PyRun.Recordable.document h)
    exact ⟨_, .run hj⟩

/-- What the worker does with an answer of the engine, step by step. -/
def answerSteps (i : Nat) (lostSeen : Bool) (newId : Uuid) (now : Timestamptz) :
    Except EngineFailure AnalysisRun → List Action
  | .error f => [.worker i (.analyze (.error f)), .worker i (.fail now)]
  | .ok run =>
    .worker i (.analyze (.ok run)) ::
      if lostSeen then [] else [.worker i (.insert newId now), .worker i .complete]

/-- **What is reported in one go is what the fleet reaches step by step.** -/
theorem conclude_steps {s : Fleet} {i : Nat} {w : Worker} {job : ClaimedJob}
    {payload : EnginePayload} {n : Nat} (hw : s.workers[i]? = some w)
    (hph : w.phase = .analyzing job payload n) {lostSeen : Bool}
    (hlost : (s.heartbeats[n]?.any fun hb => hb.state = .lost) = lostSeen)
    {outcome : Except PyFailure PyRun} {answer : Except EngineFailure AnalysisRun}
    (hm : Modelled outcome answer) {newId : Uuid} {now : Timestamptz} {db' : Db}
    (h : conclude s.db w.workerId w.config.maxAttempts job lostSeen outcome newId now = .ok db') :
    ∃ s', StepSystem.exec Fleet.step s (answerSteps i lostSeen newId now answer) = some s' ∧
      s'.db = db' ∧ s'.workers[i]? = some { w with phase := w.afterJob } := by
  cases hm with
  | @failure f cs hcs =>
    simp only [conclude, PyFailure.report_eq_reportFailure hcs] at h
    obtain ⟨⟨db, rows⟩, hrep, rfl⟩ := except_map_ok.mp h
    obtain ⟨s₁, hs₁, hdb₁, hw₁, -⟩ := Fleet.step_worker hw
      (.analyze (.error ⟨f.kind, String.ofList cs⟩)) (by simp only [workerStep, hph]; rfl)
    obtain ⟨s₂, hs₂, hdb₂, hw₂, -⟩ := Fleet.step_worker hw₁ (.fail now)
      (by simp only [workerStep, hdb₁, hrep]; rfl)
    refine ⟨s₂, ?_, hdb₂, hw₂⟩
    simp only [answerSteps, StepSystem.exec, hs₁, Option.bind_some, hs₂]
  | @run run j hj =>
    obtain ⟨s₁, hs₁, hdb₁, hw₁, -⟩ := Fleet.step_worker hw (.analyze (.ok (run.stored j)))
      (by simp only [workerStep, hph]; rfl)
    rw [hlost] at hw₁
    cases lostSeen with
    | true =>
      obtain rfl := Except.ok.inj h
      refine ⟨s₁, ?_, hdb₁, hw₁⟩
      simp only [answerSteps, StepSystem.exec, hs₁, Option.bind_some, if_true]
    | false =>
      simp only [conclude, PyRun.report_eq_reportSuccess hj] at h
      rw [if_neg Bool.false_ne_true] at h hw₁
      obtain ⟨r, hrep, hr⟩ := except_map_ok.mp h
      obtain ⟨q, hins, -⟩ := except_bind_ok.mp hrep
      obtain ⟨s₂, hs₂, hdb₂, hw₂, -⟩ := Fleet.step_worker hw₁ (.insert newId now)
        (by simp only [workerStep, hdb₁, hins]; rfl)
      have hdone : ∃ e, workerStep s₂.db s₂.heartbeats i
          { w with phase := .completing job (run.stored j) newId now } .complete =
            some (db', w.afterJob, e) := by
        simp only [workerStep, hdb₂, hrep]
        cases r with
        | none => exact ⟨_, by rw [← hr]; rfl⟩
        | some r => exact ⟨_, by rw [← hr]; rfl⟩
      obtain ⟨e, hdone⟩ := hdone
      obtain ⟨s₃, hs₃, hdb₃, hw₃, -⟩ := Fleet.step_worker hw₂ .complete hdone
      refine ⟨s₃, ?_, hdb₃, hw₃⟩
      simp only [answerSteps, StepSystem.exec, hs₁, hs₂, hs₃, Option.bind_some,
        Bool.false_eq_true, if_false]

/-- The engine returns a win probability, and the task reports it. -/
theorem conclude_steps_probability :
    ∃ w job payload, Sample.engineRunning.workers[0]? = some w ∧
      w.phase = .analyzing job payload 0 ∧
      ∃ db' answer s', conclude Sample.engineRunning.db w.workerId w.config.maxAttempts job false
          (.ok (Sample.probability (.float 53 2))) 9 Sample.later = .ok db' ∧
        StepSystem.exec Fleet.step Sample.engineRunning
          (answerSteps 0 false 9 Sample.later answer) = some s' ∧ s'.db = db' := by
  obtain ⟨w, job, payload, hw, hph, -, -⟩ := Sample.engineRunning_analyzing
  have hrec : Recordable (.ok (Sample.probability (.float 53 2))) :=
    ⟨by decide +kernel, ⟨1, rfl, by decide⟩, ⟨1, rfl, by decide⟩, by decide⟩
  obtain ⟨answer, hm⟩ := hrec.modelled
  have hr : Sample.engineRunning.Reachable := Fleet.reachable_after _
  have hnew : ∀ a ∈ Sample.engineRunning.db.analyses, a.id ≠ 9 := by decide
  obtain ⟨hholds, -, -⟩ := bound_of_analyzing hr hw hph
  obtain ⟨db', h, -⟩ :=
    run_recorded hr hholds w.workerId w.config.maxAttempts hrec hnew Sample.later
  obtain ⟨s', hexec, hdb, -⟩ := conclude_steps hw hph rfl hm h
  exact ⟨w, job, payload, hw, hph, db', answer, s', h, hexec, hdb⟩

end BattleCloud
