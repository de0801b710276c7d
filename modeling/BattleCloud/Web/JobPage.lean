import BattleCloud.Db.Operations
import BattleCloud.Web.Pages

/-!
# The page of a job

`JobView` of `web/src/components/job.tsx`: it asks for its job, waits two seconds and asks again,
until the job is over. The page and the fleet behind the API are one system: between a request, the
moment the API answers it and the moment the answer arrives, the fleet takes any steps.

`job_page_follows`: an answer may be old when it arrives, but what the page concludes from it is
still so. It leaves for the analysis of its own job only, gives up only on a job that failed or was
cancelled, and shows an error only if an answer did not get through.
-/

namespace BattleCloud

/-! ## The component -/

/-- Where the effect of a `JobView` stands. -/
inductive PollPhase where
  /-- `getJob` is on its way to the API. -/
  | asking
  /-- `getJob` has settled. -/
  | settled (result : Except ClientError JsValue)
  /-- The timer of two seconds runs. -/
  | waiting
  | returned

structure JobView where
  job : JsValue
  error : Option JsString
  /-- Where `navigate` was called with. -/
  route : Option JsString
  live : Bool
  phase : PollPhase

/-- The first `poll()`. -/
def JobView.mount : JobView := ⟨.null, none, none, true, .asking⟩

/-- `value === text`. -/
def isText (v : Option JsValue) (text : String) : Bool :=
  match v with
  | some (.str s) => s = js text
  | _ => false

inductive PollEnd where
  | navigate (route : JsString)
  | stop
  | again

/-- What `poll` does after `setJob(next)`. -/
def pollEnd (next : JsValue) : Except ClientError PollEnd :=
  (property next "status").bind fun status =>
  (property next "analysisId").bind fun analysisId =>
  if isText status "succeeded" && !(analysisId matches some .null) then
    (template "/a/" analysisId).map .navigate
  else .ok (if isText status "failed" || isText status "cancelled" then .stop else .again)

/-- The `catch` of `poll`. -/
def JobView.lose (v : JobView) : JobView :=
  { v with
    error := if v.live then some (js "Lost contact with the API while waiting.") else v.error
    phase := .returned }

/-- `poll`, from where `getJob` has settled. -/
def JobView.settle (v : JobView) : Except ClientError JsValue → JobView
  | .error _ => v.lose
  | .ok next =>
    if !v.live then { v with phase := .returned }
    else
      match pollEnd next with
      | .error _ => { v with job := next }.lose
      | .ok (.navigate route) => { v with job := next, route := some route, phase := .returned }
      | .ok .stop => { v with job := next, phase := .returned }
      | .ok .again => { v with job := next, phase := .waiting }

/-! ## The page and the fleet -/

structure JobPage where
  fleet : Fleet
  view : JobView

inductive JobPageAction where
  | fleet (action : Action)
  /-- The API looks the job up. -/
  | handle (fault : Bool) (delivery : Delivery)
  | settle
  | timer
  | unmount

namespace JobPage

variable (host : Host) (jobId : JsString)

def step (s : JobPage) : JobPageAction → Option JobPage
  | .fleet action => (s.fleet.step action).map fun fleet => { s with fleet }
  | .handle fault delivery =>
    match s.view.phase with
    | .asking =>
      let result := getJob host s.fleet.db fault delivery jobId
      some { s with view := { s.view with phase := .settled result } }
    | _ => none
  | .settle =>
    match s.view.phase with
    | .settled result => some { s with view := s.view.settle result }
    | _ => none
  | .timer =>
    match s.view.phase with
    | .waiting => some { s with view := { s.view with phase := .asking } }
    | _ => none
  | .unmount => some { s with view := { s.view with live := false } }

/-- The page opens. -/
def mount (fleet : Fleet) : JobPage := ⟨fleet, JobView.mount⟩

/-- No answer fails to get through. -/
def InContact (_ : JobPage) : JobPageAction → Prop
  | .handle fault delivery => fault = false ∧ delivery = .delivered
  | _ => True

end JobPage

/-! ## The view of a job -/

theorem jobView_keys (job : StoredJob) : (jobView job).toJs.distinctKeys = true := by
  have hkeys : ["jobId", "status", "replayId", "perspective", "profile", "estimatedTurns",
      "estimatedSearchMs", "analysisId", "errorKind", "createdAt", "updatedAt"].Nodup := by decide
  refine toJs_keys hkeys ?_
  simp only [List.forall_mem_cons]
  exact ⟨rfl, rfl, rfl, rfl, rfl, nullable_keys (fun _ => rfl) _, nullable_keys (fun _ => rfl) _,
    nullable_keys (fun _ => rfl) _, nullable_keys (fun _ => rfl) _, rfl, rfl,
    List.forall_mem_nil _⟩

/-- The row as the page has it. -/
def jobRead (host : Host) (j : JobRow) : JsValue := (jobView (toJob j)).toJs.reread host.number

/-- What `poll` makes of a row. -/
def JobRow.pollEnd (j : JobRow) : PollEnd :=
  match j.status, j.analysisId with
  | .succeeded, some analysisId => .navigate (js "/a/" ++ js (uuidText analysisId))
  | .failed, _ | .cancelled, _ => .stop
  | _, _ => .again

theorem pollEnd_jobRead (host : Host) (j : JobRow) :
    BattleCloud.pollEnd (jobRead host j) = .ok j.pollEnd := by
  have hstatus : property (jobRead host j) "status" = .ok (some (.str (js j.status.text))) := by
    rw [jobRead, jobView, Json.toJs, JsValue.reread, property, fieldOf_reread, fieldOf_toJs]
    rfl
  have hanalysis : property (jobRead host j) "analysisId" =
      .ok (some ((nullable (fun i => .str (uuidText i)) j.analysisId).toJs)) := by
    rw [jobRead, jobView, Json.toJs, JsValue.reread, property, fieldOf_reread, fieldOf_toJs]
    simp only [toJob, Json.get?]
    cases j.analysisId <;> rfl
  unfold BattleCloud.pollEnd JobRow.pollEnd
  rw [hstatus, hanalysis]
  have htext : ∀ text : String, isText (some (.str (js j.status.text))) text =
      decide (j.status.text = text) := by
    intro text
    simp [isText, js_injective.eq_iff]
  simp only [Except.bind, htext]
  cases j.status <;> cases j.analysisId <;> rfl

/-! ## What a poll gets -/

theorem jobById_of_mem {db : Db} (hv : db.Valid) {j : JobRow} (hj : j ∈ db.jobs) :
    jobById db j.id = some (toJob j) := by
  unfold jobById
  cases hf : db.jobs.find? fun k => k.id = j.id with
  | none =>
    rw [List.find?_eq_none] at hf
    exact absurd (by simp) (hf j hj)
  | some k =>
    have hk : k.id = j.id := by simpa using List.find?_some hf
    rw [hv.job_eq (List.mem_of_find?_eq_some hf) hj hk]
    rfl

theorem getJob_found (host : Host) {db : Db} {j : JobRow} (hv : db.Valid) (hj : j ∈ db.jobs) :
    getJob host db false .delivered (js (uuidText j.id)) = .ok (jobRead host j) := by
  unfold getJob
  rw [apiGet_uuid, Delivery.fetch, Host.sendJob, lookupJob, uuidParam_uuidText]
  simp only [Bool.false_eq_true, if_false, Option.bind_some, jobById_of_mem hv hj]
  exact request_sent host (jobView_keys _)

theorem getJob_missed (host : Host) (db : Db) {fault : Bool} {delivery : Delivery}
    (h : ¬ (fault = false ∧ delivery = .delivered)) (u : Uuid) :
    ∃ cause, getJob host db fault delivery (js (uuidText u)) = .error cause := by
  unfold getJob
  rw [apiGet_uuid]
  by_cases hdelivery : delivery = .delivered
  · have hfault : fault = true := by
      rw [← Bool.not_eq_false]
      exact fun hf => h ⟨hf, hdelivery⟩
    rw [hdelivery, Delivery.fetch, Host.sendJob, lookupJob, hfault]
    exact request_missing host _ _
  · exact request_undelivered host.number hdelivery _

/-! ## What the page says -/

namespace JobPage

/-- What the page of a job has concluded is so. -/
structure Follows (host : Host) (u : Uuid) (c : IdentityColumns) (s : JobPage) : Prop where
  /-- It leaves for the analysis of its job. -/
  navigated : ∀ route, s.view.route = some route →
    ∃ j ∈ s.fleet.db.jobs, j.id = u ∧ j.status = .succeeded ∧
      ∃ a ∈ s.fleet.db.analyses, a.columns = c ∧ j.analysisId = some a.id ∧
        route = js "/a/" ++ js (uuidText a.id) ∧
        navigate route = .analysis (js (uuidText a.id))
  /-- It stays on a job that came to nothing, which it shows. -/
  stopped : s.view.phase = .returned → s.view.live = true → s.view.route = none →
    s.view.error = none →
    ∃ j ∈ s.fleet.db.jobs, j.id = u ∧ (j.status = .failed ∨ j.status = .cancelled) ∧
      s.view.job = jobRead host j

/-- An answer that may be old: of a row of this job, which is the row still if it was over. -/
def Answer (host : Host) (u : Uuid) (db : Db) (result : Except ClientError JsValue) : Prop :=
  (∃ cause, result = .error cause) ∨
    ∃ j, j.id = u ∧ result = .ok (jobRead host j) ∧ (j.live = false → j ∈ db.jobs)

structure Inv (host : Host) (u : Uuid) (c : IdentityColumns) (s : JobPage) : Prop where
  fleet : s.fleet.Reachable
  row : ∃ j ∈ s.fleet.db.jobs, j.id = u ∧ j.columns = c
  answer : ∀ result, s.view.phase = .settled result → Answer host u s.fleet.db result
  follows : Follows host u c s

variable {host : Host} {u : Uuid} {c : IdentityColumns} {s s' : JobPage}

/-- **A step of the fleet** takes nothing back. -/
theorem Inv.fleet_step (h : Inv host u c s) {action : Action} {fleet : Fleet}
    (hst : s.fleet.step action = some fleet) : Inv host u c { s with fleet } := by
  have hv := valid_of_reachable h.fleet
  obtain ⟨e, -, hs⟩ := step_spec hv hst
  have hover : ∀ j ∈ s.fleet.db.jobs, j.live = false → j ∈ fleet.db.jobs :=
    fun j hj hl => hs.effect.over_kept hv hj hl
  obtain ⟨j, hj, hid, hcol⟩ := h.row
  obtain ⟨j', hj', hid', hcol'⟩ := hs.effect.jobs j hj
  refine ⟨.next h.fleet trivial hst, ⟨j', hj', hid'.trans hid, hcol'.trans hcol⟩, ?_, ?_, ?_⟩
  · intro result hresult
    rcases h.answer result hresult with hcause | ⟨k, hk, hread, hl⟩
    · exact Or.inl hcause
    · exact Or.inr ⟨k, hk, hread, fun hdead => hover k (hl hdead) hdead⟩
  · intro route hroute
    obtain ⟨k, hk, hkid, hsucceeded, a, ha, hac, hka, rest⟩ := h.follows.navigated route hroute
    obtain ⟨a', ha', hkept⟩ := hs.effect.kept hv ha
    rw [← hkept.id] at hka rest
    exact ⟨k, hover k hk (not_live_of_succeeded hsucceeded), hkid, hsucceeded, a', ha',
      hkept.columns.trans hac, hka, rest⟩
  · intro hphase hlive hroute herror
    obtain ⟨k, hk, hkid, hstatus, hjob⟩ := h.follows.stopped hphase hlive hroute herror
    have hdead : k.live = false := by
      rcases hstatus with hs | hs <;> simp [JobRow.live, hs]
    exact ⟨k, hover k hk hdead, hkid, hstatus, hjob⟩

/-- The row a poll finds. -/
theorem Inv.found (h : Inv host u c s) :
    ∃ j ∈ s.fleet.db.jobs, j.id = u ∧ j.columns = c ∧
      getJob host s.fleet.db false .delivered (js (uuidText u)) = .ok (jobRead host j) := by
  obtain ⟨j, hj, rfl, hcol⟩ := h.row
  exact ⟨j, hj, rfl, hcol, getJob_found host (valid_of_reachable h.fleet) hj⟩

theorem Inv.handled (h : Inv host u c s) (fault : Bool) (delivery : Delivery) :
    Answer host u s.fleet.db (getJob host s.fleet.db fault delivery (js (uuidText u))) := by
  by_cases hcontact : fault = false ∧ delivery = .delivered
  · obtain ⟨j, hj, hid, -, hfound⟩ := h.found
    rw [hcontact.1, hcontact.2, hfound]
    exact Or.inr ⟨j, hid, rfl, fun _ => hj⟩
  · exact Or.inl (getJob_missed host s.fleet.db hcontact u)

/-- The three ends of a poll. -/
theorem pollEnd_cases (j : JobRow) :
    (∃ i, j.status = .succeeded ∧ j.analysisId = some i ∧
      j.pollEnd = .navigate (js "/a/" ++ js (uuidText i))) ∨
    ((j.status = .failed ∨ j.status = .cancelled) ∧ j.pollEnd = .stop) ∨
    ((j.live = true ∨ (j.status = .succeeded ∧ j.analysisId = none)) ∧ j.pollEnd = .again) := by
  unfold JobRow.pollEnd JobRow.live
  cases hs : j.status with
  | queued => exact Or.inr (Or.inr ⟨Or.inl rfl, rfl⟩)
  | running => exact Or.inr (Or.inr ⟨Or.inl rfl, rfl⟩)
  | failed => exact Or.inr (Or.inl ⟨Or.inl rfl, rfl⟩)
  | cancelled => exact Or.inr (Or.inl ⟨Or.inr rfl, rfl⟩)
  | succeeded =>
    cases ha : j.analysisId with
    | none => exact Or.inr (Or.inr ⟨Or.inr ⟨rfl, rfl⟩, rfl⟩)
    | some i => exact Or.inl ⟨i, rfl, rfl, rfl⟩

/-- A poll of a live page, by what it read. -/
theorem settle_jobRead {v : JobView} (hlive : v.live = true) (j : JobRow) :
    v.settle (.ok (jobRead host j)) =
      match j.pollEnd with
      | .navigate route => { v with job := jobRead host j, route := some route, phase := .returned }
      | .stop => { v with job := jobRead host j, phase := .returned }
      | .again => { v with job := jobRead host j, phase := .waiting } := by
  simp only [JobView.settle, hlive, Bool.not_true, Bool.false_eq_true, if_false, pollEnd_jobRead]
  cases j.pollEnd <;> rfl

/-- The analysis of a succeeded job. -/
theorem Inv.analysis (h : Inv host u c s) {j : JobRow} (hj : j ∈ s.fleet.db.jobs) (hid : j.id = u)
    (hs : j.status = .succeeded) :
    ∃ a ∈ s.fleet.db.analyses, a.columns = c ∧ j.analysisId = some a.id := by
  obtain ⟨k, hk, hkid, hcol⟩ := h.row
  obtain ⟨a, ha, haid, hac⟩ := (provenance_of_reachable h.fleet).2.1.job j hj hs
  rw [(valid_of_reachable h.fleet).job_eq hj hk (hid.trans hkid.symm)] at hac
  exact ⟨a, ha, hac.trans hcol, haid⟩

/-- **What the page concludes is so**, however old the answer is. -/
theorem Inv.settle_step (h : Inv host u c s) {result : Except ClientError JsValue}
    (hphase : s.view.phase = .settled result) :
    Inv host u c { s with view := s.view.settle result } := by
  have hkeep : ∀ v : JobView, (∀ r, v.phase ≠ .settled r) →
      Follows host u c { s with view := v } → Inv host u c { s with view := v } :=
    fun v hv hf => ⟨h.fleet, h.row, fun r hr => absurd hr (hv r), hf⟩
  have hlost : Follows host u c { s with view := s.view.lose } := by
    refine ⟨h.follows.navigated, fun _ hlive _ herror => ?_⟩
    have hlive : s.view.live = true := hlive
    simp [JobView.lose, hlive] at herror
  rcases h.answer result hphase with ⟨cause, rfl⟩ | ⟨j, hid, rfl, hl⟩
  · exact hkeep s.view.lose (fun _ hr => by cases hr) hlost
  cases hlive : s.view.live with
  | false =>
    have hgone : s.view.settle (.ok (jobRead host j)) = { s.view with phase := .returned } := by
      simp only [JobView.settle, hlive, Bool.not_false, if_true]
    rw [hgone]
    refine hkeep _ (fun _ hr => by cases hr) ⟨h.follows.navigated, fun _ hlive' => ?_⟩
    rw [hlive] at hlive'
    cases hlive'
  | true =>
    rw [settle_jobRead hlive]
    rcases pollEnd_cases j with ⟨i, hs, hi, hend⟩ | ⟨hs, hend⟩ | ⟨-, hend⟩
    · have hj := hl (not_live_of_succeeded hs)
      obtain ⟨a, ha, hac, hai⟩ := h.analysis hj hid hs
      obtain rfl : i = a.id := Option.some.inj (hi.symm.trans hai)
      rw [hend]
      refine hkeep _ (fun _ hr => by cases hr)
        ⟨fun route hroute => ?_, fun _ _ hroute => by cases hroute⟩
      obtain rfl := Option.some.inj hroute
      exact ⟨j, hj, hid, hs, a, ha, hac, hai, rfl, (navigate_uuid a.id).1⟩
    · have hdead : j.live = false := by
        rcases hs with hs | hs <;> simp [JobRow.live, hs]
      rw [hend]
      exact hkeep _ (fun _ hr => by cases hr)
        ⟨h.follows.navigated, fun _ _ _ _ => ⟨j, hl hdead, hid, hs, rfl⟩⟩
    · rw [hend]
      exact hkeep _ (fun _ hr => by cases hr) ⟨h.follows.navigated, fun hr => by cases hr⟩

theorem Inv.step (h : Inv host u c s) {action : JobPageAction}
    (hst : JobPage.step host (js (uuidText u)) s action = some s') : Inv host u c s' := by
  cases action with
  | fleet action =>
    obtain ⟨fleet, hfleet, rfl⟩ := Option.map_eq_some_iff.mp hst
    exact h.fleet_step hfleet
  | handle fault delivery =>
    simp only [JobPage.step] at hst
    split at hst
    · obtain rfl := Option.some.inj hst
      refine ⟨h.fleet, h.row, fun result hresult => ?_, h.follows.navigated, nofun⟩
      obtain rfl := PollPhase.settled.inj hresult
      exact h.handled fault delivery
    · cases hst
  | settle =>
    simp only [JobPage.step] at hst
    split at hst
    · rename_i result hphase
      obtain rfl := Option.some.inj hst
      exact h.settle_step hphase
    · cases hst
  | timer =>
    simp only [JobPage.step] at hst
    split at hst
    · obtain rfl := Option.some.inj hst
      exact ⟨h.fleet, h.row, nofun, h.follows.navigated, nofun⟩
    · cases hst
  | unmount =>
    obtain rfl := Option.some.inj hst
    exact ⟨h.fleet, h.row, h.answer, h.follows.navigated, fun _ hlive => nomatch hlive⟩

theorem inv_of_reachable {fleet : Fleet} (h : fleet.Reachable) {j : JobRow}
    (hj : j ∈ fleet.db.jobs)
    (hr : StepSystem.Reachable (JobPage.step host (js (uuidText j.id))) (mount fleet) s) :
    Inv host j.id j.columns s := by
  refine StepSystem.Reach.invariant ?_ (fun s action s' hi _ hst => Inv.step hi hst) hr
  exact ⟨h, ⟨j, hj, rfl, rfl⟩, nofun, nofun, nofun⟩

/-- With every answer through there is no error on the way. -/
theorem no_error_of_contact {fleet : Fleet} (h : fleet.Reachable) {j : JobRow}
    (hj : j ∈ fleet.db.jobs)
    (hr : StepSystem.Reach (JobPage.step host (js (uuidText j.id))) InContact (mount fleet) s) :
    s.view.error = none ∧
      ∀ result, s.view.phase = .settled result → ∃ k, result = .ok (jobRead host k) := by
  refine StepSystem.Reach.invariant_of (I := fun s : JobPage => s.view.error = none ∧
    ∀ result, s.view.phase = .settled result → ∃ k, result = .ok (jobRead host k))
    ⟨rfl, fun _ h => by cases h⟩ ?_ hr
  rintro s action s' hr ⟨herror, hok⟩ hcontact hst
  have hi := inv_of_reachable h hj hr.reachable
  cases action with
  | fleet action =>
    obtain ⟨fleet, -, rfl⟩ := Option.map_eq_some_iff.mp hst
    exact ⟨herror, hok⟩
  | handle fault delivery =>
    obtain ⟨rfl, rfl⟩ := hcontact
    obtain ⟨k, -, -, -, hfound⟩ := hi.found
    simp only [JobPage.step, hfound] at hst
    split at hst
    · obtain rfl := Option.some.inj hst
      exact ⟨herror, fun result hresult => ⟨k, (PollPhase.settled.inj hresult).symm⟩⟩
    · cases hst
  | settle =>
    simp only [JobPage.step] at hst
    split at hst
    · rename_i result hphase
      obtain rfl := Option.some.inj hst
      obtain ⟨k, rfl⟩ := hok result hphase
      cases hlive : s.view.live with
      | false =>
        simp only [JobView.settle, hlive, Bool.not_false, if_true]
        exact ⟨herror, nofun⟩
      | true =>
        simp only [settle_jobRead hlive]
        cases k.pollEnd <;> exact ⟨herror, nofun⟩
    · cases hst
  | timer =>
    simp only [JobPage.step] at hst
    split at hst
    · obtain rfl := Option.some.inj hst
      exact ⟨herror, nofun⟩
    · cases hst
  | unmount =>
    obtain rfl := Option.some.inj hst
    exact ⟨herror, hok⟩

/-- One poll that gets through shows the job, and ends the polling exactly if the job is over. -/
def Polls (host : Host) (u : Uuid) (s : JobPage) : Prop :=
  ∃ j ∈ s.fleet.db.jobs, j.id = u ∧ ∃ s', StepSystem.exec (JobPage.step host (js (uuidText u))) s
      [.handle false .delivered, .settle] = some s' ∧ s'.fleet = s.fleet ∧
    s'.view.job = jobRead host j ∧ s'.view.error = s.view.error ∧
    (j.live = true → s'.view.phase = .waiting) ∧ (j.live = false → s'.view.phase = .returned) ∧
    (j.status = .succeeded → s'.view.route.isSome = true)

theorem Inv.poll (h : Inv host u c s) (hphase : s.view.phase = .asking)
    (hlive : s.view.live = true) : Polls host u s := by
  obtain ⟨j, hj, hid, -, hfound⟩ := h.found
  refine ⟨j, hj, hid, { s with view := s.view.settle (.ok (jobRead host j)) }, ?_, rfl, ?_⟩
  · simp only [StepSystem.exec, JobPage.step, hphase, hfound, Option.bind_some]
    simp [JobView.settle, JobView.lose]
  rcases pollEnd_cases j with ⟨i, hs, hi, hend⟩ | ⟨hs, hend⟩ | ⟨hs, hend⟩
  · have hdead := not_live_of_succeeded hs
    simp [settle_jobRead hlive, hend, hdead]
  · have hdead : j.live = false := by
      rcases hs with hs | hs <;> simp [JobRow.live, hs]
    have hne : j.status ≠ .succeeded := by
      rcases hs with hs | hs <;> simp [hs]
    simp [settle_jobRead hlive, hend, hdead, hne]
  · have hj' : j.live = true := by
      rcases hs with hs | ⟨hs, hnone⟩
      · exact hs
      · obtain ⟨a, -, -, hsome⟩ := h.analysis hj hid hs
        rw [hnone] at hsome
        cases hsome
    have hne : j.status ≠ .succeeded := by
      intro hs
      rw [not_live_of_succeeded hs] at hj'
      cases hj'
    simp [settle_jobRead hlive, hend, hj', hne]

/-- A page that is gone says nothing more. -/
theorem gone {jobId : JsString} (hlive : s.view.live = false)
    (hr : StepSystem.Reachable (JobPage.step host jobId) s s') :
    s'.view.live = false ∧ s'.view.job = s.view.job ∧ s'.view.error = s.view.error ∧
      s'.view.route = s.view.route := by
  refine StepSystem.Reach.invariant (I := fun t : JobPage => t.view.live = false ∧
    t.view.job = s.view.job ∧ t.view.error = s.view.error ∧ t.view.route = s.view.route)
    ⟨hlive, rfl, rfl, rfl⟩ ?_ hr
  rintro t action t' ⟨hl, hjob, herror, hroute⟩ - hst
  cases action with
  | fleet action =>
    obtain ⟨fleet, -, rfl⟩ := Option.map_eq_some_iff.mp hst
    exact ⟨hl, hjob, herror, hroute⟩
  | handle fault delivery =>
    simp only [JobPage.step] at hst
    split at hst
    · obtain rfl := Option.some.inj hst
      exact ⟨hl, hjob, herror, hroute⟩
    · cases hst
  | settle =>
    simp only [JobPage.step] at hst
    split at hst
    · rename_i result _
      obtain rfl := Option.some.inj hst
      cases result with
      | error cause =>
        simp only [JobView.settle, JobView.lose, hl, Bool.false_eq_true, if_false]
        exact ⟨trivial, hjob, herror, hroute⟩
      | ok next =>
        simp only [JobView.settle, hl, Bool.not_false, if_true]
        exact ⟨trivial, hjob, herror, hroute⟩
    · cases hst
  | timer =>
    simp only [JobPage.step] at hst
    split at hst
    · obtain rfl := Option.some.inj hst
      exact ⟨hl, hjob, herror, hroute⟩
    · cases hst
  | unmount =>
    obtain rfl := Option.some.inj hst
    exact ⟨rfl, hjob, herror, hroute⟩

end JobPage

/-- **The page of a job follows its job.** However the steps of the page and of the fleet
interleave, and however old an answer is when it arrives: the page leaves for the analysis of its
job only, and stays only on a job that failed or was cancelled or with an error; a poll that gets
through ends the polling exactly if the job is over; a page that was left says nothing more; and
there is no error if every answer gets through. -/
theorem job_page_follows (host : Host) {fleet : Fleet} (h : fleet.Reachable) {j : JobRow}
    (hj : j ∈ fleet.db.jobs) :
    navigate (js "/j/" ++ js (uuidText j.id)) = .job (js (uuidText j.id)) ∧
    (∀ s, StepSystem.Reachable (JobPage.step host (js (uuidText j.id))) (.mount fleet) s →
      s.Follows host j.id j.columns ∧
      (s.view.phase = .asking → s.view.live = true → s.Polls host j.id) ∧
      (s.view.live = false →
        ∀ s', StepSystem.Reachable (JobPage.step host (js (uuidText j.id))) s s' →
          s'.view.job = s.view.job ∧ s'.view.error = s.view.error ∧
            s'.view.route = s.view.route)) ∧
    (∀ s, StepSystem.Reach (JobPage.step host (js (uuidText j.id))) JobPage.InContact
      (.mount fleet) s → s.view.error = none) := by
  refine ⟨(navigate_uuid j.id).2, fun s hr => ?_, fun s hr =>
    (JobPage.no_error_of_contact h hj hr).1⟩
  have hi := JobPage.inv_of_reachable h hj hr
  exact ⟨hi.follows, hi.poll, fun hlive s' hr' => (JobPage.gone hlive hr').2⟩

/-- The job has succeeded when its page opens: the first poll leads to the analysis. -/
theorem job_page_follows_reported :
    ∃ j ∈ (Fleet.after Sample.reported).db.jobs,
      ∃ s, StepSystem.Reachable (JobPage.step Sample.host (js (uuidText j.id)))
        (.mount (Fleet.after Sample.reported)) s ∧
      s.view.route = some (js "/a/" ++ js (uuidText 9)) := by
  have hjobs : ∀ k ∈ (Fleet.after Sample.reported).db.jobs, k.status = .succeeded := by decide
  have hrows : ∀ a ∈ (Fleet.after Sample.reported).db.analyses, a.id = 9 := by decide
  obtain ⟨j, hj⟩ : ∃ j, j ∈ (Fleet.after Sample.reported).db.jobs :=
    List.exists_mem_of_ne_nil _ (by decide)
  have hpage := (job_page_follows Sample.host (Fleet.reachable_after Sample.reported) hj).2.1
  obtain ⟨k, hk, -, s, hrun, hfleet, -, -, -, -, hroute⟩ := (hpage _ .init).2.1 rfl rfl
  have hreach := StepSystem.reachable_of_exec .init hrun
  obtain ⟨route, hsome⟩ := Option.isSome_iff_exists.mp (hroute (hjobs k hk))
  obtain ⟨-, -, -, -, a, ha, -, -, rfl, -⟩ := (hpage s hreach).1.navigated route hsome
  rw [hfleet] at ha
  rw [hrows a ha] at hsome
  exact ⟨j, hj, s, hreach, hsome⟩

end BattleCloud
