import BattleCloud.Fleet.Handler
import BattleCloud.Web.JobPage

/-!
# From the form to the analysis

The pages and the fleet together: a submission of the form is answered somewhere among the steps of
all other processes, the browser goes to the page it is given, and from the page of a job on to the
page of an analysis.

`submission_to_analysis`: whatever page of an analysis the browser comes to, it shows a document
that was computed for what was typed, from then on in every state.
-/

namespace BattleCloud

/-- What a submission was given is of its identity. -/
def GivenOk (db : Db) (sub : Submission) : Prop :=
  match sub.phase with
  | .launching job _ | .answered (.accepted job _) =>
    ∃ j ∈ db.jobs, j.id = job.id ∧ j.columns = sub.columns
  | .answered (.ok analysis) => ∃ a ∈ db.analyses, a.id = analysis.id ∧ a.columns = sub.columns
  | _ => True

/-- From this state on, the page of this analysis shows a document that was computed for this
identity. -/
def ShowsFrom (host : Host) (s : Fleet) (c : IdentityColumns) (analysisId : JsString) : Prop :=
  ∀ s', StepSystem.Reachable Fleet.step s s' → host.Documents s'.db →
    ∃ a ∈ s'.db.analyses, a.columns = c ∧ (∃ k, ComputedBy s' k c a.document s'.log) ∧
      analysisView (getAnalysis host s'.db false .delivered analysisId) =
        .envelope ((envelope a.stored).toJs.reread host.number)

/-- A page of an analysis shows one of this identity; a page of a job leads to no other. -/
inductive LeadsTo (host : Host) (s : Fleet) (c : IdentityColumns) : Page → Prop
  | analysis {analysisId : JsString} (h : ShowsFrom host s c analysisId) :
      LeadsTo host s c (.analysis analysisId)
  | job {jobId : JsString}
      (h : ∀ p, StepSystem.Reachable (JobPage.step host jobId) (.mount s) p →
        ∀ route, p.view.route = some route →
          ∃ analysisId, navigate route = .analysis analysisId ∧
            ShowsFrom host p.fleet c analysisId) :
      LeadsTo host s c (.job jobId)

variable {s : Fleet} {sub : Submission}

/-! ## What a submission is given -/

theorem GivenOk.mono {e : Event} {db : Db} (hv : s.db.Valid) (h : Effect s e db)
    (hg : GivenOk s.db sub) : GivenOk db sub := by
  have hjob : ∀ id, (∃ j ∈ s.db.jobs, j.id = id ∧ j.columns = sub.columns) →
      ∃ j ∈ db.jobs, j.id = id ∧ j.columns = sub.columns := by
    rintro id ⟨j, hj, hid, hcol⟩
    obtain ⟨j', hj', hid', hcol'⟩ := h.jobs j hj
    exact ⟨j', hj', hid'.trans hid, hcol'.trans hcol⟩
  unfold GivenOk at hg ⊢
  split at hg
  · exact hjob _ hg
  · exact hjob _ hg
  · obtain ⟨a, ha, hid, hcol⟩ := hg
    obtain ⟨a', ha', hkept⟩ := h.kept hv ha
    exact ⟨a', ha', hkept.id.trans hid, hkept.columns.trans hcol⟩
  · trivial

/-- The job an enqueue returns is in the table. -/
theorem enqueue_given {db db' : Db} {identity : AnalysisIdentity} {profile : Profile}
    {turns ms : Int} {newId : Uuid} {now : Timestamptz} {job : JobRow} {created : Bool}
    (h : enqueue db identity profile turns ms newId now = .ok (db', job, created)) :
    ∃ j ∈ db'.jobs, j.id = (toJob job).id ∧ j.columns = identity.columns := by
  obtain ⟨hcol, ⟨-, rfl, hj, -⟩ | ⟨-, -, -, rfl, -⟩⟩ := enqueue_ok h
  · exact ⟨job, hj, rfl, hcol⟩
  · exact ⟨job, List.mem_append_right _ List.mem_cons_self, rfl, hcol⟩

/-- A step of the submission gives it a row of the tables. -/
theorem SubmissionStep.given {i : Nat} {db db' : Db} {act : SubmissionAction}
    {ph : SubmissionPhase} {e : Event} (h : SubmissionStep db i sub act db' ph e)
    (hg : GivenOk db sub) : GivenOk db' { sub with phase := ph } := by
  cases h with
  | hit hph hok =>
    obtain ⟨a, ha, hcol, rfl⟩ := analysisByIdentity_some hok
    exact ⟨a, ha, rfl, hcol⟩
  | created hph hok => exact enqueue_given hok
  | joined hph hok hq => exact enqueue_given hok
  | joinedRunning hph hok hq => exact enqueue_given hok
  | responded hph =>
    simp only [GivenOk, hph] at hg
    exact hg
  | _ => trivial

theorem given_of_reachable (h : s.Reachable) :
    ∀ (i : Nat) (sub : Submission), s.submissions[i]? = some sub → GivenOk s.db sub := by
  refine StepSystem.Reach.invariant_of (I := fun s : Fleet =>
    ∀ (i : Nat) (sub : Submission), s.submissions[i]? = some sub → GivenOk s.db sub)
    (fun i sub h => by simp [Fleet.init] at h) ?_ h
  rintro s a s' hr hg - hst i sub' hsub'
  have hv := valid_of_reachable hr
  obtain ⟨e, -, hs⟩ := step_spec hv hst
  rcases step_submissions hst hsub' with
    hsub | ⟨_, _, -, -, rfl⟩ | ⟨sub, act, ph, e, -, hsub, hstep, rfl, -⟩
  · exact (hg i sub' hsub).mono hv hs.effect
  · trivial
  · exact hstep.given (hg i sub hsub)

/-! ## Where the pages lead -/

theorem showsFrom (host : Host) (h : s.Reachable) {a : AnalysisRow} (ha : a ∈ s.db.analyses) :
    ShowsFrom host s a.columns (js (uuidText a.id)) := by
  intro s' hr hdocs
  obtain ⟨a', ha', hkept, hcomp, hview⟩ := analysisView_kept host h hr hdocs ha
  exact ⟨a', ha', hkept.columns, hcomp, hview⟩

theorem leadsTo_job (host : Host) (h : s.Reachable) {j : JobRow} (hj : j ∈ s.db.jobs) :
    LeadsTo host s j.columns (.job (js (uuidText j.id))) := by
  refine .job fun p hr route hroute => ?_
  have hi := JobPage.inv_of_reachable h hj hr
  obtain ⟨-, -, -, -, a, ha, hcol, -, -, hnavigate⟩ := hi.follows.navigated route hroute
  exact ⟨_, hnavigate, hcol ▸ showsFrom host hi.fleet ha⟩

/-- **From the form to the analysis.** A submission of the form is answered in some reachable state
of the fleet. The route the form goes on to is the page of an analysis, or of a job that leads to
the page of an analysis, whatever else happens and however its polls are answered; and this page
shows from then on a document that was computed for the replay, the side and the profile in the
form. -/
theorem submission_to_analysis (host : Host) (h : s.Reachable) {i : Nat}
    (hsub : s.submissions[i]? = some sub) {input : JsString} {perspective : Perspective}
    {profile : Profile}
    (hform : parseSubmitRequest (jsonParse host.number (Utf8.decodeText (Utf8.encodeText
      (submitBody (parseReplayId input) perspective profile).stringify))) = some sub.request)
    {reply : PostReply} (hreply : sub.phase = .answered reply.response)
    (hsend : reply.Sendable host)
    {route : JsString}
    (hroute : formEffect host.number (some (host.sendPost reply)) = .navigate route) :
    LeadsTo host s
      (deriveIdentity ⟨(parseReplayId input).text, perspective, profile⟩ sub.build).columns
      (navigate route) := by
  rw [submitBody_received] at hform
  have hrequest := (parseSubmitRequest_of_submitBody hform).2
  have hcolumns : sub.columns =
      (deriveIdentity ⟨(parseReplayId input).text, perspective, profile⟩ sub.build).columns := by
    rw [Submission.columns, Submission.identity, hrequest]
  have hgiven := given_of_reachable h i sub hsub
  rw [← hcolumns]
  rw [formEffect_sendPost host hsend] at hroute
  cases reply with
  | ok cached =>
    simp only [GivenOk, hreply, PostReply.response] at hgiven
    obtain ⟨a, ha, hid, hcol⟩ := hgiven
    obtain rfl := FormEffect.navigate.inj hroute
    rw [← hid, (navigate_uuid a.id).1]
    exact .analysis (hcol ▸ showsFrom host h ha)
  | accepted job created =>
    simp only [GivenOk, hreply, PostReply.response] at hgiven
    obtain ⟨j, hj, hid, hcol⟩ := hgiven
    obtain rfl := FormEffect.navigate.inj hroute
    rw [← hid, (navigate_uuid j.id).2]
    exact hcol ▸ leadsTo_job host h hj
  | failed reply retryAfter =>
    obtain ⟨message, hpage⟩ := @pageOf_failed host reply retryAfter
    rw [hpage] at hroute
    cases hroute

namespace Sample

/-- A first submission, answered with its job. -/
def accepted : List Action := submitFirst 7 ++ [.submission 0 .respond]

def isAccepted : SubmissionPhase → Bool
  | .answered (.accepted _ _) => true
  | _ => false

end Sample

theorem submission_to_analysis_accepted :
    ∃ sub job created, (Fleet.after Sample.accepted).submissions[0]? = some sub ∧
      sub.phase = .answered (.accepted job created) ∧
      LeadsTo Sample.host (Fleet.after Sample.accepted)
        (deriveIdentity Sample.request sub.build).columns (.job (js (uuidText job.id))) := by
  have hreach := Fleet.reachable_after Sample.accepted
  have hfirst : (Fleet.after Sample.accepted).submissions[0]?.any (fun sub =>
      sub.request = Sample.request && Sample.isAccepted sub.phase) = true := by
    decide
  generalize Fleet.after Sample.accepted = s at hreach hfirst ⊢
  obtain ⟨sub, hsub, hfirst⟩ := (Option.any_eq_true _ _).mp hfirst
  obtain ⟨hrequest, hphase⟩ := Bool.and_eq_true_iff.mp hfirst
  obtain ⟨job, created, hphase⟩ : ∃ job created, sub.phase = .answered (.accepted job created) := by
    unfold Sample.isAccepted at hphase
    split at hphase
    · exact ⟨_, _, ‹_›⟩
    · cases hphase
  have hid : parseReplayId (js "gen9ou-2672927429") = js "gen9ou-2672927429" := by decide
  have hform : parseSubmitRequest (jsonParse Sample.host.number (Utf8.decodeText (Utf8.encodeText
      (submitBody (parseReplayId (js "gen9ou-2672927429")) .p1 .quick).stringify))) =
      some sub.request := by
    rw [submitBody_received, hid, parseSubmitRequest_submitBody (by decide), JsString.text_js,
      of_decide_eq_true hrequest]
    rfl
  have hleads := @submission_to_analysis s sub Sample.host hreach 0 hsub
    (js "gen9ou-2672927429") .p1 .quick hform (.accepted job created) hphase trivial _
    (formEffect_sendPost Sample.host (by exact trivial))
  rw [hid, JsString.text_js, (navigate_uuid job.id).2] at hleads
  exact ⟨sub, job, created, hsub, hphase, hleads⟩

end BattleCloud
