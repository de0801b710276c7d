import BattleCloud.Fleet.Queue

/-!
# A stored replay is pinned

`upsertReplay` leaves a replay that is stored as it is, whatever a later fetch returned, and no
statement updates or deletes one. So the first payload stored for a replay is the one it has:
`replay_pinned` says what follows for the engine's calls and for the submissions that read it.
-/

namespace BattleCloud

theorem loadReplay_of_mem {db : Db} (hu : Table.Unique ReplayRow.id db.replays) {r : ReplayRow}
    (hr : r ∈ db.replays) : loadReplay db r.id = some r.payload :=
  congrArg (Option.map ReplayRow.payload) (Table.get_of_mem hu hr)

theorem replayLog_of_mem {db : Db} (hu : Table.Unique ReplayRow.id db.replays) {r : ReplayRow}
    (hr : r ∈ db.replays) : replayLog db r.id = some r.log :=
  congrArg (Option.map ReplayRow.log) (Table.get_of_mem hu hr)

/-- Every recorded call was given the payload of a row under the replay it names. -/
def CallsStored (s : Fleet) : Prop :=
  ∀ i call, .returned i call ∈ s.log →
    ∃ r ∈ s.db.replays, r.id = call.kwargs.replayId ∧ call.payload = r.payload

variable {s s' : Fleet}

/-- The call of a step is for the job its worker holds. -/
theorem WorkerStep.of_returned {db : Db} {i k : Nat} {w : Worker} {act : WorkerAction}
    {ph : WorkerPhase} {call : EngineCall} (hok : WorkerOk s.db s.log i w)
    (h : WorkerStep s.db s.heartbeats i w act db ph (.returned k call)) :
    ∃ r ∈ s.db.replays, r.id = call.kwargs.replayId ∧ call.payload = r.payload := by
  cases h with
  | returned run hph =>
    simp only [WorkerOk, hph] at hok
    obtain ⟨-, r, hr, hid, hpay⟩ := hok
    exact ⟨r, hr, hid, hpay⟩
  | discarded run hph =>
    simp only [WorkerOk, hph] at hok
    obtain ⟨-, r, hr, hid, hpay⟩ := hok
    exact ⟨r, hr, hid, hpay⟩

theorem CallsStored.step (hv : s.db.Valid) (hp : ProcessesOk s) (hc : CallsStored s) {a : Action}
    (h : s.step a = some s') : CallsStored s' := by
  have hg := step_grows hv h
  obtain ⟨e, hlog, -⟩ := step_spec hv h
  intro i call hmem
  have hold : ∃ r ∈ s.db.replays, r.id = call.kwargs.replayId ∧ call.payload = r.payload := by
    rw [hlog] at hmem
    rcases List.mem_cons.mp hmem with rfl | hmem
    · obtain ⟨k, act, w, ph, -, hw, hst⟩ := step_ofWorker h hlog rfl
      exact hst.of_returned (hp.workers k w hw)
    · exact hc i call hmem
  obtain ⟨r, hr, hid, hpay⟩ := hold
  exact ⟨r, hg.replays r hr, hid, hpay⟩

theorem callsStored_of_reachable (h : s.Reachable) : CallsStored s := by
  refine StepSystem.Reach.invariant_of (I := CallsStored) ?_ ?_ h
  · intro i call hmem
    exact absurd hmem List.not_mem_nil
  · intro s a s' hr hc _ hst
    exact hc.step (valid_of_reachable hr) (processesOk_of_reachable hr) hst

/-- No run changes a stored replay or loses it. -/
theorem replays_kept (h : s.Reachable) (hr : StepSystem.Reachable Fleet.step s s')
    {r : ReplayRow} (hmem : r ∈ s.db.replays) : r ∈ s'.db.replays := by
  refine StepSystem.Reach.invariant_of (I := fun s' : Fleet => r ∈ s'.db.replays) hmem ?_ hr
  intro s₁ a s₂ hr₁ hmem₁ _ hst
  exact (step_grows (valid_of_reachable (h.trans hr₁)) hst).replays r hmem₁

/-- **A replay is pinned by its first store.** From any reachable state on, along every run: the
workers load a stored replay, and the submissions read its log, as it was stored; an engine call
made for a replay was given what is loaded of it ever after, so any two calls for a replay were
given the same payload; and a submission that looks up a stored replay goes on with the turns of
the stored log, without a fetch. -/
theorem replay_pinned (h : s.Reachable) (hr : StepSystem.Reachable Fleet.step s s') :
    (∀ r ∈ s.db.replays,
      loadReplay s'.db r.id = some r.payload ∧ replayLog s'.db r.id = some r.log) ∧
    (∀ i call, .returned i call ∈ s.log →
      loadReplay s'.db call.kwargs.replayId = some call.payload) ∧
    (∀ i j call call', .returned i call ∈ s'.log → .returned j call' ∈ s'.log →
      call.kwargs.replayId = call'.kwargs.replayId → call.payload = call'.payload) ∧
    ∀ r ∈ s.db.replays, ∀ (i : Nat) (sub : Submission), s'.submissions[i]? = some sub →
      sub.request.replayId = r.id → ∀ t, s'.step (.submission i .replayLog) = some t →
        t.submissions[i]? = some { sub with phase := .enqueueing (estimateTurns r.log) } := by
  have hu : Table.Unique ReplayRow.id s'.db.replays := valid_of_reachable (h.trans hr) .replaysPkey
  have hcall : ∀ i call, .returned i call ∈ s'.log →
      loadReplay s'.db call.kwargs.replayId = some call.payload := by
    intro i call hmem
    obtain ⟨r, hmemr, hid, hpay⟩ := callsStored_of_reachable (h.trans hr) i call hmem
    rw [← hid, hpay]
    exact loadReplay_of_mem hu hmemr
  refine ⟨fun r hmem => ?_, fun i call hmem => ?_, fun i j call call' hmem hmem' hid => ?_, ?_⟩
  · have hkept := replays_kept h hr hmem
    exact ⟨loadReplay_of_mem hu hkept, replayLog_of_mem hu hkept⟩
  · obtain ⟨r, hmemr, hid, hpay⟩ := callsStored_of_reachable h i call hmem
    rw [← hid, hpay]
    exact loadReplay_of_mem hu (replays_kept h hr hmemr)
  · have hload := hcall i call hmem
    rw [hid, hcall j call' hmem'] at hload
    exact (Option.some.inj hload).symm
  · intro r hmem i sub hsub hreplay t hst
    have hlog := replayLog_of_mem hu (replays_kept h hr hmem)
    rw [← hreplay] at hlog
    cases FleetStep.of_eq hst with
    | submission hsub' hstep =>
      obtain rfl := Option.some.inj (hsub.symm.trans hsub')
      obtain ⟨hlt, -⟩ := List.getElem?_eq_some_iff.mp hsub
      cases hstep with
      | stored hph hok =>
        obtain rfl := Option.some.inj (hlog.symm.trans hok)
        exact List.getElem?_set_self hlt
      | absent hph hok =>
        rw [hlog] at hok
        cases hok

namespace Sample

/-- A second submission fetches before the first one stores, and gets another log. -/
def bothFetch : List Action :=
  [.submit request build, .submission 0 .lookup, .submission 0 (.tryConsume true),
    .submission 0 .replayLog,
    .submit ⟨"gen9ou-2672927429", .p2, .quick⟩ build, .submission 1 .lookup,
    .submission 1 (.tryConsume true), .submission 1 .replayLog,
    .submission 0 (.fetch (.ok ("|turn|1\n|turn|2", .obj [("formatid", .str "gen9ou")]))),
    .submission 1 (.fetch (.ok ("|turn|1", .obj [("formatid", .str "gen9uu")]))),
    .submission 0 .upsertReplay, .submission 1 .upsertReplay]

end Sample

theorem replay_pinned_bothFetch :
    (Fleet.after Sample.bothFetch).db.replays.map ReplayRow.log = ["|turn|1\n|turn|2"] ∧
    ∀ r ∈ (Fleet.after Sample.bothFetch).db.replays,
      loadReplay (Fleet.after Sample.bothFetch).db r.id = some r.payload ∧
      replayLog (Fleet.after Sample.bothFetch).db r.id = some r.log :=
  ⟨by decide, (replay_pinned (Fleet.reachable_after _) .init).1⟩

end BattleCloud
