import BattleCloud.Api.Launcher
import BattleCloud.Fleet.Frame

/-!
# Submissions that start the tasks that drain the queue

A `Cluster` is the fleet with the launcher between enqueue and answer: a submission whose job is
queued makes one `ensureRunning` attempt and is answered when that is over, and every worker is a
drain task of one engine build that an attempt started. No process dies, no statement is refused
and every ECS call succeeds, inside the launcher's timeout. A claim may skip a row only while
another statement holds its lock: an enqueue that joins the row, or another worker's claim.

`no_lost_wakeup`: in a run in which an attempt is skipped at the cap only while some task in
flight has not made its last, empty claim, or no job of the build is queued, no job of the build is
left queued once every submission is answered and every task has exited. The invariant is
`Covered`. In `Sample.missedWakeup` the only task counted at the cap has already drained.
-/

namespace BattleCloud

/-- A task that has not made its last claim. -/
def Worker.draining (w : Worker) : Bool :=
  match w.phase with
  | .drained | .exited | .crashed => false
  | _ => true

def Worker.claims (w : Worker) : Bool :=
  match w.phase with
  | .claiming => true
  | _ => false

def Submission.enqueues (sub : Submission) : Bool :=
  match sub.phase with
  | .enqueueing _ => true
  | _ => false

def Submission.launches (sub : Submission) : Bool :=
  match sub.phase with
  | .launching .. => true
  | _ => false

def Submission.isAnswered (sub : Submission) : Bool :=
  match sub.phase with
  | .answered _ => true
  | _ => false

def JobRow.build (j : JobRow) : EngineBuild :=
  ⟨j.columns.pokeEngineTag, j.columns.usageStatsDataset⟩

/-- The attempt of a submission's `ensureRunning`. -/
structure Launch where
  submission : Nat
  attempt : AttemptPhase

structure Cluster where
  fleet : Fleet
  launches : List Launch

inductive ClusterAction where
  | fleet (a : Action)
  | ensureRunning (i : Nat)
  | listTasks (k : Nat)
  | runTask (k : Nat) (workerId : String) (config : WorkerConfig)

/-- Another statement in progress has the row: an enqueue of its identity, or the claim of another
worker than the one at the index. -/
def Fleet.Touched (s : Fleet) (i : Nat) (id : Uuid) : Prop :=
  (∃ j ∈ s.db.jobs, j.id = id ∧
    ∃ sub ∈ s.submissions, sub.enqueues = true ∧ sub.columns = j.columns) ∨
  ∃ k < s.workers.length, k ≠ i ∧ ∃ w ∈ s.workers[k]?, w.claims = true

instance (s : Fleet) (i : Nat) (id : Uuid) : Decidable (s.Touched i id) :=
  inferInstanceAs (Decidable (_ ∨ _))

/-- The attempt is over and nothing failed. -/
def Launch.over (l : Launch) : Bool := l.attempt = .started || l.attempt = .skipped

variable (cfg : WorkerLaunchConfig) (build : EngineBuild)

namespace Cluster

def init : Cluster := ⟨Fleet.init, []⟩

/-- Tasks between their `RunTask` and their exit. -/
def inFlight (c : Cluster) : Nat := c.fleet.workers.countP Worker.alive

/-- The steps of the fleet that are steps of the cluster. -/
def Allows (c : Cluster) : Action → Prop
  | .spawn .. | .submission _ .abort | .worker _ .crash => False
  | .submission i .respond => ∃ l ∈ c.launches, l.submission = i ∧ l.over = true
  | .worker i (.claim locked _) => ∀ id ∈ locked, c.fleet.Touched i id
  | _ => True

instance (c : Cluster) (a : Action) : Decidable (c.Allows a) :=
  match a with
  | .spawn .. | .submission _ .abort | .worker _ .crash => inferInstanceAs (Decidable False)
  | .submission i .respond =>
    inferInstanceAs (Decidable (∃ l ∈ c.launches, l.submission = i ∧ l.over = true))
  | .worker i (.claim locked _) => List.decidableBAll (c.fleet.Touched i) locked
  | .submission _ .lookup | .submission _ (.tryConsume _) | .submission _ .replayLog
  | .submission _ (.fetch _) | .submission _ .upsertReplay | .submission _ (.enqueue ..)
  | .worker _ (.reclaim _) | .worker _ .load | .worker _ (.analyze _) | .worker _ (.fail _)
  | .worker _ (.insert ..) | .worker _ .complete | .worker _ .exit | .submit .. | .heartbeat .. =>
    inferInstanceAs (Decidable True)

def step (c : Cluster) : ClusterAction → Option Cluster
  | .fleet a =>
    if c.Allows a then
      (c.fleet.step a).bind fun s =>
        -- no statement is refused
        match s.log with
        | .rejected _ :: _ => none
        | _ => some { c with fleet := s }
    else none
  | .ensureRunning i =>
    (c.fleet.submissions[i]?).bind fun sub =>
    if sub.launches && !c.launches.any (·.submission = i) then
      some { c with launches := c.launches ++ [⟨i, .listing⟩] }
    else none
  | .listTasks k =>
    (c.launches[k]?).bind fun l =>
    match l.attempt with
    | .listing =>
      some { c with launches := c.launches.set k { l with attempt := afterCount cfg c.inFlight } }
    | _ => none
  | .runTask k workerId config =>
    (c.launches[k]?).bind fun l =>
    match l.attempt with
    | .starting =>
      if config.mode = .drain ∧
          (⟨config.pokeEngineTag, config.usageStatsDataset⟩ : EngineBuild) = build then
        (c.fleet.step (.spawn workerId config)).map fun s =>
          { fleet := s, launches := c.launches.set k { l with attempt := .started } }
      else none
    | _ => none

/-- An attempt at the cap counts some task that has not made its last claim, or there is nothing
for a task to claim. -/
def SkipsCovered (c : Cluster) : ClusterAction → Prop
  | .listTasks _ => cfg.maxTasks ≤ countInFlight c.inFlight →
    (∃ w ∈ c.fleet.workers, w.draining = true) ∨
    ∀ j ∈ c.fleet.db.jobs, j.status = .queued → j.build ≠ build
  | _ => True

instance (c : Cluster) (a : ClusterAction) : Decidable (c.SkipsCovered cfg build a) :=
  match a with
  | .listTasks _ => inferInstanceAs (Decidable (cfg.maxTasks ≤ countInFlight c.inFlight →
    (∃ w ∈ c.fleet.workers, w.draining = true) ∨
    ∀ j ∈ c.fleet.db.jobs, j.status = .queued → j.build ≠ build))
  | .fleet _ | .ensureRunning _ | .runTask .. => inferInstanceAs (Decidable True)

/-- Every submission is answered and every task has exited. -/
def Quiescent (c : Cluster) : Prop :=
  (∀ sub ∈ c.fleet.submissions, sub.isAnswered = true) ∧
  ∀ w ∈ c.fleet.workers, w.alive = false

instance (c : Cluster) : Decidable c.Quiescent := inferInstanceAs (Decidable (_ ∧ _))

/-- Somebody will look for the job: a task before its last claim, an enqueue that joins it, or a
submission whose attempt is not over. -/
def Covered (c : Cluster) (j : JobRow) : Prop :=
  (∃ w ∈ c.fleet.workers, w.draining = true) ∨
  (∃ sub ∈ c.fleet.submissions, sub.enqueues = true ∧ sub.columns = j.columns) ∨
  ∃ i sub, c.fleet.submissions[i]? = some sub ∧ sub.launches = true ∧
    ∀ l ∈ c.launches, l.submission = i → l.over = false

/-- What holds in every state of such a run. -/
structure Inv (c : Cluster) : Prop where
  fleet : c.fleet.Reachable
  builds : ∀ w ∈ c.fleet.workers, w.build = build
  launched : ∀ l ∈ c.launches, ∃ sub, c.fleet.submissions[l.submission]? = some sub ∧
    (sub.launches = true ∨ sub.isAnswered = true)
  covered : ∀ j ∈ c.fleet.db.jobs, j.status = .queued → j.build = build → c.Covered j

end Cluster

variable {cfg build} {s s' : Fleet}

/-! ## Steps of the fleet -/

def Event.isRejected : Event → Bool
  | .rejected _ => true
  | _ => false

/-- **A submission's step** takes it from its enqueue to its launch, or leaves the jobs alone, and
then it was no enqueue of a queued job's identity and leaves its launch only to answer. -/
theorem SubmissionStep.wake {db db' : Db} {i : Nat} {sub : Submission} {act : SubmissionAction}
    {ph : SubmissionPhase} {e : Event} (hv : db.Valid) (h : SubmissionStep db i sub act db' ph e)
    (hab : act ≠ .abort) (he : e.isRejected = false) :
    (sub.enqueues = true ∧ ∃ job created, ph = .launching job created) ∨
    (db'.jobs = db.jobs ∧ (sub.launches = true → act = .respond) ∧
      (sub.enqueues = true → ∀ j ∈ db.jobs, j.status = .queued → j.columns ≠ sub.columns)) := by
  have hquiet : sub.enqueues = false → sub.launches = false →
      (sub.launches = true → act = .respond) ∧
      (sub.enqueues = true → ∀ j ∈ db.jobs, j.status = .queued → j.columns ≠ sub.columns) := by
    intro hen hla
    rw [hen, hla]
    exact ⟨fun h => Bool.noConfusion h, fun h => Bool.noConfusion h⟩
  cases h with
  | created hph hok => exact Or.inl ⟨by simp [Submission.enqueues, hph], _, _, rfl⟩
  | joined hph hok hq => exact Or.inl ⟨by simp [Submission.enqueues, hph], _, _, rfl⟩
  | @joinedRunning turns newId now _ job hph hok hq =>
    obtain ⟨hcol, ⟨-, rfl, hj, hl⟩ | ⟨hf, -⟩⟩ := enqueue_ok hok
    · refine Or.inr ⟨rfl, fun h => by simp [Submission.launches, hph] at h, ?_⟩
      -- the identity's live job is the one it joined
      intro _ j hjm hjq hjc
      have hlive : j.live = true := by simp [JobRow.live, hjq]
      have hsame := Table.UniqueWhere.eq (hv .jobsActiveIdentityKey) hjm hj hlive hl
        (hjc.trans hcol.symm)
      rw [hsame] at hjq
      exact hq hjq
    · cases hf
  | upserted hph hok =>
    refine Or.inr ⟨?_, hquiet (by simp [Submission.enqueues, hph])
      (by simp [Submission.launches, hph])⟩
    rcases upsertReplay_ok hok with ⟨rfl, -⟩ | ⟨r, -, -, rfl, -⟩ <;> rfl
  | responded hph =>
    exact Or.inr ⟨rfl, fun _ => rfl, fun h => by simp [Submission.enqueues, hph] at h⟩
  | aborted => exact absurd rfl hab
  | lookupRefused => cases he
  | upsertRefused => cases he
  | enqueueRefused => cases he
  | _ =>
    exact Or.inr ⟨rfl, hquiet (by simp [Submission.enqueues, *])
      (by simp [Submission.launches, *])⟩

/-- From its launch on a submission can only be answered. -/
theorem SubmissionStep.settled {db db' : Db} {i : Nat} {sub : Submission} {act : SubmissionAction}
    {ph : SubmissionPhase} {e : Event} (h : SubmissionStep db i sub act db' ph e)
    (hs : sub.launches = true ∨ sub.isAnswered = true) : ∃ r, ph = .answered r := by
  cases h with
  | responded hph => exact ⟨_, rfl⟩
  | aborted hph => exact ⟨_, rfl⟩
  | _ => simp [Submission.launches, Submission.isAnswered, *] at hs

/-- **A task's step** leaves it before its last claim, or leaves the jobs alone, and then it was
past it or finds nothing claimable. -/
theorem WorkerStep.wake {k : Nat} {w : Worker} {act : WorkerAction} {db : Db}
    {ph : WorkerPhase} {e : Event} (hv : s.db.Valid)
    (h : WorkerStep s.db s.heartbeats k w act db ph e) (hcr : act ≠ .crash)
    (he : e.isRejected = false) :
    ({ w with phase := ph } : Worker).draining = true ∨
    (db = s.db ∧ (w.draining = true → ∃ locked now, act = .claim locked now ∧
      ∀ j ∈ s.db.jobs, j.claimable w.build locked = false)) := by
  have hloop : ({ w with phase := w.afterJob } : Worker).draining = true := by
    unfold Worker.afterJob Worker.start
    cases w.config.mode <;> rfl
  cases h with
  | empty hph hok =>
    obtain ⟨-, -, hno⟩ | ⟨j, -, -, hr, -⟩ := claimJob_ok (hv .jobsPkey) hok
    · exact Or.inr ⟨rfl, fun _ => ⟨_, _, rfl, hno⟩⟩
    · cases hr
  | exited hph => exact Or.inr ⟨rfl, fun hd => by simp [Worker.draining, hph] at hd⟩
  | crashed => exact absurd rfl hcr
  | discarded => exact Or.inl hloop
  | failed => exact Or.inl hloop
  | failedStale => exact Or.inl hloop
  | completed => exact Or.inl hloop
  | rolledBack => exact Or.inl hloop
  | reclaimRefused => cases he
  | claimRefused => cases he
  | failRefused => cases he
  | insertRefused => cases he
  | completeRefused => cases he
  | _ => exact Or.inl rfl

/-- A renewal makes no job queued. -/
theorem HeartbeatStep.queued {db db' : Db} {hb : Heartbeat} {w : Worker} {now : Timestamptz}
    {st : HeartbeatState} {e : Event} (h : HeartbeatStep db hb w now db' st e) :
    ∀ j ∈ db'.jobs, j.status = .queued → j ∈ db.jobs := by
  cases h with
  | renewed ha hok =>
    obtain ⟨rfl, -, -⟩ := JobUpdate.run_ok hok
    intro j' hj' hq
    obtain ⟨j, hj, ⟨hs, rfl⟩ | ⟨-, rfl⟩⟩ := Table.mem_updateWhere.mp hj'
    · have hrun : j.status = .queued := hq
      rw [(JobRow.ownedBy_iff.mp hs).2.1] at hrun
      cases hrun
    · exact hj
  | _ => exact fun _ hj _ => hj

/-! ## Steps of the cluster -/

variable {c c' : Cluster}

namespace Cluster

theorem Covered.of_draining {j : JobRow} {w : Worker} (hw : w ∈ c.fleet.workers)
    (hd : w.draining = true) : c.Covered j :=
  Or.inl ⟨w, hw, hd⟩

/-- A step of a submission keeps what is covered covered. -/
theorem Inv.submission (hi : c.Inv build) {i : Nat} {act : SubmissionAction} {sub : Submission}
    {db : Db} {ph : SubmissionPhase} {e : Event} (ha : c.Allows (.submission i act))
    (hsub : c.fleet.submissions[i]? = some sub)
    (h : SubmissionStep c.fleet.db i sub act db ph e) (he : e.isRejected = false)
    {s : Fleet} (hs : s = { c.fleet with
      db := db, submissions := c.fleet.submissions.set i { sub with phase := ph }
      log := e :: c.fleet.log })
    (hr : s.Reachable) : (⟨s, c.launches⟩ : Cluster).Inv build := by
  subst hs
  have hv := valid_of_reachable hi.fleet
  have hab : act ≠ .abort := by
    rintro rfl
    exact ha
  obtain ⟨hlt, -⟩ := List.getElem?_eq_some_iff.mp hsub
  have hat : (c.fleet.submissions.set i { sub with phase := ph })[i]? =
      some { sub with phase := ph } := List.getElem?_set_self hlt
  have hkeep : ∀ (k : Nat) (sub' : Submission), k ≠ i → c.fleet.submissions[k]? = some sub' →
      (c.fleet.submissions.set i { sub with phase := ph })[k]? = some sub' := by
    intro k sub' hk h
    rw [List.getElem?_set_ne (Ne.symm hk)]
    exact h
  refine ⟨hr, hi.builds, fun l hl => ?_, fun j hj hq hb => ?_⟩
  · -- an attempt belongs to a submission at its launch or past it
    obtain ⟨sub', hsub', hset⟩ := hi.launched l hl
    by_cases hk : l.submission = i
    · rw [hk, hsub] at hsub'
      obtain rfl := Option.some.inj hsub'
      obtain ⟨r, rfl⟩ := h.settled hset
      exact ⟨_, by rw [hk]; exact hat, Or.inr rfl⟩
    · exact ⟨sub', hkeep _ _ hk hsub', hset⟩
  rcases h.wake hv hab he with ⟨hen, job, created, rfl⟩ | ⟨hjobs, hla, hno⟩
  · -- it launches, and has no attempt yet
    refine Or.inr (Or.inr ⟨i, _, hat, rfl, fun l hl hk => ?_⟩)
    obtain ⟨sub', hsub', hset⟩ := hi.launched l hl
    rw [hk, hsub] at hsub'
    obtain rfl := Option.some.inj hsub'
    cases hph : sub.phase <;>
      simp [Submission.enqueues, Submission.launches, Submission.isAnswered, hph] at hen hset
  · have hj' : j ∈ c.fleet.db.jobs := hjobs ▸ hj
    rcases hi.covered j hj' hq hb with hw | ⟨sub', hsub', hen, hcol⟩ | ⟨k, sub', hsub', hl', hov⟩
    · exact Or.inl hw
    · obtain ⟨k, hk⟩ := List.mem_iff_getElem?.mp hsub'
      by_cases hki : k = i
      · subst hki
        obtain rfl := Option.some.inj (hsub.symm.trans hk)
        exact absurd hcol.symm (hno hen j hj' hq)
      · exact Or.inr (Or.inl ⟨sub', List.mem_of_getElem? (hkeep k sub' hki hk), hen, hcol⟩)
    · by_cases hki : k = i
      · subst hki
        obtain rfl := Option.some.inj (hsub.symm.trans hsub')
        obtain rfl := hla hl'
        obtain ⟨l, hlm, hlk, hlo⟩ := ha
        rw [hov l hlm hlk] at hlo
        cases hlo
      · exact Or.inr (Or.inr ⟨k, sub', hkeep k sub' hki hsub', hl', hov⟩)

/-- So does a step of a task. -/
theorem Inv.worker (hi : c.Inv build) {k : Nat} {act : WorkerAction} {w : Worker} {db : Db}
    {ph : WorkerPhase} {e : Event} (ha : c.Allows (.worker k act))
    (hw : c.fleet.workers[k]? = some w)
    (h : WorkerStep c.fleet.db c.fleet.heartbeats k w act db ph e) (he : e.isRejected = false)
    {s : Fleet} (hdb : s.db = db) (hsubs : s.submissions = c.fleet.submissions)
    (hws : s.workers = c.fleet.workers.set k { w with phase := ph })
    (hr : s.Reachable) : (⟨s, c.launches⟩ : Cluster).Inv build := by
  have hv := valid_of_reachable hi.fleet
  have hcr : act ≠ .crash := by
    rintro rfl
    exact ha
  obtain ⟨hlt, -⟩ := List.getElem?_eq_some_iff.mp hw
  have hwb : w.build = build := hi.builds w (List.mem_of_getElem? hw)
  refine ⟨hr, fun w' hw' => ?_, fun l hl => hsubs ▸ hi.launched l hl, fun j hj hq hb => ?_⟩
  · rcases List.mem_or_eq_of_mem_set (hws ▸ hw') with hw' | rfl
    · exact hi.builds w' hw'
    · exact hwb
  have hself : { w with phase := ph } ∈ s.workers := by
    rw [hws]
    exact List.mem_of_getElem? (List.getElem?_set_self hlt)
  have hother : ∀ {m : Nat} {w' : Worker}, m ≠ k → c.fleet.workers[m]? = some w' →
      w' ∈ s.workers := by
    intro m w' hm h
    rw [hws]
    exact List.mem_of_getElem? ((List.getElem?_set_ne (Ne.symm hm)).trans h)
  rcases h.wake hv hcr he with hd | ⟨hsame, hlast⟩
  · exact .of_draining hself hd
  have hj' : j ∈ c.fleet.db.jobs := by
    rw [← hsame, ← hdb]
    exact hj
  rcases hi.covered j hj' hq hb with ⟨w', hw', hd⟩ | hrest
  · obtain ⟨m, hm⟩ := List.mem_iff_getElem?.mp hw'
    by_cases hmk : m = k
    · -- the last claim: it skipped the row, so another statement has it
      subst hmk
      obtain rfl := Option.some.inj (hw.symm.trans hm)
      obtain ⟨locked, now, rfl, hno⟩ := hlast hd
      have hlocked : j.id ∈ locked := by
        by_contra hnl
        have hcl : j.claimable w.build locked = true :=
          JobRow.claimable_iff.mpr ⟨hq, by rw [hwb, ← hb]; rfl, by rw [hwb, ← hb]; rfl, hnl⟩
        rw [hno j hj'] at hcl
        cases hcl
      rcases ha j.id hlocked with
        ⟨j₂, hj₂, hid, sub, hsub, hen, hcol⟩ | ⟨m', -, hne, w', hw', hcl⟩
      · rw [hv.job_eq hj₂ hj' hid] at hcol
        exact Or.inr (Or.inl ⟨sub, hsubs ▸ hsub, hen, hcol⟩)
      · refine .of_draining (hother hne hw') ?_
        cases hph : w'.phase <;> simp [Worker.claims, hph] at hcl
        simp [Worker.draining, hph]
    · exact .of_draining (hother hmk hm) hd
  · refine Or.inr ?_
    rw [hsubs]
    exact hrest

/-- A step of the fleet that is one of the cluster. -/
theorem Inv.fleet_step (hi : c.Inv build) {a : Action} (ha : c.Allows a) {s : Fleet}
    (h : c.fleet.step a = some s) (hno : ∀ e log, s.log = e :: log → e.isRejected = false) :
    (⟨s, c.launches⟩ : Cluster).Inv build := by
  have hr : s.Reachable := .next hi.fleet trivial h
  cases FleetStep.of_eq h with
  | submit request build' =>
    refine ⟨hr, hi.builds, fun l hl => ?_, fun j hj hq hb => ?_⟩
    · obtain ⟨sub, hsub, hset⟩ := hi.launched l hl
      exact ⟨sub, getElem?_concat_of_some hsub, hset⟩
    · rcases hi.covered j hj hq hb with hw | ⟨sub, hsub, hrest⟩ | ⟨k, sub, hsub, hrest⟩
      · exact Or.inl hw
      · exact Or.inr (Or.inl ⟨sub, List.mem_append_left _ hsub, hrest⟩)
      · exact Or.inr (Or.inr ⟨k, sub, getElem?_concat_of_some hsub, hrest⟩)
  | submission hsub hst => exact hi.submission ha hsub hst (hno _ _ rfl) rfl hr
  | spawn hfree => exact ha.elim
  | worker hw hst => exact hi.worker ha hw hst (hno _ _ rfl) rfl rfl rfl hr
  | heartbeat hhb hw hst =>
    exact ⟨hr, hi.builds, hi.launched, fun j hj hq hjb =>
      hi.covered j (hst.queued j hj hq) hq hjb⟩

/-- A new attempt has not been skipped. -/
theorem Inv.ensureRunning (hi : c.Inv build) {i : Nat}
    (h : c.step cfg build (.ensureRunning i) = some c') : c'.Inv build := by
  simp only [Cluster.step] at h
  obtain ⟨sub, hsub, h⟩ := Option.bind_eq_some_iff.mp h
  split at h
  · rename_i hl
    cases h
    rw [Bool.and_eq_true] at hl
    refine ⟨hi.fleet, hi.builds, ?_, fun j hj hq hb => ?_⟩
    · exact List.forall_mem_append.mpr
        ⟨hi.launched, List.forall_mem_singleton.mpr ⟨sub, hsub, Or.inl hl.1⟩⟩
    · rcases hi.covered j hj hq hb with hw | he | ⟨k, sub', hsub', hl', hov⟩
      · exact Or.inl hw
      · exact Or.inr (Or.inl he)
      · exact Or.inr (Or.inr ⟨k, sub', hsub', hl',
          List.forall_mem_append.mpr ⟨hov, List.forall_mem_singleton.mpr fun _ => rfl⟩⟩)
  · cases h

/-- An attempt below the cap will start a task; one that is skipped is covered. -/
theorem Inv.listTasks (hi : c.Inv build) {k : Nat}
    (ha : c.SkipsCovered cfg build (.listTasks k))
    (h : c.step cfg build (.listTasks k) = some c') : c'.Inv build := by
  simp only [Cluster.step] at h
  obtain ⟨l, hl, h⟩ := Option.bind_eq_some_iff.mp h
  split at h
  · rename_i hph
    cases h
    refine ⟨hi.fleet, hi.builds, fun l' hl' => ?_, fun j hj hq hb => ?_⟩
    · rcases List.mem_or_eq_of_mem_set hl' with hl' | rfl
      · exact hi.launched l' hl'
      · exact hi.launched l (List.mem_of_getElem? hl)
    · by_cases hcap : countInFlight c.inFlight ≥ cfg.maxTasks
      · rcases ha hcap with ⟨w, hw, hd⟩ | hnone
        · exact .of_draining hw hd
        · exact absurd hb (hnone j hj hq)
      · have hstart : afterCount cfg c.inFlight = .starting := if_neg hcap
        rcases hi.covered j hj hq hb with hw | he | ⟨i, sub, hsub, hla, hov⟩
        · exact Or.inl hw
        · exact Or.inr (Or.inl he)
        · refine Or.inr (Or.inr ⟨i, sub, hsub, hla, fun l' hl' hk => ?_⟩)
          rcases List.mem_or_eq_of_mem_set hl' with hl' | rfl
          · exact hov l' hl' hk
          · rw [hstart]
            rfl
  · cases h

/-- The task that starts covers every job of its build. -/
theorem Inv.runTask (hi : c.Inv build) {k : Nat} {workerId : String} {config : WorkerConfig}
    (h : c.step cfg build (.runTask k workerId config) = some c') : c'.Inv build := by
  simp only [Cluster.step] at h
  obtain ⟨l, hl, h⟩ := Option.bind_eq_some_iff.mp h
  split at h
  · split at h
    · rename_i hcfg
      obtain ⟨s, hs, rfl⟩ := Option.map_eq_some_iff.mp h
      have hr : s.Reachable := .next hi.fleet trivial hs
      cases FleetStep.of_eq hs with
      | spawn hfree =>
        refine ⟨hr, ?_, fun l' hl' => ?_, fun j hj hq hb => ?_⟩
        · exact List.forall_mem_append.mpr ⟨hi.builds, List.forall_mem_singleton.mpr hcfg.2⟩
        · rcases List.mem_or_eq_of_mem_set hl' with hl' | rfl
          · exact hi.launched l' hl'
          · exact hi.launched l (List.mem_of_getElem? hl)
        · refine .of_draining (List.mem_append_right _ List.mem_cons_self) ?_
          rw [hcfg.1]
          rfl
    · cases h
  · cases h

theorem Inv.step (hi : c.Inv build) {a : ClusterAction} (ha : c.SkipsCovered cfg build a)
    (h : c.step cfg build a = some c') : c'.Inv build := by
  cases a with
  | fleet a =>
    simp only [Cluster.step] at h
    split at h
    · rename_i hal
      obtain ⟨s, hs, h⟩ := Option.bind_eq_some_iff.mp h
      split at h
      · cases h
      · rename_i hno
        cases h
        refine hi.fleet_step hal hs fun e log hlog => ?_
        cases e with
        | rejected err => exact absurd hlog (hno err log)
        | _ => rfl
    · cases h
  | ensureRunning i => exact hi.ensureRunning h
  | listTasks k => exact hi.listTasks ha h
  | runTask k workerId config => exact hi.runTask h

theorem inv_of_reach
    (h : StepSystem.Reach (Cluster.step cfg build) (SkipsCovered cfg build) Cluster.init c) :
    c.Inv build := by
  refine StepSystem.Reach.invariant (I := fun c => Cluster.Inv build c) ?_ ?_ h
  · exact ⟨.init, fun w h => (List.not_mem_nil h).elim, fun l h => (List.not_mem_nil h).elim,
      fun j h => (List.not_mem_nil h).elim⟩
  · intro c a c' hi ha hst
    exact hi.step ha hst

end Cluster

/-- **No lost wake-up, if skips are covered.** In every run in which an attempt is skipped at the
cap only while some task in flight has not made its last, empty claim, or no job of the build is
queued: once every submission is answered and every task has exited, no job of the build is
queued. -/
theorem no_lost_wakeup
    (h : StepSystem.Reach (Cluster.step cfg build) (Cluster.SkipsCovered cfg build) Cluster.init c)
    (hq : c.Quiescent) : ∀ j ∈ c.fleet.db.jobs, j.build = build → j.status ≠ .queued := by
  intro j hj hb hqueued
  rcases (Cluster.inv_of_reach h).covered j hj hqueued hb with ⟨w, hw, hd⟩ | ⟨sub, hsub, hen, -⟩ |
    ⟨i, sub, hsub, hla, -⟩
  · have hdead := hq.2 w hw
    cases hph : w.phase <;> simp [Worker.draining, Worker.alive, hph] at hd hdead
  · have hans := hq.1 sub hsub
    cases hph : sub.phase <;> simp [Submission.enqueues, Submission.isAnswered, hph] at hen hans
  · have hans := hq.1 sub (List.mem_of_getElem? hsub)
    cases hph : sub.phase <;> simp [Submission.launches, Submission.isAnswered, hph] at hla hans

namespace Sample

/-- A submission's attempt starts a task, which analyzes the job. -/
def firstTask : List ClusterAction :=
  (submitFirst 7).map .fleet ++
  [.ensureRunning 0, .listTasks 0, .runTask 0 "task/1" config, .fleet (.submission 0 .respond),
    .fleet (.worker 0 (.reclaim noon)), .fleet (.worker 0 (.claim [] noon)),
    .fleet (.worker 0 .load), .fleet (.worker 0 (.analyze (.ok ⟨document 2 2, 1200, false⟩))),
    .fleet (.worker 0 (.insert 9 later)), .fleet (.worker 0 .complete)]

/-- A second submission of the replay is skipped at the cap. -/
def secondSkipped : List ClusterAction :=
  [.fleet (.submit ⟨"gen9ou-2672927429", .p1, .ladderParity⟩ Sample.build),
    .fleet (.submission 1 .lookup), .fleet (.submission 1 (.tryConsume true)),
    .fleet (.submission 1 .replayLog), .fleet (.submission 1 (.enqueue 8 later)),
    .ensureRunning 1, .listTasks 1, .fleet (.submission 1 .respond)]

/-- The task's last claim is empty. -/
def drains : List ClusterAction :=
  [.fleet (.worker 0 (.reclaim evening)), .fleet (.worker 0 (.claim [] evening))]

/-- The task is before its last claim when the second submission counts it. -/
def wokenUp : List ClusterAction :=
  firstTask ++ secondSkipped ++ drains ++
  [.fleet (.worker 0 .load), .fleet (.worker 0 (.analyze (.ok ⟨document 2 2, 1200, false⟩))),
    .fleet (.worker 0 (.insert 10 evening)), .fleet (.worker 0 .complete)] ++ drains ++
  [.fleet (.worker 0 .exit)]

/-- The task has made its last claim, and has not exited, when the second submission counts it. -/
def missedWakeup : List ClusterAction :=
  firstTask ++ drains ++ secondSkipped ++ [.fleet (.worker 0 .exit)]

end Sample

theorem no_lost_wakeup_wokenUp :
    let c := StepSystem.afterIf (Cluster.step Sample.launchConfig Sample.build)
      (Cluster.SkipsCovered Sample.launchConfig Sample.build) Cluster.init Sample.wokenUp
    c.fleet.db.jobs.map JobRow.id = [7, 8] ∧
    ∀ j ∈ c.fleet.db.jobs, j.build = Sample.build → j.status ≠ .queued :=
  ⟨by decide, no_lost_wakeup (StepSystem.reach_afterIf Sample.wokenUp) (by decide)⟩

/-- A job is queued although both submissions are answered and the task has exited. -/
theorem skip_loses_wakeup :
    ¬ ∀ (cfg : WorkerLaunchConfig) (build : EngineBuild) (c : Cluster),
      StepSystem.Reachable (Cluster.step cfg build) Cluster.init c → c.Quiescent →
      ∀ j ∈ c.fleet.db.jobs, j.build = build → j.status ≠ .queued := by
  intro h
  have hnone := h Sample.launchConfig Sample.build _
    (StepSystem.reachable_after Sample.missedWakeup) (by decide)
  exact absurd hnone (by decide)

end BattleCloud
