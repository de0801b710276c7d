import BattleCloud.Lib.System
import BattleCloud.Lib.Table

/-!
# Starting workers

`EcsWorkerLauncher` of `api/src/worker.ts`, as a step system of any number of `ensureRunning`
calls over the number of tasks in flight. An attempt is a `ListTasks` and then, below the cap, a
`RunTask`; the timeout ends the wait for an attempt and not the attempt.

`launch_cap`: a run in which no attempt is let through while the tasks in flight and the attempts
already let through reach the cap never has more than `maxTasks` tasks in flight. In `Sample.burst`
two attempts are let through by one count.
-/

namespace BattleCloud

/-- What `loadConfig` accepts for the launcher, less what only names the task. -/
structure WorkerLaunchConfig where
  maxTasks : Nat
  maxTasks_pos : 1 ≤ maxTasks

/-- Where an `#attempt` stands. -/
inductive AttemptPhase where
  | listing
  /-- The count was below the cap; `RunTask` is to come. -/
  | starting
  | started
  | skipped
  | failed
  deriving DecidableEq

/-- An `ensureRunning` call: its attempt, and whether it still waits for it. -/
structure LaunchCall where
  attempt : AttemptPhase
  waiting : Bool

/-- Tasks on one page of `ListTasks`. -/
def listTasksPage : Nat := 100

/-- `#countInFlight`: the tasks the first page names. -/
def countInFlight (inFlight : Nat) : Nat := min inFlight listTasksPage

/-- What an attempt does with the count. -/
def afterCount (cfg : WorkerLaunchConfig) (inFlight : Nat) : AttemptPhase :=
  if countInFlight inFlight ≥ cfg.maxTasks then .skipped else .starting

/-- The call returns when its attempt is over. -/
def LaunchCall.finish (c : LaunchCall) (attempt : AttemptPhase) : LaunchCall :=
  { c with attempt, waiting := c.waiting && attempt = .starting }

structure Launcher where
  inFlight : Nat
  calls : List LaunchCall

inductive LaunchAction where
  | ensureRunning
  | listTasks (i : Nat)
  | runTask (i : Nat)
  /-- An ECS call rejects. -/
  | reject (i : Nat)
  | timeout (i : Nat)
  /-- A worker task exits. -/
  | exit

variable (cfg : WorkerLaunchConfig)

namespace Launcher

def init : Launcher := ⟨0, []⟩

def step (s : Launcher) : LaunchAction → Option Launcher
  | .ensureRunning => some { s with calls := s.calls ++ [⟨.listing, true⟩] }
  | .listTasks i =>
    (s.calls[i]?).bind fun c =>
    match c.attempt with
    | .listing => some { s with calls := s.calls.set i (c.finish (afterCount cfg s.inFlight)) }
    | _ => none
  | .runTask i =>
    (s.calls[i]?).bind fun c =>
    match c.attempt with
    | .starting =>
      some { s with inFlight := s.inFlight + 1, calls := s.calls.set i (c.finish .started) }
    | _ => none
  | .reject i =>
    (s.calls[i]?).bind fun c =>
    match c.attempt with
    | .listing | .starting => some { s with calls := s.calls.set i (c.finish .failed) }
    | _ => none
  | .timeout i =>
    (s.calls[i]?).bind fun c =>
    if c.waiting then some { s with calls := s.calls.set i { c with waiting := false } } else none
  | .exit => if 0 < s.inFlight then some { s with inFlight := s.inFlight - 1 } else none

/-- Attempts that were let through and have not run their task. -/
def starting (s : Launcher) : Nat := s.calls.countP fun c => c.attempt = .starting

/-- A count below the cap is taken where the attempts already let through leave room. -/
def RoomLeft (s : Launcher) : LaunchAction → Prop
  | .listTasks _ => countInFlight s.inFlight < cfg.maxTasks → s.inFlight + s.starting < cfg.maxTasks
  | _ => True

instance (s : Launcher) (a : LaunchAction) : Decidable (s.RoomLeft cfg a) :=
  match a with
  | .listTasks _ => inferInstanceAs (Decidable
      (countInFlight s.inFlight < cfg.maxTasks → s.inFlight + s.starting < cfg.maxTasks))
  | .ensureRunning | .runTask _ | .reject _ | .timeout _ | .exit => inferInstanceAs (Decidable True)

end Launcher

variable {cfg} {s s' : Launcher}

@[simp] theorem LaunchCall.finish_attempt (c : LaunchCall) (attempt : AttemptPhase) :
    (c.finish attempt).attempt = attempt := rfl

theorem starting_set {i : Nat} {c : LaunchCall} (hc : s.calls[i]? = some c) (c' : LaunchCall)
    {n : Nat} : (Launcher.mk n (s.calls.set i c')).starting +
        (if c.attempt = .starting then 1 else 0) =
      s.starting + if c'.attempt = .starting then 1 else 0 := by
  have h := @Table.countP_set_add _ (fun c : LaunchCall => c.attempt = .starting) s.calls i c c' hc
  simp only [decide_eq_true_eq] at h
  exact h

/-- **What a step does to the tasks**, counting those an attempt is about to start. -/
theorem room_step {a : LaunchAction} (hroom : s.RoomLeft cfg a) (h : s.step cfg a = some s')
    (hs : s.inFlight + s.starting ≤ cfg.maxTasks) : s'.inFlight + s'.starting ≤ cfg.maxTasks := by
  cases a with
  | ensureRunning =>
    cases h
    have hnew : (Launcher.mk s.inFlight (s.calls ++ [⟨.listing, true⟩])).starting = s.starting := by
      unfold Launcher.starting
      simp
    show s.inFlight + _ ≤ _
    rw [hnew]
    exact hs
  | listTasks i =>
    simp only [Launcher.step, Option.bind_eq_some_iff] at h
    obtain ⟨c, hc, h⟩ := h
    split at h
    · rename_i hph
      cases h
      have hset := @starting_set s i c hc (c.finish (afterCount cfg s.inFlight)) s.inFlight
      show s.inFlight + _ ≤ _
      rw [hph] at hset
      by_cases hcap : countInFlight s.inFlight ≥ cfg.maxTasks
      · have ha : afterCount cfg s.inFlight = .skipped := if_pos hcap
        simp only [ha, LaunchCall.finish_attempt, reduceCtorEq, if_false, Nat.add_zero] at hset ⊢
        omega
      · have ha : afterCount cfg s.inFlight = .starting := if_neg hcap
        have hlt := hroom (by omega)
        simp only [ha, LaunchCall.finish_attempt, reduceCtorEq, if_false, if_true,
          Nat.add_zero] at hset ⊢
        omega
    · cases h
  | runTask i =>
    simp only [Launcher.step, Option.bind_eq_some_iff] at h
    obtain ⟨c, hc, h⟩ := h
    split at h
    · rename_i hph
      cases h
      have hset := @starting_set s i c hc (c.finish .started) (s.inFlight + 1)
      simp only [hph, LaunchCall.finish_attempt, reduceCtorEq, if_false, if_true,
        Nat.add_zero] at hset ⊢
      omega
    · cases h
  | reject i =>
    simp only [Launcher.step, Option.bind_eq_some_iff] at h
    obtain ⟨c, hc, h⟩ := h
    have hset := @starting_set s i c hc (c.finish .failed) s.inFlight
    simp only [LaunchCall.finish_attempt, reduceCtorEq, if_false, Nat.add_zero] at hset
    have hle : s.inFlight +
        (Launcher.mk s.inFlight (s.calls.set i (c.finish .failed))).starting ≤ cfg.maxTasks := by
      omega
    split at h
    · cases h
      exact hle
    · cases h
      exact hle
    · cases h
  | timeout i =>
    simp only [Launcher.step, Option.bind_eq_some_iff] at h
    obtain ⟨c, hc, h⟩ := h
    have hset := @starting_set s i c hc { c with waiting := false } s.inFlight
    split at h
    · cases h
      simp only at hset ⊢
      omega
    · cases h
  | exit =>
    simp only [Launcher.step] at h
    split at h
    · cases h
      show s.inFlight - 1 + s.starting ≤ _
      omega
    · cases h

/-- **The cap is a ceiling while counts leave room.** In every run in which each count below the
cap is taken where the tasks in flight and the attempts already let through are fewer than
`maxTasks`, at most `maxTasks` tasks are in flight. -/
theorem launch_cap
    (h : StepSystem.Reach (Launcher.step cfg) (Launcher.RoomLeft cfg) Launcher.init s) :
    s.inFlight ≤ cfg.maxTasks := by
  have hroom : s.inFlight + s.starting ≤ cfg.maxTasks := by
    refine StepSystem.Reach.invariant (I := fun s => s.inFlight + s.starting ≤ cfg.maxTasks)
      (Nat.zero_le _) ?_ h
    intro s a s' hs hr hst
    exact room_step hr hst hs
  omega

namespace Sample

def launchConfig : WorkerLaunchConfig := ⟨1, Nat.one_pos⟩

/-- One call after the other. -/
def inTurn : List LaunchAction :=
  [.ensureRunning, .listTasks 0, .runTask 0, .ensureRunning, .listTasks 1]

/-- Two calls count no task, the second while the first has not started its own. -/
def burst : List LaunchAction :=
  [.ensureRunning, .ensureRunning, .listTasks 0, .listTasks 1, .runTask 0, .runTask 1]

end Sample

theorem launch_cap_inTurn :
    let s := StepSystem.afterIf (Launcher.step Sample.launchConfig)
      (Launcher.RoomLeft Sample.launchConfig) Launcher.init Sample.inTurn
    s.calls.map LaunchCall.attempt = [.started, .skipped] ∧ s.inFlight ≤ 1 :=
  ⟨by decide, launch_cap (StepSystem.reach_afterIf Sample.inTurn)⟩

/-- Two submissions start two tasks under a cap of one. -/
theorem burst_exceeds_cap :
    ¬ ∀ (cfg : WorkerLaunchConfig) (s : Launcher),
      StepSystem.Reachable (Launcher.step cfg) Launcher.init s → s.inFlight ≤ cfg.maxTasks := by
  intro h
  have hle := h Sample.launchConfig _ (StepSystem.reachable_after Sample.burst)
  exact absurd hle (by decide)

end BattleCloud
