import BattleCloud.Fleet.Resubmit
import BattleCloud.Worker.Config

/-!
# The threads of a host

What `from_env` checks against the cores of a host is `ENGINE_THREADS`; what an analysis runs with
is the `threads` of the claimed job's identity, which the API took from `PROFILES`. Nothing joins
the two: the claim filters by the engine build, and a job has 4 threads on every worker
(`JobsRequested`).

`threads_within_cores`: the processes of a host stay within its cores if four threads each fit,
and when all of them are searching only then. `Sample.bothSearching` has two processes of an
accepted configuration search with eight threads on a host of four cores.
-/

namespace BattleCloud

variable {s s' : Fleet} {cores : Int}

/-- The `threads` of the `analyze_replay` call a worker is in, if it is in one. -/
def Worker.searchThreads (w : Worker) : Option Int :=
  match w.phase with
  | .analyzing job _ _ => some (analyzeKwargs job.identity).threads
  | _ => none

/-- The calls the processes at these indices are in. -/
def searches (s : Fleet) (host : List Nat) : List Int :=
  host.filterMap fun i => (s.workers[i]?).bind Worker.searchThreads

/-- At most `concurrency` processes, started under the configuration. -/
structure Started (cfg : HostConfig cores) (s : Fleet) (host : List Nat) : Prop where
  distinct : host.Nodup
  count : host.length ≤ cfg.concurrency
  config : ∀ i ∈ host, ∃ w, s.workers[i]? = some w ∧ w.config = cfg.queue

/-! ## Every job has four threads -/

theorem Profile.threads_eq (p : Profile) : p.params.threads = 4 := by
  cases p <;> rfl

/-- Every job has an identity the API derived. -/
def JobsRequested (s : Fleet) : Prop :=
  ∀ j ∈ s.db.jobs, ∃ request build, j.columns = (deriveIdentity request build).columns

theorem JobsRequested.step (hv : s.db.Valid) (hj : JobsRequested s) {a : Action}
    (h : s.step a = some s') : JobsRequested s' := by
  obtain ⟨e, -, hs⟩ := step_spec hv h
  intro j' hj'
  by_cases hn : ∀ j ∈ s.db.jobs, j.id ≠ j'.id
  · obtain ⟨_, sub, _, -, -, -, -, hc⟩ := hs.effect.new_job hj' hn
    exact ⟨sub.request, sub.build, hc⟩
  · obtain ⟨j, hj₀, hid⟩ : ∃ j ∈ s.db.jobs, j.id = j'.id := by simpa using hn
    obtain ⟨k, hk, hkid, hkc⟩ := hs.effect.jobs j hj₀
    rw [← (hs.valid hv).job_eq hk hj' (hkid.trans hid), hkc]
    exact hj j hj₀

theorem jobsRequested_of_reachable (h : s.Reachable) : JobsRequested s := by
  refine StepSystem.Reach.invariant_of ?_ ?_ h
  · intro j hj
    cases hj
  · intro s a s' hr hj _ hst
    exact hj.step (valid_of_reachable hr) hst

/-- **An engine call runs with four threads**, whatever the configuration of its worker says. -/
theorem searchThreads_eq (h : s.Reachable) {i : Nat} {w : Worker} (hw : s.workers[i]? = some w)
    {n : Int} (hn : w.searchThreads = some n) : n = 4 := by
  have hok := (processesOk_of_reachable h).workers i w hw
  unfold Worker.searchThreads at hn
  split at hn
  · rename_i job payload heartbeat hph
    unfold WorkerOk at hok
    rw [hph] at hok
    obtain ⟨j, hj, -, hc⟩ := hok.1.row
    obtain ⟨request, build, hr⟩ := jobsRequested_of_reachable h j hj
    have hthreads : job.columns.threads = request.profile.params.threads := by
      rw [← hc, hr]
      rfl
    rw [← Option.some.inj hn]
    exact hthreads.trans (Profile.threads_eq _)
  · cases hn

theorem searches_eq (h : s.Reachable) (host : List Nat) : ∀ n ∈ searches s host, n = 4 := by
  intro n hn
  obtain ⟨i, -, hi⟩ := List.mem_filterMap.mp hn
  obtain ⟨w, hw, hn⟩ := Option.bind_eq_some_iff.mp hi
  exact searchThreads_eq h hw hn

/-- The sum of a list of fours. -/
theorem sum_searches (h : s.Reachable) (host : List Nat) :
    (searches s host).sum = 4 * (searches s host).length := by
  rw [List.eq_replicate_of_mem (searches_eq h host), List.sum_replicate, List.length_replicate,
    nsmul_eq_mul, mul_comm]

/-- **The processes of a host search with no more threads than it has cores if four threads for
each of them fit, and when all of them search only then.** -/
theorem threads_within_cores (cfg : HostConfig cores) (h : s.Reachable) {host : List Nat}
    (hh : Started cfg s host) :
    (4 * cfg.concurrency ≤ cores → (searches s host).sum ≤ cores) ∧
      ((searches s host).length = cfg.concurrency →
        ((searches s host).sum ≤ cores ↔ 4 * cfg.concurrency ≤ cores)) := by
  have hsum := sum_searches h host
  have hlen : (searches s host).length ≤ host.length := List.length_filterMap_le _ _
  have hcount := hh.count
  constructor
  · intro hfit
    omega
  · intro hall
    rw [hsum, hall]

namespace Sample

/-- Python's readers on the texts used here. -/
def py : PyBuiltins where
  int := fun raw => if raw = "2" then some 2 else if raw = "1" then some 1 else none
  repr := fun raw => "'" ++ raw ++ "'"

/-- Two processes of two threads each. -/
def halved : WorkerEnv := fun key =>
  if key = "DATABASE_URL" then some "postgres://localhost/battlecloud"
  else if key = "POKE_ENGINE_TAG" then some "v0.0.47"
  else if key = "USAGE_STATS_DATASET" then some "2026-07"
  else if key = "WORKER_CONCURRENCY" then some "2"
  else if key = "ENGINE_THREADS" then some "2"
  else none

theorem halved_pos : (1 : Int) ≤ 2 := by decide

/-- What `from_env` makes of it on a host of this many cores. -/
def halvedConfig (cores : Int) (fits : 2 * 2 ≤ cores) : HostConfig cores :=
  { databaseUrl := "postgres://localhost/battlecloud"
    engineDataDir := "."
    queue := { config with mode := .forever }
    concurrency := 2
    threads := 2
    concurrency_pos := halved_pos
    threads_pos := halved_pos
    fits }

/-- The replay is submitted from both perspectives, and two processes of one host take the jobs. -/
def bothSearching : Fleet :=
  Fleet.after (submitFirst 7 ++
    [.submit ⟨"gen9ou-2672927429", .p2, .quick⟩ build, .submission 1 .lookup,
      .submission 1 (.tryConsume true), .submission 1 .replayLog,
      .submission 1 (.enqueue 8 noon),
      .spawn "host/1" (halvedConfig 4 (by decide)).queue,
      .spawn "host/2" (halvedConfig 4 (by decide)).queue,
      .worker 0 (.claim [] noon), .worker 0 .load, .worker 1 (.claim [] noon), .worker 1 .load])

theorem started_bothSearching (fits : 2 * 2 ≤ cores) :
    Started (halvedConfig cores fits) bothSearching [0, 1] where
  distinct := by decide
  count := by show (2 : Int) ≤ 2; decide
  config := by
    intro i hi
    simp only [List.mem_cons, List.not_mem_nil, or_false] at hi
    rcases hi with rfl | rfl
    · exact ⟨_, rfl, rfl⟩
    · exact ⟨_, rfl, rfl⟩

end Sample

theorem threads_within_cores_bothSearching :
    WorkerEnv.fromEnv Sample.py Sample.halved 8 = .ok (Sample.halvedConfig 8 (by decide)) ∧
      (searches Sample.bothSearching [0, 1]).sum ≤ 8 :=
  ⟨rfl, (threads_within_cores (Sample.halvedConfig 8 (by decide)) (Fleet.reachable_after _)
    (Sample.started_bothSearching (by decide))).1 (by decide)⟩

/-- Two processes of an accepted configuration search with eight threads on four cores. -/
theorem host_oversubscribed :
    WorkerEnv.fromEnv Sample.py Sample.halved 4 = .ok (Sample.halvedConfig 4 (by decide)) ∧
      Sample.bothSearching.Reachable ∧
      Started (Sample.halvedConfig 4 (by decide)) Sample.bothSearching [0, 1] ∧
      (searches Sample.bothSearching [0, 1]).sum = 8 :=
  ⟨rfl, Fleet.reachable_after _, Sample.started_bothSearching (by decide), by decide⟩

end BattleCloud
