import BattleCloud.Fleet.Model

/-!
# The worker's configuration

`worker/battle_cloud_worker/config.py`: `WorkerConfig.from_env`, with every check it makes and the
text of every `ConfigError`. `HostConfig` is an accepted configuration and carries what was
checked, the cores of the host among it; its `queue` is the part the loops read. Nothing reads
`concurrency` or `threads` again.

`int` and `repr` are Python's; nothing below depends on what they compute, only on where `int`
raises.
-/

namespace BattleCloud

/-- The builtins the configuration is read with; `none` is a `ValueError`. -/
structure PyBuiltins where
  int : String → Option Int
  repr : String → String

abbrev WorkerEnv := String → Option String

/-- An accepted configuration on a host of `cores` cores. -/
structure HostConfig (cores : Int) where
  databaseUrl : String
  engineDataDir : String
  queue : WorkerConfig
  concurrency : Int
  threads : Int
  concurrency_pos : 1 ≤ concurrency
  threads_pos : 1 ≤ threads
  fits : concurrency * threads ≤ cores

namespace WorkerEnv

variable (py : PyBuiltins) (env : WorkerEnv)

/-- `_int`. -/
def int (key : String) (default : Int) : Except String Int :=
  match env key with
  | none => .ok default
  | some raw =>
    if raw = "" then .ok default
    else
      match py.int raw with
      | some n => .ok n
      | none => .error s!"{key} must be an integer, got {py.repr raw}"

/-- An `_int` that must be at least 1. -/
def positive (key : String) (default : Int) : Except String {n : Int // 1 ≤ n} :=
  (int py env key default).bind fun n =>
  if h : 1 ≤ n then .ok ⟨n, h⟩ else .error s!"{key} must be at least 1, got {n}"

/-- A variable that must be there and not empty; `why` ends the message. -/
def required (key why : String) : Except String String :=
  match env key with
  | none => .error (key ++ why)
  | some value => if value = "" then .error (key ++ why) else .ok value

/-- `WORKER_MODE`. -/
def mode : Except String Mode :=
  let value := (env "WORKER_MODE").getD ""
  if value = "" ∨ value = "forever" then .ok .forever
  else if value = "drain" then .ok .drain
  else .error ("WORKER_MODE" ++ s!" must be one of forever, drain, got {py.repr value}")

/-- `WorkerConfig.from_env`. -/
def fromEnv (cores : Int) : Except String (HostConfig cores) :=
  (required env "DATABASE_URL" " is required").bind fun databaseUrl =>
  (mode py env).bind fun mode =>
  (required env "POKE_ENGINE_TAG" " is required; it is part of the analysis identity").bind
    fun pokeEngineTag =>
  (required env "USAGE_STATS_DATASET" " is required; it is part of the analysis identity").bind
    fun usageStatsDataset =>
  (positive py env "WORKER_CONCURRENCY" 1).bind fun concurrency =>
  (positive py env "ENGINE_THREADS" 4).bind fun threads =>
  if fits : concurrency.1 * threads.1 ≤ cores then
    (positive py env "JOB_LEASE_SECONDS" 900).bind fun leaseSeconds =>
    (positive py env "JOB_MAX_ATTEMPTS" 3).bind fun maxAttempts =>
    .ok
      { databaseUrl
        engineDataDir := (env "ENGINE_DATA_DIR").getD "."
        queue :=
          { mode, pokeEngineTag, usageStatsDataset
            leaseSeconds := leaseSeconds.1.toNat
            maxAttempts := maxAttempts.1.toNat
            leaseSeconds_pos := by have := leaseSeconds.2; omega
            maxAttempts_pos := by have := maxAttempts.2; omega }
        concurrency := concurrency.1
        threads := threads.1
        concurrency_pos := concurrency.2
        threads_pos := threads.2
        fits }
  else
    .error ("WORKER_CONCURRENCY" ++ (s!" ({concurrency.1}) x ENGINE_THREADS ({threads.1}) = " ++
      s!"{concurrency.1 * threads.1} exceeds {cores} available cores; a time-budgeted " ++
      "search degrades in quality rather than in speed when oversubscribed"))

/-! ## The errors -/

/-- The variables that are checked. -/
def checkedKeys : List String :=
  ["DATABASE_URL", "WORKER_MODE", "POKE_ENGINE_TAG", "USAGE_STATS_DATASET", "WORKER_CONCURRENCY",
    "ENGINE_THREADS", "JOB_LEASE_SECONDS", "JOB_MAX_ATTEMPTS"]

/-- The message begins with the variable it is about. -/
def Names (message : String) : Prop := ∃ key ∈ checkedKeys, ∃ rest, message = key ++ rest

variable {py} {env} {message : String}

theorem names_of_mem {key : String} (hk : key ∈ checkedKeys) (rest : String) :
    Names (key ++ rest) :=
  ⟨key, hk, rest, rfl⟩

theorem required_names {key why : String} (hk : key ∈ checkedKeys)
    (h : required env key why = .error message) : Names message := by
  unfold required at h
  split at h
  · obtain rfl := Except.error.inj h
    exact names_of_mem hk why
  · split at h
    · obtain rfl := Except.error.inj h
      exact names_of_mem hk why
    · cases h

theorem positive_names {key : String} {default : Int} (hk : key ∈ checkedKeys)
    (h : positive py env key default = .error message) : Names message := by
  unfold positive at h
  rcases except_bind_error.mp h with h | ⟨n, -, h⟩
  · unfold int at h
    split at h
    · cases h
    · split at h
      · cases h
      · split at h
        · cases h
        · obtain rfl := Except.error.inj h
          exact ⟨key, hk, _, String.append_assoc ..⟩
  · split at h
    · cases h
    · obtain rfl := Except.error.inj h
      exact ⟨key, hk, _, String.append_assoc ..⟩

theorem mode_names (h : mode py env = .error message) : Names message := by
  unfold mode at h
  dsimp only at h
  split at h
  · cases h
  · split at h
    · cases h
    · obtain rfl := Except.error.inj h
      exact names_of_mem (by decide) _

/-- **A refused configuration is told which variable to change.** -/
theorem fromEnv_names {cores : Int} (h : fromEnv py env cores = .error message) :
    Names message := by
  unfold fromEnv at h
  rcases except_bind_error.mp h with h | ⟨databaseUrl, -, h⟩
  · exact required_names (by decide) h
  rcases except_bind_error.mp h with h | ⟨mode, -, h⟩
  · exact mode_names h
  rcases except_bind_error.mp h with h | ⟨tag, -, h⟩
  · exact required_names (by decide) h
  rcases except_bind_error.mp h with h | ⟨dataset, -, h⟩
  · exact required_names (by decide) h
  rcases except_bind_error.mp h with h | ⟨concurrency, -, h⟩
  · exact positive_names (by decide) h
  rcases except_bind_error.mp h with h | ⟨threads, -, h⟩
  · exact positive_names (by decide) h
  split at h
  · rcases except_bind_error.mp h with h | ⟨lease, -, h⟩
    · exact positive_names (by decide) h
    rcases except_bind_error.mp h with h | ⟨attempts, -, h⟩
    · exact positive_names (by decide) h
    cases h
  · obtain rfl := Except.error.inj h
    exact names_of_mem (by decide) _

theorem required_ok {key why value : String} (h : required env key why = .ok value) :
    value ≠ "" := by
  unfold required at h
  split at h
  · cases h
  · split at h
    · cases h
    · rename_i hne
      rw [← Except.ok.inj h]
      exact hne

/-- An accepted configuration has a dataset. -/
theorem fromEnv_dataset {cores : Int} {config : HostConfig cores}
    (h : fromEnv py env cores = .ok config) :
    config.queue.usageStatsDataset ≠ "" := by
  unfold fromEnv at h
  obtain ⟨url, -, h⟩ := except_bind_ok.mp h
  obtain ⟨mode, -, h⟩ := except_bind_ok.mp h
  obtain ⟨tag, -, h⟩ := except_bind_ok.mp h
  obtain ⟨dataset, hdataset, h⟩ := except_bind_ok.mp h
  obtain ⟨concurrency, -, h⟩ := except_bind_ok.mp h
  obtain ⟨threads, -, h⟩ := except_bind_ok.mp h
  split at h
  · obtain ⟨lease, -, h⟩ := except_bind_ok.mp h
    obtain ⟨attempts, -, h⟩ := except_bind_ok.mp h
    rw [← Except.ok.inj h]
    exact required_ok hdataset
  · cases h

end WorkerEnv

end BattleCloud
