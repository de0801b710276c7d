import BattleCloud.Db.Operations
import BattleCloud.Worker.Config

/-!
# The lease of a running analysis

`Heartbeat._run` of `worker/battle_cloud_worker/queue.py` against a clock, from the claim on. Time
passes, every other statement may run in between, and a heartbeat statement runs once the interval
has elapsed, less than half a lease late. The worker itself says nothing else of its job before the
analysis ends.

The interval is `HEARTBEAT_FRACTION` of the lease, and a second at least. `keeps_lease_iff`: the job
stays claimed and unexpired in all of this exactly if the lease is of two seconds at least. Under a
lease of one second the floor is the whole lease.
-/

namespace BattleCloud

/-- `max(1.0, lease_seconds * HEARTBEAT_FRACTION)`, in microseconds. -/
def heartbeatInterval (leaseSeconds : Nat) : Int := max 1000000 (300000 * leaseSeconds)

/-- A worker that analyzes a job, since its claim. -/
structure Analyzing where
  db : Db
  clock : Timestamptz
  /-- When the claim or the last heartbeat statement was executed, in microseconds. -/
  last : Int
  /-- `hb.lost`. -/
  lost : Bool

inductive LeaseAction where
  /-- Time passes. -/
  | wait (now : Timestamptz)
  | beat
  /-- A statement of somebody else. -/
  | other (op : QueueOp)

/-- The statement is not the worker's own about its job, and it does not read a later clock. -/
def QueueOp.bySomebodyElse (op : QueueOp) (jobId : Uuid) (workerId : String) (clock : Timestamptz) :
    Bool :=
  match op with
  | .heartbeat i w _ _ | .complete i w _ _ | .fail i w _ _ _ _ _ => !(i = jobId && w = workerId)
  | .reclaim _ now => now.us ≤ clock.us
  | .enqueue .. | .claim .. | .elsewhere .. => true

namespace Analyzing

variable (leaseSeconds : Nat) (jobId : Uuid) (workerId : String)

/-- Before this time a heartbeat statement is executed. -/
def deadline (s : Analyzing) : Int :=
  s.last + heartbeatInterval leaseSeconds + 500000 * leaseSeconds

def step (s : Analyzing) : LeaseAction → Option Analyzing
  | .wait now =>
    if s.clock.us ≤ now.us ∧ now.us < s.deadline leaseSeconds then some { s with clock := now }
    else none
  | .beat =>
    if s.lost = false ∧ s.last + heartbeatInterval leaseSeconds ≤ s.clock.us then
      match (JobUpdate.heartbeat jobId workerId leaseSeconds s.clock).run s.db with
      | .ok (db, rows) => some { s with db, last := s.clock.us, lost := rows.isEmpty }
      -- a statement that does not succeed is outside the schedule
      | .error _ => none
    else none
  | .other op =>
    if op.bySomebodyElse jobId workerId s.clock then
      (op.step s.db).map fun db => { s with db }
    else none

/-- The states after the claim. -/
abbrev Reachable (db : Db) (now : Timestamptz) : Analyzing → Prop :=
  StepSystem.Reachable (step leaseSeconds jobId workerId) ⟨db, now, now.us, false⟩

/-- The job is the worker's, its lease has not expired, and no heartbeat has said otherwise. -/
def Held (s : Analyzing) : Prop :=
  s.lost = false ∧ ∃ j ∈ s.db.jobs, j.ownedBy jobId workerId = true ∧ j.expired s.clock = false

end Analyzing

/-- **What the heartbeat is for**: from a claim on, whatever happens in time, the lease is held. -/
def KeepsLease (leaseSeconds : Nat) : Prop :=
  ∀ (db₀ db : Db) (workerId : String) (build : EngineBuild) (locked : List Uuid)
    (now : Timestamptz) (job : ClaimedJob), db₀.Valid →
    claimJob db₀ workerId leaseSeconds build locked now = .ok (db, some job) →
    ∀ s, Analyzing.Reachable leaseSeconds job.id workerId db now s → s.Held job.id workerId

/-! ## Leases of two seconds at least -/

theorem deadline_le {leaseSeconds : Nat} (h : 2 ≤ leaseSeconds) (s : Analyzing) :
    s.deadline leaseSeconds ≤ s.last + leaseSeconds * 1000000 := by
  unfold Analyzing.deadline heartbeatInterval
  omega

variable {leaseSeconds : Nat} {jobId : Uuid} {workerId : String} {s s' : Analyzing}

/-- The lease runs from the last statement, and time has not got to where the next one is due. -/
structure Analyzing.Renewed (leaseSeconds : Nat) (jobId : Uuid) (workerId : String)
    (s : Analyzing) : Prop where
  valid : s.db.Valid
  lost : s.lost = false
  row : ∃ j ∈ s.db.jobs, j.ownedBy jobId workerId = true ∧
    j.leaseExpiresAt = some (s.last + leaseSeconds * 1000000)
  onTime : s.clock.us < s.deadline leaseSeconds

theorem not_expired {j : JobRow} {now : Timestamptz} {expires : Int}
    (hl : j.leaseExpiresAt = some expires) (h : now.us ≤ expires) : j.expired now = false := by
  unfold JobRow.expired
  rw [hl]
  simp
  omega

theorem Analyzing.Renewed.held (h : s.Renewed leaseSeconds jobId workerId)
    (hl : 2 ≤ leaseSeconds) : s.Held jobId workerId := by
  obtain ⟨j, hj, howned, hlease⟩ := h.row
  have hdeadline := deadline_le hl s
  have honTime := h.onTime
  exact ⟨h.lost, j, hj, howned, not_expired hlease (by omega)⟩

/-- **No statement of somebody else takes an unexpired job.** -/
theorem QueueOp.mem_of_bySomebodyElse {db db' : Db} (hv : db.Valid) {op : QueueOp}
    (hst : op.step db = some db') {clock : Timestamptz}
    (hop : op.bySomebodyElse jobId workerId clock = true) {j : JobRow} (hj : j ∈ db.jobs)
    (howned : j.ownedBy jobId workerId = true)
    (hexpired : ∀ now : Timestamptz, now.us ≤ clock.us → j.expired now = false) :
    j ∈ db'.jobs := by
  obtain ⟨hid, hrunning, hclaimed⟩ := JobRow.ownedBy_iff.mp howned
  cases (QueueOp.step_does hv hst).2 with
  | nothing hjobs => exact hjobs ▸ hj
  | created => exact List.mem_append_left _ hj
  | @claimed _ _ _ _ _ k hk hclaimable =>
    -- only a queued row is claimed
    refine JobUpdate.mem_apply_of_not hj ?_
    have hqueued := (JobRow.claimable_iff.mp hclaimable).1
    by_contra hsel
    have hsel : j.id = k.id := by simpa [JobUpdate.sel] using hsel
    rw [← hv.job_eq hj hk hsel, hrunning] at hqueued
    cases hqueued
  | updated hu =>
    refine JobUpdate.mem_apply_of_not hj ?_
    have hother : ∀ {i : Uuid} {w : String}, (!(i = jobId && w = workerId)) = true →
        j.ownedBy i w = false := by
      intro i w hne
      by_contra ho
      have ho := JobRow.ownedBy_iff.mp (by simpa using ho)
      rw [hclaimed] at ho
      simp [← ho.1, hid, ← Option.some.inj ho.2.2] at hne
    cases op with
    | heartbeat i w l now =>
      obtain rfl := Option.some.inj hu
      exact hother hop
    | complete i w a now =>
      obtain rfl := Option.some.inj hu
      exact hother hop
    | fail i w r m k d now =>
      obtain rfl := Option.some.inj hu
      exact hother hop
    | reclaim m now =>
      obtain rfl := Option.some.inj hu
      exact hexpired now (by simpa [QueueOp.bySomebodyElse] using hop)
    | enqueue => cases hu
    | claim => cases hu
    | elsewhere => cases hu

/-- **One step.** -/
theorem Analyzing.Renewed.step (h : s.Renewed leaseSeconds jobId workerId)
    (hl : 2 ≤ leaseSeconds) {a : LeaseAction}
    (hst : s.step leaseSeconds jobId workerId a = some s') :
    s'.Renewed leaseSeconds jobId workerId := by
  obtain ⟨j, hj, howned, hlease⟩ := h.row
  have hdeadline := deadline_le hl s
  have honTime := h.onTime
  cases a with
  | wait now =>
    simp only [Analyzing.step] at hst
    split at hst
    · rename_i hnow
      cases hst
      exact ⟨h.valid, h.lost, h.row, hnow.2⟩
    · cases hst
  | beat =>
    simp only [Analyzing.step] at hst
    split at hst
    · split at hst
      · rename_i db rows hrun
        cases hst
        obtain ⟨rfl, hvalid, rfl⟩ := JobUpdate.run_ok hrun
        have hpos : (0 : Int) ≤ heartbeatInterval leaseSeconds := by
          unfold heartbeatInterval
          omega
        refine ⟨hvalid, ?_, ⟨j.heartbeat leaseSeconds s.clock, ?_, ?_, rfl⟩, ?_⟩
        · rw [List.isEmpty_eq_false_iff]
          intro hnone
          have hsel := Table.returning_eq_nil.mp hnone j hj
          rw [show (JobUpdate.heartbeat jobId workerId leaseSeconds s.clock).sel j = true from
            howned] at hsel
          cases hsel
        · exact Table.mem_updateWhere.mpr ⟨j, hj, .inl ⟨howned, rfl⟩⟩
        · exact howned
        · show s.clock.us < s.clock.us + heartbeatInterval leaseSeconds + 500000 * leaseSeconds
          omega
      · cases hst
    · cases hst
  | other op =>
    simp only [Analyzing.step] at hst
    split at hst
    · rename_i hop
      obtain ⟨db, hop', rfl⟩ := Option.map_eq_some_iff.mp hst
      have hkept : j ∈ db.jobs := QueueOp.mem_of_bySomebodyElse h.valid hop' hop hj howned
        fun now hnow => not_expired hlease (by omega)
      exact ⟨(QueueOp.step_does h.valid hop').1, h.lost, ⟨j, hkept, howned, hlease⟩, h.onTime⟩
    · cases hst

/-- **A lease of two seconds at least is kept.** -/
theorem keepsLease_of_two_le (hl : 2 ≤ leaseSeconds) : KeepsLease leaseSeconds := by
  intro db₀ db workerId build locked now job hv hclaim s hs
  rcases claimJob_ok (hv .jobsPkey) hclaim with ⟨-, hnone, -⟩ | ⟨j, hj, -, hjob, rfl, hvalid⟩
  · cases hnone
  · obtain rfl := Option.some.inj hjob
    refine Analyzing.Renewed.held ?_ hl
    refine StepSystem.Reach.invariant
      (I := fun s => s.Renewed leaseSeconds j.id workerId) ?_ ?_ hs
    · refine ⟨hvalid, rfl, ⟨j.claim workerId leaseSeconds now, ?_, ?_, rfl⟩, ?_⟩
      · exact Table.mem_updateWhere.mpr ⟨j, hj, .inl ⟨by simp [JobUpdate.sel], rfl⟩⟩
      · exact JobRow.ownedBy_iff.mpr ⟨rfl, rfl, rfl⟩
      · show now.us < now.us + heartbeatInterval leaseSeconds + 500000 * leaseSeconds
        unfold heartbeatInterval
        omega
    · intro s a s' hr _ hst
      exact hr.step hl hst

/-! ## A lease of one second -/

namespace Sample

/-- A job is queued. -/
def queued : Db :=
  StepSystem.after QueueOp.step Db.empty [.enqueue quick .quick 2 400 7 dawn]

/-- It is claimed for a second. -/
def claimedBriefly : Db := (JobUpdate.claim 7 "host/1" 1 dawn).apply queued

/-- 1.2 seconds later. -/
def soon : Timestamptz := ⟨1788757201200000, by decide⟩

/-- The interval and 0.2 seconds have elapsed; another worker reclaims, then the heartbeat
statement is executed. -/
def lateByAFifth : List LeaseAction := [.wait soon, .other (.reclaim 3 soon), .beat]

theorem queued_valid : queued.Valid :=
  valid_of_ops Db.valid_empty (StepSystem.reachable_after _)

end Sample

/-- The interval is the whole lease. -/
theorem not_keepsLease_one : ¬ KeepsLease 1 := by
  intro h
  have hclaim : claimJob Sample.queued "host/1" 1 ⟨"v0.0.47", "2026-07"⟩ [] Sample.dawn =
      .ok (Sample.claimedBriefly, (Sample.claimedBriefly.jobs.head?).map JobRow.claimed) := rfl
  have hheld := h _ _ _ _ _ _ _ Sample.queued_valid hclaim _
    (StepSystem.reachable_after Sample.lateByAFifth)
  exact absurd hheld.1 (by decide)

/-- **When a healthy worker keeps its lease**: of the leases `from_env` accepts, under those of two
seconds at least. -/
theorem keeps_lease_iff (cfg : WorkerConfig) :
    KeepsLease cfg.leaseSeconds ↔ 2 ≤ cfg.leaseSeconds := by
  constructor
  · intro h
    by_contra hlt
    have hpos := cfg.leaseSeconds_pos
    rw [show cfg.leaseSeconds = 1 by omega] at h
    exact not_keepsLease_one h
  · exact keepsLease_of_two_le

namespace Sample

/-- `int` on the texts used here. -/
def digits : PyBuiltins where
  int := fun raw => if raw = "1" then some 1 else none
  repr := fun raw => "'" ++ raw ++ "'"

def oneSecond : WorkerEnv := fun key =>
  if key = "DATABASE_URL" then some "postgres://localhost/battlecloud"
  else if key = "POKE_ENGINE_TAG" then some "v0.0.47"
  else if key = "USAGE_STATS_DATASET" then some "2026-07"
  else if key = "JOB_LEASE_SECONDS" then some "1"
  else none

theorem oneSecond_pos : (1 : Int) ≤ 4 := by decide

/-- What `from_env` makes of it on a host of four cores. -/
def oneSecondConfig : HostConfig 4 :=
  { databaseUrl := "postgres://localhost/battlecloud"
    engineDataDir := "."
    queue := { config with mode := .forever, leaseSeconds := 1, leaseSeconds_pos := by decide }
    concurrency := 1
    threads := 4
    concurrency_pos := Int.le_refl 1
    threads_pos := oneSecond_pos
    fits := by decide }

end Sample

/-- `from_env` accepts `JOB_LEASE_SECONDS=1`. -/
theorem accepted_lease_not_kept : ¬ ∀ (py : PyBuiltins) (env : WorkerEnv) (cores : Int)
    (cfg : HostConfig cores), WorkerEnv.fromEnv py env cores = .ok cfg →
      KeepsLease cfg.queue.leaseSeconds := by
  intro h
  exact not_keepsLease_one (h Sample.digits Sample.oneSecond 4 Sample.oneSecondConfig rfl)

end BattleCloud
