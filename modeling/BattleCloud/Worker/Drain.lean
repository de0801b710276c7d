import BattleCloud.Fleet.Attempts
import BattleCloud.Fleet.Cluster
import BattleCloud.Worker.Recovery

/-!
# A drain ends

`run_until_empty` is `while True`, and a retryable failure puts the job it just processed back at
the head of the queue. What ends it is spread over the rows: `remaining` adds up, over the live
jobs of the worker's build, the claims the cap still allows. No statement raises it, and a claim
lowers it (`claim_remaining`) because a queued job is below the cap (`AttemptsOk`), which both
`CASE` expressions keep true in a fleet that shares the cap.
-/

namespace BattleCloud

/-- The claims the cap still allows of the job, if it is a live one of the build. -/
def JobRow.allowance (M : Nat) (build : EngineBuild) (j : JobRow) : Nat :=
  if j.live ∧ j.build = build then M - j.attempts else 0

/-- The sum over the queued and running jobs of the build of `max_attempts - attempts`. -/
def remaining (M : Nat) (build : EngineBuild) (db : Db) : Nat :=
  (db.jobs.map (JobRow.allowance M build)).sum

variable {workerId : String} {c : WorkerConfig} {t : Turn} {db db' : Db} {M : Nat}
  {b : EngineBuild}

/-! ## One row -/

theorem JobRow.Next.build_eq {j j' : JobRow} (h : j.Next j') : j'.build = j.build := by
  unfold JobRow.build
  rw [h.columns]

theorem JobRow.Next.attempts_le {j j' : JobRow} (h : j.Next j') : j.attempts ≤ j'.attempts := by
  cases h with
  | claim w l now hs => exact Nat.le_succ _
  | _ => exact Nat.le_refl _

/-- No update raises what the cap still allows. -/
theorem JobRow.Next.allowance_le {j j' : JobRow} (h : j.Next j') :
    j'.allowance M b ≤ j.allowance M b := by
  have hle := h.attempts_le
  have hl := h.live
  unfold JobRow.allowance
  rw [h.build_eq]
  by_cases hb : j.build = b
  · rw [if_pos (And.intro hl hb)]
    split <;> omega
  · rw [if_neg fun hc => hb hc.2]
    exact Nat.zero_le _

/-- A claim uses one of them up. -/
theorem AttemptsOk.claim_allowance {j : JobRow} (h : AttemptsOk M j) (hq : j.status = .queued)
    (hb : j.build = b) (w : String) (l : Nat) (now : Timestamptz) :
    (j.claim w l now).allowance M b < j.allowance M b := by
  have hlt := h.queued hq
  have hl : j.live = true := by simp [JobRow.live, hq]
  have hclaimed : (j.claim w l now).allowance M b = M - (j.attempts + 1) := if_pos ⟨rfl, hb⟩
  have hqueued : j.allowance M b = M - j.attempts := if_pos ⟨hl, hb⟩
  omega

/-! ## One operation -/

/-- The operations of a fleet that shares the cap, while nothing is enqueued. -/
def Draining (M : Nat) (_ : Db) (op : QueueOp) : Prop := op.capped M ∧ op.isEnqueue = false

/-- The rows are under the cap, and no more claims are allowed than before. -/
structure Spends (M : Nat) (b : EngineBuild) (db db' : Db) : Prop where
  valid : db'.Valid
  attempts : ∀ j ∈ db'.jobs, AttemptsOk M j
  remaining : remaining M b db' ≤ remaining M b db

theorem AttemptsOk.update {op : QueueOp} {u : JobUpdate} (hu : op.update? = some u)
    (hcap : op.capped M) {j : JobRow} (h : AttemptsOk M j) : AttemptsOk M (u.set j) := by
  cases op with
  | heartbeat i w l now =>
    cases hu
    exact h.heartbeat l now
  | complete i w a now =>
    cases hu
    exact h.complete a now
  | fail i w r m k d now =>
    cases hu
    exact h.fail hcap r k d now
  | reclaim m now =>
    cases hu
    exact h.reclaim hcap now
  | _ => cases hu

/-- **One operation spends.** -/
theorem QueueOp.step_attempts (hM : 1 ≤ M) (hv : db.Valid) (h : ∀ j ∈ db.jobs, AttemptsOk M j)
    {op : QueueOp} (hcap : op.capped M) (hst : QueueOp.step db op = some db') :
    ∀ j ∈ db'.jobs, AttemptsOk M j := by
  obtain ⟨-, hd⟩ := QueueOp.step_does hv hst
  cases hd with
  | nothing hjobs => exact hjobs ▸ h
  | created hl =>
    exact List.forall_mem_append.mpr ⟨h, List.forall_mem_singleton.mpr (.fresh hM _ _ _ _ _ _)⟩
  | claimed hj hc => exact AttemptsOk.claimed hv h hj (JobRow.claimable_iff.mp hc).1 _ _ _
  | updated hu => exact Table.forall_updateWhere h fun j _ hok _ => hok.update hu hcap

theorem QueueOp.step_remaining (hv : db.Valid) {op : QueueOp} (hne : op.isEnqueue = false)
    (hst : QueueOp.step db op = some db') : remaining M b db' ≤ remaining M b db := by
  obtain ⟨-, hd⟩ := QueueOp.step_does hv hst
  cases hd with
  | nothing hjobs =>
    unfold remaining
    rw [hjobs]
  | created hl => cases hne
  | claimed hj hc =>
    exact Table.sum_updateWhere_le fun k hk hs =>
      (hv.next_of_claim hj (JobRow.claimable_iff.mp hc).1 _ _ _ k hk hs).allowance_le
  | updated hu =>
    exact Table.sum_updateWhere_le fun k hk hs =>
      (JobUpdate.next_of_sel (QueueOp.isClaim_of_update hu) k hk hs).allowance_le

theorem Spends.refl (hv : db.Valid) (h : ∀ j ∈ db.jobs, AttemptsOk M j) :
    Spends M b db db :=
  ⟨hv, h, Nat.le_refl _⟩

theorem Spends.trans {d : Db} (h₁ : Spends M b db d) (h₂ : Spends M b d db') :
    Spends M b db db' :=
  ⟨h₂.valid, h₂.attempts, h₂.remaining.trans h₁.remaining⟩

/-- So does a run of them. -/
theorem Spends.of_reach (hM : 1 ≤ M) (hv : db.Valid) (h : ∀ j ∈ db.jobs, AttemptsOk M j)
    (hr : StepSystem.Reach QueueOp.step (Draining M) db db') : Spends M b db db' := by
  refine StepSystem.Reach.invariant (I := Spends M b db) (.refl hv h) ?_ hr
  intro s op s' hs ⟨hcap, hne⟩ hst
  exact ⟨(QueueOp.step_rows hs.valid hst).valid,
    QueueOp.step_attempts hM hs.valid hs.attempts hcap hst,
    (QueueOp.step_remaining hs.valid hne hst).trans hs.remaining⟩

/-- The rows of a fleet that shares the cap, in every reachable state. -/
theorem attemptsOk_of_ops (hM : 1 ≤ M)
    (h : StepSystem.Reach QueueOp.step (fun _ op => op.capped M) Db.empty db) :
    ∀ j ∈ db.jobs, AttemptsOk M j := by
  refine StepSystem.Reach.invariant_of (I := fun d => ∀ j ∈ d.jobs, AttemptsOk M j) ?_ ?_ h
  · intro j hj
    cases hj
  · intro s op s' hs hA hcap hst
    exact QueueOp.step_attempts hM (valid_of_ops Db.valid_empty hs.reachable) hA hcap hst

/-! ## One iteration -/

/-- A claim of the build lowers what remains. -/
theorem claim_remaining (hv : db.Valid) (h : ∀ j ∈ db.jobs, AttemptsOk M j) {j : JobRow}
    (hj : j ∈ db.jobs) {locked : List Uuid} (hc : j.claimable b locked = true) (w : String)
    (l : Nat) (now : Timestamptz) :
    remaining M b ((JobUpdate.claim j.id w l now).apply db) < remaining M b db := by
  obtain ⟨hq, htag, hset, -⟩ := JobRow.claimable_iff.mp hc
  have hb : j.build = b := by
    unfold JobRow.build
    rw [htag, hset]
  refine Table.sum_updateWhere_lt (fun k hk hs => ?_) hj (decide_eq_true rfl)
    ((h j hj).claim_allowance hq hb w l now)
  exact (hv.next_of_claim hj hq w l now k hk hs).allowance_le

/-- Replays that arrive leave the jobs alone. -/
theorem arrive_jobs {as : List Arrival} (h : NoEnqueue as) : (arrive db as).jobs = db.jobs := by
  induction as generalizing db with
  | nil => rfl
  | cons a as ih =>
    have hstep : ((QueueOp.step db (a.op db)).getD db).jobs = db.jobs := by
      cases a with
      | enqueue i p n m newId now => cases h _ List.mem_cons_self
      | upsertReplay payload =>
        simp only [Arrival.op]
        split
        all_goals
          unfold QueueOp.step
          split
          · rename_i hok
            obtain ⟨-, rfl⟩ := Db.commit_ok.mp hok
            rfl
          · rfl
    rw [arrive, ih fun a' ha' => h a' (List.mem_cons_of_mem _ ha'), hstep]

theorem arrive_spends (hM : 1 ≤ M) (hv : db.Valid) (h : ∀ j ∈ db.jobs, AttemptsOk M j)
    {as : List Arrival} (hq : NoEnqueue as) : Spends M b db (arrive db as) := by
  refine .of_reach hM hv h (arrive_reach fun d a ha => ⟨a.op_capped d M, ?_⟩)
  rw [a.op_isEnqueue]
  exact hq a ha

/-- **A call of `run_once` in a quiet turn** finds nothing, or spends an attempt. -/
theorem runOnce_spends (hq : t.Quiet) (hM : 1 ≤ M) (hcap : c.maxAttempts ≤ M) (hv : db.Valid)
    (h : ∀ j ∈ db.jobs, AttemptsOk M j) {found : Bool}
    (ho : runOnce workerId c t db = .ok (db', found)) :
    (found = false ∧ db'.jobs = db.jobs ∧ ∀ j ∈ db.jobs, j.claimable c.build [] = false) ∨
    (found = true ∧ Spends M c.build db db' ∧
      remaining M c.build db' < remaining M c.build db) := by
  have hjobs : (arrive db t.beforeClaim).jobs = db.jobs := arrive_jobs hq.beforeClaim
  have harr : Spends M c.build db (arrive db t.beforeClaim) := arrive_spends hM hv h hq.beforeClaim
  rcases runOnce_ok (q := True) harr.valid hcap (fun _ => hq) ho with
    ⟨rfl, rfl, hidle⟩ | ⟨rfl, j, hj, hcl, hst, hops⟩
  · refine Or.inl ⟨rfl, hjobs, fun j hj => ?_⟩
    rw [← hq.locked]
    exact hidle j (hjobs ▸ hj)
  · have hclaim : Draining M (arrive db t.beforeClaim)
        (.claim workerId c.leaseSeconds c.build t.locked t.claimAt) := ⟨trivial, rfl⟩
    have h₁ := Spends.of_reach (b := c.build) hM harr.valid harr.attempts
      (.next .init hclaim hst)
    have h₂ := Spends.of_reach (b := c.build) hM h₁.valid h₁.attempts
      (hops.imp fun _ _ hop => ⟨hop.capped, hop.noEnqueue trivial⟩)
    have hlt := claim_remaining harr.valid harr.attempts hj hcl workerId c.leaseSeconds t.claimAt
    have hle := h₂.remaining
    have hle' := harr.remaining
    exact Or.inr ⟨rfl, (harr.trans h₁).trans h₂, by omega⟩

/-- **`reclaim_expired` is never refused.** -/
theorem reclaim_valid (hv : db.Valid) (m : Nat) (now : Timestamptz) :
    ((JobUpdate.reclaim m now).apply db).Valid := by
  have hmoves : ∀ j ∈ db.jobs, (JobUpdate.reclaim m now).sel j = true → j.Next (j.reclaim m now) :=
    JobUpdate.next_of_sel rfl
  have hrow : ∀ {P : JobRow → Prop}, (∀ j ∈ db.jobs, P j) →
      (∀ j : JobRow, P (j.reclaim m now)) →
      ∀ j ∈ ((JobUpdate.reclaim m now).apply db).jobs, P j := by
    intro P hP hset
    exact Table.forall_updateWhere hP fun j _ _ _ => hset j
  refine hv.of_moves hmoves (fun j hj _ => hv .jobsAnalysisIdFkey j hj) fun {con} hc => ?_
  simp only [queueConstraints, List.mem_cons, List.not_mem_nil, or_false] at hc
  rcases hc with rfl | rfl | rfl | rfl | rfl
  · exact hrow (hv .jobsClaimIsAllOrNothing) fun j => Or.inl ⟨rfl, rfl, rfl⟩
  · refine hrow (hv .jobsSucceededHasAnalysis) fun j => Or.inl fun hs => ?_
    rcases j.reclaim_status m now with hq | ⟨hf, -⟩
    · cases hq.symm.trans hs
    · cases hf.symm.trans hs
  · refine hrow (hv .jobsFailedHasKind) fun j => ?_
    rcases j.reclaim_status m now with hq | ⟨-, hk⟩
    · refine Or.inl fun hs => ?_
      cases hq.symm.trans hs
    · refine Or.inr ?_
      rw [hk]
      rfl
  · exact Table.uniqueWhere_updateWhere (hv .jobsActiveIdentityKey) fun j hj hs =>
      ⟨rfl, fun _ => (hmoves j hj hs).live⟩
  · exact hv .analysesReplayIdFkey

/-- `_reclaim` returns, and spends. -/
theorem reclaimExpired_spends (hq : t.Quiet) (hM : 1 ≤ M) (hcap : c.maxAttempts ≤ M)
    (hv : db.Valid) (h : ∀ j ∈ db.jobs, AttemptsOk M j) :
    ∃ d, reclaimExpired c t db = .ok d ∧ Spends M b db d ∧
      d.jobs = Table.updateWhere (·.expired t.reclaimAt) (·.reclaim c.maxAttempts t.reclaimAt)
        db.jobs := by
  have harr : Spends M b db (arrive db t.beforeReclaim) :=
    arrive_spends hM hv h hq.beforeReclaim
  have hrun := JobUpdate.run_of_valid (reclaim_valid harr.valid c.maxAttempts t.reclaimAt)
  have hst : QueueOp.step (arrive db t.beforeReclaim) (.reclaim c.maxAttempts t.reclaimAt) = _ :=
    QueueOp.step_of_exec hrun
  have hop : Draining M (arrive db t.beforeReclaim) (.reclaim c.maxAttempts t.reclaimAt) :=
    ⟨hcap, rfl⟩
  refine ⟨_, hrun, harr.trans (.of_reach hM harr.valid harr.attempts (.next .init hop hst)), ?_⟩
  rw [JobUpdate.apply_jobs, arrive_jobs hq.beforeReclaim]
  rfl

/-! ## The loop -/

/-- **A drain terminates and finishes its work.** From every state the queue's operations reach
under the worker's cap, in quiet turns in which each call of `run_once` returns:
`run_until_empty` returns, after at most as many jobs as the cap allows claims; then no job of its
build is queued, and no job whose lease had ended at the last reclaim is running. -/
theorem drain_finishes {turns : Nat → Turn}
    (h : StepSystem.Reach QueueOp.step (fun _ op => op.capped c.maxAttempts) Db.empty db)
    (hq : ∀ k, (turns k).Quiet)
    (hok : ∀ k d d', Loop.Iterates (drainIteration workerId c) turns db k d →
      reclaimExpired c (turns k) d = .ok d' → ∃ r, runOnce workerId c (turns k) d' = .ok r) :
    ∃ n last db',
      runUntilEmpty workerId c turns (remaining c.maxAttempts c.build db + 1) db =
        some (.ok (n, db')) ∧
      n ≤ remaining c.maxAttempts c.build db ∧
      (∀ j ∈ db'.jobs, j.build = c.build → j.status ≠ .queued) ∧
      Loop.Iterates (drainIteration workerId c) turns db n last ∧
      (∀ j ∈ last.jobs, j.expired (turns n).reclaimAt = true →
        ∀ j' ∈ db'.jobs, j'.id = j.id → j'.status ≠ .running) := by
  have hM := c.maxAttempts_pos
  have hle : c.maxAttempts ≤ c.maxAttempts := Nat.le_refl _
  have hstart : db.Valid ∧ ∀ j ∈ db.jobs, AttemptsOk c.maxAttempts j :=
    ⟨valid_of_ops Db.valid_empty h.reachable, attemptsOk_of_ops hM h⟩
  -- the invariant of the loop is that the rows are under the cap, its measure what remains
  have hbody : ∀ k d, Loop.Iterates (drainIteration workerId c) turns db k d →
      (d.Valid ∧ ∀ j ∈ d.jobs, AttemptsOk c.maxAttempts j) →
      ∃ d' b, drainIteration workerId c (turns k) d = .ok (d', b) ∧
        (b = true → (d'.Valid ∧ ∀ j ∈ d'.jobs, AttemptsOk c.maxAttempts j) ∧
          remaining c.maxAttempts c.build d' < remaining c.maxAttempts c.build d) := by
    rintro k d hit ⟨hv, hA⟩
    obtain ⟨d₁, hr, hs, -⟩ := reclaimExpired_spends (b := c.build) (hq k) hM hle hv hA
    obtain ⟨⟨d₂, found⟩, ho⟩ := hok k d d₁ hit hr
    refine ⟨d₂, found, ?_, fun hf => ?_⟩
    · unfold drainIteration
      rw [hr]
      exact ho
    · rcases runOnce_spends (hq k) hM hle hs.valid hs.attempts ho with ⟨rfl, -⟩ | ⟨-, hs₂, hlt⟩
      · cases hf
      · exact ⟨⟨hs₂.valid, hs₂.attempts⟩, Nat.lt_of_lt_of_le hlt hs.remaining⟩
  obtain ⟨n, last, db', hrun, hn, hit, ⟨hv, hA⟩, hlast⟩ :=
    Loop.run_returns hbody (Nat.lt_succ_self _) .start hstart
  rw [Nat.zero_add] at hrun hit hlast
  -- the last iteration reclaims and then finds nothing
  obtain ⟨d, hr, hs, hjobs⟩ := reclaimExpired_spends (b := c.build) (hq n) hM hle hv hA
  unfold drainIteration at hlast
  rw [hr] at hlast
  obtain ⟨-, hsame, hnone⟩ | ⟨hf, -⟩ := runOnce_spends (hq n) hM hle hs.valid hs.attempts hlast
  · refine ⟨n, last, db', hrun, hn, fun j hj hb hqueued => ?_, hit, fun j hj hx j' hj' hid => ?_⟩
    · have hcl : j.claimable c.build [] = true := by
        rw [← hb]
        exact JobRow.claimable_iff.mpr ⟨hqueued, rfl, rfl, List.not_mem_nil⟩
      rw [hnone j (hsame ▸ hj)] at hcl
      cases hcl
    · rw [hsame, hjobs] at hj'
      obtain ⟨k, hk, ⟨-, rfl⟩ | ⟨hnx, rfl⟩⟩ := Table.mem_updateWhere.mp hj'
      · rcases k.reclaim_status c.maxAttempts (turns n).reclaimAt with hst | ⟨hst, -⟩
        · rw [hst]
          decide
        · rw [hst]
          decide
      · rw [hv.job_eq hk hj hid, hx] at hnx
        cases hnx
  · cases hf

/-- The call of `run_once` in the iteration that starts in these tables returns. -/
def runOnceReturns (workerId : String) (c : WorkerConfig) (t : Turn) (db : Db) : Bool :=
  match reclaimExpired c t db with
  | .ok d => (runOnce workerId c t d).isOk
  | .error _ => true

theorem runOnce_of_returns (h : runOnceReturns workerId c t db = true) {d : Db}
    (hr : reclaimExpired c t db = .ok d) : ∃ r, runOnce workerId c t d = .ok r := by
  unfold runOnceReturns at h
  rw [hr] at h
  cases ho : runOnce workerId c t d with
  | error e => simp [ho, Except.isOk, Except.toBool] at h
  | ok r => exact ⟨r, rfl⟩

/-- A dead worker's job and two queued ones are drained; the cap allows eight claims. -/
theorem drain_finishes_dead :
    remaining 3 Sample.build Sample.dead = 8 ∧
    ∃ n last db', runUntilEmpty "host/1" Sample.config (fun _ => Sample.eveningTurn) 9 Sample.dead =
        some (.ok (n, db')) ∧ n ≤ 8 ∧
      Loop.Iterates (drainIteration "host/1" Sample.config) (fun _ => Sample.eveningTurn)
        Sample.dead n last := by
  have hquiet : Sample.eveningTurn.Quiet := by
    constructor <;> simp [Sample.eveningTurn, NoEnqueue]
  have hreach : StepSystem.Reach QueueOp.step (fun _ op => op.capped 3) Db.empty Sample.dead :=
    StepSystem.reach_afterIf Sample.deadOps
  have hfew : ∀ k < 4, ∀ d ∈ Loop.stateAt (drainIteration "host/1" Sample.config)
      (fun _ => Sample.eveningTurn) Sample.dead k,
      runOnceReturns "host/1" Sample.config Sample.eveningTurn d = true := by decide
  have hend : Loop.stateAt (drainIteration "host/1" Sample.config)
      (fun _ => Sample.eveningTurn) Sample.dead 4 = none := rfl
  have hok : ∀ k d d', Loop.Iterates (drainIteration "host/1" Sample.config)
      (fun _ => Sample.eveningTurn) Sample.dead k d →
      reclaimExpired Sample.config Sample.eveningTurn d = .ok d' →
      ∃ r, runOnce "host/1" Sample.config Sample.eveningTurn d' = .ok r := by
    intro k d d' hit hr
    have hstate := hit.stateAt
    by_cases hk : k < 4
    · exact runOnce_of_returns (hfew k hk d hstate) hr
    · rw [Loop.stateAt_none hend (Nat.le_of_not_lt hk)] at hstate
      cases hstate
  have hremaining : remaining 3 Sample.build Sample.dead = 8 := by decide
  obtain ⟨n, last, db', hrun, hn, -, hit, -⟩ := drain_finishes hreach (fun _ => hquiet) hok
  exact ⟨hremaining, n, last, db', hrun, hn, hit⟩

end BattleCloud
