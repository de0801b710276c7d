import BattleCloud.Worker.Loop

/-!
# When a loop recovers an expired lease

A job is `running` with a lease that expired before an iteration began. `run_until_empty` reclaims
at the top of every iteration; `run_forever` reclaims only after a claim that found nothing.
`expired_recovered_iff` says exactly when the job has left its expired claim by the end of the
following iteration; while both claims find work it has not (`forever_starves`).

The claim a row is under is told by its `attempts`, which every claim increments. `Over` is what
stays true of a job once it has been taken out of a claim.
-/

namespace BattleCloud

namespace JobRow

/-- `running` with a lease that ended before an instant. -/
def expiredBy (j : JobRow) (us : Int) : Bool :=
  j.status = .running && j.leaseExpiresAt.any (· < us)

/-- Still `running` under the claim that `j` is under. -/
def SameClaim (j j' : JobRow) : Prop :=
  j'.id = j.id ∧ j'.status = .running ∧ j'.attempts = j.attempts

instance (j j' : JobRow) : Decidable (j.SameClaim j') := inferInstanceAs (Decidable (_ ∧ _ ∧ _))

theorem expired_of_expiredBy {j : JobRow} {us : Int} {now : Timestamptz}
    (h : j.expiredBy us = true) (hle : us ≤ now.us) : j.expired now = true := by
  unfold expiredBy at h
  unfold expired
  rw [Bool.and_eq_true] at h ⊢
  refine ⟨h.1, ?_⟩
  obtain ⟨l, hl, hlt⟩ := (Option.any_eq_true _ _).mp h.2
  refine (Option.any_eq_true _ _).mpr ⟨l, hl, ?_⟩
  simp only [decide_eq_true_eq] at hlt ⊢
  omega

theorem running_of_expiredBy {j : JobRow} {us : Int} (h : j.expiredBy us = true) :
    j.status = .running := by
  unfold expiredBy at h
  rw [Bool.and_eq_true, decide_eq_true_eq] at h
  exact h.1

end JobRow

/-- The job is past its `a`-th claim: it runs, if at all, under a later one. -/
def Over (id : Uuid) (a : Nat) (db : Db) : Prop :=
  ∃ j ∈ db.jobs, j.id = id ∧ a ≤ j.attempts ∧ (j.status = .running → a < j.attempts)

variable {workerId : String} {c : WorkerConfig} {t t₁ t₂ : Turn} {db db' : Db} {j : JobRow}

/-! ## Jobs past a claim -/

/-- An update leaves a job past a claim. -/
theorem JobRow.Next.over {j j' : JobRow} (h : j.Next j') {a : Nat} (hle : a ≤ j.attempts)
    (hlt : j.status = .running → a < j.attempts) :
    a ≤ j'.attempts ∧ (j'.status = .running → a < j'.attempts) := by
  cases h with
  | claim w l now hs =>
    have hnext : a < (j.claim w l now).attempts := Nat.lt_succ_of_le hle
    exact ⟨hnext.le, fun _ => hnext⟩
  | heartbeat l now hs => exact ⟨hle, fun _ => hlt hs⟩
  | complete i now hs => exact ⟨hle, fun _ => hlt hs⟩
  | fail r m k d now hs => exact ⟨hle, fun _ => hlt hs⟩
  | reclaim m now hs => exact ⟨hle, fun _ => hlt hs⟩

theorem Over.rows {id : Uuid} {a : Nat} (h : Over id a db) (hr : RowsKept db db') :
    Over id a db' := by
  obtain ⟨j, hj, hid, hle, hlt⟩ := h
  obtain ⟨j', hj', hid', rfl | hn⟩ := hr.kept j hj
  · exact ⟨j', hj', hid, hle, hlt⟩
  · exact ⟨j', hj', hid'.trans hid, hn.over hle hlt⟩

theorem Over.reach {id : Uuid} {a : Nat} {C : Db → QueueOp → Prop} (hv : db.Valid)
    (h : Over id a db) (hr : StepSystem.Reach QueueOp.step C db db') : Over id a db' := by
  refine StepSystem.Reach.invariant_of (I := Over id a) h ?_ hr
  intro s op s' hs ho _ hst
  exact ho.rows (QueueOp.step_rows (valid_of_ops hv hs.reachable) hst)

theorem Over.not_sameClaim (hv : db.Valid) (h : Over j.id j.attempts db) :
    ∀ j' ∈ db.jobs, ¬ j.SameClaim j' := by
  rintro j' hj' ⟨hid, hrun, ha⟩
  obtain ⟨k, hk, hkid, -, hlt⟩ := h
  obtain rfl : j' = k := hv.job_eq hj' hk (hid.trans hkid.symm)
  have := hlt hrun
  omega

/-! ## Jobs an operation spares -/

theorem not_ownedBy {i : Uuid} (hne : i ≠ j.id) (w : String) : j.ownedBy i w = false := by
  refine Bool.eq_false_iff.mpr fun ho => hne ?_
  exact (JobRow.ownedBy_iff.mp ho).1.symm

/-- **A running row is left alone by an operation that spares it.** -/
theorem QueueOp.step_spares (hv : db.Valid) {op : QueueOp} (hop : op.spares j.id)
    (hj : j ∈ db.jobs) (hrun : j.status = .running) (h : QueueOp.step db op = some db') :
    j ∈ db'.jobs := by
  obtain ⟨-, hd⟩ := QueueOp.step_does hv h
  cases hd with
  | nothing hjobs => exact hjobs ▸ hj
  | created hl => exact List.mem_append_left _ hj
  | claimed hk hcl =>
    refine JobUpdate.mem_apply_of_not hj (decide_eq_false fun hid => ?_)
    rw [hv.job_eq hj hk hid, (JobRow.claimable_iff.mp hcl).1] at hrun
    cases hrun
  | @updated op u hu =>
    refine JobUpdate.mem_apply_of_not hj ?_
    cases op with
    | heartbeat i w l now =>
      cases hu
      exact not_ownedBy hop w
    | complete i w a now =>
      cases hu
      exact not_ownedBy hop w
    | fail i w r m k d now =>
      cases hu
      exact not_ownedBy hop w
    | reclaim m now => exact hop.elim
    | _ => cases hu

theorem mem_of_spares {C : Db → QueueOp → Prop} (hC : ∀ d op, C d op → op.spares j.id)
    (hv : db.Valid) (hj : j ∈ db.jobs) (hrun : j.status = .running)
    (h : StepSystem.Reach QueueOp.step C db db') : j ∈ db'.jobs := by
  refine StepSystem.Reach.invariant_of (I := fun d => j ∈ d.jobs) hj ?_ h
  intro s op s' hs hm hc hst
  exact QueueOp.step_spares (valid_of_ops hv hs.reachable) (hC s op hc) hm hrun hst

/-! ## One iteration -/

theorem arrive_valid (hv : db.Valid) (as : List Arrival) : (arrive db as).Valid :=
  valid_of_ops hv (arrive_reach fun _ _ _ => trivial)

theorem mem_arrive (hv : db.Valid) (hj : j ∈ db.jobs) (hrun : j.status = .running)
    (as : List Arrival) : j ∈ (arrive db as).jobs :=
  mem_of_spares (fun _ _ h => h) hv hj hrun (arrive_reach fun d a _ => a.op_spares d j.id)

/-- A call of `run_once` is a run of the queue's operations. -/
theorem runOnce_reachable (hv : db.Valid) {found : Bool}
    (h : runOnce workerId c t db = .ok (db', found)) :
    StepSystem.Reachable QueueOp.step db db' := by
  have harr : StepSystem.Reachable QueueOp.step db (arrive db t.beforeClaim) :=
    arrive_reach fun _ _ _ => trivial
  rcases runOnce_ok (q := False) (valid_of_ops hv harr) (Nat.le_refl _) False.elim h with
    ⟨-, rfl, -⟩ | ⟨-, k, hk, hcl, hst, hops⟩
  · exact harr
  · exact (StepSystem.Reach.next harr trivial hst).trans hops.reachable

/-- It leaves alone a running row. -/
theorem mem_runOnce (hv : db.Valid) (hj : j ∈ db.jobs) (hrun : j.status = .running)
    {found : Bool} (h : runOnce workerId c t db = .ok (db', found)) : j ∈ db'.jobs := by
  have hv' := arrive_valid hv t.beforeClaim
  have hj' := mem_arrive hv hj hrun t.beforeClaim
  rcases runOnce_ok (q := False) hv' (Nat.le_refl _) False.elim h with
    ⟨-, rfl, -⟩ | ⟨-, k, hk, hcl, hst, hops⟩
  · exact hj'
  · have hne : k.id ≠ j.id := by
      intro hid
      rw [hv'.job_eq hj' hk hid.symm, (JobRow.claimable_iff.mp hcl).1] at hrun
      cases hrun
    have hspare : (QueueOp.claim workerId c.leaseSeconds c.build t.locked t.claimAt).spares j.id :=
      trivial
    exact mem_of_spares (fun _ _ hop => hop.spares _ hne) (QueueOp.step_rows hv' hst).valid
      (QueueOp.step_spares hv' hspare hj' hrun hst) hrun hops

theorem reclaimExpired_ok (h : reclaimExpired c t db = .ok db') :
    db' = (JobUpdate.reclaim c.maxAttempts t.reclaimAt).apply (arrive db t.beforeReclaim) ∧
      db'.Valid :=
  JobUpdate.apply_of_run h

theorem reclaimExpired_reachable (h : reclaimExpired c t db = .ok db') :
    StepSystem.Reachable QueueOp.step db db' := by
  have harr : StepSystem.Reachable QueueOp.step db (arrive db t.beforeReclaim) :=
    arrive_reach fun _ _ _ => trivial
  have hst : QueueOp.step (arrive db t.beforeReclaim) (.reclaim c.maxAttempts t.reclaimAt) =
      some db' := QueueOp.step_of_exec h
  exact .next harr trivial hst

/-- **A reclaim takes the job out of its expired claim.** -/
theorem reclaimExpired_over (hv : db.Valid) (hj : j ∈ db.jobs)
    (hx : j.expired t.reclaimAt = true) (h : reclaimExpired c t db = .ok db') :
    Over j.id j.attempts db' := by
  have hrun := JobRow.expired_running hx
  have hmem := Table.exists_mem_updateWhere (p := (JobUpdate.reclaim c.maxAttempts t.reclaimAt).sel)
    (f := (JobUpdate.reclaim c.maxAttempts t.reclaimAt).set)
    (mem_arrive hv hj hrun t.beforeReclaim)
  rw [(reclaimExpired_ok h).1]
  have hsel : (JobUpdate.reclaim c.maxAttempts t.reclaimAt).sel j = true := hx
  rw [if_pos hsel] at hmem
  refine ⟨_, hmem, rfl, Nat.le_refl _, fun hs => ?_⟩
  rcases j.reclaim_status c.maxAttempts t.reclaimAt with hq | ⟨hf, -⟩
  · cases hq.symm.trans hs
  · cases hf.symm.trans hs

/-- What an iteration of `run_forever` does. -/
theorem foreverIteration_ok (hv : db.Valid) {goesOn : Bool}
    (h : foreverIteration workerId c t db = .ok (db', goesOn)) :
    (Idle c t db ∧ ∃ d, runOnce workerId c t db = .ok (d, false) ∧
      reclaimExpired c t d = .ok db') ∨
    (¬ Idle c t db ∧ runOnce workerId c t db = .ok (db', true)) := by
  unfold foreverIteration at h
  obtain ⟨⟨d, found⟩, ho, h⟩ := except_bind_ok.mp h
  rcases runOnce_ok (q := False) (arrive_valid hv _) (Nat.le_refl _) False.elim ho with
    ⟨rfl, -, hidle⟩ | ⟨rfl, k, hk, hcl, -⟩
  · refine Or.inl ⟨hidle, d, ho, ?_⟩
    cases hr : reclaimExpired c t d with
    | error e => simp [hr, Except.map] at h
    | ok d' =>
      simp only [Bool.false_eq_true, if_false, hr, Except.map, Except.ok.injEq,
        Prod.mk.injEq] at h
      rw [h.1]
  · refine Or.inr ⟨fun hidle => ?_, ?_⟩
    · rw [hidle k hk] at hcl
      cases hcl
    · simp only [if_true, Except.ok.injEq, Prod.mk.injEq] at h
      rw [ho, h.1]

theorem iteration_reachable (hv : db.Valid) {goesOn : Bool}
    (h : iteration workerId c t db = .ok (db', goesOn)) :
    StepSystem.Reachable QueueOp.step db db' := by
  unfold iteration at h
  split at h
  · obtain ⟨d, hd, ho⟩ := except_bind_ok.mp h
    exact (reclaimExpired_reachable hd).trans (runOnce_reachable (reclaimExpired_ok hd).2 ho)
  · rcases foreverIteration_ok hv h with ⟨-, d, ho, hr⟩ | ⟨-, ho⟩
    · exact (runOnce_reachable hv ho).trans (reclaimExpired_reachable hr)
    · exact runOnce_reachable hv ho

/-- `run_until_empty` recovers the job within the iteration. -/
theorem drain_over (hm : c.mode = .drain) (hv : db.Valid) {goesOn : Bool}
    (h : iteration workerId c t db = .ok (db', goesOn)) (hj : j ∈ db.jobs)
    (hx : j.expired t.reclaimAt = true) : Over j.id j.attempts db' := by
  simp only [iteration, hm] at h
  obtain ⟨d, hd, ho⟩ := except_bind_ok.mp h
  have hvd := (reclaimExpired_ok hd).2
  exact (reclaimExpired_over hv hj hx hd).reach hvd (runOnce_reachable hvd ho)

/-- So does `run_forever` in an iteration whose claim finds nothing. -/
theorem forever_idle_over (hm : c.mode = .forever) (hv : db.Valid) (hidle : Idle c t db)
    {goesOn : Bool} (h : iteration workerId c t db = .ok (db', goesOn)) (hj : j ∈ db.jobs)
    (hx : j.expired t.reclaimAt = true) : Over j.id j.attempts db' := by
  simp only [iteration, hm] at h
  rcases foreverIteration_ok hv h with ⟨-, d, ho, hr⟩ | ⟨hbusy, -⟩
  · have hvd := valid_of_ops hv (runOnce_reachable hv ho)
    exact reclaimExpired_over hvd (mem_runOnce hv hj (JobRow.expired_running hx) ho) hx hr
  · exact absurd hidle hbusy

/-- An iteration of `run_forever` whose claim finds a job leaves every running one alone. -/
theorem forever_busy_mem (hm : c.mode = .forever) (hv : db.Valid) (hbusy : ¬ Idle c t db)
    {goesOn : Bool} (h : iteration workerId c t db = .ok (db', goesOn)) (hj : j ∈ db.jobs)
    (hrun : j.status = .running) : j ∈ db'.jobs := by
  simp only [iteration, hm] at h
  rcases foreverIteration_ok hv h with ⟨hidle, -⟩ | ⟨-, ho⟩
  · exact absurd hidle hbusy
  · exact mem_runOnce hv hj hrun ho

/-! ## Runs of a loop -/

theorem LoopState.step_ok {s s' : LoopState} (h : s.step workerId c t = some s') :
    ∃ goesOn, iteration workerId c t s.db = .ok (s'.db, goesOn) := by
  unfold LoopState.step at h
  split at h
  · cases h
  · split at h
    · rename_i db goesOn hok
      cases h
      exact ⟨goesOn, hok⟩
    · cases h

theorem valid_of_loop {db₀ : Db} (hv : db₀.Valid) {s : LoopState}
    (h : StepSystem.Reachable (LoopState.step workerId c) ⟨db₀, false⟩ s) : s.db.Valid := by
  refine StepSystem.Reach.invariant (I := fun s : LoopState => s.db.Valid) hv ?_ h
  intro s t s' hs _ hst
  obtain ⟨goesOn, hok⟩ := LoopState.step_ok hst
  exact valid_of_ops hs (iteration_reachable hs hok)

/-- **When an expired lease is recovered.** In every run of either loop from tables that satisfy
the schema, with any arrivals, take a job that is running with an expired lease when an iteration
begins. `run_until_empty` takes it out of that claim within the iteration. By the end of the
following iteration it has left the claim exactly if the loop is `run_until_empty`, or one of the
two claims found nothing. -/
theorem expired_recovered_iff {db₀ : Db} (hv : db₀.Valid) {s s₁ : LoopState}
    (h : StepSystem.Reachable (LoopState.step workerId c) ⟨db₀, false⟩ s)
    (h₁ : s.step workerId c t₁ = some s₁) (hj : j ∈ s.db.jobs)
    (hx : j.expiredBy t₁.begins = true) :
    (c.mode = .drain → ∀ j' ∈ s₁.db.jobs, ¬ j.SameClaim j') ∧
    ∀ t₂ s₂, s₁.step workerId c t₂ = some s₂ → t₁.begins ≤ t₂.begins →
      ((∀ j' ∈ s₂.db.jobs, ¬ j.SameClaim j') ↔
        c.mode = .drain ∨ Idle c t₁ s.db ∨ Idle c t₂ s₁.db) := by
  have hvs := valid_of_loop hv h
  obtain ⟨b₁, hi₁⟩ := LoopState.step_ok h₁
  have hv₁ := valid_of_ops hvs (iteration_reachable hvs hi₁)
  have hrun := JobRow.running_of_expiredBy hx
  have hx₁ := JobRow.expired_of_expiredBy hx t₁.begins_le
  refine ⟨fun hm => (drain_over hm hvs hi₁ hj hx₁).not_sameClaim hv₁, fun t₂ s₂ h₂ ht => ?_⟩
  obtain ⟨b₂, hi₂⟩ := LoopState.step_ok h₂
  have hops₂ := iteration_reachable hv₁ hi₂
  have hv₂ := valid_of_ops hv₁ hops₂
  have hx₂ := JobRow.expired_of_expiredBy hx (ht.trans t₂.begins_le)
  cases hm : c.mode with
  | drain =>
    refine ⟨fun _ => Or.inl rfl, fun _ => ?_⟩
    exact ((drain_over hm hvs hi₁ hj hx₁).reach hv₁ hops₂).not_sameClaim hv₂
  | forever =>
    by_cases hidle₁ : Idle c t₁ s.db
    · refine ⟨fun _ => Or.inr (Or.inl hidle₁), fun _ => ?_⟩
      exact ((forever_idle_over hm hvs hidle₁ hi₁ hj hx₁).reach hv₁ hops₂).not_sameClaim hv₂
    · have hj₁ := forever_busy_mem hm hvs hidle₁ hi₁ hj hrun
      by_cases hidle₂ : Idle c t₂ s₁.db
      · refine ⟨fun _ => Or.inr (Or.inr hidle₂), fun _ => ?_⟩
        exact (forever_idle_over hm hv₁ hidle₂ hi₂ hj₁ hx₂).not_sameClaim hv₂
      · -- both claims found work: the row is still there as it was
        have hj₂ := forever_busy_mem hm hv₁ hidle₂ hi₂ hj₁ hrun
        refine ⟨fun hleft => absurd ⟨rfl, hrun, rfl⟩ (hleft j hj₂), fun hcond => ?_⟩
        rcases hcond with hd | hi | hi
        · cases hd
        · exact absurd hi hidle₁
        · exact absurd hi hidle₂

/-! ## Both ways -/

namespace Sample

def poller : WorkerConfig := { config with mode := .forever }

def storedReplay : ReplayRow := ⟨"gen9ou-2672927430", "gen9ou", none, .arr [], "|turn|1", 7⟩

/-- One worker has died with a job, and two more jobs are queued. -/
def deadOps : List QueueOp :=
  [.elsewhere [storedReplay] [], .enqueue quick .quick 1 200 7 dawn,
    .claim "host/dead" 900 build [] dawn,
    .enqueue { quick with perspective := .p1 } .quick 1 200 8 dawn,
    .enqueue { quick with seed := 1 } .quick 1 200 9 dawn]

def dead : Db := StepSystem.after QueueOp.step Db.empty deadOps

/-- An iteration in the evening, long after the lease has ended. -/
def eveningTurn : Turn :=
  { begins := evening.us, beforeReclaim := [], reclaimAt := evening, beforeClaim := [],
    locked := [], claimAt := evening, beforeLoad := [], renewals := [], lateRenewals := [],
    outcome := .error ⟨.analysisRejected, "no turns"⟩, beforeReport := [], newId := 11,
    reportAt := evening, begins_le := Int.le_refl _ }

def pollerStates (n : Nat) : LoopState :=
  StepSystem.after (LoopState.step "host/1" poller) ⟨dead, false⟩ (List.replicate n eveningTurn)

end Sample

/-- After two busy iterations the third finds the queue empty, and the job is recovered. -/
theorem expired_recovered_third :
    ∃ j ∈ (Sample.pollerStates 1).db.jobs, j.expiredBy Sample.eveningTurn.begins = true ∧
      ∀ j' ∈ (Sample.pollerStates 3).db.jobs, ¬ j.SameClaim j' := by
  have hv : Sample.dead.Valid := valid_of_ops Db.valid_empty (StepSystem.reachable_after _)
  have hex : ∃ j ∈ (Sample.pollerStates 1).db.jobs,
      j.expiredBy Sample.eveningTurn.begins = true := by decide
  obtain ⟨j, hj, hx⟩ := hex
  have hstep : (Sample.pollerStates 1).step "host/1" Sample.poller Sample.eveningTurn =
      some (Sample.pollerStates 2) := rfl
  have hrec := expired_recovered_iff hv
    (StepSystem.reachable_after (List.replicate 1 Sample.eveningTurn)) hstep hj hx
  exact ⟨j, hj, hx, (hrec.2 Sample.eveningTurn (Sample.pollerStates 3) rfl (Int.le_refl _)).mpr
    (Or.inr (Or.inr (by decide)))⟩

/-- While the claims find work, `run_forever` passes the dead worker's job over. -/
theorem forever_starves :
    ¬ ∀ workerId c db₀, StepSystem.Reachable QueueOp.step Db.empty db₀ →
      ∀ s, StepSystem.Reachable (LoopState.step workerId c) ⟨db₀, false⟩ s →
      ∀ t₁ s₁ t₂ s₂, s.step workerId c t₁ = some s₁ → s₁.step workerId c t₂ = some s₂ →
      t₁.begins ≤ t₂.begins → ∀ j ∈ s.db.jobs, j.expiredBy t₁.begins = true →
      ∀ j' ∈ s₂.db.jobs, ¬ j.SameClaim j' := by
  intro h
  have hex : ∃ j ∈ (Sample.pollerStates 0).db.jobs,
      j.expiredBy Sample.eveningTurn.begins = true ∧
      ∃ j' ∈ (Sample.pollerStates 2).db.jobs, j.SameClaim j' := by decide
  obtain ⟨j, hj, hx, j', hj', hsame⟩ := hex
  exact h "host/1" Sample.poller Sample.dead (StepSystem.reachable_after _)
    (Sample.pollerStates 0) .init Sample.eveningTurn (Sample.pollerStates 1) Sample.eveningTurn
    (Sample.pollerStates 2) rfl rfl (Int.le_refl _) j hj hx j' hj' hsame

end BattleCloud
