import BattleCloud.Worker.Drain

/-!
# The queue is first in, first out

`claim_job` orders by `created_at, id`, but a failed or abandoned job goes back to the place it
had, ahead of what came after it, and `SKIP LOCKED` passes over a row another transaction holds.
What is bounded is how often a waiting job can be passed over: `ahead` adds up, over the live jobs
of its build in front of it, the claims the cap still allows. Every claim of the build takes the
waiting job or lowers that sum (`claims_before_turn`).

The condition on a run (`InTurn`) is that no claim finds the waiting row locked and no later job is
given an earlier place.
-/

namespace BattleCloud

/-! ## The order -/

theorem JobRow.before_iff {j k : JobRow} : j.before k = true ↔
    j.createdAt.us < k.createdAt.us ∨
      (j.createdAt.us = k.createdAt.us ∧ j.id.val < k.id.val) := by
  simp only [JobRow.before, Bool.or_eq_true, Bool.and_eq_true, decide_eq_true_eq, Fin.lt_def]

theorem JobRow.before_asymm {j k : JobRow} (h : j.before k = true) : k.before j = false := by
  rw [Bool.eq_false_iff, Ne, JobRow.before_iff]
  rw [JobRow.before_iff] at h
  omega

theorem JobRow.before_total {j k : JobRow} (h : k.before j = false) (hne : j.id ≠ k.id) :
    j.before k = true := by
  rw [Bool.eq_false_iff, Ne, JobRow.before_iff] at h
  rw [JobRow.before_iff]
  have := Fin.val_ne_of_ne hne
  omega

/-- What is not before the first is not before anything after it. -/
theorem JobRow.not_before_trans {i j k : JobRow} (hij : i.before j = false)
    (hjk : j.before k = false) : i.before k = false := by
  rw [Bool.eq_false_iff, Ne, JobRow.before_iff] at *
  omega

/-- `LIMIT 1` takes a row that no other is before. -/
theorem firstBefore_first {j : JobRow} :
    ∀ {js : List JobRow}, firstBefore js = some j → ∀ k ∈ js, k.before j = false
  | [], h => by cases h
  | i :: is, h => by
    have hself : ∀ m : JobRow, m.before m = false := fun m => by
      rw [Bool.eq_false_iff, Ne, JobRow.before_iff]
      omega
    simp only [firstBefore] at h
    split at h
    · rename_i hnone
      obtain rfl := Option.some.inj h
      rw [firstBefore_eq_none.mp hnone]
      exact List.forall_mem_singleton.mpr (hself i)
    · rename_i m hm
      have hrest := firstBefore_first hm
      split at h
      · rename_i hbefore
        obtain rfl := Option.some.inj h
        exact List.forall_mem_cons.mpr ⟨JobRow.before_asymm hbefore, hrest⟩
      · rename_i hbefore
        obtain rfl := Option.some.inj h
        refine List.forall_mem_cons.mpr ⟨hself i, fun k hk => ?_⟩
        exact JobRow.not_before_trans (hrest k hk) (Bool.eq_false_iff.mpr hbefore)

/-! ## What a claim costs -/

/-- The claims made of the jobs of a build: `attempts` counts those of each. -/
def claimsOf (build : EngineBuild) (db : Db) : Nat :=
  (db.jobs.map fun k => if k.build = build then k.attempts else 0).sum

/-- The claims the cap still allows of the live jobs of the job's build in front of it. -/
def ahead (M : Nat) (j : JobRow) (db : Db) : Nat :=
  (db.jobs.map fun k => if k.before j then k.allowance M j.build else 0).sum

/-- Nobody passes over the row, and nothing is put in front of it. -/
def InTurn (M : Nat) (j : JobRow) (_ : Db) (op : QueueOp) : Prop :=
  op.capped M ∧
  match op with
  | .claim _ _ build locked _ => build = j.build → j.id ∉ locked
  | .enqueue _ _ _ _ newId now =>
    ¬(now.us < j.createdAt.us ∨ (now.us = j.createdAt.us ∧ newId.val < j.id.val))
  | _ => True

instance (M : Nat) (j : JobRow) (db : Db) (op : QueueOp) : Decidable (InTurn M j db op) :=
  match op with
  | .claim .. | .enqueue .. => inferInstanceAs (Decidable (_ ∧ (_ → _)))
  | .heartbeat .. | .complete .. | .fail .. | .reclaim .. | .elsewhere .. =>
    inferInstanceAs (Decidable (_ ∧ True))

variable {M : Nat} {j k k' : JobRow} {db db' : Db}

/-- A row's part of both sums. -/
def JobRow.share (M : Nat) (k j : JobRow) : Nat :=
  (if k.build = j.build then k.attempts else 0) + if k.before j then k.allowance M j.build else 0

theorem claimsOf_add_ahead (M : Nat) (j : JobRow) (db : Db) :
    claimsOf j.build db + ahead M j db = (db.jobs.map fun k => k.share M j).sum :=
  List.sum_map_add.symm

/-- What is no claim leaves the attempts and the place in the queue. -/
theorem JobUpdate.share_le {u : JobUpdate} (hu : u.isClaim = false) (h : k.Next (u.set k)) :
    (u.set k).share M j ≤ k.share M j := by
  have hallowance := h.allowance_le (M := M) (b := j.build)
  have hbefore : (u.set k).before j = k.before j := by cases u <;> rfl
  unfold JobRow.share
  rw [h.build_eq, JobUpdate.set_attempts hu, hbefore]
  split
  · split <;> omega
  · split <;> omega

/-- **A claim of a row in front** is one more made and one less allowed. -/
theorem AttemptsOk.claim_share_le (hok : AttemptsOk M k) (hq : k.status = .queued)
    (hfront : k.build = j.build → k.before j = true) (w : String) (l : Nat) (now : Timestamptz) :
    (k.claim w l now).share M j ≤ k.share M j := by
  have hlt := hok.queued hq
  have hlive : k.live = true := by simp [JobRow.live, hq]
  have hbuild : (k.claim w l now).build = k.build := rfl
  have hbefore : (k.claim w l now).before j = k.before j := rfl
  have hattempts : (k.claim w l now).attempts = k.attempts + 1 := rfl
  have hlive' : (k.claim w l now).live = true := rfl
  unfold JobRow.share JobRow.allowance
  rw [hbuild, hbefore, hattempts, hlive, hlive']
  by_cases hb : k.build = j.build
  · simp only [hb, hfront hb, and_self, if_true]
    omega
  · simp only [hb, and_false, if_false]
    exact Nat.le_refl _

/-! ## One statement -/

/-- The row waits, and the two sums have not grown. -/
structure Waits (M : Nat) (j : JobRow) (bound : Nat) (db : Db) : Prop where
  mem : j ∈ db.jobs
  le : claimsOf j.build db + ahead M j db ≤ bound

/-- A row that was queued has been claimed. -/
def Claimed (j : JobRow) (db : Db) : Prop := ∃ j' ∈ db.jobs, j'.id = j.id ∧ j.attempts < j'.attempts

theorem Waits.of_sum_le {bound : Nat} (h : Waits M j bound db) (hmem : j ∈ db'.jobs)
    (hle : (db'.jobs.map fun k => k.share M j).sum ≤ (db.jobs.map fun k => k.share M j).sum) :
    Waits M j bound db' := by
  refine ⟨hmem, ?_⟩
  rw [claimsOf_add_ahead]
  exact hle.trans (claimsOf_add_ahead M j db ▸ h.le)

/-- What the claim takes: the waiting row, or one of another build, or one in front of it. -/
theorem nextClaimable_inTurn {build : EngineBuild} {locked : List Uuid}
    (hj : j ∈ db.jobs) (hq : j.status = .queued) (hfree : build = j.build → j.id ∉ locked)
    (hk : nextClaimable db build locked = some k) (hne : k.id ≠ j.id)
    (hb : k.build = j.build) : k.before j = true := by
  obtain ⟨-, htag, hset, -⟩ := JobRow.claimable_iff.mp (nextClaimable_some hk).2
  have hbuild : build = j.build := by
    rw [← hb, JobRow.build, htag, hset]
  have hclaimable : j.claimable build locked = true :=
    JobRow.claimable_iff.mpr ⟨hq, by rw [hbuild]; rfl, by rw [hbuild]; rfl, hfree hbuild⟩
  have hfirst := firstBefore_first hk j (List.mem_filter.mpr ⟨hj, hclaimable⟩)
  exact JobRow.before_total hfirst hne

/-- What `claim_job` does as an operation. -/
theorem QueueOp.step_claim {w : String} {l : Nat} {build : EngineBuild} {locked : List Uuid}
    {now : Timestamptz} (h : QueueOp.step db (.claim w l build locked now) = some db') :
    db' = db ∨ ∃ k, nextClaimable db build locked = some k ∧
      db' = (JobUpdate.claim k.id w l now).apply db := by
  rw [QueueOp.step, QueueOp.exec, claimJob] at h
  split at h
  · rename_i hok
    obtain rfl := Option.some.inj h
    split at hok
    · cases hok
      exact Or.inl rfl
    · rename_i k hk
      obtain ⟨r, hr, rfl⟩ := except_map_ok.mp hok
      obtain ⟨r', hr', rfl⟩ := except_map_ok.mp hr
      exact Or.inr ⟨k, hk, (JobUpdate.run_ok hr').1⟩
  · exact Or.inl (Option.some.inj h).symm

/-- A queued row is written by a claim only. -/
theorem JobUpdate.sel_queued {u : JobUpdate} (hu : u.isClaim = false) (hq : j.status = .queued) :
    u.sel j = false := by
  by_contra hs
  have hsel := eq_true_of_ne_false hs
  have hrunning : j.status = .running := by
    cases u with
    | claim => cases hu
    | reclaim m now => exact JobRow.expired_running hsel
    | _ => exact (JobRow.ownedBy_iff.mp hsel).2.1
  rw [hq] at hrunning
  cases hrunning

theorem Waits.claim {bound : Nat} (hv : db.Valid) (hok : ∀ k ∈ db.jobs, AttemptsOk M k)
    (hq : j.status = .queued) (h : Waits M j bound db) {w : String} {l : Nat}
    {build : EngineBuild} {locked : List Uuid} {now : Timestamptz}
    (hfree : build = j.build → j.id ∉ locked) (hk : nextClaimable db build locked = some k) :
    Claimed j ((JobUpdate.claim k.id w l now).apply db) ∨
      Waits M j bound ((JobUpdate.claim k.id w l now).apply db) := by
  obtain ⟨hmem, hclaimable⟩ := nextClaimable_some hk
  have hqk := (JobRow.claimable_iff.mp hclaimable).1
  by_cases hid : k.id = j.id
  · obtain rfl := hv.job_eq hmem h.mem hid
    refine Or.inl ⟨k.claim w l now, ?_, rfl, Nat.lt_succ_self _⟩
    exact Table.mem_updateWhere.mpr ⟨k, hmem, Or.inl ⟨decide_eq_true rfl, rfl⟩⟩
  · refine Or.inr (h.of_sum_le ?_ ?_)
    · exact JobUpdate.mem_apply_of_not h.mem (decide_eq_false (Ne.symm hid))
    · refine Table.sum_updateWhere_le fun i hi hs => ?_
      obtain rfl := hv.job_eq hi hmem (of_decide_eq_true hs)
      exact (hok i hi).claim_share_le hqk
        (nextClaimable_inTurn h.mem hq hfree hk hid) w l now

/-- **One operation**: the waiting row is claimed, or it waits on within the bound. -/
theorem Waits.step {bound : Nat} (hv : db.Valid) (hok : ∀ k ∈ db.jobs, AttemptsOk M k)
    (hq : j.status = .queued) (h : Waits M j bound db) {op : QueueOp} (hc : InTurn M j db op)
    (hst : QueueOp.step db op = some db') : Claimed j db' ∨ Waits M j bound db' := by
  obtain ⟨-, hd⟩ := QueueOp.step_does hv hst
  cases hd with
  | nothing hjobs => exact Or.inr (h.of_sum_le (hjobs ▸ h.mem) (hjobs ▸ Nat.le_refl _))
  | @created id p t m newId now hl =>
    refine Or.inr (h.of_sum_le (List.mem_append_left _ h.mem) ?_)
    have hbefore : (JobRow.fresh newId id.columns p t m now).before j = false := by
      rw [Bool.eq_false_iff, Ne, JobRow.before_iff]
      exact hc.2
    have hshare : (JobRow.fresh newId id.columns p t m now).share M j = 0 := by
      unfold JobRow.share
      rw [hbefore]
      exact ite_self 0
    rw [List.map_append, List.sum_append, List.map_singleton, List.sum_singleton, hshare]
    exact Nat.le_refl _
  | claimed hj hcl =>
    rcases QueueOp.step_claim hst with hnone | ⟨k, hk, hclaim⟩
    · rw [hnone]
      exact Or.inr h
    · rw [hclaim]
      exact h.claim hv hok hq hc.2 hk
  | updated hu =>
    have hclaim := QueueOp.isClaim_of_update hu
    refine Or.inr (h.of_sum_le ?_ ?_)
    · exact JobUpdate.mem_apply_of_not h.mem (JobUpdate.sel_queued hclaim hq)
    · exact Table.sum_updateWhere_le fun k hk hs =>
        JobUpdate.share_le hclaim (JobUpdate.next_of_sel hclaim k hk hs)

theorem Claimed.step (hv : db.Valid) (h : Claimed j db) {op : QueueOp}
    (hst : QueueOp.step db op = some db') : Claimed j db' := by
  obtain ⟨k, hk, hid, hlt⟩ := h
  obtain ⟨k', hk', hid', rfl | hnext⟩ := (QueueOp.step_rows hv hst).kept k hk
  · exact ⟨k', hk', hid, hlt⟩
  · exact ⟨k', hk', hid'.trans hid, hlt.trans_le hnext.attempts_le⟩

/-! ## Runs -/

/-- **No job starves.** While nobody finds it locked and nothing is put in front of it, a queued
job is claimed before its build has seen more claims than the cap allows of the jobs in front. -/
theorem claims_before_turn (hM : 1 ≤ M)
    (h : StepSystem.Reach QueueOp.step (fun _ op => op.capped M) Db.empty db) (hj : j ∈ db.jobs)
    (hq : j.status = .queued) (hr : StepSystem.Reach QueueOp.step (InTurn M j) db db') :
    (∃ j' ∈ db'.jobs, j'.id = j.id ∧ j.attempts < j'.attempts) ∨
      (j ∈ db'.jobs ∧
        claimsOf j.build db' + ahead M j db' ≤ claimsOf j.build db + ahead M j db) := by
  have hwaits : Claimed j db' ∨ Waits M j (claimsOf j.build db + ahead M j db) db' := by
    refine StepSystem.Reach.invariant_of
      (I := fun d => Claimed j d ∨ Waits M j (claimsOf j.build db + ahead M j db) d)
      (Or.inr ⟨hj, Nat.le_refl _⟩) ?_ hr
    intro d op d' hd hI hc hst
    have hcapped := h.trans (hd.imp fun _ _ hturn => hturn.1)
    have hv := valid_of_ops Db.valid_empty hcapped.reachable
    rcases hI with hclaimed | hwaits
    · exact Or.inl (hclaimed.step hv hst)
    · exact hwaits.step hv (attemptsOk_of_ops hM hcapped) hq hc hst
  exact hwaits.imp_right fun hw => ⟨hw.mem, hw.le⟩

namespace Sample

/-- One job behind another. -/
def behindOps : List QueueOp :=
  [.enqueue quick .quick 2 400 7 dawn,
    .enqueue { quick with replayId := "gen9ou-2672927431" } .quick 2 400 8 dawn]

/-- The first is claimed, and fails, three times. -/
def attemptOps : List QueueOp :=
  [.claim "host/1" 900 build [] dawn, .fail 7 "host/1" true 3 .engineDataMissing "no file" dawn]

def behind : Db := StepSystem.afterIf QueueOp.step (fun _ op => op.capped 3) Db.empty behindOps

def waiting : JobRow :=
  JobRow.fresh 8 { quick with replayId := "gen9ou-2672927431" : AnalysisIdentity }.columns .quick 2
    400 dawn

def attempted : Db := StepSystem.afterIf QueueOp.step (InTurn 3 waiting) behind
  (attemptOps ++ attemptOps ++ attemptOps)

end Sample

/-- The job behind has waited for the three attempts of the first and is next. -/
theorem claims_before_turn_behind :
    claimsOf Sample.build Sample.attempted = 3 ∧ ahead 3 Sample.waiting Sample.attempted = 0 ∧
    ((∃ j' ∈ Sample.attempted.jobs, j'.id = Sample.waiting.id ∧
        Sample.waiting.attempts < j'.attempts) ∨
      (Sample.waiting ∈ Sample.attempted.jobs ∧
        claimsOf Sample.waiting.build Sample.attempted + ahead 3 Sample.waiting Sample.attempted ≤
          claimsOf Sample.waiting.build Sample.behind + ahead 3 Sample.waiting Sample.behind)) :=
  ⟨by decide, by decide, claims_before_turn (by decide) (StepSystem.reach_afterIf Sample.behindOps)
    (List.mem_of_getElem? (i := 1) rfl) rfl (StepSystem.reach_afterIf _)⟩

end BattleCloud
