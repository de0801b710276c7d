import BattleCloud.Db.Tables
import BattleCloud.Fleet.Attempts

/-!
# The fleet in the migrated schema

A statement binds its integers to `integer` columns, where one that does not fit is refused; only
`claim_job` computes one, the attempts. So in a fleet whose workers have `max_attempts ≤ M < 2^31`
and whose limiters allow fewer than `2^31` calls a window, every state of every run meets the
schema the migrations make, column by column, check by check and index by index:
`fleet_fits_schema`.
-/

namespace BattleCloud

/-! ## Bound integers -/

theorem int4_fits {n m : Int} (h : int4 n = .ok m) : Int4 m := by
  unfold int4 at h
  split at h
  · rename_i hn
    rw [← Except.ok.inj h]
    exact ⟨hn.1, hn.2⟩
  · cases h

theorem int4Of_fits {bs : List (IdentityColumn × SqlValue)} {c : IdentityColumn} {m : Int}
    (h : int4Of bs c = .ok m) : Int4 m := by
  unfold int4Of at h
  split at h
  · exact int4_fits h
  · cases h

theorem int4_zero : Int4 0 := ⟨by decide, by decide⟩

theorem integerOf_fits {j : Json} {m : Int} (h : integerOf j = .ok m) : Int4 m := by
  unfold integerOf at h
  split at h
  · exact int4_fits h
  · split at h
    · exact int4_fits h
    · cases h
  · cases h

theorem ofBindings_fits {bs : List (IdentityColumn × SqlValue)} {c : IdentityColumns}
    (h : IdentityColumns.ofBindings bs = .ok c) : c.Fits := by
  unfold IdentityColumns.ofBindings at h
  obtain ⟨_, -, h⟩ := except_bind_ok.mp h
  obtain ⟨_, -, h⟩ := except_bind_ok.mp h
  obtain ⟨_, hbudget, h⟩ := except_bind_ok.mp h
  obtain ⟨_, hsamples, h⟩ := except_bind_ok.mp h
  obtain ⟨_, hthreads, h⟩ := except_bind_ok.mp h
  obtain ⟨_, hcutoff, h⟩ := except_bind_ok.mp h
  obtain ⟨_, -, h⟩ := except_bind_ok.mp h
  obtain ⟨_, -, h⟩ := except_bind_ok.mp h
  obtain ⟨_, hseed, h⟩ := except_bind_ok.mp h
  rw [← Except.ok.inj h]
  exact ⟨int4Of_fits hbudget, int4Of_fits hsamples, int4Of_fits hthreads, int4Of_fits hcutoff,
    int4Of_fits hseed⟩

/-! ## Proposed rows -/

theorem ratingColumn_fits {o : Option (Int × Nat)} {r : Option Int}
    (h : ratingColumn o = .ok r) : ∀ n ∈ r, Int4 n := by
  cases o with
  | none =>
    rw [← Except.ok.inj h]
    intro n hn
    cases hn
  | some rating =>
    obtain ⟨m, hm, rfl⟩ := except_map_ok.mp h
    unfold integralInt4 at hm
    split at hm
    · intro n hn
      rw [← Option.some.inj hn]
      exact int4_fits hm
    · cases hm

theorem ReplayPayload.row_fits {p : ReplayPayload} {r : ReplayRow} (h : p.row = .ok r) :
    r.Fits := by
  unfold ReplayPayload.row at h
  obtain ⟨_, -, h⟩ := except_bind_ok.mp h
  obtain ⟨_, -, h⟩ := except_bind_ok.mp h
  obtain ⟨_, hrating, h⟩ := except_bind_ok.mp h
  obtain ⟨_, -, h⟩ := except_bind_ok.mp h
  obtain ⟨_, -, h⟩ := except_bind_ok.mp h
  obtain ⟨_, hbytes, h⟩ := except_bind_ok.mp h
  rw [← Except.ok.inj h]
  exact ⟨ratingColumn_fits hrating, int4_fits hbytes⟩

theorem proposedJob_fits {id : AnalysisIdentity} {profile : Profile} {t m : Int} {newId : Uuid}
    {now : Timestamptz} {j : JobRow} (h : proposedJob id profile t m newId now = .ok j) :
    j.Fits := by
  unfold proposedJob at h
  obtain ⟨_, hcolumns, h⟩ := except_bind_ok.mp h
  obtain ⟨_, hturns, h⟩ := except_bind_ok.mp h
  obtain ⟨_, hsearchMs, h⟩ := except_bind_ok.mp h
  rw [← Except.ok.inj h]
  refine ⟨ofBindings_fits hcolumns, int4_zero, fun n hn => ?_, fun n hn => ?_⟩
  · rw [← Option.some.inj hn]
    exact int4_fits hturns
  · rw [← Option.some.inj hn]
    exact int4_fits hsearchMs

theorem proposedAnalysis_fits {job : ClaimedJob} {run : AnalysisRun} {newId : Uuid}
    {now : Timestamptz} {a : AnalysisRow} (h : proposedAnalysis job run newId now = .ok a) :
    a.Fits := by
  unfold proposedAnalysis at h
  obtain ⟨_, hcolumns, h⟩ := except_bind_ok.mp h
  obtain ⟨_, -, h⟩ := except_bind_ok.mp h
  obtain ⟨_, htotal, h⟩ := except_bind_ok.mp h
  obtain ⟨_, hgradable, h⟩ := except_bind_ok.mp h
  obtain ⟨_, hwall, h⟩ := except_bind_ok.mp h
  rw [← Except.ok.inj h]
  exact ⟨ofBindings_fits hcolumns, integerOf_fits htotal, integerOf_fits hgradable,
    int4_fits hwall⟩

/-! ## Statements -/

namespace Db.Fits

variable {db db' : Db}

theorem upsertReplay {p : ReplayPayload} (h : db.Fits) (hok : upsertReplay db p = .ok db') :
    db'.Fits := by
  unfold BattleCloud.upsertReplay at hok
  obtain ⟨r, hr, hok⟩ := except_bind_ok.mp hok
  split at hok
  · rw [← Except.ok.inj hok]
    exact h
  · obtain ⟨-, rfl⟩ := Db.commit_ok.mp hok
    have hlast := List.forall_mem_singleton.mpr (ReplayPayload.row_fits hr)
    exact ⟨List.forall_mem_append.mpr ⟨h.replays, hlast⟩, h.analyses, h.jobs⟩

theorem enqueue {id : AnalysisIdentity} {profile : Profile} {t m : Int} {newId : Uuid}
    {now : Timestamptz} {j : JobRow} {created : Bool} (h : db.Fits)
    (hok : enqueue db id profile t m newId now = .ok (db', j, created)) : db'.Fits := by
  unfold BattleCloud.enqueue at hok
  obtain ⟨p, hp, hok⟩ := except_bind_ok.mp hok
  obtain ⟨-, -, hok⟩ := except_bind_ok.mp hok
  unfold insertJob at hok
  split at hok
  · cases hok
    exact h
  · obtain ⟨d, hd, he⟩ := except_map_ok.mp hok
    obtain ⟨-, rfl⟩ := Db.commit_ok.mp hd
    cases he
    have hlast := List.forall_mem_singleton.mpr (proposedJob_fits hp)
    exact ⟨h.replays, h.analyses, List.forall_mem_append.mpr ⟨h.jobs, hlast⟩⟩

/-- An update computes no integer but the attempts. -/
theorem apply (h : db.Fits) (u : JobUpdate)
    (hattempts : ∀ j ∈ (u.apply db).jobs, Int4 j.attempts) : (u.apply db).Fits := by
  refine ⟨h.replays, h.analyses, fun j' hj' => ?_⟩
  have hfits := hattempts j' hj'
  obtain ⟨j, hj, ⟨-, rfl⟩ | ⟨-, rfl⟩⟩ := Table.mem_updateWhere.mp hj'
  · have hj := h.jobs j hj
    refine ⟨?_, hfits, ?_, ?_⟩
    · rw [u.set_columns]
      exact hj.columns
    · cases u <;> exact hj.estimatedTurns
    · cases u <;> exact hj.estimatedSearchMs
  · exact h.jobs j hj

/-- The upsert keeps the row's own turns and takes what was bound for the rest. -/
theorem putAnalysis (h : db.Fits) {p : AnalysisRow} (hp : p.Fits) :
    (db.putAnalysis (written db p)).Fits := by
  have hwritten : (written db p).Fits := by
    rcases written_cases db p with ⟨-, hw⟩ | ⟨a, ha, -, hw⟩
    · rw [hw]
      exact hp
    · have ha := h.analyses a ha
      rw [hw]
      exact ⟨ha.columns, ha.totalTurns, ha.gradableTurns, hp.wallMs⟩
  refine ⟨h.replays, fun a ha => ?_, h.jobs⟩
  rcases Table.mem_put ha with rfl | ⟨ha, -⟩
  · exact hwritten
  · exact h.analyses a ha

end Db.Fits

/-! ## Steps -/

variable {s s' : Fleet} {M : Nat}

/-- **Every step keeps the numbers in their columns**, as long as the attempts stay in theirs. -/
theorem Db.Fits.step (hv : s.db.Valid) (h : s.db.Fits) {a : Action} (hst : s.step a = some s')
    (hattempts : ∀ j ∈ s'.db.jobs, Int4 j.attempts) : s'.db.Fits := by
  cases FleetStep.of_eq hst with
  | submit request build => exact h
  | spawn hfree => exact h
  | submission hsub hsubmission =>
    cases hsubmission with
    | upserted hph hok => exact h.upsertReplay hok
    | created hph hok => exact h.enqueue hok
    | joined hph hok hq => exact h.enqueue hok
    | joinedRunning hph hok hq => exact h.enqueue hok
    | _ => exact h
  | worker hw hworker =>
    cases hworker with
    | reclaimed hph hok =>
      obtain ⟨rfl, -, -⟩ := JobUpdate.run_ok hok
      exact h.apply _ hattempts
    | claimed hph hok =>
      rcases claimJob_ok (hv .jobsPkey) hok with ⟨rfl, -⟩ | ⟨j, -, -, -, rfl, -⟩
      · exact h
      · exact h.apply _ hattempts
    | failed hph hok hown =>
      obtain ⟨u, -, rfl, -⟩ := reportFailure_ok hok
      exact h.apply u hattempts
    | completed hph hok =>
      obtain ⟨p, hp, ⟨hn, -⟩ | ⟨db', hr, -, rfl, -⟩⟩ := reportSuccess_ok hok
      · cases hn
      · cases hr
        exact (h.putAnalysis (proposedAnalysis_fits hp)).apply _ hattempts
    | _ => exact h
  | heartbeat hhb hw hheartbeat =>
    cases hheartbeat with
    | renewed ha hok =>
      obtain ⟨rfl, -, -⟩ := JobUpdate.run_ok hok
      exact h.apply _ hattempts
    | _ => exact h

/-! ## The limiter -/

/-- What a limiter leaves of its table, whatever is swept. -/
structure WindowsOk (limit : Nat) (windows : List RateLimitWindow) : Prop where
  pkey : Table.Unique RateLimitWindow.key windows
  count : ∀ w ∈ windows, w.count ≤ limit

theorem WindowsOk.put {limit : Nat} {windows : List RateLimitWindow} (h : WindowsOk limit windows)
    {w : RateLimitWindow} (hw : w.count ≤ limit) :
    WindowsOk limit (Table.put RateLimitWindow.key w windows) := by
  refine ⟨h.pkey.put (fun r _ hr => hr) (fun hno => hno), fun r hr => ?_⟩
  rcases Table.mem_put hr with rfl | ⟨hr, -⟩
  · exact hw
  · exact h.count r hr

theorem WindowsOk.consume {limit : Nat} (hl : 1 ≤ limit) {windows : List RateLimitWindow}
    (h : WindowsOk limit windows) (key : String) (start : Int) :
    WindowsOk limit (consumeRateLimit windows key start limit).1 := by
  unfold consumeRateLimit
  split
  · exact h.put hl
  · split
    · rename_i hlt
      exact h.put hlt
    · exact h

theorem windowsOk_of_reachable {cfg : RateLimiterConfig} {clock : Int} {l : Limiters}
    (h : StepSystem.Reachable (Limiters.step cfg) (Limiters.init clock) l) :
    WindowsOk cfg.limit l.windows := by
  have hinit : WindowsOk cfg.limit [] := ⟨List.nodup_nil, fun w hw => absurd hw List.not_mem_nil⟩
  refine StepSystem.Reach.invariant (I := fun l => WindowsOk cfg.limit l.windows) hinit ?_ h
  intro l a l' hl _ hst
  cases a with
  | tick ms =>
    cases hst
    exact hl
  | construct =>
    cases hst
    exact hl
  | tryConsume limiter key =>
    simp only [Limiters.step] at hst
    split at hst <;> cases hst
    exact hl
  | consume i =>
    simp only [Limiters.step, Option.bind_eq_some_iff] at hst
    obtain ⟨c, -, hst⟩ := hst
    split at hst <;> cases hst
    exact hl.consume cfg.limit_pos _ _
  | resume i =>
    simp only [Limiters.step, Option.bind_eq_some_iff] at hst
    obtain ⟨c, -, last, -, hst⟩ := hst
    split at hst
    · split at hst <;> cases hst <;> exact hl
    · cases hst
  | sweep i =>
    simp only [Limiters.step, Option.bind_eq_some_iff] at hst
    obtain ⟨c, -, hst⟩ := hst
    split at hst <;> cases hst
    exact ⟨hl.pkey.filter _, fun w hw => hl.count w (List.mem_of_mem_filter hw)⟩

/-! ## Runs -/

theorem fits_of_reach (hM : 1 ≤ M) (hbound : M < 2 ^ 31)
    (h : StepSystem.Reach Fleet.step (Capped M) Fleet.init s) : s.db.Fits := by
  have hinit : Fleet.init.db.Fits := ⟨fun r hr => absurd hr List.not_mem_nil,
    fun a ha => absurd ha List.not_mem_nil, fun j hj => absurd hj List.not_mem_nil⟩
  refine StepSystem.Reach.invariant_of (I := fun s => s.db.Fits) hinit ?_ h
  intro s a s' hr hfits hcap hst
  refine hfits.step (valid_of_reachable hr.reachable) hst fun j hj => ?_
  have hle := ((bounded_of_reach hM (.next hr hcap hst)).rows j hj).le
  exact ⟨by omega, by omega⟩

/-- **The fleet lives in the migrated schema.** With every worker's `max_attempts` at most `M`
and a limit of calls a window, both below `2^31`: whatever the fleet and the limiters have done,
the tables they leave meet every column, check, key and index of the four migrations. -/
theorem fleet_fits_schema (hM : 1 ≤ M) (hbound : M < 2 ^ 31)
    (h : StepSystem.Reach Fleet.step (Capped M) Fleet.init s) {cfg : RateLimiterConfig}
    (hlimit : cfg.limit < 2 ^ 31) {clock : Int} {l : Limiters}
    (hl : StepSystem.Reachable (Limiters.step cfg) (Limiters.init clock) l) (u : Unread) :
    (s.db.database u l.windows).Valid := by
  have hwindows := windowsOk_of_reachable hl
  refine (database_valid_iff u l.windows s.db).mpr ⟨valid_of_reachable h.reachable,
    fits_of_reach hM hbound h, hwindows.pkey, fun w hw => ?_⟩
  have hcount := hwindows.count w hw
  exact ⟨by omega, by omega⟩

theorem fleet_fits_schema_reported :
    let s := Fleet.afterIf (Capped 3) Sample.reported
    let l := StepSystem.after (Limiters.step Sample.limiterConfig) (Limiters.init 5) Sample.late
    (s.db.analyses.length = 1 ∧ l.windows.length = 2) ∧
      ∀ u, (s.db.database u l.windows).Valid :=
  ⟨by decide, fleet_fits_schema (by decide) (by decide) (Fleet.reach_afterIf _ _) (by decide)
    (StepSystem.reachable_after Sample.late)⟩

end BattleCloud
