import BattleCloud.Api.Views

/-!
# What a refusal of the limiter says

That the client used its window up (`refused_after_limit`): over the instances of
`Api.RateLimiter`, each with a clock of its own here. A sweep deletes a row and what it counted,
never the calls that were allowed, so a row counts at most those.

And when to come back (`retry_after_iff`). `retryAfterSeconds` reads the clock again after
`tryConsume`: the header is about the refusing window exactly when that window is still open then.
-/

namespace BattleCloud

variable {cfg : RateLimiterConfig} {s s' : Limiters}

/-! ## Clocks that disagree -/

/-- A step of an instance whose clock shows `time`. -/
def Limiters.stepAt (cfg : RateLimiterConfig) (s : Limiters) (a : Int × LimiterAction) :
    Option Limiters :=
  ({ s with clock := a.1 } : Limiters).step cfg a.2

/-- The rows count within the limit, and no call that was not allowed. -/
def Limiters.CountsGrants (cfg : RateLimiterConfig) (s : Limiters) : Prop :=
  ∀ r ∈ s.windows, r.count ≤ cfg.limit ∧ r.count ≤ s.granted cfg r.key

/-- A row that a consume statement leaves was there, or is the one of its window, with one more
allowed call than it counted. -/
theorem mem_consumeRateLimit {windows : List RateLimitWindow} {key : String} {w : Int}
    {limit : Nat} (hl : 1 ≤ limit) {r : RateLimitWindow}
    (hr : r ∈ (consumeRateLimit windows key w limit).1) :
    r ∈ windows ∨ (consumeRateLimit windows key w limit).2 = true ∧ r.key = (key, w) ∧
      r.count ≤ limit ∧ (r.count = 1 ∨ ∃ old ∈ windows, old.key = (key, w) ∧
        r.count = old.count + 1) := by
  unfold consumeRateLimit at hr ⊢
  cases hget : Table.get RateLimitWindow.key (key, w) windows with
  | none =>
    simp only [hget] at hr ⊢
    rcases Table.mem_put hr with rfl | ⟨hr, -⟩
    · exact .inr ⟨trivial, rfl, hl, .inl rfl⟩
    · exact .inl hr
  | some old =>
    simp only [hget] at hr ⊢
    have hmem := List.mem_of_find?_eq_some hget
    have hkey : old.key = (key, w) := Table.key_of_get hget
    by_cases hlt : old.count < limit
    · simp only [if_pos hlt] at hr ⊢
      rcases Table.mem_put hr with rfl | ⟨hr, -⟩
      · exact .inr ⟨trivial, rfl, hlt, .inr ⟨old, hmem, hkey, rfl⟩⟩
      · exact .inl hr
    · simp only [if_neg hlt] at hr
      exact .inl hr

/-- What a refusal leaves, and what it found. -/
theorem consumeRateLimit_refused {windows : List RateLimitWindow} {key : String} {w : Int}
    {limit : Nat} (hl : 1 ≤ limit) (h : (consumeRateLimit windows key w limit).2 = false) :
    (consumeRateLimit windows key w limit).1 = windows ∧
      ∃ r ∈ windows, r.key = (key, w) ∧ limit ≤ r.count := by
  rcases consumeRateLimit_cases windows key w hl with ⟨n, -, ht, -⟩ | ⟨heq, r, hr, hfull⟩
  · rw [h] at ht
    cases ht
  · exact ⟨by rw [heq], r, List.mem_of_find?_eq_some hr, Table.key_of_get hr, hfull⟩

/-! ## One step -/

/-- A call that moves on stays allowed. -/
theorem granted_le_set {i : Nat} {c : ConsumeCall} (hc : s.calls[i]? = some c) {ph : ConsumePhase}
    (ha : c.phase.allowed = true → ph.allowed = true) {w : List RateLimitWindow} {l : List Int}
    (k : String × Int) :
    s.granted cfg k ≤
      (Limiters.mk s.clock w l (s.calls.set i { c with phase := ph })).granted cfg k := by
  have hg := @granted_set cfg s i c hc ph w l k
  by_cases hk : c.window cfg = k
  · cases hph : c.phase.allowed with
    | false =>
      simp only [hk, hph, Bool.false_eq_true, and_false, if_false, Nat.add_zero] at hg
      omega
    | true =>
      simp only [hk, hph, ha hph, and_true, if_true] at hg
      omega
  · simp only [hk, false_and, if_false, Nat.add_zero] at hg
    omega

/-- **A consume statement** counts a call in the row of its window only when it allows it. -/
theorem Limiters.CountsGrants.consume (h : s.CountsGrants cfg) {i : Nat} {c : ConsumeCall}
    (hc : s.calls[i]? = some c) (hph : c.phase = .consuming) :
    (Limiters.mk s.clock (consumeRateLimit s.windows c.key (cfg.windowStart c.time) cfg.limit).1
      s.lastSweep (s.calls.set i { c with
        phase := (.consumed (consumeRateLimit s.windows c.key (cfg.windowStart c.time)
          cfg.limit).2) })).CountsGrants cfg := by
  intro r hr
  have hwaits : c.phase.allowed = true →
      (ConsumePhase.consumed (consumeRateLimit s.windows c.key (cfg.windowStart c.time)
        cfg.limit).2).allowed = true := by
    rw [hph]
    exact nofun
  rcases mem_consumeRateLimit cfg.limit_pos hr with hold | ⟨htrue, hkey, hlimit, hcount⟩
  · exact ⟨(h r hold).1, Nat.le_trans (h r hold).2 (granted_le_set hc hwaits _)⟩
  · refine ⟨hlimit, ?_⟩
    have hg := @granted_set cfg s i c hc (.consumed true)
      (consumeRateLimit s.windows c.key (cfg.windowStart c.time) cfg.limit).1 s.lastSweep r.key
    have hown : c.window cfg = r.key := hkey.symm
    simp only [hown, hph, ConsumePhase.allowed, Bool.false_eq_true, and_false, if_false,
      and_self, if_true, Nat.add_zero] at hg
    rw [htrue, hg]
    rcases hcount with hone | ⟨old, hmem, hk, hsucc⟩
    · omega
    · have hle := (h old hmem).2
      rw [hk, ← hkey] at hle
      omega

/-- A call that moves on without a statement of its own on the rows it leaves. -/
theorem Limiters.CountsGrants.move (h : s.CountsGrants cfg) {i : Nat} {c : ConsumeCall}
    (hc : s.calls[i]? = some c) {ph : ConsumePhase}
    (ha : c.phase.allowed = true → ph.allowed = true) {w : List RateLimitWindow} {l : List Int}
    (hw : ∀ r ∈ w, r ∈ s.windows) :
    (Limiters.mk s.clock w l (s.calls.set i { c with phase := ph })).CountsGrants cfg :=
  fun r hr => ⟨(h r (hw r hr)).1, Nat.le_trans (h r (hw r hr)).2 (granted_le_set hc ha _)⟩

theorem Limiters.CountsGrants.step (h : s.CountsGrants cfg) {a : LimiterAction}
    (hst : s.step cfg a = some s') : s'.CountsGrants cfg := by
  cases a with
  | tick ms =>
    cases hst
    exact h
  | construct =>
    cases hst
    exact h
  | tryConsume limiter key =>
    simp only [Limiters.step] at hst
    split at hst
    · cases hst
      intro r hr
      refine ⟨(h r hr).1, Nat.le_trans (h r hr).2 ?_⟩
      unfold Limiters.granted
      rw [List.countP_append]
      exact Nat.le_add_right _ _
    · cases hst
  | consume i =>
    simp only [Limiters.step, Option.bind_eq_some_iff] at hst
    obtain ⟨c, hc, hst⟩ := hst
    split at hst
    · rename_i hph
      cases hst
      exact h.consume hc hph
    · cases hst
  | resume i =>
    simp only [Limiters.step, Option.bind_eq_some_iff] at hst
    obtain ⟨c, hc, last, -, hst⟩ := hst
    split at hst
    · rename_i allowed hph
      split at hst
      · cases hst
        exact h.move hc (by rw [hph]; exact id) fun _ => id
      · cases hst
        exact h.move hc (by rw [hph]; exact id) fun _ => id
    · cases hst
  | sweep i =>
    simp only [Limiters.step, Option.bind_eq_some_iff] at hst
    obtain ⟨c, hc, hst⟩ := hst
    split at hst
    · rename_i allowed hph
      cases hst
      exact h.move hc (by rw [hph]; exact id) fun _ => List.mem_of_mem_filter
    · cases hst

/-! ## Runs -/

theorem countsGrants_of_reachable {clock : Int}
    (h : StepSystem.Reachable (Limiters.stepAt cfg) (Limiters.init clock) s) :
    s.CountsGrants cfg := by
  refine StepSystem.Reach.invariant (I := fun s => s.CountsGrants cfg) ?_ ?_ h
  · exact fun r hr => (List.not_mem_nil hr).elim
  · intro s a s' hs _ hst
    have hclock : ({ s with clock := a.1 } : Limiters).CountsGrants cfg := hs
    exact hclock.step hst

/-- A consume statement that refused a call. -/
def Limiters.Refuses (cfg : RateLimiterConfig) (s : Limiters) (i : Nat) (c : ConsumeCall)
    (s' : Limiters) : Prop :=
  s.calls[i]? = some c ∧ (∃ time, s.stepAt cfg (time, .consume i) = some s') ∧
    s'.calls[i]? = some { c with phase := .consumed false }

/-- **No client is refused early.** Whatever the clocks of the instances show and however their
statements interleave: a row counts at most `limit` and at most the calls allowed in its window,
and a consume statement that refuses a call finds `limit` calls allowed in its window and leaves
the table as it was. -/
theorem refused_after_limit {clock : Int}
    (h : StepSystem.Reachable (Limiters.stepAt cfg) (Limiters.init clock) s) :
    (∀ r ∈ s.windows, r.count ≤ cfg.limit ∧ r.count ≤ s.granted cfg r.key) ∧
      ∀ i c s', s.Refuses cfg i c s' →
        cfg.limit ≤ s.granted cfg (c.window cfg) ∧ s'.windows = s.windows := by
  have hcounts := countsGrants_of_reachable h
  refine ⟨hcounts, ?_⟩
  rintro i c s' ⟨hc, ⟨time, hst⟩, hrefused⟩
  simp only [Limiters.stepAt, Limiters.step, hc, Option.bind_some] at hst
  split at hst
  · cases hst
    -- the phase the statement leaves is its answer
    have hlt := (List.getElem?_eq_some_iff.mp hc).1
    rw [List.getElem?_set_self hlt] at hrefused
    have hfalse : (consumeRateLimit s.windows c.key (cfg.windowStart c.time) cfg.limit).2 =
        false := by
      have hphase := congrArg ConsumeCall.phase (Option.some.inj hrefused)
      exact ConsumePhase.consumed.inj hphase
    obtain ⟨hsame, r, hr, hkey, hfull⟩ := consumeRateLimit_refused cfg.limit_pos hfalse
    refine ⟨?_, hsame⟩
    have hle := (hcounts r hr).2
    rw [hkey] at hle
    exact Nat.le_trans hfull hle
  · cases hst

namespace Sample

/-- Two calls of one client, on instances whose clocks are a window apart: the second one reads
the earlier window and finds it used up by the third. -/
def skewed : List (Int × LimiterAction) :=
  [(5, .construct), (12, .construct), (12, .tryConsume 1 "203.0.113.7"),
    (5, .tryConsume 0 "203.0.113.7"), (6, .tryConsume 0 "203.0.113.7"), (12, .consume 0),
    (6, .consume 2)]

end Sample

theorem refused_after_limit_skewed :
    let s := StepSystem.after (Limiters.stepAt Sample.limiterConfig) (Limiters.init 5)
      Sample.skewed
    s.windows.map RateLimitWindow.key = [("203.0.113.7", 10), ("203.0.113.7", 0)] ∧
      1 ≤ s.granted Sample.limiterConfig ("203.0.113.7", 0) := by
  have h := @refused_after_limit Sample.limiterConfig _ 5
    (StepSystem.reachable_after Sample.skewed)
  refine ⟨by decide, ?_⟩
  exact (h.2 1 ⟨0, "203.0.113.7", 5, .consuming⟩ _ ⟨rfl, ⟨7, rfl⟩, rfl⟩).1

/-! ## `retry-after` -/

/-- The least number of whole seconds in which a clock that shows `time` leaves the window at
`w`. -/
def PointsAtEnd (cfg : RateLimiterConfig) (w time retryAfter : Int) : Prop :=
  IsLeast {n : Int | 0 ≤ n ∧ w < cfg.windowStart (time + 1000 * n)} retryAfter

/-- A clock has left a window from its end on. -/
theorem windowStart_lt_iff (a b : Int) :
    cfg.windowStart a < cfg.windowStart b ↔ cfg.windowStart a + cfg.windowMs ≤ b := by
  have hpos : (0 : Int) < cfg.windowMs := by
    have := cfg.windowMs_pos
    omega
  unfold RateLimiterConfig.windowStart
  have hend : a / (cfg.windowMs : Int) * cfg.windowMs + cfg.windowMs =
      (a / (cfg.windowMs : Int) + 1) * cfg.windowMs := by rw [Int.add_mul, Int.one_mul]
  rw [hend, Int.mul_lt_mul_right hpos, ← Int.le_ediv_iff_mul_le hpos, Int.add_one_le_iff]

/-- **What the header counts down to** is the end of the window of its own reading. -/
theorem retryAfterSeconds_pointsAtEnd (cfg : ApiConfig) (env : Conditions) :
    PointsAtEnd cfg.limiter (cfg.limiter.windowStart env.refusedAt) env.refusedAt
      (retryAfterSeconds cfg env) := by
  have hopen : ¬ cfg.limiter.windowStart env.refusedAt + cfg.limiter.windowMs ≤ env.refusedAt :=
    fun h => Int.lt_irrefl _ ((windowStart_lt_iff _ _).mpr h)
  unfold retryAfterSeconds
  constructor
  · refine ⟨Int.le_max_left _ _, (windowStart_lt_iff _ _).mpr ?_⟩
    omega
  · rintro n ⟨hn, hleft⟩
    have hleft := (windowStart_lt_iff _ _).mp hleft
    omega

/-- Nor is it ever zero. -/
theorem one_le_retryAfterSeconds (cfg : ApiConfig) (env : Conditions) :
    1 ≤ retryAfterSeconds cfg env := by
  obtain ⟨hnonneg, hleft⟩ := (retryAfterSeconds_pointsAtEnd cfg env).1
  by_contra hlt
  obtain hzero : retryAfterSeconds cfg env = 0 := by omega
  rw [hzero, Int.mul_zero, Int.add_zero] at hleft
  exact Int.lt_irrefl _ hleft

/-- Only a refusal of the limiter says when to come back. -/
theorem postAnalyses_retryAfter {cfg : ApiConfig} {env : Conditions} {s : ApiState}
    {clientKey : String} {body : Option JsValue} {reply : ErrorReply} {retryAfter : Int}
    (h : (postAnalyses cfg env s clientKey body).reply = .failed reply (some retryAfter)) :
    (tryConsume cfg env s clientKey).2 = .ok false ∧
      reply = fail .rateLimited (js "submission rate exceeded") ∧
      retryAfter = retryAfterSeconds cfg env := by
  unfold postAnalyses at h
  split at h
  · cases h
  · split at h
    · cases h
    · cases h
    · unfold limitAndReply at h
      split at h
      · cases h
      · rename_i hrefused
        cases h
        exact ⟨by rw [hrefused], rfl, rfl⟩
      · unfold acquireAndReply at h
        split at h
        · cases h
        · unfold enqueueAndReply at h
          split at h
          · cases h
          · rename_i job created _
            rcases replyAfter_cases (ensureRunning env job) (toJob job) created with
              hr | ⟨_, hr⟩ <;> cases hr.symm.trans h

/-- **When `retry-after` points at the end of the refusing window**: exactly when the clock is
still in it at the second reading. Later than that the header is about the window the client would
be let in by; to have waited for it is never too short. -/
theorem retry_after_iff {cfg : ApiConfig} {env : Conditions} {s : ApiState} {clientKey : String}
    {body : Option JsValue} {reply : ErrorReply} {retryAfter : Int}
    (hclock : env.consumedAt ≤ env.refusedAt)
    (h : (postAnalyses cfg env s clientKey body).reply = .failed reply (some retryAfter)) :
    cfg.limiter.windowStart env.consumedAt <
        cfg.limiter.windowStart (env.refusedAt + 1000 * retryAfter) ∧
      (PointsAtEnd cfg.limiter (cfg.limiter.windowStart env.consumedAt) env.refusedAt retryAfter ↔
        cfg.limiter.windowStart env.refusedAt = cfg.limiter.windowStart env.consumedAt) := by
  obtain ⟨-, -, rfl⟩ := postAnalyses_retryAfter h
  have hmono := @windowStart_mono cfg.limiter _ _ hclock
  have hpoints := retryAfterSeconds_pointsAtEnd cfg env
  refine ⟨Int.lt_of_le_of_lt hmono hpoints.1.2, ?_⟩
  constructor
  · intro hleast
    by_contra hne
    -- the window is over, and the least wait is none
    have hzero := hleast.2 ⟨Int.le_refl 0, by
      rw [Int.mul_zero, Int.add_zero]
      omega⟩
    have hone := one_le_retryAfterSeconds cfg env
    omega
  · intro hsame
    rw [← hsame]
    exact hpoints

namespace Sample

/-- A client has used its hour up. -/
def usedUp : ApiState :=
  ⟨Db.empty, [⟨"203.0.113.7", 1788739200000, 20⟩], 1788739200000⟩

/-- The limiter reads its clock in the last millisecond of the hour, and this much later. -/
def lastMoment (later : Int) : Conditions :=
  { conditions with
    consumedAt := 1788742799999
    refusedAt := 1788742799999 + later }

end Sample

/-- Both readings in the hour: a second is enough. -/
theorem retry_after_iff_same_window : PointsAtEnd Sample.apiConfig.limiter 1788739200000
    1788742799999 1 := by
  have h := @retry_after_iff Sample.apiConfig (Sample.lastMoment 0) Sample.usedUp "203.0.113.7"
    Sample.submission _ 1 (by decide) rfl
  exact h.2.mpr (by decide)

/-- The hour is over at the second reading, and the client is told to wait for another one. -/
theorem retry_after_of_next_window :
    ¬ ∀ (cfg : ApiConfig) (env : Conditions) (s : ApiState) (clientKey : String)
      (body : Option JsValue) (reply : ErrorReply) (retryAfter : Int),
      env.consumedAt ≤ env.refusedAt →
      (postAnalyses cfg env s clientKey body).reply = .failed reply (some retryAfter) →
        PointsAtEnd cfg.limiter (cfg.limiter.windowStart env.consumedAt) env.refusedAt
          retryAfter := by
  intro h
  have hpoints := h Sample.apiConfig (Sample.lastMoment 1) Sample.usedUp "203.0.113.7"
    Sample.submission _ 3600 (by decide) rfl
  have hnow := hpoints.2 ⟨Int.le_refl 0, by decide⟩
  exact absurd hnow (by decide)

end BattleCloud
