import BattleCloud.Lib.System
import BattleCloud.Lib.Table

/-!
# The shared submission limiter

`api/src/ratelimit.ts` with the statements `consumeRateLimit` and `sweepRateLimits` of
`api/src/store.ts`, over the table `rate_limit_windows`: a step system of any number of instances
that read one clock. A `tryConsume` is its clock reading, the consume statement, what it does when
that returns (`sweep` up to its statement), and the sweep statement.

The row of a window counts the calls it allowed for as long as it is there. `rate_limit_ceiling`:
a run in which no sweep deletes a row that a call still awaiting its consume statement would
count in allows at most `limit` calls for each client and window. `Sample.late` is a run with
such a sweep.
-/

namespace BattleCloud

/-- A row of `rate_limit_windows`; the window start is in milliseconds. -/
structure RateLimitWindow where
  clientKey : String
  windowStart : Int
  count : Nat

/-- The primary key. -/
def RateLimitWindow.key (r : RateLimitWindow) : String × Int := (r.clientKey, r.windowStart)

/-- `INSERT .. ON CONFLICT (client_key, window_start) DO UPDATE SET count = count + 1 WHERE
count < $3`: the table it leaves, and whether a row came back. -/
def consumeRateLimit (windows : List RateLimitWindow) (clientKey : String) (windowStart : Int)
    (limit : Nat) : List RateLimitWindow × Bool :=
  match Table.get RateLimitWindow.key (clientKey, windowStart) windows with
  | none => (Table.put RateLimitWindow.key ⟨clientKey, windowStart, 1⟩ windows, true)
  | some r =>
    if r.count < limit then
      (Table.put RateLimitWindow.key ⟨clientKey, windowStart, r.count + 1⟩ windows, true)
    else (windows, false)

/-- `DELETE .. WHERE window_start < $1`. -/
def sweepRateLimits (windows : List RateLimitWindow) (before : Int) : List RateLimitWindow :=
  windows.filter fun r => !decide (r.windowStart < before)

structure RateLimiterConfig where
  limit : Nat
  windowMs : Nat
  limit_pos : 1 ≤ limit
  windowMs_pos : 1 ≤ windowMs

variable (cfg : RateLimiterConfig)

/-- `Math.floor(at / windowMs) * windowMs`. -/
def RateLimiterConfig.windowStart (time : Int) : Int := time / cfg.windowMs * cfg.windowMs

/-! ## The system -/

/-- Where a `tryConsume` stands. -/
inductive ConsumePhase where
  | consuming
  | consumed (allowed : Bool)
  | sweeping (allowed : Bool)
  | returned (allowed : Bool)
  deriving DecidableEq

/-- Whether the consume statement has allowed the call. -/
def ConsumePhase.allowed : ConsumePhase → Bool
  | .consuming => false
  | .consumed a | .sweeping a | .returned a => a

/-- A `tryConsume` of the instance at an index, with its reading of the clock. -/
structure ConsumeCall where
  limiter : Nat
  key : String
  time : Int
  phase : ConsumePhase

/-- The client and the window a call is counted in. -/
def ConsumeCall.window (c : ConsumeCall) : String × Int := (c.key, cfg.windowStart c.time)

structure Limiters where
  clock : Int
  windows : List RateLimitWindow
  /-- `lastSweep` of each instance. -/
  lastSweep : List Int
  calls : List ConsumeCall

inductive LimiterAction where
  | tick (ms : Nat)
  | construct
  | tryConsume (limiter : Nat) (key : String)
  | consume (i : Nat)
  /-- The consume statement has returned to its caller. -/
  | resume (i : Nat)
  | sweep (i : Nat)

namespace Limiters

def init (clock : Int) : Limiters := ⟨clock, [], [], []⟩

def step (s : Limiters) : LimiterAction → Option Limiters
  | .tick ms => some { s with clock := s.clock + ms }
  | .construct => some { s with lastSweep := s.lastSweep ++ [s.clock] }
  | .tryConsume limiter key =>
    if limiter < s.lastSweep.length then
      some { s with calls := s.calls ++ [⟨limiter, key, s.clock, .consuming⟩] }
    else none
  | .consume i =>
    (s.calls[i]?).bind fun c =>
    match c.phase with
    | .consuming =>
      let r := consumeRateLimit s.windows c.key (cfg.windowStart c.time) cfg.limit
      some { s with windows := r.1, calls := s.calls.set i { c with phase := .consumed r.2 } }
    | _ => none
  | .resume i =>
    (s.calls[i]?).bind fun c =>
    (s.lastSweep[c.limiter]?).bind fun last =>
    match c.phase with
    | .consumed allowed =>
      if c.time - last < cfg.windowMs then
        some { s with calls := s.calls.set i { c with phase := .returned allowed } }
      else
        some { s with lastSweep := s.lastSweep.set c.limiter c.time
                      calls := s.calls.set i { c with phase := .sweeping allowed } }
    | _ => none
  | .sweep i =>
    (s.calls[i]?).bind fun c =>
    match c.phase with
    | .sweeping allowed =>
      some { s with windows := sweepRateLimits s.windows (cfg.windowStart c.time)
                    calls := s.calls.set i { c with phase := .returned allowed } }
    | _ => none

/-- No row is swept that a call awaiting its consume statement would be counted in. -/
def SweepsSpent (s : Limiters) : LimiterAction → Prop
  | .sweep i =>
    ∀ c ∈ s.calls[i]?, ∀ late ∈ s.calls, late.phase = .consuming →
      ∀ r ∈ s.windows, r.key = late.window cfg → cfg.windowStart c.time ≤ r.windowStart
  | _ => True

instance (s : Limiters) (a : LimiterAction) : Decidable (s.SweepsSpent cfg a) :=
  match a with
  | .sweep i =>
    inferInstanceAs (Decidable (∀ c ∈ s.calls[i]?, ∀ late ∈ s.calls, late.phase = .consuming →
      ∀ r ∈ s.windows, r.key = late.window cfg → cfg.windowStart c.time ≤ r.windowStart))
  | .tick _ | .construct | .tryConsume .. | .consume _ | .resume _ =>
    inferInstanceAs (Decidable True)

/-- How many calls of a client the consume statement has allowed in a window. -/
def granted (s : Limiters) (k : String × Int) : Nat :=
  s.calls.countP fun c => c.window cfg = k && c.phase.allowed

/-- A window of the past that no call awaits. -/
def Spent (s : Limiters) (k : String × Int) : Prop :=
  k.2 < cfg.windowStart s.clock ∧ ∀ c ∈ s.calls, c.phase = .consuming → c.window cfg ≠ k

/-- What the row of a window says about the calls counted in it; without a row none is, or the
window is spent. -/
structure WindowOk (s : Limiters) (k : String × Int) : Prop where
  ceiling : s.granted cfg k ≤ cfg.limit
  counted : ∀ r, Table.get RateLimitWindow.key k s.windows = some r → r.count = s.granted cfg k
  spent : Table.get RateLimitWindow.key k s.windows = none → s.granted cfg k = 0 ∨ s.Spent cfg k

end Limiters

variable {cfg} {s s' : Limiters}

/-! ## The statements -/

theorem windowStart_mono {a b : Int} (h : a ≤ b) : cfg.windowStart a ≤ cfg.windowStart b := by
  unfold RateLimiterConfig.windowStart
  exact Int.mul_le_mul_of_nonneg_right (Int.ediv_le_ediv (by have := cfg.windowMs_pos; omega) h)
    (Int.natCast_nonneg _)

/-- **The consume statement** counts one call more in its window and leaves the others, or finds
the window full and changes nothing. -/
theorem consumeRateLimit_cases (windows : List RateLimitWindow) (key : String) (w : Int)
    {limit : Nat} (hl : 1 ≤ limit) :
    (∃ n, n < limit ∧ (consumeRateLimit windows key w limit).2 = true ∧
      (Table.get RateLimitWindow.key (key, w) windows = none ∧ n = 0 ∨
        ∃ r, Table.get RateLimitWindow.key (key, w) windows = some r ∧ r.count = n) ∧
      ∀ k, Table.get RateLimitWindow.key k (consumeRateLimit windows key w limit).1 =
        if k = (key, w) then some ⟨key, w, n + 1⟩ else Table.get RateLimitWindow.key k windows) ∨
    (consumeRateLimit windows key w limit = (windows, false) ∧
      ∃ r, Table.get RateLimitWindow.key (key, w) windows = some r ∧ limit ≤ r.count) := by
  unfold consumeRateLimit
  cases hget : Table.get RateLimitWindow.key (key, w) windows with
  | none => exact Or.inl ⟨0, hl, rfl, Or.inl ⟨rfl, rfl⟩, fun k => Table.get_put⟩
  | some r =>
    by_cases hlt : r.count < limit
    · simp only [if_pos hlt]
      exact Or.inl ⟨r.count, hlt, trivial, Or.inr ⟨r, rfl, rfl⟩, fun k => Table.get_put⟩
    · simp only [if_neg hlt]
      exact Or.inr ⟨trivial, r, rfl, by omega⟩

theorem get_sweepRateLimits (windows : List RateLimitWindow) (before : Int) (k : String × Int) :
    Table.get RateLimitWindow.key k (sweepRateLimits windows before) =
      if k.2 < before then none else Table.get RateLimitWindow.key k windows := by
  have h := @Table.get_filter _ _ _ RateLimitWindow.key windows
    (fun k => !decide (k.2 < before)) k
  unfold sweepRateLimits
  refine h.trans ?_
  by_cases hk : k.2 < before <;> simp [hk]

/-! ## The calls -/

/-- A call that moves on counts as allowed from where its phase says so. -/
theorem granted_set {i : Nat} {c : ConsumeCall} (hc : s.calls[i]? = some c) (ph : ConsumePhase)
    {w : List RateLimitWindow} {l : List Int} (k : String × Int) :
    (Limiters.mk s.clock w l (s.calls.set i { c with phase := ph })).granted cfg k +
        (if c.window cfg = k ∧ c.phase.allowed then 1 else 0) =
      s.granted cfg k + if c.window cfg = k ∧ ph.allowed then 1 else 0 := by
  have h := @Table.countP_set_add _ (fun c : ConsumeCall => c.window cfg = k && c.phase.allowed)
    s.calls i c { c with phase := ph } hc
  simp only [Bool.and_eq_true, decide_eq_true_eq] at h
  exact h

/-- A call that waits after a step of another call waited before it. -/
theorem consuming_of_set {i : Nat} {c c' : ConsumeCall} (ph : ConsumePhase)
    (hph : ph ≠ .consuming) (hc' : c' ∈ s.calls.set i { c with phase := ph })
    (hw : c'.phase = .consuming) : c' ∈ s.calls := by
  rcases List.mem_or_eq_of_mem_set hc' with h | rfl
  · exact h
  · exact absurd hw hph

/-- Every clock reading is in the past. -/
def Past (s : Limiters) : Prop := ∀ c ∈ s.calls, c.time ≤ s.clock

theorem Past.step (hp : Past s) {a : LimiterAction} (h : s.step cfg a = some s') : Past s' := by
  have hset : ∀ {i : Nat} {c : ConsumeCall} {ph : ConsumePhase}, s.calls[i]? = some c →
      ∀ c' ∈ s.calls.set i { c with phase := ph }, c'.time ≤ s.clock := by
    intro i c ph hc c' hc'
    rcases List.mem_or_eq_of_mem_set hc' with hc' | rfl
    · exact hp c' hc'
    · exact hp c (List.mem_of_getElem? hc)
  cases a with
  | tick ms =>
    cases h
    intro c hc
    have := hp c hc
    show c.time ≤ s.clock + ms
    omega
  | construct =>
    cases h
    exact hp
  | tryConsume limiter key =>
    simp only [Limiters.step] at h
    split at h
    · cases h
      intro c hc
      rcases List.mem_append.mp hc with hc | hc
      · exact hp c hc
      · exact Int.le_of_eq (by rw [List.mem_singleton.mp hc])
    · cases h
  | consume i =>
    simp only [Limiters.step, Option.bind_eq_some_iff] at h
    obtain ⟨c, hc, h⟩ := h
    split at h
    · cases h
      exact hset hc
    · cases h
  | resume i =>
    simp only [Limiters.step, Option.bind_eq_some_iff] at h
    obtain ⟨c, hc, last, -, h⟩ := h
    split at h
    · split at h
      · cases h
        exact hset hc
      · cases h
        exact hset hc
    · cases h
  | sweep i =>
    simp only [Limiters.step, Option.bind_eq_some_iff] at h
    obtain ⟨c, hc, h⟩ := h
    split at h
    · cases h
      exact hset hc
    · cases h

/-! ## One step -/

theorem Limiters.WindowOk.tick {k : String × Int} (hk : s.WindowOk cfg k) (ms : Nat) :
    ({ s with clock := s.clock + ms } : Limiters).WindowOk cfg k where
  ceiling := hk.ceiling
  counted := hk.counted
  spent hn := by
    rcases hk.spent hn with h0 | ⟨hlt, hno⟩
    · exact Or.inl h0
    · have hmono := @windowStart_mono cfg s.clock (s.clock + ms) (by omega)
      exact Or.inr ⟨Int.lt_of_lt_of_le hlt hmono, hno⟩

/-- A new call is dated now, in no spent window. -/
theorem Limiters.WindowOk.tryConsume {k : String × Int} (hk : s.WindowOk cfg k) (limiter : Nat)
    (key : String) : ({ s with calls := s.calls ++ [⟨limiter, key, s.clock, .consuming⟩] } :
      Limiters).WindowOk cfg k := by
  have hg : ({ s with calls := s.calls ++ [⟨limiter, key, s.clock, .consuming⟩] } :
      Limiters).granted cfg k = s.granted cfg k := by
    unfold Limiters.granted
    simp [ConsumePhase.allowed]
  refine ⟨hg ▸ hk.ceiling, fun r hr => hg ▸ hk.counted r hr, fun hn => ?_⟩
  rw [hg]
  rcases hk.spent hn with h0 | ⟨hlt, hno⟩
  · exact Or.inl h0
  · refine Or.inr ⟨hlt, fun c hc hw => ?_⟩
    rcases List.mem_append.mp hc with hc | hc
    · exact hno c hc hw
    · rw [List.mem_singleton.mp hc]
      rintro rfl
      exact Int.lt_irrefl _ hlt

/-- A call that moves on without being counted anew. -/
theorem Limiters.WindowOk.move {k : String × Int} (hk : s.WindowOk cfg k) {i : Nat}
    {c : ConsumeCall} (hc : s.calls[i]? = some c) (ph : ConsumePhase) (hph : ph ≠ .consuming)
    (ha : ph.allowed = c.phase.allowed) {l : List Int} :
    (Limiters.mk s.clock s.windows l (s.calls.set i { c with phase := ph })).WindowOk cfg k := by
  have hg := @granted_set cfg s i c hc ph s.windows l k
  rw [ha] at hg
  have hg := Nat.add_right_cancel hg
  refine ⟨hg ▸ hk.ceiling, fun r hr => hg ▸ hk.counted r hr, fun hn => ?_⟩
  rw [hg]
  rcases hk.spent hn with h0 | ⟨hlt, hno⟩
  · exact Or.inl h0
  · exact Or.inr ⟨hlt, fun c' hc' hw => hno c' (consuming_of_set ph hph hc' hw) hw⟩

/-- **A consume statement** counts the call in its window's row, which is there or has counted
nothing: a window that a call awaits is not spent. -/
theorem Limiters.WindowOk.consume {k : String × Int} (hk : s.WindowOk cfg k) {i : Nat}
    {c : ConsumeCall} (hc : s.calls[i]? = some c) (hph : c.phase = .consuming) :
    (Limiters.mk s.clock (consumeRateLimit s.windows c.key (cfg.windowStart c.time) cfg.limit).1
      s.lastSweep (s.calls.set i { c with
        phase := (.consumed (consumeRateLimit s.windows c.key (cfg.windowStart c.time)
          cfg.limit).2) })).WindowOk cfg k := by
  rcases consumeRateLimit_cases s.windows c.key (cfg.windowStart c.time) cfg.limit_pos with
    ⟨n, hn, ht, hold, hget⟩ | ⟨heq, r, hr, hfull⟩
  · have hg := fun w => @granted_set cfg s i c hc (.consumed true) w s.lastSweep k
    simp only [hph, ConsumePhase.allowed, Bool.false_eq_true, and_false, if_false, Nat.add_zero,
      and_true] at hg
    have hget : ∀ k, Table.get RateLimitWindow.key k
        (consumeRateLimit s.windows c.key (cfg.windowStart c.time) cfg.limit).1 =
        if k = c.window cfg then some ⟨c.key, cfg.windowStart c.time, n + 1⟩
        else Table.get RateLimitWindow.key k s.windows := hget
    rw [ht]
    by_cases hkw : k = c.window cfg
    · -- its own window
      subst hkw
      have hcount : n = s.granted cfg (c.window cfg) := by
        rcases hold with ⟨hnone, rfl⟩ | ⟨r, hr, rfl⟩
        · rcases hk.spent hnone with h0 | ⟨-, hno⟩
          · exact h0.symm
          · exact absurd rfl (hno c (List.mem_of_getElem? hc) hph)
        · exact hk.counted r hr
      simp only [if_true] at hg
      refine ⟨by rw [hg]; omega, fun r hr => ?_, fun hnone => ?_⟩
      · simp only [hget, if_true, Option.some.injEq] at hr
        rw [hg, ← hr, hcount]
      · simp only [hget, if_true, reduceCtorEq] at hnone
    · have hne : ¬ c.window cfg = k := fun h => hkw h.symm
      simp only [if_neg hne, Nat.add_zero] at hg
      refine ⟨by rw [hg]; exact hk.ceiling, fun r hr => ?_, fun hnone => ?_⟩
      · simp only [hget] at hr
        rw [if_neg hkw] at hr
        rw [hg]
        exact hk.counted r hr
      · simp only [hget] at hnone
        rw [if_neg hkw] at hnone
        rw [hg]
        rcases hk.spent hnone with h0 | ⟨hlt, hno⟩
        · exact Or.inl h0
        · exact Or.inr ⟨hlt, fun c' hc' hw =>
            hno c' (consuming_of_set (.consumed true) nofun hc' hw) hw⟩
  · -- refused
    rw [heq]
    exact hk.move hc (.consumed false) nofun (by rw [hph]; rfl)

/-- **A sweep** deletes rows of windows that no call awaits any more. -/
theorem Limiters.WindowOk.sweep {k : String × Int} (hk : s.WindowOk cfg k) (hp : Past s) {i : Nat}
    {c : ConsumeCall} (hc : s.calls[i]? = some c) {allowed : Bool}
    (hph : c.phase = .sweeping allowed) (hs : s.SweepsSpent cfg (.sweep i)) :
    (Limiters.mk s.clock (sweepRateLimits s.windows (cfg.windowStart c.time)) s.lastSweep
      (s.calls.set i { c with phase := .returned allowed })).WindowOk cfg k := by
  have hm := @Limiters.WindowOk.move cfg s k hk i c hc (.returned allowed) nofun (by rw [hph]; rfl)
    s.lastSweep
  refine ⟨hm.ceiling, fun r hr => ?_, fun hn => ?_⟩
  · simp only [get_sweepRateLimits] at hr
    split at hr
    · cases hr
    · exact hm.counted r hr
  · simp only [get_sweepRateLimits] at hn
    split at hn
    · rename_i hlt
      cases hget : Table.get RateLimitWindow.key k s.windows with
      | none => exact hm.spent hget
      | some r =>
        -- the row was there: no call awaits its window
        right
        refine ⟨Int.lt_of_lt_of_le hlt (windowStart_mono (hp c (List.mem_of_getElem? hc))), ?_⟩
        intro c' hc' hw hk'
        have hrk : r.key = k := Table.key_of_get hget
        have hold := consuming_of_set (.returned allowed) nofun hc' hw
        have hle := hs c hc c' hold hw r (List.mem_of_find?_eq_some hget) (hrk.trans hk'.symm)
        rw [← hrk] at hlt
        exact absurd hle (Int.not_le.mpr hlt)
    · exact hm.spent hn

/-! ## Runs -/

theorem windowOk_step (hp : Past s) (hk : ∀ k, s.WindowOk cfg k) {a : LimiterAction}
    (hs : s.SweepsSpent cfg a) (h : s.step cfg a = some s') : ∀ k, s'.WindowOk cfg k := by
  intro k
  cases a with
  | tick ms =>
    cases h
    exact (hk k).tick ms
  | construct =>
    cases h
    exact ⟨(hk k).ceiling, (hk k).counted, (hk k).spent⟩
  | tryConsume limiter key =>
    simp only [Limiters.step] at h
    split at h
    · cases h
      exact (hk k).tryConsume limiter key
    · cases h
  | consume i =>
    simp only [Limiters.step, Option.bind_eq_some_iff] at h
    obtain ⟨c, hc, h⟩ := h
    split at h
    · rename_i hph
      cases h
      exact (hk k).consume hc hph
    · cases h
  | resume i =>
    simp only [Limiters.step, Option.bind_eq_some_iff] at h
    obtain ⟨c, hc, last, -, h⟩ := h
    split at h
    · rename_i allowed hph
      split at h
      · cases h
        exact (hk k).move hc (.returned allowed) nofun (by rw [hph]; rfl)
      · cases h
        exact (hk k).move hc (.sweeping allowed) nofun (by rw [hph]; rfl)
    · cases h
  | sweep i =>
    simp only [Limiters.step, Option.bind_eq_some_iff] at h
    obtain ⟨c, hc, h⟩ := h
    split at h
    · rename_i allowed hph
      cases h
      exact (hk k).sweep hp hc hph hs
    · cases h

/-- The runs of the limiter from a reading of the clock on. -/
abbrev Limiters.Reach (cfg : RateLimiterConfig) (C : Limiters → LimiterAction → Prop)
    (clock : Int) : Limiters → Prop :=
  StepSystem.Reach (Limiters.step cfg) C (Limiters.init clock)

theorem windowOk_of_reach {clock : Int}
    (h : Limiters.Reach cfg (Limiters.SweepsSpent cfg) clock s) :
    Past s ∧ ∀ k, s.WindowOk cfg k := by
  refine StepSystem.Reach.invariant (I := fun s => Past s ∧ ∀ k, s.WindowOk cfg k) ?_ ?_ h
  · refine ⟨fun c hc => (List.not_mem_nil hc).elim, fun k => ⟨Nat.zero_le _, ?_, ?_⟩⟩
    · intro r hr
      cases hr
    · exact fun _ => Or.inl rfl
  · rintro s a s' ⟨hp, hk⟩ hs hst
    exact ⟨hp.step hst, windowOk_step hp hk hs hst⟩

/-- **The limit is a ceiling while no sweep outruns a call.** In every run in which no sweep
deletes the row of a window that a call of its client, dated in that window, still awaits, at most
`limit` calls of each client whose clock reading falls in a window return true. -/
theorem rate_limit_ceiling {clock : Int}
    (h : Limiters.Reach cfg (Limiters.SweepsSpent cfg) clock s) (key : String) (w : Int) :
    (s.calls.countP fun c =>
      c.key = key ∧ cfg.windowStart c.time = w ∧ c.phase = .returned true) ≤ cfg.limit := by
  refine Nat.le_trans (List.countP_mono_left fun c _ hc => ?_)
    ((windowOk_of_reach h).2 (key, w)).ceiling
  simp only [decide_eq_true_eq] at hc
  obtain ⟨rfl, rfl, hph⟩ := hc
  simp [ConsumeCall.window, hph, ConsumePhase.allowed]

namespace Sample

/-- One submission each ten milliseconds. -/
def limiterConfig : RateLimiterConfig := ⟨1, 10, Nat.one_pos, by decide⟩

/-- Two calls of one client in one window, on two instances. -/
def shared : List LimiterAction :=
  [.construct, .construct, .tryConsume 0 "203.0.113.7", .tryConsume 1 "203.0.113.7", .consume 0,
    .consume 1, .resume 0, .resume 1]

/-- The second one is late: before its statement runs, another client's call in a later window
sweeps the row the first one is counted in. -/
def late : List LimiterAction :=
  [.construct, .construct, .tryConsume 0 "203.0.113.7", .tryConsume 0 "203.0.113.7", .consume 0,
    .resume 0, .tick 20, .tryConsume 1 "198.51.100.4", .consume 2, .resume 2, .sweep 2,
    .consume 1, .resume 1]

end Sample

theorem rate_limit_ceiling_shared :
    let s := StepSystem.afterIf (Limiters.step Sample.limiterConfig)
      (Limiters.SweepsSpent Sample.limiterConfig) (Limiters.init 5) Sample.shared
    s.calls.map ConsumeCall.phase = [.returned true, .returned false] ∧
    (s.calls.countP fun c => c.key = "203.0.113.7" ∧
      Sample.limiterConfig.windowStart c.time = 0 ∧ c.phase = .returned true) ≤ 1 :=
  ⟨by decide, rate_limit_ceiling (StepSystem.reach_afterIf Sample.shared) "203.0.113.7" 0⟩

/-- Two calls of one client return true in one window of limit one. -/
theorem late_call_exceeds_limit :
    ¬ ∀ (cfg : RateLimiterConfig) (clock : Int) (s : Limiters),
      Limiters.Reach cfg (fun _ _ => True) clock s → ∀ (key : String) (w : Int),
        (s.calls.countP fun c =>
          c.key = key ∧ cfg.windowStart c.time = w ∧ c.phase = .returned true) ≤ cfg.limit := by
  intro h
  have hle := h Sample.limiterConfig 5 _ (StepSystem.reachable_after Sample.late) "203.0.113.7" 0
  exact absurd hle (by decide)

end BattleCloud
