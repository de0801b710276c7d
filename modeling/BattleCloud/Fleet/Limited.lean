import BattleCloud.Api.RateLimiter
import BattleCloud.Fleet.Join

/-!
# The fleet under its limiters

What the limiter answers is arbitrary in `Fleet`. Here the handlers ask the limiters of
`Api/RateLimiter`: a submission that missed the cache makes one `tryConsume` call under its
`request.ip`, at the instance that handles it, and goes on with what that call returns.
`creations_charged`: every job there is was created by a submission whose call was allowed, no two
by one call, so one address gets at most `limit` jobs created in a window, and a submission that
the cache answers is charged nothing.
-/

namespace BattleCloud

/-- How a submission is handled: the instance, the `request.ip`, and its `tryConsume` call. -/
structure Handling where
  limiter : Nat
  ip : String
  call : Option Nat

structure LimitedFleet where
  fleet : Fleet
  limiters : Limiters
  /-- In the order of the submissions. -/
  handlings : List Handling

inductive LimitedAction where
  | submit (limiter : Nat) (ip : String) (request : SubmitRequest) (build : EngineBuild)
  | tryConsume (i : Nat)
  /-- `tryConsume` has returned to the handler. -/
  | resume (i : Nat)
  | limiters (action : LimiterAction)
  | fleet (action : Action)

/-- The steps of the fleet that `LimitedFleet` has its own for. -/
def Action.limited : Action → Bool
  | .submit .. | .submission _ (.tryConsume _) => true
  | _ => false

/-- And those of the limiters. -/
def LimiterAction.limited : LimiterAction → Bool
  | .tryConsume .. => true
  | _ => false

variable (cfg : RateLimiterConfig)

namespace LimitedFleet

def init (clock : Int) : LimitedFleet := ⟨Fleet.init, Limiters.init clock, []⟩

def step (s : LimitedFleet) : LimitedAction → Option LimitedFleet
  | .submit limiter ip request build =>
    (s.fleet.step (.submit request build)).map fun fleet =>
      { s with fleet := fleet, handlings := s.handlings ++ [⟨limiter, ip, none⟩] }
  | .tryConsume i =>
    (s.fleet.submissions[i]?).bind fun sub =>
    (s.handlings[i]?).bind fun h =>
    match sub.phase, h.call with
    | .limiting, none =>
      (s.limiters.step cfg (.tryConsume h.limiter h.ip)).map fun limiters =>
        { s with limiters := limiters
                 handlings := s.handlings.set i { h with call := some s.limiters.calls.length } }
    | _, _ => none
  | .resume i =>
    (s.handlings[i]?).bind fun h =>
    h.call.bind fun n =>
    (s.limiters.calls[n]?).bind fun c =>
    match c.phase with
    | .returned allowed =>
      (s.fleet.step (.submission i (.tryConsume allowed))).map fun fleet =>
        { s with fleet := fleet }
    | _ => none
  | .limiters action =>
    if action.limited then none
    else (s.limiters.step cfg action).map fun limiters => { s with limiters := limiters }
  | .fleet action =>
    if action.limited then none
    else (s.fleet.step action).map fun fleet => { s with fleet := fleet }

/-- No row is swept that a call awaiting its consume statement would be counted in. -/
def SweepsSpent (s : LimitedFleet) : LimitedAction → Prop
  | .limiters action => s.limiters.SweepsSpent cfg action
  | _ => True

instance (s : LimitedFleet) (a : LimitedAction) : Decidable (s.SweepsSpent cfg a) :=
  match a with
  | .limiters action => inferInstanceAs (Decidable (s.limiters.SweepsSpent cfg action))
  | .submit .. | .tryConsume _ | .resume _ | .fleet _ => inferInstanceAs (Decidable True)

/-- The call of a submission. -/
def charge (s : LimitedFleet) (i : Nat) : Option ConsumeCall :=
  (s.handlings[i]?).bind fun h => h.call.bind fun n => s.limiters.calls[n]?

/-- The call at an index let a submission through, under its own address. -/
def Paid (s : LimitedFleet) (i n : Nat) : Prop :=
  ∃ h c, s.handlings[i]? = some h ∧ h.call = some n ∧ s.limiters.calls[n]? = some c ∧
    c.key = h.ip ∧ c.phase = .returned true

end LimitedFleet

/-- The submission that created a job. -/
def Event.creator : Event → Option Nat
  | .created i _ _ => some i
  | _ => none

/-- How many jobs the submissions of a client created that were counted in a window. -/
def LimitedFleet.creations (s : LimitedFleet) (k : String × Int) : Nat :=
  s.fleet.log.countP fun e => (e.creator.bind s.charge).any fun c => c.window cfg = k

/-! ## One job for one submission -/

/-- Past its enqueue, or answered. -/
def SubmissionPhase.enqueued : SubmissionPhase → Bool
  | .launching .. | .answered _ => true
  | _ => false

/-- An enqueue is the last statement of its submission. -/
theorem SubmissionStep.creator {db db' : Db} {i : Nat} {sub : Submission} {a : SubmissionAction}
    {ph : SubmissionPhase} {e : Event} (h : SubmissionStep db i sub a db' ph e) :
    (e.creator = none ∧ (sub.phase.enqueued = true → ph.enqueued = true)) ∨
    (e.creator = some i ∧ sub.phase.enqueued = false ∧ ph.enqueued = true) := by
  cases h with
  | created hph hok => exact Or.inr ⟨rfl, by rw [hph]; rfl, rfl⟩
  | responded hph => exact Or.inl ⟨rfl, fun _ => rfl⟩
  | aborted hph => exact Or.inl ⟨rfl, fun _ => rfl⟩
  | _ => exact Or.inl ⟨rfl, fun he => by simp_all [SubmissionPhase.enqueued]⟩

theorem Event.creator_of_not {e : Event} (h : e.ofSubmission = false) : e.creator = none := by
  cases e with
  | created i job c => cases h
  | _ => rfl

/-- Each submission is the creator of one job at most, at its enqueue. -/
structure CreatesOnce (s : Fleet) : Prop where
  nodup : (s.log.filterMap Event.creator).Nodup
  enqueued : ∀ i ∈ s.log.filterMap Event.creator,
    ∃ sub, s.submissions[i]? = some sub ∧ sub.phase.enqueued = true

theorem CreatesOnce.step {s s' : Fleet} (hc : CreatesOnce s) {a : Action}
    (h : s.step a = some s') : CreatesOnce s' := by
  have hquiet : ∀ {e : Event}, e.creator = none →
      (e :: s.log).filterMap Event.creator = s.log.filterMap Event.creator :=
    fun he => List.filterMap_cons_none he
  cases FleetStep.of_eq h with
  | submit request build =>
    refine ⟨hc.nodup, fun i hi => ?_⟩
    obtain ⟨sub, hsub, hen⟩ := hc.enqueued i hi
    exact ⟨sub, getElem?_concat_of_some hsub, hen⟩
  | @submission k sub act db ph e hsub hst =>
    have hkeep : (sub.phase.enqueued = true → ph.enqueued = true) →
        ∀ i ∈ s.log.filterMap Event.creator,
          ∃ sub', (s.submissions.set k { sub with phase := ph })[i]? = some sub' ∧
            sub'.phase.enqueued = true := by
      intro hph i hi
      obtain ⟨sub₀, hsub₀, hen⟩ := hc.enqueued i hi
      rcases getElem?_set_cases (k := k) (y := { sub with phase := ph }) hsub₀ with h | ⟨rfl, h⟩
      · exact ⟨sub₀, h, hen⟩
      · obtain rfl := Option.some.inj (hsub.symm.trans hsub₀)
        exact ⟨_, h, hph hen⟩
    rcases hst.creator with ⟨he, hph⟩ | ⟨he, hbefore, hafter⟩
    · refine ⟨(hquiet he).symm ▸ hc.nodup, fun i hi => ?_⟩
      rw [hquiet he] at hi
      exact hkeep hph i hi
    · -- it had not enqueued before
      have hcons : (e :: s.log).filterMap Event.creator = k :: s.log.filterMap Event.creator :=
        List.filterMap_cons_some he
      have hnew : k ∉ s.log.filterMap Event.creator := by
        intro hk
        obtain ⟨sub₀, hsub₀, hen⟩ := hc.enqueued k hk
        obtain rfl := Option.some.inj (hsub.symm.trans hsub₀)
        rw [hbefore] at hen
        cases hen
      refine ⟨hcons.symm ▸ List.nodup_cons.mpr ⟨hnew, hc.nodup⟩, fun i hi => ?_⟩
      rw [hcons] at hi
      rcases List.mem_cons.mp hi with rfl | hi
      · obtain ⟨hlt, -⟩ := List.getElem?_eq_some_iff.mp hsub
        exact ⟨_, List.getElem?_set_self hlt, hafter⟩
      · exact hkeep (fun _ => hafter) i hi
  | spawn hfree => exact ⟨hc.nodup, hc.enqueued⟩
  | worker hw hst =>
    have he := Event.creator_of_not hst.event
    exact ⟨(hquiet he).symm ▸ hc.nodup, (hquiet he).symm ▸ hc.enqueued⟩
  | heartbeat hhb hw hst =>
    have he := Event.creator_of_not hst.event.1
    exact ⟨(hquiet he).symm ▸ hc.nodup, (hquiet he).symm ▸ hc.enqueued⟩

theorem createsOnce_of_reachable {s : Fleet} (h : s.Reachable) : CreatesOnce s := by
  refine StepSystem.Reach.invariant (I := CreatesOnce) ?_ (fun s a s' hi _ hst => hi.step hst) h
  exact ⟨List.nodup_nil, fun i h => (List.not_mem_nil h).elim⟩

/-! ## What a step keeps -/

section

variable {cfg} {clock : Int}

/-- A call stays under its address, and as it is once it has returned. -/
theorem Limiters.step_calls {l l' : Limiters} {a : LimiterAction} (h : l.step cfg a = some l')
    {n : Nat} {c : ConsumeCall} (hc : l.calls[n]? = some c) :
    ∃ c', l'.calls[n]? = some c' ∧ c'.key = c.key ∧ ∀ b, c.phase = .returned b → c' = c := by
  have hset : ∀ {i : Nat} {d : ConsumeCall} {ph : ConsumePhase}, l.calls[i]? = some d →
      (∀ b, d.phase ≠ .returned b) → ∃ c', (l.calls.set i { d with phase := ph })[n]? = some c' ∧
        c'.key = c.key ∧ ∀ b, c.phase = .returned b → c' = c := by
    intro i d ph hd hno
    rcases getElem?_set_cases (k := i) (y := { d with phase := ph }) hc with h | ⟨rfl, h⟩
    · exact ⟨c, h, rfl, fun _ _ => rfl⟩
    · obtain rfl := Option.some.inj (hd.symm.trans hc)
      exact ⟨_, h, rfl, fun b hb => absurd hb (hno b)⟩
  cases a with
  | tick ms =>
    cases h
    exact ⟨c, hc, rfl, fun _ _ => rfl⟩
  | construct =>
    cases h
    exact ⟨c, hc, rfl, fun _ _ => rfl⟩
  | tryConsume limiter key =>
    simp only [Limiters.step] at h
    split at h
    · cases h
      exact ⟨c, getElem?_concat_of_some hc, rfl, fun _ _ => rfl⟩
    · cases h
  | consume i =>
    simp only [Limiters.step, Option.bind_eq_some_iff] at h
    obtain ⟨d, hd, h⟩ := h
    split at h
    · rename_i hph
      cases h
      exact hset hd fun b hb => by cases hph.symm.trans hb
    · cases h
  | resume i =>
    simp only [Limiters.step, Option.bind_eq_some_iff] at h
    obtain ⟨d, hd, last, -, h⟩ := h
    split at h
    · rename_i allowed hph
      have hno : ∀ b, d.phase ≠ .returned b := fun b hb => by cases hph.symm.trans hb
      split at h
      · cases h
        exact hset hd hno
      · cases h
        exact hset hd hno
    · cases h
  | sweep i =>
    simp only [Limiters.step, Option.bind_eq_some_iff] at h
    obtain ⟨d, hd, h⟩ := h
    split at h
    · rename_i allowed hph
      cases h
      exact hset hd fun b hb => by cases hph.symm.trans hb
    · cases h

/-- Let through by the limiter, and not answered with an error. -/
def SubmissionPhase.admitted : SubmissionPhase → Bool
  | .acquiring | .fetching | .storing _ | .enqueueing _ | .launching .. => true
  | .answered (.accepted ..) => true
  | _ => false

/-- Before the lookup, or answered by it. -/
def SubmissionPhase.free : SubmissionPhase → Bool
  | .received | .answered (.ok _) => true
  | _ => false

theorem SubmissionStep.admitted {db db' : Db} {i : Nat} {sub : Submission} {a : SubmissionAction}
    {ph : SubmissionPhase} {e : Event} (h : SubmissionStep db i sub a db' ph e)
    (hph : ph.admitted = true) : sub.phase.admitted = true ∨ a = .tryConsume true := by
  cases h with
  | allowed _ => exact Or.inr rfl
  | _ => simp_all [SubmissionPhase.admitted]

theorem SubmissionStep.free {db db' : Db} {i : Nat} {sub : Submission} {a : SubmissionAction}
    {ph : SubmissionPhase} {e : Event} (h : SubmissionStep db i sub a db' ph e)
    (hph : ph.free = true) : sub.phase.free = true := by
  cases h <;> simp_all [SubmissionPhase.free]

namespace LimitedFleet

variable {s s' : LimitedFleet}

/-- Who is charged for what. -/
structure Inv (cfg : RateLimiterConfig) (clock : Int) (s : LimitedFleet) : Prop where
  fleet : s.fleet.Reachable
  limiters : Limiters.Reach cfg (Limiters.SweepsSpent cfg) clock s.limiters
  handled : s.handlings.length = s.fleet.submissions.length
  called : ∀ (i : Nat) (h : Handling) (n : Nat), s.handlings[i]? = some h → h.call = some n →
    ∃ c : ConsumeCall, s.limiters.calls[n]? = some c ∧ c.key = h.ip
  apart : ∀ (i j : Nat) (h h' : Handling) (n : Nat), s.handlings[i]? = some h →
    s.handlings[j]? = some h' → h.call = some n → h'.call = some n → i = j
  free : ∀ (i : Nat) (sub : Submission) (h : Handling), s.fleet.submissions[i]? = some sub →
    s.handlings[i]? = some h → sub.phase.free = true → h.call = none
  paid : ∀ (i : Nat) (sub : Submission), s.fleet.submissions[i]? = some sub →
    sub.phase.admitted = true → ∃ n, s.Paid i n
  created : ∀ i ∈ s.fleet.log.filterMap Event.creator, ∃ n, s.Paid i n

/-- What is paid for stays so while handlings and calls are kept. -/
theorem Paid.mono {i n : Nat} (hp : s.Paid i n)
    (hh : ∀ h, s.handlings[i]? = some h → h.call = some n → s'.handlings[i]? = some h)
    (hc : ∀ c, s.limiters.calls[n]? = some c → c.phase = .returned true →
      s'.limiters.calls[n]? = some c) : s'.Paid i n := by
  obtain ⟨h, c, hhi, hcall, hcn, hkey, hph⟩ := hp
  exact ⟨h, c, hh h hhi hcall, hcall, hc c hcn hph, hkey, hph⟩

/-- The creator of a job was let through. -/
theorem Inv.creator (hi : Inv cfg clock s) {a : Action} {fleet : Fleet}
    (h : s.fleet.step a = some fleet) :
    ∀ i ∈ fleet.log.filterMap Event.creator, ∃ n, s.Paid i n := by
  obtain ⟨e, hlog, hs⟩ := step_spec (valid_of_reachable hi.fleet) h
  intro i hmem
  rw [hlog] at hmem
  obtain ⟨e', he', hcr⟩ := List.mem_filterMap.mp hmem
  rcases List.mem_cons.mp he' with rfl | he'
  · cases e' with
    | created k job c =>
      obtain rfl : k = i := Option.some.inj hcr
      obtain ⟨sub, turns, hsub, hph, -⟩ := hs.effect.of_created
      exact hi.paid k sub hsub (by rw [hph]; rfl)
    | _ => cases hcr
  · exact hi.created i (List.mem_filterMap.mpr ⟨e', he', hcr⟩)

/-- A step of the fleet, where what the limiter is said to answer has been paid for. -/
theorem Inv.fleet_step (hi : Inv cfg clock s) {a : Action} {fleet : Fleet}
    (h : s.fleet.step a = some fleet) (hsubmit : ∀ request build, a ≠ .submit request build)
    (hconsume : ∀ i, a = .submission i (.tryConsume true) → ∃ n, s.Paid i n) :
    Inv cfg clock { s with fleet := fleet } where
  fleet := .next hi.fleet trivial h
  limiters := hi.limiters
  handled := by
    rw [hi.handled]
    cases FleetStep.of_eq h with
    | submit request build => exact absurd rfl (hsubmit request build)
    | submission hsub hst => exact List.length_set.symm
    | _ => rfl
  called := hi.called
  apart := hi.apart
  free := by
    intro i sub' h' hsub' hh hfree
    rcases step_submissions h hsub' with
      hsub | ⟨request, build, rfl, -, -⟩ | ⟨sub, act, ph, e, -, hsub, hst, rfl, -⟩
    · exact hi.free i sub' h' hsub hh hfree
    · exact absurd rfl (hsubmit request build)
    · exact hi.free i sub h' hsub hh (hst.free hfree)
  paid := by
    intro i sub' hsub' hadmitted
    rcases step_submissions h hsub' with
      hsub | ⟨_, _, -, -, rfl⟩ | ⟨sub, act, ph, e, rfl, hsub, hst, rfl, -⟩
    · exact hi.paid i sub' hsub hadmitted
    · cases hadmitted
    · rcases hst.admitted hadmitted with hold | rfl
      · exact hi.paid i sub hsub hold
      · exact hconsume i rfl
  created := hi.creator h

theorem Inv.submit (hi : Inv cfg clock s) {request : SubmitRequest} {build : EngineBuild}
    {fleet : Fleet} (h : s.fleet.step (.submit request build) = some fleet) (limiter : Nat)
    (ip : String) :
    Inv cfg clock
      { s with fleet := fleet, handlings := s.handlings ++ [⟨limiter, ip, none⟩] } := by
  have hpaid : ∀ {i : Nat}, (∃ n, s.Paid i n) → ∃ n, LimitedFleet.Paid
      { s with fleet := fleet, handlings := s.handlings ++ [⟨limiter, ip, none⟩] } i n := by
    rintro i ⟨n, hp⟩
    exact ⟨n, hp.mono (fun _ hh _ => getElem?_concat_of_some hh) fun _ hc _ => hc⟩
  refine ⟨.next hi.fleet trivial h, hi.limiters, ?_, ?_, ?_, ?_, ?_, ?_⟩
  · cases h
    rw [List.length_append, List.length_append, hi.handled]
    rfl
  · intro i h' n hh hcall
    rcases getElem?_concat_cases hh with hh | ⟨-, rfl⟩
    · exact hi.called i h' n hh hcall
    · cases hcall
  · intro i j h₁ h₂ n hh₁ hh₂ hcall₁ hcall₂
    rcases getElem?_concat_cases hh₁ with hh₁ | ⟨-, rfl⟩
    · rcases getElem?_concat_cases hh₂ with hh₂ | ⟨-, rfl⟩
      · exact hi.apart i j h₁ h₂ n hh₁ hh₂ hcall₁ hcall₂
      · cases hcall₂
    · cases hcall₁
  · intro i sub' h' hsub' hh hfree
    rcases getElem?_concat_cases hh with hh | ⟨-, rfl⟩
    · rcases step_submissions h hsub' with
        hsub | ⟨_, _, -, hlast, -⟩ | ⟨sub, act, ph, e, hact, -⟩
      · exact hi.free i sub' h' hsub hh hfree
      · obtain ⟨hlt, -⟩ := List.getElem?_eq_some_iff.mp hh
        rw [hi.handled, hlast] at hlt
        exact absurd hlt (Nat.lt_irrefl _)
      · cases hact
    · rfl
  · intro i sub' hsub' hadmitted
    rcases step_submissions h hsub' with hsub | ⟨_, _, -, -, rfl⟩ | ⟨sub, act, ph, e, hact, -⟩
    · exact hpaid (hi.paid i sub' hsub hadmitted)
    · cases hadmitted
    · cases hact
  · intro i hmem
    exact hpaid (hi.creator h i hmem)

/-- A step of the limiters that adds no call. -/
theorem Inv.limiters_step (hi : Inv cfg clock s) {a : LimiterAction} {limiters : Limiters}
    (h : s.limiters.step cfg a = some limiters) (hs : s.limiters.SweepsSpent cfg a) :
    Inv cfg clock { s with limiters := limiters } := by
  have hpaid : ∀ {i : Nat}, (∃ n, s.Paid i n) →
      ∃ n, LimitedFleet.Paid { s with limiters := limiters } i n := by
    rintro i ⟨n, hp⟩
    refine ⟨n, hp.mono (fun _ hh _ => hh) fun c hc hph => ?_⟩
    obtain ⟨c', hc', -, hret⟩ := Limiters.step_calls h hc
    rw [hret true hph] at hc'
    exact hc'
  refine ⟨hi.fleet, .next hi.limiters hs h, hi.handled, ?_, hi.apart, hi.free, ?_, ?_⟩
  · intro i h' n hh hcall
    obtain ⟨c, hc, hkey⟩ := hi.called i h' n hh hcall
    obtain ⟨c', hc', hkey', -⟩ := Limiters.step_calls h hc
    exact ⟨c', hc', hkey'.trans hkey⟩
  · exact fun i sub hsub hadmitted => hpaid (hi.paid i sub hsub hadmitted)
  · exact fun i hmem => hpaid (hi.created i hmem)

/-- The call a submission makes is its own. -/
theorem Inv.tryConsume (hi : Inv cfg clock s) {i : Nat} {sub : Submission} {h : Handling}
    {limiters : Limiters} (hsub : s.fleet.submissions[i]? = some sub)
    (hlimiting : sub.phase = .limiting) (hh : s.handlings[i]? = some h) (hnone : h.call = none)
    (hl : s.limiters.step cfg (.tryConsume h.limiter h.ip) = some limiters) :
    Inv cfg clock { s with
      limiters := limiters
      handlings := s.handlings.set i { h with call := some s.limiters.calls.length } } := by
  have hcalls : limiters.calls =
      s.limiters.calls ++ [⟨h.limiter, h.ip, s.limiters.clock, .consuming⟩] := by
    simp only [Limiters.step] at hl
    split at hl
    · cases hl
      rfl
    · cases hl
  have hkeep : ∀ {n : Nat} {c : ConsumeCall}, s.limiters.calls[n]? = some c →
      limiters.calls[n]? = some c := fun hc => hcalls ▸ getElem?_concat_of_some hc
  have hback : ∀ {j : Nat} {h' : Handling} {n : Nat},
      (s.handlings.set i { h with call := some s.limiters.calls.length })[j]? = some h' →
      h'.call = some n → (s.handlings[j]? = some h' ∧ n < s.limiters.calls.length) ∨
        (i = j ∧ h' = { h with call := some s.limiters.calls.length } ∧
          n = s.limiters.calls.length) := by
    intro j h' n hj hcall
    rcases getElem?_set_back hh hj with hj | ⟨rfl, rfl⟩
    · obtain ⟨c, hc, -⟩ := hi.called j h' n hj hcall
      obtain ⟨hlt, -⟩ := List.getElem?_eq_some_iff.mp hc
      exact Or.inl ⟨hj, hlt⟩
    · exact Or.inr ⟨rfl, rfl, (Option.some.inj hcall).symm⟩
  have hpaid : ∀ {j : Nat}, (∃ n, s.Paid j n) → ∃ n, LimitedFleet.Paid { s with
      limiters := limiters
      handlings := s.handlings.set i { h with call := some s.limiters.calls.length } } j n := by
    rintro j ⟨n, hp⟩
    refine ⟨n, hp.mono (fun h' hj hcall => ?_) fun _ hc _ => hkeep hc⟩
    by_cases hij : i = j
    · subst hij
      obtain rfl := Option.some.inj (hh.symm.trans hj)
      rw [hnone] at hcall
      cases hcall
    · exact (List.getElem?_set_ne hij).trans hj
  have hspent : s.limiters.SweepsSpent cfg (.tryConsume h.limiter h.ip) := trivial
  refine ⟨hi.fleet, .next hi.limiters hspent hl, ?_, ?_, ?_, ?_, ?_, ?_⟩
  · exact List.length_set.trans hi.handled
  · intro j h' n hj hcall
    rcases hback hj hcall with ⟨hj, -⟩ | ⟨-, rfl, rfl⟩
    · obtain ⟨c, hc, hkey⟩ := hi.called j h' n hj hcall
      exact ⟨c, hkeep hc, hkey⟩
    · refine ⟨⟨h.limiter, h.ip, s.limiters.clock, .consuming⟩, ?_, rfl⟩
      show limiters.calls[s.limiters.calls.length]? = _
      rw [hcalls]
      exact List.getElem?_concat_length
  · intro j k h₁ h₂ n hj hk hcall₁ hcall₂
    rcases hback hj hcall₁ with ⟨hj, hlt⟩ | ⟨rfl, -, hn⟩ <;>
      rcases hback hk hcall₂ with ⟨hk, hlt'⟩ | ⟨rfl, -, hn'⟩
    · exact hi.apart j k h₁ h₂ n hj hk hcall₁ hcall₂
    · omega
    · omega
    · rfl
  · intro j sub' h' hsub' hj hfree
    rcases getElem?_set_back hh hj with hj | ⟨rfl, rfl⟩
    · exact hi.free j sub' h' hsub' hj hfree
    · obtain rfl := Option.some.inj (hsub.symm.trans hsub')
      rw [hlimiting] at hfree
      cases hfree
  · exact fun j sub' hsub' hadmitted => hpaid (hi.paid j sub' hsub' hadmitted)
  · exact fun j hmem => hpaid (hi.created j hmem)

theorem Inv.step (hi : Inv cfg clock s) {a : LimitedAction} (hs : s.SweepsSpent cfg a)
    (h : s.step cfg a = some s') : Inv cfg clock s' := by
  cases a with
  | submit limiter ip request build =>
    simp only [LimitedFleet.step, Option.map_eq_some_iff] at h
    obtain ⟨fleet, hf, rfl⟩ := h
    exact hi.submit hf limiter ip
  | tryConsume i =>
    simp only [LimitedFleet.step, Option.bind_eq_some_iff] at h
    obtain ⟨sub, hsub, hd, hh, h⟩ := h
    split at h
    · rename_i hph hcall
      obtain ⟨limiters, hl, rfl⟩ := Option.map_eq_some_iff.mp h
      exact hi.tryConsume hsub hph hh hcall hl
    · cases h
  | resume i =>
    simp only [LimitedFleet.step, Option.bind_eq_some_iff] at h
    obtain ⟨hd, hh, n, hcall, c, hc, h⟩ := h
    split at h
    · rename_i allowed hph
      obtain ⟨fleet, hf, rfl⟩ := Option.map_eq_some_iff.mp h
      refine hi.fleet_step hf (fun _ _ ha => by cases ha) fun k ha => ?_
      cases ha
      obtain ⟨c', hc', hkey⟩ := hi.called i hd n hh hcall
      obtain rfl := Option.some.inj (hc.symm.trans hc')
      exact ⟨n, hd, c, hh, hcall, hc, hkey, hph⟩
    · cases h
  | limiters action =>
    simp only [LimitedFleet.step] at h
    split at h
    · cases h
    · obtain ⟨limiters, hl, rfl⟩ := Option.map_eq_some_iff.mp h
      exact hi.limiters_step hl hs
  | fleet action =>
    simp only [LimitedFleet.step] at h
    split at h
    · cases h
    · rename_i hlimited
      obtain ⟨fleet, hf, rfl⟩ := Option.map_eq_some_iff.mp h
      refine hi.fleet_step hf ?_ ?_
      · rintro request build rfl
        exact hlimited rfl
      · rintro i rfl
        exact absurd rfl hlimited

theorem inv_of_reach
    (h : StepSystem.Reach (LimitedFleet.step cfg) (SweepsSpent cfg) (init clock) s) :
    Inv cfg clock s := by
  refine StepSystem.Reach.invariant (I := fun s => Inv cfg clock s) ?_
    (fun s a s' hi hs hst => hi.step hs hst) h
  have hnil : ∀ {α : Type} {i : Nat} {x : α}, ([] : List α)[i]? = some x → False :=
    fun h => by cases h
  exact ⟨.init, .init, rfl, fun _ _ _ h => (hnil h).elim, fun _ _ _ _ _ h => (hnil h).elim,
    fun _ _ _ h => (hnil h).elim, fun _ _ h => (hnil h).elim,
    fun _ h => (List.not_mem_nil h).elim⟩

/-! ## Charges -/

theorem Paid.charge {i n : Nat} (h : s.Paid i n) :
    ∃ c, s.charge i = some c ∧ s.limiters.calls[n]? = some c ∧ c.phase = .returned true := by
  obtain ⟨hd, c, hh, hcall, hc, -, hph⟩ := h
  refine ⟨c, ?_, hc, hph⟩
  simp only [LimitedFleet.charge, hh, hcall, hc, Option.bind_some]

/-- **The creations counted in a window are fewer than the calls allowed in it.** -/
theorem Inv.creations_le (hi : Inv cfg clock s) (k : String × Int) :
    s.creations cfg k ≤ s.limiters.granted cfg k := by
  let creators := (s.fleet.log.filterMap Event.creator).filter fun i =>
    (s.charge i).any fun c => c.window cfg = k
  let callOf : Nat → Nat := fun i => ((s.handlings[i]?).bind Handling.call).getD 0
  have hcall : ∀ i ∈ creators, ∃ h c, s.handlings[i]? = some h ∧ h.call = some (callOf i) ∧
      s.limiters.calls[callOf i]? = some c ∧ c.phase = .returned true ∧ c.window cfg = k := by
    intro i hmem
    obtain ⟨hmem, hwindow⟩ := List.mem_filter.mp hmem
    obtain ⟨n, h, c, hh, hn, hc, -, hph⟩ := hi.created i hmem
    have hof : callOf i = n := by
      show ((s.handlings[i]?).bind Handling.call).getD 0 = n
      rw [hh, Option.bind_some, hn, Option.getD_some]
    have hcharge : s.charge i = some c := by
      simp only [LimitedFleet.charge, hh, hn, hc, Option.bind_some]
    rw [hcharge, Option.any_some, decide_eq_true_eq] at hwindow
    exact ⟨h, c, hh, hof.symm ▸ hn, hof.symm ▸ hc, hph, hwindow⟩
  have hcount : s.creations cfg k = (creators.map callOf).length := by
    rw [List.length_map, ← List.countP_eq_length_filter, List.countP_filterMap]
    refine List.countP_congr fun e _ => ?_
    cases e.creator <;> rfl
  have hnodup : (creators.map callOf).Nodup := by
    refine List.Nodup.map_on ?_ ((createsOnce_of_reachable hi.fleet).nodup.filter _)
    intro i hmem j hmem' heq
    obtain ⟨h, -, hh, hn, -⟩ := hcall i hmem
    obtain ⟨h', -, hh', hn', -⟩ := hcall j hmem'
    exact hi.apart i j h h' (callOf j) hh hh' (heq ▸ hn) hn'
  rw [hcount]
  refine Table.length_le_countP hnodup fun n hn => ?_
  obtain ⟨i, hmem, rfl⟩ := List.mem_map.mp hn
  obtain ⟨-, c, -, -, hc, hph, hwindow⟩ := hcall i hmem
  exact ⟨c, hc, by simp [hwindow, hph, ConsumePhase.allowed]⟩

end LimitedFleet

/-- **A created job is paid for.** In every run in which no sweep deletes a row that a call still
awaiting its consume statement would be counted in: every job was created by a submission whose
own call returned true under its address; the submissions counted for one address in one window
created at most `limit` jobs together; and a submission answered from the cache made no call. -/
theorem creations_charged {s : LimitedFleet}
    (h : StepSystem.Reach (LimitedFleet.step cfg) (LimitedFleet.SweepsSpent cfg)
      (LimitedFleet.init clock) s) :
    (∀ j ∈ s.fleet.db.jobs, ∃ i n, .created i j.id j.columns ∈ s.fleet.log ∧ s.Paid i n) ∧
    (∀ k, s.creations cfg k ≤ cfg.limit) ∧
    ∀ i sub a, s.fleet.submissions[i]? = some sub → sub.phase = .answered (.ok a) →
      s.charge i = none := by
  have hi := LimitedFleet.inv_of_reach h
  refine ⟨fun j hj => ?_, fun k => ?_, fun i sub a hsub hph => ?_⟩
  · obtain ⟨i, hcreated⟩ := (cacheHistory_of_reachable hi.fleet).created j hj
    obtain ⟨n, hn⟩ := hi.created i (List.mem_filterMap.mpr ⟨_, hcreated, rfl⟩)
    exact ⟨i, n, hcreated, hn⟩
  · exact (hi.creations_le k).trans ((windowOk_of_reach hi.limiters).2 k).ceiling
  · cases hh : s.handlings[i]? with
    | none => simp only [LimitedFleet.charge, hh, Option.bind_none]
    | some hd =>
      have hnone := hi.free i sub hd hsub hh (by rw [hph]; rfl)
      simp only [LimitedFleet.charge, hh, hnone, Option.bind_some, Option.bind_none]

end

namespace Sample

/-- One job in each ten milliseconds: the second submission of the address is refused. -/
def limited : List LimitedAction :=
  [.limiters .construct,
    .submit 0 "203.0.113.7" request build, .fleet (.submission 0 .lookup),
    .submit 0 "203.0.113.7" ⟨"gen9ou-2672927429", .p2, .quick⟩ build,
    .fleet (.submission 1 .lookup), .tryConsume 0, .tryConsume 1, .limiters (.consume 0),
    .limiters (.consume 1), .limiters (.resume 0), .limiters (.resume 1), .resume 0, .resume 1,
    .fleet (.submission 0 .replayLog),
    .fleet (.submission 0 (.fetch (.ok ("|turn|1", .obj [("formatid", .str "gen9ou")])))),
    .fleet (.submission 0 .upsertReplay), .fleet (.submission 0 (.enqueue 7 noon))]

end Sample

theorem creations_charged_limited :
    let s := StepSystem.afterIf (LimitedFleet.step Sample.limiterConfig)
      (LimitedFleet.SweepsSpent Sample.limiterConfig) (LimitedFleet.init 5) Sample.limited
    (s.fleet.db.jobs.map JobRow.id = [7] ∧
      s.limiters.calls.map ConsumeCall.phase = [.returned true, .returned false]) ∧
    ∀ k, s.creations Sample.limiterConfig k ≤ 1 :=
  ⟨by decide +kernel, (creations_charged (StepSystem.reach_afterIf Sample.limited)).2.1⟩

end BattleCloud
