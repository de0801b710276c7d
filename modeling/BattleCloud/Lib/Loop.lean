import Mathlib.Data.List.Basic

/-!
# A loop that ends when its body says so

`while True: if not body(): return`. The body of the `k`-th iteration meets the `k`-th of an
arbitrary sequence of `turns`, may fail, and answers whether the loop goes on. `run` is the loop
with fuel; `Iterates` says in which state an iteration starts, without fuel.

`run_returns` is the termination rule: an invariant under which the body does not fail, and a
measure that every iteration that goes on lowers.
-/

namespace Loop

variable {S T ε : Type} (body : T → S → Except ε (S × Bool)) (turns : Nat → T)

/-- The loop from its `k`-th iteration: how many iterations went on, and the state it returns
in. `none` is out of fuel. -/
def run : Nat → Nat → S → Option (Except ε (Nat × S))
  | 0, _, _ => none
  | fuel + 1, k, s =>
    match body (turns k) s with
    | .error e => some (.error e)
    | .ok (s', false) => some (.ok (k, s'))
    | .ok (s', true) => run fuel (k + 1) s'

/-- The `k`-th iteration starts in this state. -/
inductive Iterates (s₀ : S) : Nat → S → Prop
  | start : Iterates s₀ 0 s₀
  | next {k : Nat} {s s' : S} : Iterates s₀ k s → body (turns k) s = .ok (s', true) →
      Iterates s₀ (k + 1) s'

/-- The state the `k`-th iteration starts in, if there is one. -/
def stateAt (s₀ : S) : Nat → Option S
  | 0 => some s₀
  | k + 1 => (stateAt s₀ k).bind fun s =>
    match body (turns k) s with
    | .ok (s', true) => some s'
    | _ => none

variable {body turns} {s₀ : S}

theorem Iterates.stateAt {k : Nat} {s : S} (h : Iterates body turns s₀ k s) :
    stateAt body turns s₀ k = some s := by
  induction h with
  | start => rfl
  | next _ hb ih => simp only [Loop.stateAt, ih, Option.bind_some, hb]

/-- After its last iteration a loop has no state. -/
theorem stateAt_none {k n : Nat} (h : stateAt body turns s₀ k = none) (hle : k ≤ n) :
    stateAt body turns s₀ n = none := by
  induction hle with
  | refl => exact h
  | step _ ih => simp only [stateAt, ih, Option.bind_none]

/-- **The termination rule.** The loop returns after at most as many iterations as the measure
says, out of an iteration that starts within the invariant. -/
theorem run_returns {I : S → Prop} {μ : S → Nat}
    (hbody : ∀ k s, Iterates body turns s₀ k s → I s →
      ∃ s' b, body (turns k) s = .ok (s', b) ∧ (b = true → I s' ∧ μ s' < μ s)) :
    ∀ {fuel k : Nat} {s : S}, μ s < fuel → Iterates body turns s₀ k s → I s →
      ∃ n s₁ s', run body turns fuel k s = some (.ok (k + n, s')) ∧ n ≤ μ s ∧
        Iterates body turns s₀ (k + n) s₁ ∧ I s₁ ∧ body (turns (k + n)) s₁ = .ok (s', false)
  | 0, _, _, hlt, _, _ => absurd hlt (Nat.not_lt_zero _)
  | fuel + 1, k, s, hlt, hit, hI => by
    obtain ⟨s', b, hb, hgo⟩ := hbody k s hit hI
    cases b with
    | false => exact ⟨0, s, s', by simp [run, hb], Nat.zero_le _, hit, hI, hb⟩
    | true =>
      obtain ⟨hI', hμ⟩ := hgo rfl
      have hfuel : μ s' < fuel := by omega
      obtain ⟨n, s₁, s₂, hrun, hn, hit', hI₁, hlast⟩ :=
        run_returns hbody hfuel (.next hit hb) hI'
      have hk : k + 1 + n = k + (n + 1) := by omega
      rw [hk] at hrun hit' hlast
      refine ⟨n + 1, s₁, s₂, ?_, by omega, hit', hI₁, hlast⟩
      simpa [run, hb] using hrun

end Loop
