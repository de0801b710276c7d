import Mathlib.Data.List.Basic

/-!
# Step systems: reachability, runs and conditions on steps

A step system is a partial step function `step : S → A → Option S`: an action that is not
possible in a state has no successor. Everything below is about an arbitrary one.

* `Reach step C s₀ s`: some run from `s₀` ends in `s` and every step of it meets the condition
  `C` on the state before it and the action. `Reachable` is the case without a condition.
* `Reach.invariant`: the induction rule for a property of the reachable states.
* `after` and `afterIf`: the state a list of actions leads to, for runs that are written out.
-/

namespace StepSystem

variable {S A : Type} (step : S → A → Option S)

/-- The states reached from `s₀` by steps that all meet `C`. -/
inductive Reach (C : S → A → Prop) (s₀ : S) : S → Prop
  | init : Reach C s₀ s₀
  | next {s s' : S} {a : A} : Reach C s₀ s → C s a → step s a = some s' → Reach C s₀ s'

/-- The states reached from `s₀`. -/
abbrev Reachable (s₀ : S) : S → Prop := Reach step (fun _ _ => True) s₀

/-- The run of a list of actions; `none` when one of them is not possible. -/
def exec : S → List A → Option S
  | s, [] => some s
  | s, a :: as => (step s a).bind fun s' => exec s' as

/-- The system that takes only the steps meeting `C`. -/
def guarded (C : S → A → Prop) [∀ s a, Decidable (C s a)] (s : S) (a : A) : Option S :=
  if C s a then step s a else none

/-- Where a list of actions leads; the start when one of them is not possible. -/
def after (s₀ : S) (as : List A) : S := (exec step s₀ as).getD s₀

/-- The same where every step has to meet `C`. -/
def afterIf (C : S → A → Prop) [∀ s a, Decidable (C s a)] (s₀ : S) (as : List A) : S :=
  (exec (guarded step C) s₀ as).getD s₀

variable {step} {C : S → A → Prop} {s₀ : S}

/-- **The invariant rule.** A property of `s₀` that every step meeting `C` preserves holds in
every state reached by such steps. -/
theorem Reach.invariant {I : S → Prop} (h0 : I s₀)
    (hs : ∀ s a s', I s → C s a → step s a = some s' → I s') {s : S}
    (h : Reach step C s₀ s) : I s := by
  induction h with
  | init => exact h0
  | next _ hc hst ih => exact hs _ _ _ ih hc hst

/-- The invariant rule where a step may use that its first state is reachable. -/
theorem Reach.invariant_of {I : S → Prop} (h0 : I s₀)
    (hs : ∀ s a s', Reach step C s₀ s → I s → C s a → step s a = some s' → I s') {s : S}
    (h : Reach step C s₀ s) : I s := by
  induction h with
  | init => exact h0
  | next hr hc hst ih => exact hs _ _ _ hr ih hc hst

/-- Runs compose. -/
theorem Reach.trans {s₁ s : S} (h₁ : Reach step C s₀ s₁) (h : Reach step C s₁ s) :
    Reach step C s₀ s := by
  induction h with
  | init => exact h₁
  | next _ hc hst ih => exact .next ih hc hst

/-- A run under a condition is one under a weaker condition. -/
theorem Reach.imp {D : S → A → Prop} (hcd : ∀ s a, C s a → D s a) {s : S}
    (h : Reach step C s₀ s) : Reach step D s₀ s := by
  induction h with
  | init => exact .init
  | next _ hc hst ih => exact .next ih (hcd _ _ hc) hst

/-- Dropping the condition. -/
theorem Reach.reachable {s : S} (h : Reach step C s₀ s) : Reachable step s₀ s :=
  h.imp fun _ _ _ => trivial

/-- The end of a run is reachable. -/
theorem reachable_of_exec {s : S} (hr : Reachable step s₀ s) :
    ∀ {as : List A} {s' : S}, exec step s as = some s' → Reachable step s₀ s'
  | [], s', h => by
    simp only [exec, Option.some.injEq] at h
    exact h ▸ hr
  | a :: as, s', h => by
    simp only [exec, Option.bind_eq_some_iff] at h
    obtain ⟨s₁, hst, h⟩ := h
    exact reachable_of_exec (.next hr trivial hst) h

/-- The end of a run of steps that all meet `C`. -/
theorem reach_of_exec_guarded [∀ s a, Decidable (C s a)] {s : S} (hr : Reach step C s₀ s) :
    ∀ {as : List A} {s' : S}, exec (guarded step C) s as = some s' → Reach step C s₀ s'
  | [], s', h => by
    simp only [exec, Option.some.injEq] at h
    exact h ▸ hr
  | a :: as, s', h => by
    simp only [exec, Option.bind_eq_some_iff] at h
    obtain ⟨s₁, hst, h⟩ := h
    unfold guarded at hst
    split at hst
    · rename_i hc
      exact reach_of_exec_guarded (.next hr hc hst) h
    · cases hst

theorem reachable_after (as : List A) : Reachable step s₀ (after step s₀ as) := by
  unfold after
  cases h : exec step s₀ as with
  | none => exact .init
  | some s => exact reachable_of_exec .init h

theorem reach_afterIf [∀ s a, Decidable (C s a)] (as : List A) :
    Reach step C s₀ (afterIf step C s₀ as) := by
  unfold afterIf
  cases h : exec (guarded step C) s₀ as with
  | none => exact .init
  | some s => exact reach_of_exec_guarded .init h

end StepSystem
