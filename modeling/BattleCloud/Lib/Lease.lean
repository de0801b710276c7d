import Mathlib.Data.List.Basic

/-!
# Leases on one resource

A resource is free, held by one of the parties `P`, or finished for good. `Holder.next` is the
automaton of its moves; a history (newest move first) is *lawful* when every move was possible
where it was made (`holder` is defined). The lemmas are what fencing rests on: between two takes
there is a release, a resource is finished at most once and by its holder, and a party whose
lease was released does not hold the resource again before it takes it again.
-/

namespace Lease

variable {P : Type}

/-- What an event does to the resource. -/
inductive Move (P : Type) where
  | take (p : P)
  | release
  | finish (p : P)
  | other

inductive Holder (P : Type) where
  | free
  | held (p : P)
  | done

def Holder.next [DecidableEq P] : Holder P → Move P → Option (Holder P)
  | h, .other => some h
  | .free, .take p => some (.held p)
  | .held _, .release => some .free
  | .held q, .finish p => if p = q then some .done else none
  | _, _ => none

def Move.isFinish : Move P → Bool
  | .finish _ => true
  | _ => false

/-- How often a resource in this state was finished. -/
def Holder.finishes : Holder P → Nat
  | .done => 1
  | _ => 0

theorem Holder.finishes_le (h : Holder P) : h.finishes ≤ 1 := by
  cases h <;> simp [finishes]

variable [DecidableEq P]

/-- Who has the resource after a history; `none` when some move of it was not possible. -/
def holder : List (Move P) → Option (Holder P)
  | [] => some .free
  | m :: ms => (holder ms).bind fun h => h.next m

theorem holder_cons {m : Move P} {ms : List (Move P)} {h : Holder P}
    (hm : holder (m :: ms) = some h) : ∃ h₀, holder ms = some h₀ ∧ h₀.next m = some h := by
  simpa only [holder, Option.bind_eq_some_iff] using hm

theorem next_release {h h' : Holder P} (hn : h.next .release = some h') : h' = .free := by
  cases h with
  | held p => exact (Option.some.inj hn).symm
  | free => cases hn
  | done => cases hn

theorem next_take {h h' : Holder P} {p : P} (hn : h.next (.take p) = some h') :
    h = .free ∧ h' = .held p := by
  cases h with
  | free => exact ⟨rfl, (Option.some.inj hn).symm⟩
  | held q => cases hn
  | done => cases hn

theorem next_finish {h h' : Holder P} {p : P} (hn : h.next (.finish p) = some h') :
    h = .held p ∧ h' = .done := by
  cases h with
  | free => cases hn
  | held q =>
    simp only [Holder.next] at hn
    split at hn
    · rename_i hp
      exact ⟨by rw [hp], (Option.some.inj hn).symm⟩
    · cases hn
  | done => cases hn

/-- The older part of a lawful history is lawful. -/
theorem holder_append {l₁ l₂ : List (Move P)} {h : Holder P} (hl : holder (l₁ ++ l₂) = some h) :
    ∃ h₀, holder l₂ = some h₀ := by
  induction l₁ generalizing h with
  | nil => exact ⟨h, hl⟩
  | cons m ms ih =>
    obtain ⟨h₁, hm, -⟩ := holder_cons hl
    exact ih hm

/-- Without a release, what is not free does not become free. -/
theorem not_free_of_no_release {l₁ l₂ : List (Move P)} {h₀ h : Holder P}
    (h₂ : holder l₂ = some h₀) (hl : holder (l₁ ++ l₂) = some h) (hne : h₀ ≠ .free)
    (hnr : .release ∉ l₁) : h ≠ .free := by
  induction l₁ generalizing h with
  | nil =>
    rw [List.nil_append, h₂] at hl
    exact Option.some.inj hl ▸ hne
  | cons m ms ih =>
    obtain ⟨h₁, hm, hn⟩ := holder_cons hl
    have h₁ne := ih hm fun hr => hnr (List.mem_cons_of_mem _ hr)
    cases m with
    | release => exact absurd List.mem_cons_self hnr
    | take p => exact absurd (next_take hn).1 h₁ne
    | finish p =>
      rw [(next_finish hn).2]
      exact nofun
    | other => exact Option.some.inj hn ▸ h₁ne

/-- **Between two takes there is a release.** -/
theorem release_between {l₁ l₂ l₃ : List (Move P)} {p q : P} {h : Holder P}
    (hl : holder (l₁ ++ .take q :: (l₂ ++ .take p :: l₃)) = some h) : .release ∈ l₂ := by
  obtain ⟨h₁, hq⟩ := holder_append hl
  obtain ⟨h₂, hl₂, hn₂⟩ := holder_cons hq
  obtain ⟨h₃, hp⟩ := holder_append hl₂
  obtain ⟨h₄, -, hn₄⟩ := holder_cons hp
  by_contra hnr
  refine not_free_of_no_release hp hl₂ ?_ hnr (next_take hn₂).1
  rw [(next_take hn₄).2]
  exact nofun

/-- A finish is made by the holder. -/
theorem held_of_finish {l₁ l₂ : List (Move P)} {p : P} {h : Holder P}
    (hl : holder (l₁ ++ .finish p :: l₂) = some h) : holder l₂ = some (.held p) := by
  obtain ⟨h₁, hf⟩ := holder_append hl
  obtain ⟨h₂, hl₂, hn⟩ := holder_cons hf
  rw [hl₂, (next_finish hn).1]

/-- **A resource is finished at most once**, and once it is nobody has it. -/
theorem countP_finish {ms : List (Move P)} {h : Holder P} (hl : holder ms = some h) :
    ms.countP Move.isFinish = h.finishes := by
  induction ms generalizing h with
  | nil =>
    cases hl
    rfl
  | cons m ms ih =>
    obtain ⟨h₁, hm, hn⟩ := holder_cons hl
    rw [List.countP_cons, ih hm]
    cases m with
    | take p =>
      obtain ⟨rfl, rfl⟩ := next_take hn
      rfl
    | release =>
      obtain rfl := next_release hn
      cases h₁ with
      | held q => rfl
      | free => cases hn
      | done => cases hn
    | finish p =>
      obtain ⟨rfl, rfl⟩ := next_finish hn
      rfl
    | other =>
      obtain rfl := Option.some.inj hn
      rfl

/-- Without a take of its own, a party comes to hold nothing. -/
theorem not_held_of_no_take {l₁ l₂ : List (Move P)} {h₀ h : Holder P} {p : P}
    (h₂ : holder l₂ = some h₀) (hl : holder (l₁ ++ l₂) = some h) (hne : h₀ ≠ .held p)
    (hnt : .take p ∉ l₁) : h ≠ .held p := by
  induction l₁ generalizing h with
  | nil =>
    rw [List.nil_append, h₂] at hl
    exact Option.some.inj hl ▸ hne
  | cons m ms ih =>
    obtain ⟨h₁, hm, hn⟩ := holder_cons hl
    have h₁ne := ih hm fun ht => hnt (List.mem_cons_of_mem _ ht)
    cases m with
    | release =>
      rw [next_release hn]
      exact nofun
    | take q =>
      rw [(next_take hn).2]
      rintro ⟨⟩
      exact hnt List.mem_cons_self
    | finish q =>
      rw [(next_finish hn).2]
      exact nofun
    | other => exact Option.some.inj hn ▸ h₁ne

/-- **A released party holds nothing** until it takes the resource again. -/
theorem not_held_of_released {l₁ l₂ : List (Move P)} {p : P} {h : Holder P}
    (hl : holder (l₁ ++ l₂) = some h) (hr : .release ∈ l₁) (hnt : .take p ∉ l₁) :
    h ≠ .held p := by
  obtain ⟨a, b, rfl⟩ := List.append_of_mem hr
  rw [List.append_assoc, List.cons_append] at hl
  obtain ⟨h₁, hrel⟩ := holder_append hl
  obtain ⟨h₂, -, hn⟩ := holder_cons hrel
  refine not_held_of_no_take hrel hl ?_ fun ht => hnt (List.mem_append_left _ ht)
  rw [next_release hn]
  exact nofun

/-- Whoever holds the resource took it last. -/
theorem held_last {ms : List (Move P)} {p : P} (hl : holder ms = some (.held p)) :
    ∃ l₁ l₂, ms = l₁ ++ .take p :: l₂ ∧ ∀ m ∈ l₁, m = .other := by
  induction ms with
  | nil => cases hl
  | cons m ms ih =>
    obtain ⟨h₁, hm, hn⟩ := holder_cons hl
    cases m with
    | take q =>
      obtain ⟨-, hq⟩ := next_take hn
      cases hq
      exact ⟨[], ms, rfl, fun m hm => absurd hm List.not_mem_nil⟩
    | release => cases next_release hn
    | finish q => cases (next_finish hn).2
    | other =>
      obtain rfl := Option.some.inj hn
      obtain ⟨l₁, l₂, rfl, hall⟩ := ih hm
      refine ⟨.other :: l₁, l₂, rfl, fun m hm => ?_⟩
      rcases List.mem_cons.mp hm with rfl | hm
      · rfl
      · exact hall m hm

end Lease
