import Mathlib.Algebra.GroupWithZero.Nat
import Mathlib.Data.List.Basic

/-!
# Runs between breaks

`List.splitOnP q` cuts a list at the elements that meet `q`. Its pieces are the maximal runs of
elements that do not, one of them empty wherever two breaks are neighbours.

`induction` is the induction on the breaks; what the runs contain and how they lie in the list
follows from it.
-/

namespace Runs

variable {α : Type}

/-- **Induction on the breaks of a list**: it has none, or its first run has none. -/
theorem induction {P : List α → Prop} {q : α → Bool}
    (single : ∀ l, (∀ c ∈ l, q c = false) → P l)
    (cons : ∀ l b cs, (∀ c ∈ l, q c = false) → q b = true → P cs → P (l ++ b :: cs))
    (cs : List α) : P cs := by
  have hread : ∀ (cs pre : List α), (∀ c ∈ pre, q c = false) → P (pre ++ cs) := by
    intro cs
    induction cs with
    | nil =>
      intro pre hpre
      rw [List.append_nil]
      exact single pre hpre
    | cons c cs ih =>
      intro pre hpre
      cases hc : q c with
      | true => exact cons pre c cs hpre hc (ih [] (by simp))
      | false =>
        rw [← List.singleton_append, ← List.append_assoc]
        refine ih (pre ++ [c]) (List.forall_mem_append.mpr ⟨hpre, ?_⟩)
        exact List.forall_mem_singleton.mpr hc
  exact hread cs [] (by simp)

/-- A run and the break behind it, all together. -/
theorem sum_length_splitOnP (q : α → Bool) (cs : List α) :
    ((cs.splitOnP q).map fun l => l.length + 1).sum = cs.length + 1 := by
  induction cs using induction (q := q) with
  | single l hl =>
    rw [List.splitOnP_eq_singleton hl, List.map_cons, List.map_nil, List.sum_cons, List.sum_nil,
      Nat.add_zero]
  | cons l b cs hl hb ih =>
    rw [List.splitOnP_append_cons_of_forall_mem hl b hb, List.map_cons, List.sum_cons, ih,
      List.length_append, List.length_cons]
    omega

variable {q : α → Bool}

/-- The runs hold what is no break, in order. -/
theorem flatten_splitOnP (cs : List α) :
    (cs.splitOnP q).flatten = cs.filter fun c => !q c := by
  have hfree : ∀ {l : List α}, (∀ c ∈ l, q c = false) → (l.filter fun c => !q c) = l := by
    intro l hl
    rw [List.filter_eq_self]
    intro c hc
    rw [hl c hc]
    rfl
  induction cs using induction (q := q) with
  | single l hl => rw [List.splitOnP_eq_singleton hl, List.flatten_singleton, hfree hl]
  | cons l b cs hl hb ih =>
    rw [List.splitOnP_append_cons_of_forall_mem hl b hb, List.flatten_cons, ih,
      List.filter_append, hfree hl, List.filter_cons_of_neg (by simp [hb])]

/-- A run has no breaks, and lies in the list as it is. -/
theorem mem_splitOnP {cs run : List α} (h : run ∈ cs.splitOnP q) :
    (∀ c ∈ run, q c = false) ∧ run <:+: cs := by
  induction cs using induction (q := q) with
  | single l hl =>
    rw [List.splitOnP_eq_singleton hl] at h
    rw [List.mem_singleton.mp h]
    exact ⟨hl, List.infix_refl l⟩
  | cons l b cs hl hb ih =>
    rw [List.splitOnP_append_cons_of_forall_mem hl b hb] at h
    rcases List.mem_cons.mp h with rfl | h
    · exact ⟨hl, (List.prefix_append _ _).isInfix⟩
    · obtain ⟨hfree, hin⟩ := ih h
      exact ⟨hfree, hin.trans ((List.suffix_cons b cs).trans (List.suffix_append l _)).isInfix⟩

/-- An element that is no break stands in front of the first break, or behind it. -/
theorem before_or_behind {a b : α} (ha : q a = false) (hb : q b = true) {pre post l cs : List α}
    (h : pre ++ a :: post = l ++ b :: cs) :
    (∃ m, l = pre ++ a :: m ∧ post = m ++ b :: cs) ∨
      ∃ m, pre = l ++ b :: m ∧ cs = m ++ a :: post := by
  have hne : a ≠ b := by
    rintro rfl
    rw [ha] at hb
    cases hb
  rcases List.append_eq_append_iff.mp h with ⟨m, hl, hpost⟩ | ⟨m, hpre, hcs⟩
  · cases m with
    | nil => exact absurd (List.cons.inj hpost).1 hne
    | cons x m =>
      obtain ⟨rfl, hrest⟩ := List.cons.inj hpost
      exact Or.inl ⟨m, hl, hrest⟩
  · cases m with
    | nil => exact absurd (List.cons.inj hcs).1.symm hne
    | cons x m =>
      obtain ⟨rfl, hrest⟩ := List.cons.inj hcs
      exact Or.inr ⟨m, hpre, hrest⟩

/-- **Neighbours that are no breaks are in one run.** -/
theorem neighbours_splitOnP {a b : α} (ha : q a = false) (hb : q b = false) {pre post : List α} :
    ∃ run ∈ (pre ++ a :: b :: post).splitOnP q, a ∈ run ∧ b ∈ run := by
  generalize hcs : pre ++ a :: b :: post = cs
  induction cs using induction (q := q) generalizing pre post with
  | single l hl =>
    refine ⟨l, ?_, by simp [← hcs], by simp [← hcs]⟩
    rw [List.splitOnP_eq_singleton hl]
    exact List.mem_cons_self
  | cons l c cs hl hc ih =>
    rw [List.splitOnP_append_cons_of_forall_mem hl c hc]
    rcases before_or_behind ha hc hcs with ⟨m, rfl, hpost⟩ | ⟨m, -, hcs⟩
    · refine ⟨_, List.mem_cons_self, by simp, ?_⟩
      -- the break is not `b`, so it comes behind it
      cases m with
      | nil =>
        rw [(List.cons.inj hpost).1, hc] at hb
        cases hb
      | cons x m =>
        rw [(List.cons.inj hpost).1]
        simp
    · obtain ⟨run, hrun, hmem⟩ := ih hcs.symm
      exact ⟨run, List.mem_cons_of_mem _ hrun, hmem⟩

/-- An element without a neighbour that is no break either. -/
def Alone (q : α → Bool) (a : α) (cs : List α) : Prop :=
  ∃ pre post, cs = pre ++ a :: post ∧ q a = false ∧ (∀ b ∈ pre.getLast?, q b = true) ∧
    ∀ b ∈ post.head?, q b = true

/-- Without breaks there is nothing beside it. -/
theorem eq_singleton_of_alone {a : α} {pre post : List α}
    (h : ∀ c ∈ pre ++ a :: post, q c = false) (hpre : ∀ b ∈ pre.getLast?, q b = true)
    (hpost : ∀ b ∈ post.head?, q b = true) : pre ++ a :: post = [a] := by
  have hleft : pre = [] := by
    by_contra hne
    have hlast := hpre _ (List.getLast?_eq_getLast_of_ne_nil hne)
    rw [h _ (List.mem_append_left _ (List.getLast_mem hne))] at hlast
    cases hlast
  have hright : post = [] := by
    cases post with
    | nil => rfl
    | cons b post =>
      have hhead := hpost b rfl
      rw [h b (by simp)] at hhead
      cases hhead
  rw [hleft, hright]
  rfl

/-- **The runs of one element are the elements that stand alone.** -/
theorem singleton_mem_splitOnP {a : α} {cs : List α} :
    [a] ∈ cs.splitOnP q ↔ Alone q a cs := by
  induction cs using induction (q := q) with
  | single l hl =>
    rw [List.splitOnP_eq_singleton hl, List.mem_singleton]
    constructor
    · rintro rfl
      exact ⟨[], [], rfl, hl a List.mem_cons_self, by simp, by simp⟩
    · rintro ⟨pre, post, rfl, -, hpre, hpost⟩
      exact (eq_singleton_of_alone hl hpre hpost).symm
  | cons l b cs hl hb ih =>
    have hlast : ∀ m : List α, (l ++ b :: m).getLast? = some (m.getLast?.getD b) := by
      intro m
      cases m with
      | nil => rw [List.getLast?_concat]; rfl
      | cons x m =>
        rw [List.getLast?_append_of_ne_nil _ (List.cons_ne_nil b _), List.getLast?_cons_cons,
          List.getLast?_eq_getLast_of_ne_nil (List.cons_ne_nil x m)]
        rfl
    rw [List.splitOnP_append_cons_of_forall_mem hl b hb, List.mem_cons, ih]
    constructor
    · rintro (rfl | ⟨pre, post, rfl, ha, hpre, hpost⟩)
      · exact ⟨[], b :: cs, rfl, hl a List.mem_cons_self, by simp, by simpa using hb⟩
      · refine ⟨l ++ b :: pre, post, by simp, ha, ?_, hpost⟩
        intro c hc
        rw [hlast, Option.mem_some_iff] at hc
        cases hp : pre.getLast? with
        | none =>
          rw [hp] at hc
          exact hc ▸ hb
        | some x =>
          rw [hp] at hc
          exact hpre c (hc ▸ hp)
    · rintro ⟨pre, post, h, ha, hpre, hpost⟩
      rcases before_or_behind ha hb h.symm with ⟨m, rfl, rfl⟩ | ⟨m, rfl, rfl⟩
      · refine Or.inl (eq_singleton_of_alone hl hpre ?_).symm
        intro c hc
        exact hpost c (by rw [List.head?_append, hc]; rfl)
      · refine Or.inr ⟨m, post, rfl, ha, ?_, hpost⟩
        intro c hc
        exact hpre c (by rw [hlast, hc]; rfl)

end Runs
