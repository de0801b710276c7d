import Mathlib.Data.List.Forall2

/-!
# Partial functions along a list

`xs.mapM f` for a partial `f`: it is defined if `f` is on every element (`mapM_isSome`), and then
it is `xs.map f` (`mapM_eq_some`).
-/

namespace Traverse

variable {α β : Type} {f : α → Option β}

theorem mapM_eq_some {xs : List α} {ys : List β} :
    xs.mapM f = some ys ↔ xs.map f = ys.map some := by
  induction xs generalizing ys with
  | nil =>
    rw [List.mapM_nil, List.map_nil]
    exact Option.some_inj.trans (eq_comm.trans (List.map_eq_nil_iff.symm.trans eq_comm))
  | cons x xs ih =>
    rw [List.mapM_cons]
    constructor
    · intro h
      obtain ⟨y, hy, h⟩ := Option.bind_eq_some_iff.mp h
      obtain ⟨zs, hzs, h⟩ := Option.bind_eq_some_iff.mp h
      cases h
      rw [List.map_cons, List.map_cons, hy, ih.mp hzs]
    · intro h
      obtain ⟨y, zs, rfl, hy, hzs⟩ := List.map_eq_cons_iff.mp h.symm
      rw [← hy, ih.mpr hzs.symm]
      rfl

variable (f) in
theorem mapM_isSome (xs : List α) : (xs.mapM f).isSome = xs.all fun x => (f x).isSome := by
  induction xs with
  | nil => rfl
  | cons x xs ih =>
    rw [List.mapM_cons, List.all_cons, ← ih]
    cases f x with
    | none => rfl
    | some y => cases xs.mapM f <;> rfl

/-- The values one by one. -/
theorem mapM_getElem? {xs : List α} {ys : List β} (h : xs.mapM f = some ys) {i : Nat} {y : β}
    (hy : ys[i]? = some y) : ∃ x, xs[i]? = some x ∧ f x = some y := by
  have hi := congrArg (fun l => l[i]?) (mapM_eq_some.mp h)
  simp only [List.getElem?_map, hy, Option.map_some] at hi
  exact Option.map_eq_some_iff.mp hi

theorem mapM_length {xs : List α} {ys : List β} (h : xs.mapM f = some ys) :
    ys.length = xs.length := by
  have hlen := congrArg List.length (mapM_eq_some.mp h)
  rw [List.length_map, List.length_map] at hlen
  exact hlen.symm

theorem mapM_forall₂ {R : β → α → Prop} {xs : List α} {ys : List β}
    (hf : ∀ x ∈ xs, ∀ y, f x = some y → R y x) (h : xs.mapM f = some ys) :
    List.Forall₂ R ys xs := by
  refine List.forall₂_iff_get.mpr ⟨mapM_length h, fun i hi _ => ?_⟩
  obtain ⟨x, hx, hfx⟩ := mapM_getElem? h (List.getElem?_eq_getElem hi)
  obtain ⟨_, rfl⟩ := List.getElem?_eq_some_iff.mp hx
  exact hf _ (List.getElem_mem _) _ hfx

end Traverse
