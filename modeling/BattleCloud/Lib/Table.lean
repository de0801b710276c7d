import Mathlib.Algebra.Order.BigOperators.Group.List
import Mathlib.Algebra.Order.Ring.Nat
import Mathlib.Data.List.Basic
import Mathlib.Data.List.Nodup
import Mathlib.Data.List.Perm.Subperm

/-!
# Tables as lists of rows

`UPDATE t SET f WHERE p` is `updateWhere p f t`, `RETURNING` is `returning p f t`, and writing
one row under its key is `put`. `Unique key t` is a unique index, `UniqueWhere live key t` a
partial one (`CREATE UNIQUE INDEX .. WHERE live`).

The lemmas say which rows a statement leaves behind and what keeps an index unique: an update
that keeps the key and only takes rows out of a partial index (`uniqueWhere_updateWhere`), and
an insert of a row whose key no live row has (`uniqueWhere_append`).
-/

namespace Table

variable {ρ κ : Type}

/-- `UPDATE .. SET f WHERE p`. -/
def updateWhere (p : ρ → Bool) (f : ρ → ρ) (t : List ρ) : List ρ :=
  t.map fun r => if p r then f r else r

/-- The rows `UPDATE .. RETURNING` gives back. -/
def returning (p : ρ → Bool) (f : ρ → ρ) (t : List ρ) : List ρ :=
  (t.filter p).map f

/-- A unique index on `key`. -/
def Unique (key : ρ → κ) (t : List ρ) : Prop := (t.map key).Nodup

/-- A unique index on `key` over the rows with `live`. -/
def UniqueWhere (live : ρ → Bool) (key : ρ → κ) (t : List ρ) : Prop :=
  ((t.filter live).map key).Nodup

instance [DecidableEq κ] (key : ρ → κ) (t : List ρ) : Decidable (Unique key t) :=
  inferInstanceAs (Decidable (List.Nodup _))

instance [DecidableEq κ] (live : ρ → Bool) (key : ρ → κ) (t : List ρ) :
    Decidable (UniqueWhere live key t) :=
  inferInstanceAs (Decidable (List.Nodup _))

/-- Write `x` under its key: over the row that has the key, else as a new last row. -/
def put [DecidableEq κ] (key : ρ → κ) (x : ρ) (t : List ρ) : List ρ :=
  if t.any fun r => key r = key x then t.map fun r => if key r = key x then x else r
  else t ++ [x]

/-- The row under a key. -/
def get [DecidableEq κ] (key : ρ → κ) (k : κ) (t : List ρ) : Option ρ := t.find? fun r => key r = k

/-! ## `UPDATE` -/

theorem mem_updateWhere {p : ρ → Bool} {f : ρ → ρ} {t : List ρ} {r' : ρ} :
    r' ∈ updateWhere p f t ↔ ∃ r ∈ t, (p r = true ∧ f r = r') ∨ (p r = false ∧ r = r') := by
  unfold updateWhere
  rw [List.mem_map]
  refine exists_congr fun r => and_congr_right fun _ => ?_
  cases p r <;> simp

/-- A property of every row that the `SET` keeps on the rows the `WHERE` takes. -/
theorem forall_updateWhere {P : ρ → Prop} {p : ρ → Bool} {f : ρ → ρ} {t : List ρ}
    (h : ∀ r ∈ t, P r) (hf : ∀ r ∈ t, P r → p r = true → P (f r)) :
    ∀ r ∈ updateWhere p f t, P r := by
  intro r' hr'
  obtain ⟨r, hr, ⟨hp, rfl⟩ | ⟨-, rfl⟩⟩ := mem_updateWhere.mp hr'
  · exact hf r hr (h r hr) hp
  · exact h r hr

/-- An update that takes no row changes nothing. -/
theorem updateWhere_eq_self {p : ρ → Bool} {f : ρ → ρ} {t : List ρ}
    (h : ∀ r ∈ t, p r = false) : updateWhere p f t = t := by
  unfold updateWhere
  conv_rhs => rw [← List.map_id t]
  exact List.map_congr_left fun r hr => by simp [h r hr]

/-- Every row is still there, as itself or as its update. -/
theorem exists_mem_updateWhere {p : ρ → Bool} {f : ρ → ρ} {t : List ρ} {r : ρ} (hr : r ∈ t) :
    (if p r then f r else r) ∈ updateWhere p f t :=
  List.mem_map_of_mem (f := fun r => if p r then f r else r) hr

/-- An update that keeps every key keeps the list of keys. -/
theorem map_updateWhere {p : ρ → Bool} {f : ρ → ρ} {t : List ρ} {key : ρ → κ}
    (hf : ∀ r, key (f r) = key r) : (updateWhere p f t).map key = t.map key := by
  unfold updateWhere
  rw [List.map_map]
  refine List.map_congr_left fun r _ => ?_
  simp only [Function.comp_apply]
  split
  · exact hf r
  · rfl

/-- A row the `WHERE` passes over is still there. -/
theorem mem_updateWhere_of_not {p : ρ → Bool} {f : ρ → ρ} {t : List ρ} {r : ρ} (hr : r ∈ t)
    (hp : p r = false) : r ∈ updateWhere p f t :=
  mem_updateWhere.mpr ⟨r, hr, Or.inr ⟨hp, rfl⟩⟩

section Sum

variable {φ : ρ → Nat} {p : ρ → Bool} {f : ρ → ρ} {t : List ρ}

/-- An update that raises no row's share raises no sum. -/
theorem sum_updateWhere_le (h : ∀ r ∈ t, p r = true → φ (f r) ≤ φ r) :
    ((updateWhere p f t).map φ).sum ≤ (t.map φ).sum := by
  unfold updateWhere
  rw [List.map_map]
  refine List.sum_le_sum fun r hr => ?_
  simp only [Function.comp_apply]
  split
  · rename_i hp
    exact h r hr hp
  · exact Nat.le_refl _

/-- It lowers the sum when it lowers the share of one row it takes. -/
theorem sum_updateWhere_lt (h : ∀ r ∈ t, p r = true → φ (f r) ≤ φ r) {r : ρ} (hr : r ∈ t)
    (hp : p r = true) (hlt : φ (f r) < φ r) :
    ((updateWhere p f t).map φ).sum < (t.map φ).sum := by
  unfold updateWhere
  rw [List.map_map]
  refine List.sum_lt_sum _ _ (fun r hr => ?_) ⟨r, hr, ?_⟩
  · simp only [Function.comp_apply]
    split
    · rename_i hp
      exact h r hr hp
    · exact Nat.le_refl _
  · simp only [Function.comp_apply, hp, if_true]
    exact hlt

end Sum

theorem returning_eq_nil {p : ρ → Bool} {f : ρ → ρ} {t : List ρ} :
    returning p f t = [] ↔ ∀ r ∈ t, p r = false := by
  simp [returning, List.filter_eq_nil_iff]

theorem mem_returning {p : ρ → Bool} {f : ρ → ρ} {t : List ρ} {r' : ρ} :
    r' ∈ returning p f t ↔ ∃ r ∈ t, p r = true ∧ f r = r' := by
  simp [returning, and_assoc]

/-- Overwriting one row changes a count by that row alone. -/
theorem countP_set_add {p : ρ → Bool} {t : List ρ} {i : Nat} {x y : ρ} (h : t[i]? = some x) :
    (t.set i y).countP p + (if p x then 1 else 0) = t.countP p + if p y then 1 else 0 := by
  obtain ⟨hlt, rfl⟩ := List.getElem?_eq_some_iff.mp h
  rw [List.countP_set hlt]
  have hle := List.boole_getElem_le_countP (p := p) hlt
  omega

/-- Distinct indices of rows that meet `p` are no more than such rows. -/
theorem length_le_countP {p : ρ → Bool} {t : List ρ} {is : List Nat} (hn : is.Nodup)
    (h : ∀ i ∈ is, ∃ r, t[i]? = some r ∧ p r = true) : is.length ≤ t.countP p := by
  have hsub : is ⊆ t.findIdxs p := by
    intro i hi
    obtain ⟨r, hr, hp⟩ := h i hi
    obtain ⟨hlt, rfl⟩ := List.getElem?_eq_some_iff.mp hr
    exact List.mem_findIdxs_iff_exists_getElem_pos.mpr ⟨hlt, hp⟩
  calc is.length ≤ (t.findIdxs p).length := (List.Nodup.subperm hn hsub).length_le
    _ = t.countP p := List.length_findIdxs

/-! ## Unique indexes -/

theorem Unique.eq {key : ρ → κ} {t : List ρ} (h : Unique key t) {r r' : ρ} (hr : r ∈ t)
    (hr' : r' ∈ t) (hk : key r = key r') : r = r' :=
  List.inj_on_of_nodup_map h hr hr' hk

/-- The last row has a key of its own. -/
theorem Unique.ne_last {key : ρ → κ} {t : List ρ} {x r : ρ} (h : Unique key (t ++ [x]))
    (hr : r ∈ t) : key r ≠ key x := by
  unfold Unique at h
  rw [List.map_append, List.nodup_append] at h
  exact h.2.2 _ (List.mem_map_of_mem hr) _ List.mem_cons_self

/-- A row with a new key. -/
theorem Unique.append {key : ρ → κ} {t : List ρ} {x : ρ} (h : Unique key t)
    (hx : ∀ r ∈ t, key r ≠ key x) : Unique key (t ++ [x]) := by
  unfold Unique
  rw [List.map_append, List.nodup_append]
  refine ⟨h, List.nodup_singleton _, ?_⟩
  intro a ha b hb
  obtain ⟨r, hr, rfl⟩ := List.mem_map.mp ha
  rw [List.mem_singleton.mp hb]
  exact hx r hr

theorem Unique.filter {key : ρ → κ} {t : List ρ} (h : Unique key t) (p : ρ → Bool) :
    Unique key (t.filter p) :=
  List.Nodup.sublist (List.filter_sublist.map key) h

/-- Asking for a row's key gives that row alone. -/
theorem Unique.filter_eq [DecidableEq κ] {key : ρ → κ} {t : List ρ} (h : Unique key t) {r : ρ}
    (hr : r ∈ t) : t.filter (fun r' => key r' = key r) = [r] := by
  induction t with
  | nil => exact absurd hr List.not_mem_nil
  | cons a t ih =>
    obtain ⟨hna, ht⟩ := List.nodup_cons.mp h
    rw [List.filter_cons]
    rcases List.mem_cons.mp hr with rfl | hr
    · have hrest : t.filter (fun r' => key r' = key r) = [] := by
        rw [List.filter_eq_nil_iff]
        intro r' hr' hk
        exact hna (List.mem_map.mpr ⟨r', hr', of_decide_eq_true hk⟩)
      rw [if_pos (decide_eq_true rfl), hrest]
    · rw [if_neg, ih ht hr]
      intro hk
      exact hna (List.mem_map.mpr ⟨r, hr, (of_decide_eq_true hk).symm⟩)

/-- At most one row has a key. -/
theorem Unique.countP_le [DecidableEq κ] {key : ρ → κ} {t : List ρ} (h : Unique key t) (k : κ) :
    t.countP (fun r => key r = k) ≤ 1 := by
  have hcount := List.nodup_iff_count_le_one.mp h k
  rw [List.count, List.countP_map] at hcount
  refine Nat.le_trans (List.countP_mono_left fun r _ hr => ?_) hcount
  simpa using hr

theorem uniqueWhere_iff_pairwise {live : ρ → Bool} {key : ρ → κ} {t : List ρ} :
    UniqueWhere live key t ↔
      t.Pairwise fun r r' => live r = true → live r' = true → key r ≠ key r' := by
  rw [UniqueWhere, List.nodup_iff_pairwise_ne, List.pairwise_map, List.pairwise_filter]

/-- An index over rows that are written in another way. -/
theorem uniqueWhere_map {σ κ' : Type} {f : σ → ρ} {live : ρ → Bool} {key : ρ → κ}
    {live' : σ → Bool} {key' : σ → κ'} {t : List σ} (hl : ∀ x, live (f x) = live' x)
    (hk : ∀ x y, key (f x) = key (f y) ↔ key' x = key' y) :
    UniqueWhere live key (t.map f) ↔ UniqueWhere live' key' t := by
  rw [uniqueWhere_iff_pairwise, uniqueWhere_iff_pairwise, List.pairwise_map]
  simp only [hl, Ne, hk]

theorem unique_iff_uniqueWhere {key : ρ → κ} {t : List ρ} :
    Unique key t ↔ UniqueWhere (fun _ => true) key t := by
  rw [Unique, UniqueWhere, List.filter_true]

/-- An index that enters fewer rows, and tells more of them apart. -/
theorem UniqueWhere.mono {κ' : Type} {live live' : ρ → Bool} {key : ρ → κ} {key' : ρ → κ'}
    {t : List ρ} (h : UniqueWhere live key t) (hl : ∀ r, live' r = true → live r = true)
    (hk : ∀ r r', key' r = key' r' → key r = key r') : UniqueWhere live' key' t := by
  refine uniqueWhere_iff_pairwise.mpr ?_
  refine (uniqueWhere_iff_pairwise.mp h).imp fun {r r'} hne hr hr' heq => ?_
  exact hne (hl r hr) (hl r' hr') (hk r r' heq)

theorem UniqueWhere.eq {live : ρ → Bool} {key : ρ → κ} {t : List ρ}
    (h : UniqueWhere live key t) {r r' : ρ} (hr : r ∈ t) (hr' : r' ∈ t) (hl : live r = true)
    (hl' : live r' = true) (hk : key r = key r') : r = r' :=
  List.inj_on_of_nodup_map h (List.mem_filter.mpr ⟨hr, hl⟩) (List.mem_filter.mpr ⟨hr', hl'⟩) hk

/-- An update that keeps the key and brings no row into the index keeps a partial index unique. -/
theorem uniqueWhere_updateWhere {live : ρ → Bool} {key : ρ → κ} {p : ρ → Bool} {f : ρ → ρ}
    {t : List ρ} (h : UniqueWhere live key t)
    (hf : ∀ r ∈ t, p r = true → key (f r) = key r ∧ (live (f r) = true → live r = true)) :
    UniqueWhere live key (updateWhere p f t) := by
  have hsub : ∀ t : List ρ, (∀ r ∈ t, p r = true →
      key (f r) = key r ∧ (live (f r) = true → live r = true)) →
      List.Sublist (((updateWhere p f t).filter live).map key) ((t.filter live).map key) := by
    intro t
    induction t with
    | nil => intro _; exact List.Sublist.refl _
    | cons r t ih =>
      intro hf
      have htl := ih fun r hr => hf r (List.mem_cons_of_mem _ hr)
      simp only [updateWhere, List.map_cons] at htl ⊢
      cases hp : p r with
      | false =>
        simp only [Bool.false_eq_true, if_false, List.filter_cons]
        split
        · simp only [List.map_cons]; exact htl.cons_cons _
        · exact htl
      | true =>
        obtain ⟨hk, hl⟩ := hf r List.mem_cons_self hp
        simp only [if_true, List.filter_cons]
        by_cases h1 : live (f r) = true
        · rw [if_pos h1, if_pos (hl h1), List.map_cons, List.map_cons, hk]
          exact htl.cons_cons _
        · rw [if_neg h1]
          split
          · simp only [List.map_cons]; exact htl.cons _
          · exact htl
  exact h.sublist (hsub t hf)

theorem uniqueWhere_append {live : ρ → Bool} {key : ρ → κ} {t : List ρ} {x : ρ}
    (h : UniqueWhere live key t) (hx : ∀ r ∈ t, live r = true → key r ≠ key x) :
    UniqueWhere live key (t ++ [x]) := by
  unfold UniqueWhere at *
  rw [List.filter_append, List.map_append, List.nodup_append]
  refine ⟨h, ?_, ?_⟩
  · cases hl : live x <;> simp [hl]
  · intro a ha b hb
    obtain ⟨r, hr, rfl⟩ := List.mem_map.mp ha
    obtain ⟨y, hy, rfl⟩ := List.mem_map.mp hb
    obtain rfl : y = x := by simpa using (List.mem_filter.mp hy).1
    exact hx r (List.mem_filter.mp hr).1 (List.mem_filter.mp hr).2

/-! ## Writing one row -/

section Put

variable [DecidableEq κ] {key : ρ → κ} {x : ρ} {t : List ρ}

theorem mem_put_self : x ∈ put key x t := by
  unfold put
  split
  · rename_i h
    obtain ⟨r, hr, he⟩ := List.any_eq_true.mp h
    exact List.mem_map.mpr ⟨r, hr, by simp only [decide_eq_true_eq] at he; rw [if_pos he]⟩
  · simp

theorem mem_put {r : ρ} (h : r ∈ put key x t) : r = x ∨ (r ∈ t ∧ key r ≠ key x) := by
  unfold put at h
  split at h
  · obtain ⟨r', hr', he⟩ := List.mem_map.mp h
    split at he
    · exact Or.inl he.symm
    · rename_i hk
      exact Or.inr ⟨he ▸ hr', he ▸ hk⟩
  · rename_i hn
    simp only [List.any_eq_true, decide_eq_true_eq, not_exists, not_and] at hn
    rcases List.mem_append.mp h with h | h
    · exact Or.inr ⟨h, hn r h⟩
    · exact Or.inl (List.mem_singleton.mp h)

theorem mem_put_of_ne {r : ρ} (hr : r ∈ t) (hk : key r ≠ key x) : r ∈ put key x t := by
  unfold put
  split
  · exact List.mem_map.mpr ⟨r, hr, if_neg hk⟩
  · exact List.mem_append_left _ hr

/-- A unique index stays one if the row written keeps the entry of the row it is written over,
and takes a new one where it is appended. -/
theorem Unique.put {α : Type} {f : ρ → α} (h : Unique f t)
    (hover : ∀ r ∈ t, key r = key x → f r = f x)
    (hlast : (∀ r ∈ t, key r ≠ key x) → ∀ r ∈ t, f r ≠ f x) : Unique f (put key x t) := by
  unfold Table.put
  by_cases hany : (t.any fun r => key r = key x) = true
  · have hsame : ∀ r ∈ t, f (if key r = key x then x else r) = f r := by
      intro r hr
      by_cases hk : key r = key x
      · rw [if_pos hk, hover r hr hk]
      · rw [if_neg hk]
    rw [if_pos hany]
    unfold Unique
    rw [List.map_map]
    exact (List.map_congr_left hsame : _ = t.map f) ▸ h
  · rw [if_neg hany]
    exact h.append (hlast (by simpa using hany))

/-! ## Rows under their key -/

/-- An update that keeps every key updates what is under a key. -/
theorem get_map {f : ρ → ρ} (hf : ∀ r, key (f r) = key r) (k : κ) :
    get key k (t.map f) = (get key k t).map f := by
  unfold get
  rw [List.find?_map]
  congr 2
  funext r
  simp only [Function.comp_apply, hf]

/-- Under a unique index a row is what is found under its key. -/
theorem get_of_mem (h : Unique key t) {r : ρ} (hr : r ∈ t) : get key (key r) t = some r := by
  unfold get
  cases hf : t.find? fun r' => key r' = key r with
  | none =>
    rw [List.find?_eq_none] at hf
    exact absurd (decide_eq_true rfl) (hf r hr)
  | some r' =>
    have hk : key r' = key r := by simpa using List.find?_some hf
    rw [h.eq (List.mem_of_find?_eq_some hf) hr hk]

theorem key_of_get {k : κ} {r : ρ} (h : get key k t = some r) : key r = k := by
  simpa using List.find?_some h

/-- Writing a row changes what is under its key, and nothing else. -/
theorem get_put {k : κ} : get key k (put key x t) = if k = key x then some x else get key k t := by
  have hkeep : ∀ r, key (if key r = key x then x else r) = key r := by
    intro r
    split
    · rename_i h
      exact h.symm
    · rfl
  unfold put
  by_cases hany : (t.any fun r => key r = key x) = true
  · rw [if_pos hany, get_map hkeep]
    cases hg : get key k t with
    | none =>
      rw [if_neg]
      · rfl
      · rintro rfl
        obtain ⟨r, hr, hk⟩ := List.any_eq_true.mp hany
        exact List.find?_eq_none.mp hg r hr hk
    | some r =>
      have hr : key r = k := key_of_get hg
      rw [Option.map_some, hr]
      split <;> rfl
  · have hno : ∀ r ∈ t, key r ≠ key x := by simpa using hany
    rw [if_neg hany, get, List.find?_append, List.find?_singleton]
    by_cases hk : k = key x
    · rw [if_pos hk, List.find?_eq_none.mpr fun r hr => by simpa [hk] using hno r hr]
      simp [hk]
    · rw [if_neg hk, if_neg (by simpa using Ne.symm hk), Option.or_none]
      rfl

/-- A `DELETE` by a condition on the key. -/
theorem get_filter {q : κ → Bool} {k : κ} :
    get key k (t.filter fun r => q (key r)) = if q k then get key k t else none := by
  unfold get
  rw [List.find?_filter]
  split
  · rename_i hk
    congr 1
    funext r
    by_cases hr : key r = k
    · simp [hr, hk]
    · simp [hr]
  · rename_i hk
    rw [List.find?_eq_none]
    intro r _ h
    simp only [decide_eq_true_eq] at h
    exact hk (h.2 ▸ h.1)

end Put

end Table
