import Mathlib.Data.List.Sort

/-!
# Keyset pagination with a cursor that loses precision

Rows of a table are read newest first, `limit` at a time; the next page starts below the last row
of this one. The position that travels to the client and back is not the key of that row but
`cut` of it, some key that is not greater. Between two requests the table may grow.

* `walk`: the pages of a client that follows the cursors until there is none. `T i` is the table
  the request `i` reads.
* `PageEnds`, `Boundary`: where pages end, by counting rows of the tables.
* `walk_ends`: the walk ends, whatever is inserted meanwhile, as long as it is finitely many rows.
* `walk_pairwise`, `walk_full`: its rows come strictly downwards, and every page but the last is
  full.
* **`walk_complete_iff`**: a walk shows every row of the first table exactly when no boundary has
  one of them in its gap, below the last row of the page and not below `cut` of it.
-/

namespace Keyset

variable {ρ κ : Type} [LinearOrder κ] (key : ρ → κ) (cut : κ → κ) (limit : Nat)

/-- The row comes after the position; every row comes after the start. -/
def After (pos : Option κ) (r : ρ) : Prop := ∀ k ∈ pos, key r < k

instance (pos : Option κ) (r : ρ) : Decidable (After key pos r) :=
  match pos with
  | none => isTrue fun _ h => by cases h
  | some k =>
    if h : key r < k then isTrue fun k' hk => by cases hk; exact h
    else isFalse fun ha => h (ha k rfl)

/-- The rows after a position, greatest key first. -/
def rowsAfter (pos : Option κ) (t : List ρ) : List ρ :=
  (t.filter (After key pos ·)).insertionSort fun a b => key b ≤ key a

/-- `WHERE key < pos ORDER BY key DESC LIMIT n`. -/
def page (pos : Option κ) (n : Nat) (t : List ρ) : List ρ := (rowsAfter key pos t).take n

/-- One request: `limit` rows, and from one row more whether and where to go on. -/
def request (pos : Option κ) (t : List ρ) : List ρ × Option κ :=
  let rows := page key pos (limit + 1) t
  (rows.take limit,
    if limit < rows.length then (rows.take limit).getLast?.map fun r => cut (key r) else none)

/-- The pages of a walk from a position, the request `i` being the next; `none` when it has not
ended after `fuel` requests. -/
def walk (T : Nat → List ρ) : Nat → Nat → Option κ → Option (List (List ρ))
  | 0, _, _ => none
  | fuel + 1, i, pos =>
    match request key cut limit pos (T i) with
    | (rows, none) => some [rows]
    | (rows, some next) => (walk T fuel (i + 1) (some next)).map (rows :: ·)

/-- A page from `pos` is full with the row `L`, and is not the last. -/
def PageEnds (pos : Option κ) (t : List ρ) (L : ρ) : Prop :=
  L ∈ t ∧ After key pos L ∧ (t.filter fun r => After key pos r ∧ key L ≤ key r).length = limit ∧
    ∃ r ∈ t, key r < key L

/-- `M` ends one of the pages read from `pos` on. -/
inductive Boundary (T : Nat → List ρ) : Nat → Option κ → ρ → Prop
  | here {i : Nat} {pos : Option κ} {L : ρ} (h : PageEnds key limit pos (T i) L) :
      Boundary T i pos L
  | later {i : Nat} {pos : Option κ} {L M : ρ} (h : PageEnds key limit pos (T i) L)
      (hM : Boundary T (i + 1) (some (cut (key L))) M) : Boundary T i pos M

variable {key cut limit} {pos : Option κ} {t : List ρ}

/-! ## One page -/

theorem mem_rowsAfter {r : ρ} : r ∈ rowsAfter key pos t ↔ r ∈ t ∧ After key pos r := by
  unfold rowsAfter
  rw [List.mem_insertionSort, List.mem_filter, decide_eq_true_eq]

theorem rowsAfter_perm : (rowsAfter key pos t).Perm (t.filter (After key pos ·)) :=
  List.perm_insertionSort _ _

/-- With distinct keys the rows come strictly downwards. -/
theorem rowsAfter_pairwise (hu : (t.map key).Nodup) :
    (rowsAfter key pos t).Pairwise fun a b => key b < key a := by
  have hle : (rowsAfter key pos t).Pairwise fun a b => key b ≤ key a := by
    have : Std.Total fun a b : ρ => key b ≤ key a := ⟨fun a b => le_total (key b) (key a)⟩
    have : IsTrans ρ fun a b => key b ≤ key a := ⟨fun a b c hab hbc => le_trans hbc hab⟩
    exact List.pairwise_insertionSort _ _
  have hne : (rowsAfter key pos t).Pairwise fun a b => key a ≠ key b := by
    have hf : ((t.filter (After key pos ·)).map key).Nodup :=
      hu.sublist (List.filter_sublist.map key)
    exact List.pairwise_map.mp ((rowsAfter_perm.map key).nodup_iff.mpr hf)
  exact (hle.and hne).imp fun h => lt_of_le_of_ne h.1 (Ne.symm h.2)

/-- Counting rows of the table is counting the rows after the position. -/
theorem length_filter_after (p : ρ → Prop) [DecidablePred p] :
    (t.filter fun r => After key pos r ∧ p r).length =
      ((rowsAfter key pos t).filter (p ·)).length := by
  rw [(rowsAfter_perm.filter _).length_eq, List.filter_filter]
  congr 1
  refine List.filter_congr fun r _ => ?_
  rw [← Bool.decide_and]
  exact decide_eq_decide.mpr and_comm

/-- A page that holds all the rows after its position does not end before them. -/
theorem not_pageEnds (h : (rowsAfter key pos t).length ≤ limit) (L : ρ) :
    ¬ PageEnds key limit pos t L := by
  rintro ⟨-, ha, hlen, r, hr, hlt⟩
  rw [length_filter_after fun r => key L ≤ key r] at hlen
  have hra : r ∈ rowsAfter key pos t :=
    mem_rowsAfter.mpr ⟨hr, fun k hk => hlt.trans (ha k hk)⟩
  have hshort := (List.length_filter_lt_length_iff_exists
    (p := fun r => decide (key L ≤ key r))).mpr ⟨r, hra, by simpa using hlt⟩
  omega

/-- A page ends at one row at most. -/
theorem PageEnds.eq (hu : (t.map key).Nodup) {L M : ρ} (hL : PageEnds key limit pos t L)
    (hM : PageEnds key limit pos t M) : L = M := by
  have aux : ∀ {L M : ρ}, PageEnds key limit pos t L → PageEnds key limit pos t M →
      ¬ key L < key M := by
    rintro L M ⟨hmem, ha, hlen, -⟩ ⟨-, -, hlen', -⟩ hlt
    have hle : (t.filter fun r => After key pos r ∧ key M ≤ key r) =
        (t.filter fun r => After key pos r ∧ key L ≤ key r).filter fun r => key M ≤ key r := by
      rw [List.filter_filter]
      refine List.filter_congr fun r _ => ?_
      rw [← Bool.decide_and]
      refine decide_eq_decide.mpr ⟨fun h => ⟨h.2, h.1, hlt.le.trans h.2⟩, fun h => ⟨h.2.1, h.1⟩⟩
    rw [hle] at hlen'
    have hshort := (List.length_filter_lt_length_iff_exists
      (l := t.filter fun r => After key pos r ∧ key L ≤ key r)
      (p := fun r => decide (key M ≤ key r))).mpr
      ⟨L, List.mem_filter.mpr ⟨hmem, by simpa using ha⟩, by simpa using hlt⟩
    omega
  rcases lt_trichotomy (key L) (key M) with h | h | h
  · exact absurd h (aux hL hM)
  · exact List.inj_on_of_nodup_map hu hL.1 hM.1 h
  · exact absurd h (aux hM hL)

/-- **What one request answers**: all the rows after the position and no cursor, or the rows down
to the one the page ends at and the cut of its key. -/
theorem request_cases (hl : 1 ≤ limit) (hu : (t.map key).Nodup) :
    (request key cut limit pos t = (rowsAfter key pos t, none) ∧
      ∀ L, ¬ PageEnds key limit pos t L) ∨
    ∃ L rows, PageEnds key limit pos t L ∧
      request key cut limit pos t = (rows, some (cut (key L))) ∧
      ∀ r, r ∈ rows ↔ r ∈ t ∧ After key pos r ∧ key L ≤ key r := by
  rcases Nat.lt_or_ge limit (rowsAfter key pos t).length with hlt | hge
  · right
    -- the rows above the last one, the last one, and what is left
    have hsplit := List.take_append_drop limit (rowsAfter key pos t)
    obtain ⟨above, L, htake⟩ : ∃ above L, (rowsAfter key pos t).take limit = above ++ [L] := by
      refine ⟨_, _, (List.dropLast_append_getLast fun h => ?_).symm⟩
      have := congrArg List.length h
      rw [List.length_take, List.length_nil] at this
      omega
    obtain ⟨B, below, hdrop⟩ : ∃ B below, (rowsAfter key pos t).drop limit = B :: below := by
      refine List.exists_cons_of_ne_nil fun h => ?_
      have := congrArg List.length h
      rw [List.length_drop, List.length_nil] at this
      omega
    have hord := @rowsAfter_pairwise _ _ _ key pos t hu
    rw [← hsplit, htake, List.pairwise_append, List.pairwise_append] at hord
    obtain ⟨⟨-, -, habove⟩, -, hbelow⟩ := hord
    have hge : ∀ r ∈ above ++ [L], key L ≤ key r := by
      intro r hr
      rcases List.mem_append.mp hr with hr | hr
      · exact (habove r hr L List.mem_cons_self).le
      · rw [List.mem_singleton.mp hr]
    have hless : ∀ r ∈ B :: below, key r < key L := fun r hr =>
      hbelow L (List.mem_append_right _ List.mem_cons_self) r (hdrop ▸ hr)
    have hmem : ∀ r, r ∈ above ++ [L] ↔ r ∈ t ∧ After key pos r ∧ key L ≤ key r := by
      intro r
      rw [← and_assoc, ← mem_rowsAfter, ← hsplit, htake, hdrop]
      constructor
      · exact fun hr => ⟨List.mem_append_left _ hr, hge r hr⟩
      · rintro ⟨hr, hle⟩
        rcases List.mem_append.mp hr with hr | hr
        · exact hr
        · exact absurd hle (not_le.mpr (hless r hr))
    have hL := (hmem L).mp (List.mem_append_right _ List.mem_cons_self)
    refine ⟨L, above ++ [L], ⟨hL.1, hL.2.1, ?_, B, ?_, hless B List.mem_cons_self⟩, ?_, hmem⟩
    · -- the page is what is counted
      rw [length_filter_after fun r => key L ≤ key r, ← hsplit, htake, hdrop, List.filter_append,
        List.filter_eq_self.mpr fun r hr => decide_eq_true (hge r hr),
        List.filter_eq_nil_iff.mpr fun r hr => by simpa using hless r hr, List.append_nil, ← htake,
        List.length_take]
      omega
    · refine (mem_rowsAfter.mp (?_ : B ∈ rowsAfter key pos t)).1
      rw [← hsplit, hdrop]
      exact List.mem_append_right _ List.mem_cons_self
    · unfold request page
      simp only [List.length_take, List.take_take, Nat.min_eq_left (Nat.le_succ limit), htake]
      rw [if_pos (by omega), List.getLast?_append, List.getLast?_singleton]
      rfl
  · left
    refine ⟨?_, not_pageEnds hge⟩
    unfold request page
    simp only [List.length_take, List.take_take, Nat.min_eq_left (Nat.le_succ limit)]
    rw [if_neg (by omega), List.take_of_length_le hge]

/-! ## The walk -/

variable {T : Nat → List ρ}

/-- A walk shows rows of the tables, after its position only. -/
theorem mem_walk (hl : 1 ≤ limit) (hu : ∀ i, ((T i).map key).Nodup) (hcut : ∀ k, cut k ≤ k) :
    ∀ {fuel i : Nat} {pos : Option κ} {pages : List (List ρ)},
      walk key cut limit T fuel i pos = some pages →
      ∀ r ∈ pages.flatten, (∃ j, r ∈ T j) ∧ After key pos r
  | 0, _, _, _, h => by cases h
  | fuel + 1, i, pos, pages, h => by
    intro r hr
    unfold walk at h
    rcases @request_cases _ _ _ key cut limit pos _ hl (hu i) with
      ⟨hreq, -⟩ | ⟨L, rows, hL, hreq, hrows⟩
    · rw [hreq] at h
      obtain rfl := Option.some.inj h
      rw [List.flatten_cons, List.flatten_nil, List.append_nil] at hr
      exact ⟨⟨i, (mem_rowsAfter.mp hr).1⟩, (mem_rowsAfter.mp hr).2⟩
    · rw [hreq] at h
      obtain ⟨pages', hw, rfl⟩ := Option.map_eq_some_iff.mp h
      rw [List.flatten_cons] at hr
      rcases List.mem_append.mp hr with hr | hr
      · exact ⟨⟨i, ((hrows r).mp hr).1⟩, ((hrows r).mp hr).2.1⟩
      · obtain ⟨hmem, hlt⟩ := mem_walk hl hu hcut hw r hr
        exact ⟨hmem, fun k hk => ((hlt _ rfl).trans_le (hcut _)).trans (hL.2.1 k hk)⟩

/-- The rows of one request come strictly downwards. -/
theorem request_pairwise (hu : (t.map key).Nodup) :
    (request key cut limit pos t).1.Pairwise fun a b => key b < key a := by
  have hsub : (request key cut limit pos t).1.Sublist (rowsAfter key pos t) :=
    (List.take_sublist _ _).trans (List.take_sublist _ _)
  exact (rowsAfter_pairwise hu).sublist hsub

/-- A request that says where to go on has filled its page. -/
theorem request_full {next : κ} (h : (request key cut limit pos t).2 = some next) :
    (request key cut limit pos t).1.length = limit := by
  unfold request at h ⊢
  simp only at h ⊢
  split at h
  · rename_i hlt
    rw [List.length_take]
    omega
  · cases h

/-- A page holds rows of the table after its position. -/
theorem mem_request {r : ρ} (h : r ∈ (request key cut limit pos t).1) :
    r ∈ t ∧ After key pos r :=
  mem_rowsAfter.mp (List.mem_of_mem_take (List.mem_of_mem_take h))

/-- The next position is at or below every row of the page. -/
theorem le_of_mem_request (hl : 1 ≤ limit) (hu : (t.map key).Nodup) (hcut : ∀ k, cut k ≤ k)
    {next : κ} (h : (request key cut limit pos t).2 = some next) {r : ρ}
    (hr : r ∈ (request key cut limit pos t).1) : next ≤ key r := by
  rcases @request_cases _ _ _ key cut limit pos _ hl hu with ⟨hreq, -⟩ | ⟨L, rows, -, hreq, hrows⟩
  · rw [hreq] at h
    cases h
  · rw [hreq] at h hr
    obtain rfl := Option.some.inj h
    exact (hcut _).trans ((hrows r).mp hr).2.2

/-- **A walk comes strictly downwards**: the next page begins below the last row of this one. -/
theorem walk_pairwise (hl : 1 ≤ limit) (hu : ∀ i, ((T i).map key).Nodup) (hcut : ∀ k, cut k ≤ k) :
    ∀ {fuel i : Nat} {pos : Option κ} {pages : List (List ρ)},
      walk key cut limit T fuel i pos = some pages →
      pages.flatten.Pairwise fun a b => key b < key a
  | 0, _, _, _, h => by cases h
  | fuel + 1, i, pos, pages, h => by
    have hpage := @request_pairwise _ _ _ key cut limit pos _ (hu i)
    unfold walk at h
    rcases @request_cases _ _ _ key cut limit pos _ hl (hu i) with
      ⟨hreq, -⟩ | ⟨L, rows, -, hreq, hrows⟩
    · rw [hreq] at h hpage
      obtain rfl := Option.some.inj h
      rw [List.flatten_cons, List.flatten_nil, List.append_nil]
      exact hpage
    · rw [hreq] at h hpage
      obtain ⟨pages', hw, rfl⟩ := Option.map_eq_some_iff.mp h
      rw [List.flatten_cons, List.pairwise_append]
      refine ⟨hpage, walk_pairwise hl hu hcut hw, fun a ha b hb => ?_⟩
      have hbelow : key b < cut (key L) := (mem_walk hl hu hcut hw b hb).2 _ rfl
      exact (hbelow.trans_le (hcut _)).trans_le ((hrows a).mp ha).2.2

theorem walk_ne_nil {fuel i : Nat} {pages : List (List ρ)}
    (h : walk key cut limit T fuel i pos = some pages) : pages ≠ [] := by
  cases fuel with
  | zero => cases h
  | succ fuel =>
    unfold walk at h
    split at h
    · obtain rfl := Option.some.inj h
      exact List.cons_ne_nil _ _
    · obtain ⟨pages', -, rfl⟩ := Option.map_eq_some_iff.mp h
      exact List.cons_ne_nil _ _

/-- **Every page but the last is full.** -/
theorem walk_full : ∀ {fuel i : Nat} {pos : Option κ} {pages : List (List ρ)},
    walk key cut limit T fuel i pos = some pages → ∀ page ∈ pages.dropLast, page.length = limit
  | 0, _, _, _, h => by cases h
  | fuel + 1, i, pos, pages, h => by
    intro page hpage
    unfold walk at h
    split at h
    · obtain rfl := Option.some.inj h
      exact absurd hpage List.not_mem_nil
    · rename_i rows next hreq
      obtain ⟨pages', hw, rfl⟩ := Option.map_eq_some_iff.mp h
      rw [List.dropLast_cons_of_ne_nil (walk_ne_nil hw)] at hpage
      rcases List.mem_cons.mp hpage with rfl | hpage
      · have hfull := @request_full _ _ _ key cut limit pos (T i) next
        rw [hreq] at hfull
        exact hfull rfl
      · exact walk_full hw page hpage

/-- **The walk ends**: each page takes at least one row out of those that can still come. -/
theorem walk_ends (hl : 1 ≤ limit) (hu : ∀ i, ((T i).map key).Nodup) (hcut : ∀ k, cut k ≤ k)
    {all : List ρ} (hall : ∀ i, ∀ r ∈ T i, r ∈ all) :
    ∀ {fuel i : Nat} {pos : Option κ}, (all.filter (After key pos ·)).length < fuel →
      ∃ pages, walk key cut limit T fuel i pos = some pages
  | 0, _, _, h => absurd h (Nat.not_lt_zero _)
  | fuel + 1, i, pos, h => by
    unfold walk
    rcases @request_cases _ _ _ key cut limit pos _ hl (hu i) with
      ⟨hreq, -⟩ | ⟨L, rows, hL, hreq, -⟩
    · rw [hreq]
      exact ⟨_, rfl⟩
    · rw [hreq]
      have hfewer : (all.filter (After key (some (cut (key L))) ·)).length < fuel := by
        have hsub : (all.filter (After key (some (cut (key L))) ·)) =
            (all.filter (After key pos ·)).filter (After key (some (cut (key L))) ·) := by
          rw [List.filter_filter]
          refine List.filter_congr fun r _ => ?_
          rw [← Bool.decide_and]
          exact decide_eq_decide.mpr ⟨fun ha => ⟨ha, fun k hk =>
            ((ha _ rfl).trans_le (hcut _)).trans (hL.2.1 k hk)⟩, And.left⟩
        have hshort := (List.length_filter_lt_length_iff_exists
          (l := all.filter (After key pos ·))
          (p := fun r => decide (After key (some (cut (key L))) r))).mpr
          ⟨L, List.mem_filter.mpr ⟨hall i L hL.1, decide_eq_true hL.2.1⟩, by
            simpa using fun ha : After key (some (cut (key L))) L =>
              absurd ((ha _ rfl).trans_le (hcut _)) (lt_irrefl _)⟩
        rw [hsub]
        omega
      obtain ⟨pages, hw⟩ := walk_ends hl hu hcut hall (i := i + 1) hfewer
      simp only [hw]
      exact ⟨_, rfl⟩

/-- A boundary is a row of the table its page was read from. -/
theorem Boundary.mem {i : Nat} {M : ρ} (h : Boundary key cut limit T i pos M) : ∃ j, M ∈ T j := by
  induction h with
  | here h => exact ⟨_, h.1⟩
  | later _ _ ih => exact ih

/-- No row of `first` is in the gap of a boundary from `pos` on. -/
def GapFree (key : ρ → κ) (cut : κ → κ) (limit : Nat) (T : Nat → List ρ) (first : List ρ) (i : Nat)
    (pos : Option κ) : Prop :=
  ∀ M, Boundary key cut limit T i pos M → ∀ r ∈ first, key r < key M → key r < cut (key M)

/-- **A walk from a position is complete exactly when its boundaries have no gaps.** -/
theorem walk_complete_iff (hl : 1 ≤ limit) (hu : ∀ i, ((T i).map key).Nodup)
    (hcut : ∀ k, cut k ≤ k) {first : List ρ} (hfirst : ∀ i, ∀ r ∈ first, r ∈ T i) :
    ∀ {fuel i : Nat} {pos : Option κ} {pages : List (List ρ)},
      walk key cut limit T fuel i pos = some pages →
      ((∀ r ∈ first, After key pos r → r ∈ pages.flatten) ↔ GapFree key cut limit T first i pos)
  | 0, _, _, _, h => by cases h
  | fuel + 1, i, pos, pages, h => by
    unfold walk at h
    rcases @request_cases _ _ _ key cut limit pos _ hl (hu i) with
      ⟨hreq, hno⟩ | ⟨L, rows, hL, hreq, hrows⟩
    · rw [hreq] at h
      obtain rfl := Option.some.inj h
      refine ⟨fun _ M hM => ?_, fun _ r hr ha => ?_⟩
      · cases hM with
        | here hM => exact absurd hM (hno M)
        | later hM _ => exact absurd hM (hno _)
      · rw [List.flatten_cons, List.flatten_nil, List.append_nil]
        exact mem_rowsAfter.mpr ⟨hfirst i r hr, ha⟩
    · rw [hreq] at h
      obtain ⟨pages', hw, rfl⟩ := Option.map_eq_some_iff.mp h
      have ih := walk_complete_iff hl hu hcut hfirst hw
      rw [List.flatten_cons]
      constructor
      · intro hcomplete
        -- a row of the first table below the page has to come later
        have hlater : ∀ r ∈ first, key r < key L → r ∈ pages'.flatten := by
          intro r hr hlt
          have hshown := hcomplete r hr fun k hk => hlt.trans (hL.2.1 k hk)
          rcases List.mem_append.mp hshown with hp | hp
          · exact absurd ((hrows r).mp hp).2.2 (not_le.mpr hlt)
          · exact hp
        have hrest := ih.mp fun r hr ha => hlater r hr ((ha _ rfl).trans_le (hcut _))
        intro M hM r hr hlt
        cases hM with
        | here hM =>
          obtain rfl := hL.eq (hu i) hM
          exact (mem_walk hl hu hcut hw r (hlater r hr hlt)).2 _ rfl
        | later hL' hM =>
          obtain rfl := hL.eq (hu i) hL'
          exact hrest M hM r hr hlt
      · intro hgap r hr ha
        rcases le_or_gt (key L) (key r) with hle | hlt
        · exact List.mem_append_left _ ((hrows r).mpr ⟨hfirst i r hr, ha, hle⟩)
        · refine List.mem_append_right _ (ih.mpr (fun M hM => hgap M (.later hL hM)) r hr ?_)
          intro k hk
          cases hk
          exact hgap L (.here hL) r hr hlt

/-! ## Rows seen through a function -/

/-- Where pages end is a matter of the keys. -/
theorem pageEnds_map {σ : Type} {f : σ → ρ} {t : List σ} {L : ρ} :
    PageEnds key limit pos (t.map f) L ↔
      ∃ M, f M = L ∧ PageEnds (fun r => key (f r)) limit pos t M := by
  have hcount : ∀ k : κ, ((t.map f).filter fun r => After key pos r ∧ k ≤ key r).length =
      (t.filter fun r => After (fun r => key (f r)) pos r ∧ k ≤ key (f r)).length := by
    intro k
    rw [List.filter_map, List.length_map]
    rfl
  unfold PageEnds
  simp only [hcount, List.mem_map]
  constructor
  · rintro ⟨⟨M, hM, rfl⟩, ha, hlen, r, ⟨r, hr, rfl⟩, hlt⟩
    exact ⟨M, rfl, hM, ha, hlen, r, hr, hlt⟩
  · rintro ⟨M, rfl, hM, ha, hlen, r, hr, hlt⟩
    exact ⟨⟨M, hM, rfl⟩, ha, hlen, _, ⟨r, hr, rfl⟩, hlt⟩

theorem boundary_of_map {σ : Type} {f : σ → ρ} {T : Nat → List σ} {i : Nat} {L : ρ}
    (h : Boundary key cut limit (fun i => (T i).map f) i pos L) :
    ∃ M, f M = L ∧ Boundary (fun r => key (f r)) cut limit T i pos M := by
  induction h with
  | here h =>
    obtain ⟨M, hM, hp⟩ := pageEnds_map.mp h
    exact ⟨M, hM, .here hp⟩
  | later h _ ih =>
    obtain ⟨M, rfl, hp⟩ := pageEnds_map.mp h
    obtain ⟨M', hM', hb⟩ := ih
    exact ⟨M', hM', .later hp hb⟩

theorem boundary_map {σ : Type} {f : σ → ρ} {T : Nat → List σ} {i : Nat} {M : σ}
    (h : Boundary (fun r => key (f r)) cut limit T i pos M) :
    Boundary key cut limit (fun i => (T i).map f) i pos (f M) := by
  induction h with
  | here h => exact .here (pageEnds_map.mpr ⟨_, rfl, h⟩)
  | later h _ ih => exact .later (pageEnds_map.mpr ⟨_, rfl, h⟩) ih

end Keyset
