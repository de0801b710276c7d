import BattleCloud.Lib.Runs

/-!
# Line endings

Text over an alphabet with a carriage return and a line feed. `lines` rewrites CRLF and then CR to
LF and splits at the LFs; `isBreak` sees only single characters.

`countP_lines`: for a property that the empty line does not have, counting it in `lines` is
counting it between the breaks. Two breaks that merge, or one that is cut in two, make or lose an
empty line only. What a count of lines does under concatenation follows from it.
-/

namespace Lines

variable {α : Type} [DecidableEq α] (cr lf : α)

/-- CRLF becomes LF, from the left. -/
def crlfToLf : List α → List α
  | a :: b :: cs => if a = cr ∧ b = lf then lf :: crlfToLf cs else a :: crlfToLf (b :: cs)
  | cs => cs

/-- CR becomes LF. -/
def crToLf (cs : List α) : List α := cs.map fun c => if c = cr then lf else c

/-- The lines of a text, whichever breaks it has. -/
def lines (cs : List α) : List (List α) := (crToLf cr lf (crlfToLf cr lf cs)).splitOn lf

/-- A break of one character. -/
def isBreak (c : α) : Bool := c = cr || c = lf

variable {cr lf}

theorem isBreak_cr : isBreak cr lf cr = true := by simp [isBreak]

theorem isBreak_lf : isBreak cr lf lf = true := by simp [isBreak]

theorem not_isBreak {c : α} : isBreak cr lf c = false ↔ c ≠ cr ∧ c ≠ lf := by
  simp [isBreak]

/-- The first line ends at the first break. -/
theorem splitOn_lf {pre : List α} (hpre : ∀ c ∈ pre, isBreak cr lf c = false) (cs : List α) :
    (pre ++ lf :: cs).splitOn lf = pre :: cs.splitOn lf := by
  refine List.splitOn_append_cons_self_of_not_mem ?_ cs
  intro hmem
  exact (not_isBreak.mp (hpre _ hmem)).2 rfl

theorem splitOnP_break {pre : List α} (hpre : ∀ c ∈ pre, isBreak cr lf c = false) {b : α}
    (hb : isBreak cr lf b = true) (cs : List α) :
    (pre ++ b :: cs).splitOnP (isBreak cr lf) = pre :: cs.splitOnP (isBreak cr lf) :=
  List.splitOnP_append_cons_of_forall_mem hpre b hb cs

theorem splitOn_single {pre : List α} (hpre : ∀ c ∈ pre, isBreak cr lf c = false) :
    pre.splitOn lf = [pre] :=
  List.splitOn_eq_singleton fun hmem => (not_isBreak.mp (hpre _ hmem)).2 rfl

variable {p : List α → Bool}

/-- Both ways to split, behind the part of a line that has been read. -/
theorem countP_append (hp : p [] = false) (cs : List α) : ∀ pre : List α,
    (∀ c ∈ pre, isBreak cr lf c = false) →
    ((pre ++ crToLf cr lf (crlfToLf cr lf cs)).splitOn lf).countP p =
      ((pre ++ cs).splitOnP (isBreak cr lf)).countP p := by
  have hread : ∀ {c : α} {cs ds : List α}, (∀ pre : List α,
      (∀ c ∈ pre, isBreak cr lf c = false) →
      ((pre ++ ds).splitOn lf).countP p = ((pre ++ cs).splitOnP (isBreak cr lf)).countP p) →
      ∀ pre : List α, (∀ c ∈ pre, isBreak cr lf c = false) →
      ((pre ++ (if c = cr then lf else c) :: ds).splitOn lf).countP p =
        ((pre ++ c :: cs).splitOnP (isBreak cr lf)).countP p := by
    intro c cs ds ih pre hpre
    cases hc : isBreak cr lf c with
    | true =>
      have hlf : (if c = cr then lf else c) = lf := by
        simp only [isBreak, Bool.or_eq_true, decide_eq_true_eq] at hc
        rcases hc with rfl | rfl <;> simp
      have h := ih [] (by simp)
      rw [List.nil_append, List.nil_append] at h
      rw [hlf, splitOn_lf hpre, splitOnP_break hpre hc, List.countP_cons, List.countP_cons, h]
    | false =>
      have hpre' : ∀ c' ∈ pre ++ [c], isBreak cr lf c' = false := by
        intro c' hc'
        rcases List.mem_append.mp hc' with h | h
        · exact hpre c' h
        · exact List.mem_singleton.mp h ▸ hc
      have h := ih (pre ++ [c]) hpre'
      rw [List.append_assoc, List.append_assoc] at h
      rw [if_neg (not_isBreak.mp hc).1]
      exact h
  fun_induction crlfToLf cr lf cs with
  | case1 a b cs h ih =>
    -- one break on the left, two with an empty line between them on the right
    obtain ⟨rfl, rfl⟩ := h
    intro pre hpre
    have h := ih [] (by simp)
    rw [List.nil_append, List.nil_append] at h
    have hmap : crToLf a b (b :: crlfToLf a b cs) = b :: crToLf a b (crlfToLf a b cs) := by
      simp [crToLf]
    have hempty := @splitOnP_break _ _ a b [] (by simp) b isBreak_lf cs
    rw [hmap, splitOn_lf hpre, splitOnP_break hpre isBreak_cr, List.countP_cons, List.countP_cons,
      h]
    rw [List.nil_append] at hempty
    rw [hempty, List.countP_cons, hp]
    rfl
  | case2 a b cs h ih => exact hread ih
  | case3 cs h =>
    cases cs with
    | nil =>
      intro pre hpre
      rw [crToLf, List.map_nil, List.append_nil, splitOn_single hpre,
        List.splitOnP_eq_singleton hpre]
    | cons c cs =>
      cases cs with
      | cons b cs => exact absurd rfl (h c b cs)
      | nil =>
        refine @hread c [] [] fun pre hpre => ?_
        rw [List.append_nil, splitOn_single hpre, List.splitOnP_eq_singleton hpre]

/-- **The two rewrites and the split are one scan**, as far as a count of lines sees. -/
theorem countP_lines (hp : p [] = false) (cs : List α) :
    (lines cr lf cs).countP p = (cs.splitOnP (isBreak cr lf)).countP p :=
  countP_append hp cs [] (by simp)

/-- **A break adds the counts**, whatever stands on its sides. -/
theorem countP_lines_append (hp : p [] = false) (as bs : List α) :
    (lines cr lf (as ++ lf :: bs)).countP p =
      (lines cr lf as).countP p + (lines cr lf bs).countP p := by
  rw [countP_lines hp, countP_lines hp, countP_lines hp,
    List.splitOnP_append_cons _ _ isBreak_lf, List.countP_append]

/-- **A text of `n` characters has at most `(n + 1) / m` lines that take `m` with their break.** -/
theorem mul_countP_lines_le {m : Nat} (hm : 1 < m) (h : ∀ l, p l = true → m ≤ l.length + 1)
    (cs : List α) : m * (lines cr lf cs).countP p ≤ cs.length + 1 := by
  have hp : p [] = false := by
    rw [← Bool.not_eq_true]
    intro hempty
    have hlen := h [] hempty
    rw [List.length_nil] at hlen
    omega
  have hcount : ∀ L : List (List α), m * L.countP p ≤ (L.map fun l => l.length + 1).sum := by
    intro L
    induction L with
    | nil => simp
    | cons l L ih =>
      rw [List.countP_cons, List.map_cons, List.sum_cons, Nat.mul_add]
      cases hl : p l with
      | true =>
        have hlen := h l hl
        simp only [if_true]
        omega
      | false => simpa using Nat.le_trans ih (Nat.le_add_left _ _)
  rw [countP_lines hp]
  exact Runs.sum_length_splitOnP (isBreak cr lf) cs ▸ hcount _

/-! ## Lines put together -/

/-- The three line endings. -/
inductive Terminator where
  | lf
  | crlf
  | cr

variable (cr lf) in
def Terminator.text : Terminator → List α
  | .lf => [lf]
  | .crlf => [cr, lf]
  | .cr => [cr]

variable (cr lf) in
/-- Lines with a terminator between each two. -/
def join : (Nat → Terminator) → List (List α) → List α
  | _, [] => []
  | _, [l] => l
  | breaks, l :: l' :: ls =>
    l ++ (breaks 0).text cr lf ++ join (fun i => breaks (i + 1)) (l' :: ls)

/-- **Every terminator between two lines ends a line.** -/
theorem countP_lines_join (hp : p [] = false) (breaks : Nat → Terminator) (ls : List (List α))
    (hls : ∀ l ∈ ls, cr ∉ l ∧ lf ∉ l) :
    (lines cr lf (join cr lf breaks ls)).countP p = ls.countP p := by
  have hfree : ∀ l ∈ ls, ∀ c ∈ l, isBreak cr lf c = false := by
    intro l hl c hc
    refine not_isBreak.mpr ⟨?_, ?_⟩
    · rintro rfl
      exact (hls l hl).1 hc
    · rintro rfl
      exact (hls l hl).2 hc
  rw [countP_lines hp]
  clear hls
  induction ls generalizing breaks with
  | nil => simp [join, hp]
  | cons l ls ih =>
    obtain ⟨hl, hrest⟩ := List.forall_mem_cons.mp hfree
    cases ls with
    | nil => rw [join, List.splitOnP_eq_singleton hl]
    | cons l' ls =>
      have h := ih (fun i => breaks (i + 1)) hrest
      rw [join, List.append_assoc, List.countP_cons, ← h]
      cases breaks 0 with
      | lf => rw [Terminator.text, List.singleton_append, splitOnP_break hl isBreak_lf,
          List.countP_cons]
      | cr => rw [Terminator.text, List.singleton_append, splitOnP_break hl isBreak_cr,
          List.countP_cons]
      | crlf =>
        rw [Terminator.text, List.cons_append, List.singleton_append,
          splitOnP_break hl isBreak_cr, List.countP_cons]
        rw [← List.nil_append (lf :: _), splitOnP_break (by simp) isBreak_lf, List.countP_cons, hp]
        simp

end Lines
