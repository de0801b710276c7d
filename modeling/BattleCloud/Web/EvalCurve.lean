import BattleCloud.Lib.Runs
import Mathlib.Algebra.Order.Ring.Rat
import Mathlib.Data.List.Nodup
import Mathlib.Data.List.Pairwise

/-!
# The win-probability curve

The loop of `EvalCurve` (`web/src/components/charts.tsx`) that makes the segments of the curve. A
point stands for its text `M12.3,45.6`: the command, and the turn it is the place of.

`evalCurve_eq`: the segments are the runs of evaluated turns that have two turns or more. A run of
one turn is not drawn, so `draws_iff`: the curve shows every evaluated turn exactly if none of them
stands alone.
-/

namespace BattleCloud

/-- What the curve reads of a turn; a win probability that is null or missing is `none`. -/
structure CurveTurn where
  turn : Int
  winProbability : Option Rat
  deriving DecidableEq

/-- `turn.winProbability === null || turn.winProbability === undefined`. -/
def CurveTurn.isGap (t : CurveTurn) : Bool := t.winProbability.isNone

inductive PathCommand where
  | move
  | line
  deriving DecidableEq

structure PathPoint where
  command : PathCommand
  turn : Int
  winProbability : Rat
  deriving DecidableEq

/-- The turn a point is the place of. -/
def PathPoint.ofTurn (p : PathPoint) : CurveTurn := ⟨p.turn, some p.winProbability⟩

namespace EvalCurve

/-- `segments` and `current`. -/
structure Loop where
  segments : List (List PathPoint)
  current : List PathPoint

/-- `if (current.length > 1) segments.push(current.join(' '))`. -/
def Loop.flush (s : Loop) : List (List PathPoint) :=
  if s.current.length > 1 then s.segments ++ [s.current] else s.segments

/-- One turn. -/
def Loop.step (s : Loop) (t : CurveTurn) : Loop :=
  match t.winProbability with
  | none => ⟨s.flush, []⟩
  | some p =>
    let command := if s.current.length = 0 then PathCommand.move else .line
    { s with current := s.current ++ [⟨command, t.turn, p⟩] }

end EvalCurve

/-- The segments that are drawn. -/
def evalCurve (turns : List CurveTurn) : List (List PathPoint) :=
  (turns.foldl EvalCurve.Loop.step ⟨[], []⟩).flush

/-- The turns of the segments. -/
def drawnTurns (turns : List CurveTurn) : List (List CurveTurn) :=
  (evalCurve turns).map (List.map PathPoint.ofTurn)

namespace EvalCurve

/-! ## The runs -/

/-- The points of evaluated turns, the first of them with a command given. -/
def points : PathCommand → List CurveTurn → List PathPoint
  | _, [] => []
  | command, t :: ts =>
    match t.winProbability with
    | none => points command ts
    | some p => ⟨command, t.turn, p⟩ :: points .line ts

theorem points_ofTurn {run : List CurveTurn} (h : ∀ t ∈ run, t.isGap = false)
    (command : PathCommand) : (points command run).map PathPoint.ofTurn = run := by
  induction run generalizing command with
  | nil => rfl
  | cons t run ih =>
    obtain ⟨ht, hrun⟩ := List.forall_mem_cons.mp h
    obtain ⟨turn, winProbability⟩ := t
    cases winProbability with
    | none => cases ht
    | some p => rw [points, List.map_cons, ih hrun]; rfl

/-- Behind its first point a path goes on in lines. -/
theorem points_command (run : List CurveTurn) : ∀ p ∈ points .line run, p.command = .line := by
  induction run with
  | nil => simp [points]
  | cons t run ih =>
    obtain ⟨turn, winProbability⟩ := t
    cases winProbability with
    | none => exact ih
    | some p => exact List.forall_mem_cons.mpr ⟨rfl, ih⟩

/-- The loop over a run appends its points. -/
theorem foldl_run {run : List CurveTurn} (h : ∀ t ∈ run, t.isGap = false)
    (segments : List (List PathPoint)) (current : List PathPoint) :
    run.foldl Loop.step ⟨segments, current⟩ = ⟨segments, current ++
      points (if current.length = 0 then .move else .line) run⟩ := by
  induction run generalizing current with
  | nil => rw [List.foldl_nil, points, List.append_nil]
  | cons t run ih =>
    obtain ⟨ht, hrun⟩ := List.forall_mem_cons.mp h
    obtain ⟨turn, winProbability⟩ := t
    cases winProbability with
    | none => cases ht
    | some p =>
      have hstep : Loop.step ⟨segments, current⟩ ⟨turn, some p⟩ = ⟨segments, current ++
        [⟨if current.length = 0 then .move else .line, turn, p⟩]⟩ := rfl
      have hlen : (current ++ [(⟨if current.length = 0 then .move else .line, turn, p⟩ :
        PathPoint)]).length ≠ 0 := by simp
      rw [List.foldl_cons, hstep, ih hrun, if_neg hlen, List.append_assoc]
      rfl

/-- What a run leaves behind its gap, or behind the last turn. -/
theorem flush_run {run : List CurveTurn} (h : ∀ t ∈ run, t.isGap = false)
    (segments : List (List PathPoint)) :
    (run.foldl Loop.step ⟨segments, []⟩).flush =
      segments ++ ([run].filter fun run => run.length > 1).map (points .move) := by
  have hlen : (points .move run).length = run.length := by
    rw [← points_ofTurn h .move, List.length_map, points_ofTurn h]
  rw [foldl_run h]
  simp only [List.length_nil, if_true, List.nil_append, Loop.flush, hlen]
  by_cases hone : run.length > 1
  · rw [if_pos hone, List.filter_cons_of_pos (by simpa using hone)]
    rfl
  · rw [if_neg hone, List.filter_cons_of_neg (by simpa using hone)]
    simp

/-- **The loop draws the runs of two turns or more.** -/
theorem flush_foldl (turns : List CurveTurn) (segments : List (List PathPoint)) :
    (turns.foldl Loop.step ⟨segments, []⟩).flush = segments ++
      ((turns.splitOnP CurveTurn.isGap).filter fun run => run.length > 1).map (points .move) := by
  induction turns using Runs.induction (q := CurveTurn.isGap) generalizing segments with
  | single run hrun => rw [List.splitOnP_eq_singleton hrun, flush_run hrun]
  | cons run b turns hrun hb ih =>
    have hgap : b.winProbability = none := Option.isNone_iff_eq_none.mp hb
    have hflush : (run.foldl Loop.step ⟨segments, []⟩).step b =
        ⟨(run.foldl Loop.step ⟨segments, []⟩).flush, []⟩ := by
      unfold Loop.step
      rw [hgap]
    rw [List.foldl_append, List.foldl_cons, hflush, ih, flush_run hrun,
      List.splitOnP_append_cons_of_forall_mem hrun b hb, List.append_assoc, ← List.map_append,
      ← List.filter_append, List.singleton_append]

theorem evalCurve_eq (turns : List CurveTurn) : evalCurve turns =
    ((turns.splitOnP CurveTurn.isGap).filter fun run => run.length > 1).map (points .move) := by
  unfold evalCurve
  rw [flush_foldl, List.nil_append]

theorem drawnTurns_eq (turns : List CurveTurn) :
    drawnTurns turns = (turns.splitOnP CurveTurn.isGap).filter fun run => run.length > 1 := by
  unfold drawnTurns
  rw [evalCurve_eq, List.map_map]
  refine (List.map_congr_left fun run hrun => ?_).trans (List.map_id _)
  exact points_ofTurn (Runs.mem_splitOnP (List.mem_of_mem_filter hrun)).1 .move

end EvalCurve

/-! ## What is drawn -/

/-- Distinct turn numbers, in increasing order. -/
def Increasing (turns : List CurveTurn) : Prop := turns.Pairwise fun t u => t.turn < u.turn

/-- **The curve draws every evaluated turn**, and a gap in it is a turn that was not evaluated. -/
structure Draws (turns : List CurveTurn) : Prop where
  /-- Its point is in one segment. -/
  once : ∀ t ∈ turns, t.isGap = false → (drawnTurns turns).countP (fun seg => seg.contains t) = 1
  /-- The points are in the order of the turns. -/
  order : (drawnTurns turns).flatten.Sublist turns
  /-- A segment is one line. -/
  line : ∀ seg ∈ evalCurve turns, ∃ p ps, seg = p :: ps ∧ p.command = .move ∧
    ∀ q ∈ ps, q.command = .line
  /-- It joins no two turns with a gap between them. -/
  gaps : ∀ seg ∈ drawnTurns turns, ∀ a ∈ seg, ∀ b ∈ seg, ∀ u ∈ turns, u.isGap = true →
    ¬ (a.turn < u.turn ∧ u.turn < b.turn)
  /-- Neighbours are in one segment. -/
  neighbours : ∀ pre a b post, turns = pre ++ a :: b :: post → a.isGap = false →
    b.isGap = false → ∃ seg ∈ drawnTurns turns, a ∈ seg ∧ b ∈ seg

namespace EvalCurve

variable {turns : List CurveTurn}

theorem line_of_segment {seg : List PathPoint} (h : seg ∈ evalCurve turns) :
    ∃ p ps, seg = p :: ps ∧ p.command = .move ∧ ∀ q ∈ ps, q.command = .line := by
  rw [evalCurve_eq] at h
  obtain ⟨run, hrun, rfl⟩ := List.mem_map.mp h
  have hfree := (Runs.mem_splitOnP (List.mem_of_mem_filter hrun)).1
  cases run with
  | nil => cases List.of_mem_filter hrun
  | cons t run =>
    obtain ⟨turn, winProbability⟩ := t
    cases winProbability with
    | none => cases hfree _ List.mem_cons_self
    | some p => exact ⟨_, _, rfl, rfl, points_command run⟩

theorem mem_drawnTurns {seg : List CurveTurn} :
    seg ∈ drawnTurns turns ↔ seg ∈ turns.splitOnP CurveTurn.isGap ∧ seg.length > 1 := by
  rw [drawnTurns_eq, List.mem_filter, decide_eq_true_eq]

theorem neighbours_drawn (hinc : Increasing turns) {pre post : List CurveTurn} {a b : CurveTurn}
    (hturns : turns = pre ++ a :: b :: post) (ha : a.isGap = false) (hb : b.isGap = false) :
    ∃ seg ∈ drawnTurns turns, a ∈ seg ∧ b ∈ seg := by
  subst hturns
  obtain ⟨run, hrun, hmem⟩ := @Runs.neighbours_splitOnP _ _ a b ha hb pre post
  refine ⟨run, mem_drawnTurns.mpr ⟨hrun, ?_⟩, hmem⟩
  have hlt : a.turn < b.turn :=
    (List.pairwise_cons.mp (List.pairwise_append.mp hinc).2.1).1 b List.mem_cons_self
  match run, hmem with
  | [x], ⟨hx, hy⟩ =>
    rw [List.mem_singleton.mp hx, List.mem_singleton.mp hy] at hlt
    exact absurd hlt (Int.lt_irrefl _)
  | x :: y :: run, _ => simp

/-- No gap is between two turns of a run. -/
theorem gap_not_between (hinc : Increasing turns) {seg : List CurveTurn}
    (hseg : seg ∈ drawnTurns turns) {a b u : CurveTurn} (ha : a ∈ seg) (hb : b ∈ seg)
    (hu : u ∈ turns) (hgap : u.isGap = true) : ¬ (a.turn < u.turn ∧ u.turn < b.turn) := by
  obtain ⟨hfree, pre, post, rfl⟩ := Runs.mem_splitOnP (mem_drawnTurns.mp hseg).1
  rintro ⟨hau, hub⟩
  obtain ⟨hleft, -, hright⟩ := List.pairwise_append.mp hinc
  rcases List.mem_append.mp hu with hu | hu
  · rcases List.mem_append.mp hu with hu | hu
    · have hlt := (List.pairwise_append.mp hleft).2.2 u hu a ha
      omega
    · rw [hfree u hu] at hgap
      cases hgap
  · have hlt := hright b (List.mem_append_right _ hb) u hu
    omega

theorem flatten_runs_sublist :
    (turns.splitOnP CurveTurn.isGap).flatten.Sublist turns := by
  rw [Runs.flatten_splitOnP]
  exact List.filter_sublist

/-- The turns of the curve, in order. -/
theorem flatten_drawn_sublist : (drawnTurns turns).flatten.Sublist turns := by
  have hfilter : ∀ runs : List (List CurveTurn),
      (runs.filter fun run => run.length > 1).flatten.Sublist runs.flatten := by
    intro runs
    induction runs with
    | nil => exact .slnil
    | cons run runs ih =>
      rw [List.filter_cons]
      split
      · exact (List.Sublist.refl run).append ih
      · exact ih.trans (List.sublist_append_right run _)
  rw [drawnTurns_eq]
  exact (hfilter _).trans flatten_runs_sublist

/-- Where no evaluated turn stands alone all of them are on the curve. -/
theorem mem_flatten_drawn (h : ∀ t, ¬ Runs.Alone CurveTurn.isGap t turns) {t : CurveTurn}
    (ht : t ∈ turns) (heval : t.isGap = false) : t ∈ (drawnTurns turns).flatten := by
  have hmem : t ∈ (turns.splitOnP CurveTurn.isGap).flatten := by
    rw [Runs.flatten_splitOnP, List.mem_filter]
    exact ⟨ht, by simp [heval]⟩
  obtain ⟨run, hrun, hrunt⟩ := List.mem_flatten.mp hmem
  refine List.mem_flatten.mpr ⟨run, mem_drawnTurns.mpr ⟨hrun, ?_⟩, hrunt⟩
  match run, hrun, hrunt with
  | [x], hrun, _ => exact absurd (Runs.singleton_mem_splitOnP.mp hrun) (h x)
  | x :: y :: run, _, _ => simp

/-- The runs of distinct turns have no turn in common. -/
theorem runs_disjoint (hnodup : turns.Nodup) :
    (turns.splitOnP CurveTurn.isGap).Pairwise List.Disjoint :=
  (List.nodup_flatten.mp (flatten_runs_sublist.nodup hnodup)).2

theorem countP_contains {lists : List (List CurveTurn)} (h : lists.Pairwise List.Disjoint)
    {t : CurveTurn} (ht : t ∈ lists.flatten) : lists.countP (fun seg => seg.contains t) = 1 := by
  induction lists with
  | nil => cases ht
  | cons seg lists ih =>
    obtain ⟨hseg, hrest⟩ := List.pairwise_cons.mp h
    rw [List.countP_cons]
    by_cases hmem : t ∈ seg
    · have hnone : lists.countP (fun seg => seg.contains t) = 0 := by
        rw [List.countP_eq_zero]
        intro seg' hseg' hcontains
        exact hseg seg' hseg' hmem (List.contains_iff_mem.mp hcontains)
      rw [hnone, if_pos (List.contains_iff_mem.mpr hmem)]
    · rw [List.flatten_cons, List.mem_append] at ht
      rw [ih hrest (ht.resolve_left hmem), if_neg (mt List.contains_iff_mem.mp hmem)]

/-- A turn that stands alone is on no segment. -/
theorem not_drawn_of_alone (hnodup : turns.Nodup) {t : CurveTurn}
    (h : Runs.Alone CurveTurn.isGap t turns) {seg : List CurveTurn}
    (hseg : seg ∈ drawnTurns turns) : t ∉ seg := by
  intro ht
  obtain ⟨hrun, hlen⟩ := mem_drawnTurns.mp hseg
  have hne : [t] ≠ seg := by
    rintro rfl
    exact Nat.lt_irrefl 1 hlen
  have hsymm : Std.Symm (List.Disjoint : List CurveTurn → List CurveTurn → Prop) :=
    ⟨fun _ _ h _ hy hx => h hx hy⟩
  exact (runs_disjoint hnodup).forall (Runs.singleton_mem_splitOnP.mpr h) hrun hne
    List.mem_cons_self ht

end EvalCurve

/-- **The curve draws the turns exactly if no evaluated turn stands alone.** -/
theorem draws_iff {turns : List CurveTurn} (hinc : Increasing turns) :
    Draws turns ↔ ∀ t, ¬ Runs.Alone CurveTurn.isGap t turns := by
  have hnodup : turns.Nodup := by
    refine List.Pairwise.imp ?_ hinc
    rintro t u hlt rfl
    exact Int.lt_irrefl _ hlt
  constructor
  · intro h t halone
    obtain ⟨pre, post, hturns, heval, -, -⟩ := id halone
    have honce := h.once t (by simp [hturns]) heval
    obtain ⟨seg, hseg, hmem⟩ := List.countP_pos_iff.mp (Nat.lt_of_lt_of_eq Nat.one_pos honce.symm)
    exact EvalCurve.not_drawn_of_alone hnodup halone hseg (List.contains_iff_mem.mp hmem)
  · intro h
    refine ⟨?_, EvalCurve.flatten_drawn_sublist, ?_, ?_, ?_⟩
    · intro t ht heval
      have hdisjoint := (EvalCurve.runs_disjoint hnodup).filter fun run => run.length > 1
      rw [← EvalCurve.drawnTurns_eq] at hdisjoint
      exact EvalCurve.countP_contains hdisjoint (EvalCurve.mem_flatten_drawn h ht heval)
    · exact fun seg hseg => EvalCurve.line_of_segment hseg
    · exact fun seg hseg a ha b hb u hu hgap => EvalCurve.gap_not_between hinc hseg ha hb hu hgap
    · exact fun pre a b post hturns ha hb => EvalCurve.neighbours_drawn hinc hturns ha hb

namespace Sample

/-- Four turns; the engine could not evaluate the second. -/
def curveTurns : List CurveTurn := [⟨1, some 1⟩, ⟨2, none⟩, ⟨3, some 1⟩, ⟨4, some 0⟩]

end Sample

/-- Of three turns the last two are one segment. -/
theorem draws_iff_segment : Draws (Sample.curveTurns.drop 1) := by
  refine (draws_iff (by unfold Increasing; decide)).mpr ?_
  intro t ht
  have hruns : (Sample.curveTurns.drop 1).splitOnP CurveTurn.isGap =
    [[], [⟨3, some 1⟩, ⟨4, some 0⟩]] := by decide
  have hmem := Runs.singleton_mem_splitOnP.mpr ht
  rw [hruns] at hmem
  simp at hmem

/-- **An evaluated turn between gaps is not drawn.** The first of four turns has a win probability
and is on no segment. -/
theorem lone_turn_not_drawn : ¬ ∀ turns, Increasing turns → Draws turns := by
  intro h
  have hdraws := h Sample.curveTurns (by unfold Increasing; decide)
  have honce := hdraws.once ⟨1, some 1⟩ (by decide) (by decide)
  revert honce
  decide

end BattleCloud
