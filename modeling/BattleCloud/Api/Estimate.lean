import BattleCloud.Api.Replay
import BattleCloud.Contract.Js
import BattleCloud.Lib.Lines
import Mathlib.Data.Bool.AllAny

/-!
# The turn estimate

`estimateTurns` of `api/src/replay/estimate.ts` on a string as the API has it, a sequence of UTF-16
units. `estimateTurns_text`: on the text that is stored of it the count is the same, so a replay
counts the same turns when it is fetched and when it is read back.

`estimateTurns_any_breaks`: the count does not depend on the line endings, and it is additive over
a line feed between any two logs.
-/

namespace BattleCloud

namespace JsString

/-- `/^\|turn\|\d+$/.test(line)`. -/
def isTurnLine (line : JsString) : Bool :=
  line.take 6 = js "|turn|" && line.drop 6 ≠ [] &&
    (line.drop 6).all fun u => 48 ≤ u.toNat && u.toNat ≤ 57

def estimateTurns (log : JsString) : Nat :=
  let normalized := Lines.crToLf 13 10 (Lines.crlfToLf 13 10 log)
  (normalized.splitOn 10).countP isTurnLine

theorem isTurnLine_iff {line : JsString} :
    line.isTurnLine = true ↔ ∃ digits : JsString, digits ≠ [] ∧
      (∀ u ∈ digits, 48 ≤ u.toNat ∧ u.toNat ≤ 57) ∧ line = js "|turn|" ++ digits := by
  simp only [isTurnLine, Bool.and_eq_true, decide_eq_true_eq, List.all_eq_true]
  constructor
  · rintro ⟨⟨hturn, hne⟩, hdigits⟩
    exact ⟨line.drop 6, hne, hdigits, by rw [← hturn, List.take_append_drop]⟩
  · rintro ⟨digits, hne, hdigits, rfl⟩
    have hlen : (js "|turn|").length = 6 := by decide
    rw [List.take_left' hlen, List.drop_left' hlen]
    exact ⟨⟨rfl, hne⟩, hdigits⟩

/-- The empty line is none. -/
theorem isTurnLine_nil : isTurnLine [] = false := by decide

/-- A turn line and its break are eight units at least. -/
theorem eight_le_of_isTurnLine {line : JsString} (h : line.isTurnLine = true) :
    8 ≤ line.length + 1 := by
  obtain ⟨digits, hne, -, rfl⟩ := isTurnLine_iff.mp h
  have hlen : (js "|turn|").length = 6 := by decide
  have hpos := List.length_pos_of_ne_nil hne
  rw [List.length_append]
  omega

/-- **One turn takes eight units of the log.** -/
theorem eight_mul_estimateTurns_le (log : JsString) :
    8 * log.estimateTurns ≤ log.length + 1 :=
  Lines.mul_countP_lines_le (by decide) (fun _ => eight_le_of_isTurnLine) log

end JsString

/-- **Turn counting ignores line-ending style and is additive.** Lines without CR or LF, put
together with any of the three terminators at each break, count the lines that are `|turn|` and
digits; and a line feed between two logs adds their counts. -/
theorem estimateTurns_any_breaks :
    (∀ (breaks : Nat → Lines.Terminator) (lines : List JsString),
      (∀ l ∈ lines, 13 ∉ l ∧ 10 ∉ l) →
      JsString.estimateTurns (Lines.join 13 10 breaks lines) = lines.countP JsString.isTurnLine) ∧
    (∀ line : JsString, line.isTurnLine = true ↔ ∃ digits : JsString, digits ≠ [] ∧
      (∀ u ∈ digits, 48 ≤ u.toNat ∧ u.toNat ≤ 57) ∧ line = js "|turn|" ++ digits) ∧
    ∀ a b : JsString, JsString.estimateTurns (a ++ js "\n" ++ b) =
      a.estimateTurns + b.estimateTurns := by
  refine ⟨?_, fun _ => JsString.isTurnLine_iff, ?_⟩
  · intro breaks lines hlines
    exact Lines.countP_lines_join JsString.isTurnLine_nil breaks lines hlines
  · intro a b
    have hlf : js "\n" = [10] := by decide
    rw [hlf, List.append_assoc, List.singleton_append]
    exact Lines.countP_lines_append JsString.isTurnLine_nil a b

/-- A CR, a CRLF that closes an empty line, and two turns. -/
theorem estimateTurns_any_breaks_mixed :
    JsString.estimateTurns (Lines.join 13 10 (fun i => if i = 0 then .cr else .crlf)
      [js "|turn|1", js "", js "|turn|2", js "|turn|x"]) = 2 :=
  estimateTurns_any_breaks.1 _ [js "|turn|1", js "", js "|turn|2", js "|turn|x"] (by decide)

/-! ## The stored text -/

theorem crlfToLf_eq (cs : List Char) : crlfToLf cs = Lines.crlfToLf '\r' '\n' cs := by
  fun_induction Lines.crlfToLf '\r' '\n' cs with
  | case1 a b cs h ih =>
    obtain ⟨rfl, rfl⟩ := h
    rw [crlfToLf, ih]
  | case2 a b cs h ih =>
    rw [crlfToLf, ih]
    rintro cs' rfl hcs
    exact h ⟨rfl, (List.cons.inj hcs).1⟩
  | case3 cs h =>
    rcases cs with _ | ⟨c, _ | ⟨b, cs⟩⟩
    · rfl
    · rw [crlfToLf, crlfToLf]
      rintro cs' - hcs
      cases hcs
    · exact absurd rfl (h c b cs)

theorem estimateTurns_eq (log : String) :
    estimateTurns log = (Lines.lines '\r' '\n' log.toList).countP isTurnLine := by
  unfold estimateTurns
  rw [crlfToLf_eq]
  rfl

theorem isTurnLine_iff {line : List Char} :
    isTurnLine line = true ↔ ∃ digits, digits ≠ [] ∧ (∀ c ∈ digits, c.isDigit = true) ∧
      line = "|turn|".toList ++ digits := by
  constructor
  · intro h
    unfold isTurnLine at h
    split at h
    · rename_i d ds
      exact ⟨d :: ds, List.cons_ne_nil _ _, List.all_eq_true.mp h, rfl⟩
    · cases h
  · rintro ⟨digits, hne, hdigits, rfl⟩
    cases digits with
    | nil => exact absurd rfl hne
    | cons d ds => exact List.all_eq_true.mpr hdigits

theorem isTurnLine_nil : isTurnLine [] = false := rfl

namespace JsString

/-- The characters of the stored text. -/
def chars (s : JsString) : List Char := (Utf16.decode s).map (·.getD '\uFFFD')

theorem text_toList (s : JsString) : s.text.toList = s.chars := String.toList_ofList

/-- ASCII text is that of its own units only. -/
theorem chars_eq_iff {s : JsString} {cs : List Char} (h : ∀ c ∈ cs, c.toNat < 128) :
    s.chars = cs ↔ s = Utf16.encode cs := by
  constructor
  · intro hs
    refine (Utf16.encode_of_decode ?_).symm
    unfold chars at hs
    rw [← hs, List.map_map]
    refine (List.map_id _).symm.trans (List.map_congr_left ?_)
    intro x hx
    cases x with
    | some c => rfl
    | none =>
      have hmem : '\uFFFD' ∈ cs := hs ▸ List.mem_map_of_mem hx
      exact absurd (h _ hmem) (by decide)
  · rintro rfl
    unfold chars
    rw [Utf16.decode_encode, List.map_map]
    exact List.map_id cs

theorem encode_ascii {cs : List Char} (h : ∀ c ∈ cs, c.toNat < 128) :
    Utf16.encode cs = cs.map fun c => UInt16.ofNat c.toNat := by
  induction cs with
  | nil => rfl
  | cons c cs ih =>
    obtain ⟨hc, hcs⟩ := List.forall_mem_cons.mp h
    have hunit : Utf16.encodeChar c = [UInt16.ofNat c.toNat] := if_pos (by omega)
    rw [Utf16.encode, List.flatMap_cons, hunit, List.singleton_append, List.map_cons]
    exact congrArg _ (ih hcs)

/-- Units below the surrogates are their characters. -/
theorem chars_basic {s : JsString} (h : ∀ u ∈ s, u.toNat < 0xD800) :
    s.chars = s.map fun u => Char.ofNat u.toNat := by
  unfold chars
  rw [Utf16.decode_basic h, List.map_map]
  rfl

theorem isDigit_iff {c : Char} : c.isDigit = true ↔ 48 ≤ c.toNat ∧ c.toNat ≤ 57 := by
  simp only [Char.isDigit, ge_iff_le, UInt32.le_iff_toNat_le, Bool.and_eq_true, decide_eq_true_eq]
  exact Iff.rfl

theorem isTurnLine_chars (line : JsString) :
    BattleCloud.isTurnLine line.chars = line.isTurnLine := by
  rw [Bool.eq_iff_iff, BattleCloud.isTurnLine_iff, isTurnLine_iff]
  constructor
  · rintro ⟨digits, hne, hdigits, hline⟩
    have hascii : ∀ c ∈ digits, c.toNat < 128 := fun c hc => by
      have := isDigit_iff.mp (hdigits c hc)
      omega
    have hall : ∀ c ∈ "|turn|".toList ++ digits, c.toNat < 128 :=
      List.forall_mem_append.mpr ⟨List.all_iff_forall_prop.mp (by decide), hascii⟩
    have hunits := (chars_eq_iff hall).mp hline
    rw [Utf16.encode, List.flatMap_append] at hunits
    refine ⟨Utf16.encode digits, ?_, ?_, hunits⟩
    · rw [encode_ascii hascii]
      exact fun h => hne (List.map_eq_nil_iff.mp h)
    · rw [encode_ascii hascii]
      intro u hu
      obtain ⟨c, hc, rfl⟩ := List.mem_map.mp hu
      have hd := isDigit_iff.mp (hdigits c hc)
      rw [Utf16.unit_toNat (by omega)]
      exact hd
  · rintro ⟨digits, hne, hdigits, rfl⟩
    have hvalid : ∀ u ∈ digits, (Char.ofNat u.toNat).toNat = u.toNat := fun u hu =>
      Utf16.toNat_ofNat (Or.inl (by have := hdigits u hu; omega))
    have hbasic : ∀ u ∈ js "|turn|" ++ digits, u.toNat < 0xD800 :=
      List.forall_mem_append.mpr ⟨List.all_iff_forall_prop.mp (by decide), fun u hu => by
        have := hdigits u hu
        omega⟩
    refine ⟨digits.map fun u => Char.ofNat u.toNat, ?_, ?_, ?_⟩
    · exact fun h => hne (List.map_eq_nil_iff.mp h)
    · intro c hc
      obtain ⟨u, hu, rfl⟩ := List.mem_map.mp hc
      rw [isDigit_iff, hvalid u hu]
      exact hdigits u hu
    · rw [chars_basic hbasic, List.map_append]
      rfl

/-- A break of the text is one of the string. -/
theorem isBreak_chars {l : JsString} (hl : ∀ u ∈ l, Lines.isBreak (13 : UInt16) 10 u = false) :
    ∀ c ∈ l.chars, Lines.isBreak '\r' '\n' c = false := by
  intro c hc
  obtain ⟨x, hx, rfl⟩ := List.mem_map.mp hc
  cases x with
  | none => decide
  | some c =>
    refine Lines.not_isBreak.mpr ⟨?_, ?_⟩
    · rintro rfl
      exact (Lines.not_isBreak.mp (hl _ ((Utf16.mem_decode (by decide)).mp hx))).1 rfl
    · rintro rfl
      exact (Lines.not_isBreak.mp (hl _ ((Utf16.mem_decode (by decide)).mp hx))).2 rfl

theorem chars_break {b : UInt16} (hb : Lines.isBreak (13 : UInt16) 10 b = true)
    (l cs : JsString) : ∃ c, Lines.isBreak '\r' '\n' c = true ∧
      JsString.chars (l ++ b :: cs) = l.chars ++ c :: cs.chars := by
  have hcases : b = 13 ∨ b = 10 := by simpa [Lines.isBreak] using hb
  rcases hcases with rfl | rfl
  · refine ⟨'\r', by decide, ?_⟩
    unfold chars
    rw [Utf16.decode_append_cons (by decide) (by decide), List.map_append]
    rfl
  · refine ⟨'\n', by decide, ?_⟩
    unfold chars
    rw [Utf16.decode_append_cons (by decide) (by decide), List.map_append]
    rfl

end JsString

/-- **The stored text of a log counts the turns of the log.** -/
theorem estimateTurns_text (log : JsString) : estimateTurns log.text = log.estimateTurns := by
  have hunits : log.estimateTurns = (Lines.lines 13 10 log).countP JsString.isTurnLine := rfl
  rw [estimateTurns_eq, JsString.text_toList, hunits, Lines.countP_lines isTurnLine_nil,
    Lines.countP_lines JsString.isTurnLine_nil]
  clear hunits
  induction log using Runs.induction (q := Lines.isBreak (13 : UInt16) 10) with
  | single l hl =>
    rw [List.splitOnP_eq_singleton hl, List.splitOnP_eq_singleton (JsString.isBreak_chars hl),
      List.countP_singleton, List.countP_singleton, JsString.isTurnLine_chars]
  | cons l b cs hl hb ih =>
    obtain ⟨c, hc, heq⟩ := JsString.chars_break hb l cs
    rw [heq, Lines.splitOnP_break hl hb, Lines.splitOnP_break (JsString.isBreak_chars hl) hc,
      List.countP_cons, List.countP_cons, JsString.isTurnLine_chars, ih]

end BattleCloud
