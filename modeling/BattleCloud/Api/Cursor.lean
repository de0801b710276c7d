import BattleCloud.Api.List

/-!
# Cursors the API did not write

A cursor is any text a client sends. `decodeCursor` asks `Date.parse` and a class of 36 characters
before it hands the two halves to Postgres, which has grammars of its own: `timestamptz` (a
parameter, as `Date.parse` is) and `uuid` (`uuidIn`).

`uuidIn_isSome_iff`: of the ids let through Postgres reads those of five groups of hexadecimal
digits, each of a length divisible by four. **`cursor_handled_iff`**: the route answers 400 or runs
its query on values Postgres takes exactly when Postgres reads both halves that were let through;
otherwise the query is refused, and the client is told nothing of its cursor.
-/

namespace BattleCloud

/-! ## The grammar of a `uuid` -/

/-- Groups of hexadecimal digits of lengths divisible by four. -/
def HexGroups (groups : List (List Char)) : Prop :=
  ∀ g ∈ groups, g ≠ [] ∧ 4 ∣ g.length ∧ ∀ c ∈ g, (hexVal c).isSome = true

/-- What follows the first `k` bytes of a `uuid`. -/
def afterUuid (k : Nat) (cs : List Char) : Option (List Char) := (readUuid k 0 cs).map Prod.snd

/-- A hyphen is read over unless the `uuid` is over. -/
def skipUnlessLast (m : Nat) (cs : List Char) : List Char := if 0 < m then skipHyphen cs else cs

/-- What is left does not depend on what was read. -/
theorem readUuid_snd (k acc : Nat) (cs : List Char) :
    (readUuid k acc cs).map Prod.snd = afterUuid k cs := by
  have h : ∀ acc acc', (readUuid k acc cs).map Prod.snd = (readUuid k acc' cs).map Prod.snd := by
    induction k generalizing cs with
    | zero => exact fun _ _ => rfl
    | succ k ih =>
      intro acc acc'
      rcases cs with _ | ⟨a, _ | ⟨b, cs⟩⟩
      · simp only [readUuid]
      · simp only [readUuid]
      · simp only [readUuid, Option.bind_eq_bind]
        cases hexVal a with
        | none => simp only [Option.bind_none]
        | some hi =>
          cases hexVal b with
          | none => simp only [Option.bind_some, Option.bind_none]
          | some lo => exact ih _ _ _
  exact h acc 0

/-- One byte. -/
theorem afterUuid_succ {k : Nat} {a b : Char} (ha : (hexVal a).isSome = true)
    (hb : (hexVal b).isSome = true) (cs : List Char) :
    afterUuid (k + 1) (a :: b :: cs) =
      afterUuid k (if k % 2 = 0 ∧ 0 < k then skipHyphen cs else cs) := by
  obtain ⟨hi, ha⟩ := Option.isSome_iff_exists.mp ha
  obtain ⟨lo, hb⟩ := Option.isSome_iff_exists.mp hb
  unfold afterUuid
  rw [readUuid, ha, hb]
  exact readUuid_snd _ _ _

/-- A byte that was read. -/
theorem afterUuid_succ_some {k : Nat} {cs r : List Char} (h : afterUuid (k + 1) cs = some r) :
    ∃ a b cs', cs = a :: b :: cs' ∧ (hexVal a).isSome = true ∧ (hexVal b).isSome = true := by
  unfold afterUuid at h
  rcases cs with _ | ⟨a, _ | ⟨b, cs⟩⟩
  · simp [readUuid] at h
  · simp [readUuid] at h
  · rw [readUuid] at h
    cases ha : hexVal a with
    | none => simp [ha] at h
    | some hi =>
      cases hb : hexVal b with
      | none => simp [ha, hb] at h
      | some lo => exact ⟨a, b, cs, rfl, by rw [ha]; rfl, by rw [hb]; rfl⟩

/-- Two bytes, after which there may be a hyphen. -/
theorem afterUuid_quad {m : Nat} {a b c d : Char} (h : ∀ x ∈ [a, b, c, d], (hexVal x).isSome = true)
    (cs : List Char) :
    afterUuid (2 * (m + 1)) (a :: b :: c :: d :: cs) = afterUuid (2 * m) (skipUnlessLast m cs) := by
  obtain ⟨ha, hb, hc, hd, -⟩ : (hexVal a).isSome = true ∧ (hexVal b).isSome = true ∧
      (hexVal c).isSome = true ∧ (hexVal d).isSome = true ∧ True := by simpa using h
  have hodd : ¬ ((2 * m + 1) % 2 = 0 ∧ 0 < 2 * m + 1) := by omega
  rw [show 2 * (m + 1) = 2 * m + 1 + 1 by omega, afterUuid_succ ha hb, if_neg hodd,
    afterUuid_succ hc hd]
  congr 1
  unfold skipUnlessLast
  by_cases hm : 0 < m
  · rw [if_pos (by omega), if_pos hm]
  · rw [if_neg (by omega), if_neg hm]

theorem afterUuid_quad_some {m : Nat} {cs r : List Char}
    (h : afterUuid (2 * (m + 1)) cs = some r) :
    ∃ a b c d cs', cs = a :: b :: c :: d :: cs' ∧
      ∀ x ∈ [a, b, c, d], (hexVal x).isSome = true := by
  rw [show 2 * (m + 1) = 2 * m + 1 + 1 by omega] at h
  obtain ⟨a, b, cs, rfl, ha, hb⟩ := afterUuid_succ_some h
  have hodd : ¬ ((2 * m + 1) % 2 = 0 ∧ 0 < 2 * m + 1) := by omega
  rw [afterUuid_succ ha hb, if_neg hodd] at h
  obtain ⟨c, d, cs, rfl, hc, hd⟩ := afterUuid_succ_some h
  exact ⟨a, b, c, d, cs, rfl, by simp [ha, hb, hc, hd]⟩

theorem hexVal_hyphen : hexVal '-' = none := rfl

theorem skipHyphen_of_hex {a : Char} (ha : (hexVal a).isSome = true) (cs : List Char) :
    skipHyphen (a :: cs) = a :: cs := by
  unfold skipHyphen
  split
  · rename_i h
    rw [(List.cons.inj h).1, hexVal_hyphen] at ha
    cases ha
  · rfl

/-- Four more digits in front of the first group. -/
theorem HexGroups.cons_quad {a b c d : Char} (h : ∀ x ∈ [a, b, c, d], (hexVal x).isSome = true)
    {g : List Char} {gs : List (List Char)} (hg : HexGroups (g :: gs)) :
    HexGroups ((a :: b :: c :: d :: g) :: gs) := by
  obtain ⟨⟨-, hdvd, hhex⟩, hgs⟩ := List.forall_mem_cons.mp hg
  refine List.forall_mem_cons.mpr ⟨⟨List.cons_ne_nil _ _, ?_, ?_⟩, hgs⟩
  · simp only [List.length_cons]
    omega
  · have happ : ∀ x ∈ [a, b, c, d] ++ g, (hexVal x).isSome = true :=
      List.forall_mem_append.mpr ⟨h, hhex⟩
    exact happ

theorem HexGroups.eq_nil {groups : List (List Char)} (hg : HexGroups groups)
    (h : groups.flatten.length = 0) : groups = [] := by
  cases groups with
  | nil => rfl
  | cons g gs =>
    rw [List.flatten_cons, List.length_append] at h
    have hne := (hg g List.mem_cons_self).1
    exact absurd (List.length_eq_zero_iff.mp (by omega)) hne

/-- **What is read are groups**: after four digits a group ends at a hyphen, or goes on. -/
theorem groups_of_afterUuid : ∀ {m : Nat} {cs : List Char}, afterUuid (2 * m) cs = some [] →
    ∃ groups, HexGroups groups ∧ groups.flatten.length = 4 * m ∧
      cs = List.intercalate ['-'] groups
  | 0, cs, h => by
    obtain rfl : cs = [] := Option.some.inj h
    exact ⟨[], fun _ h => absurd h List.not_mem_nil, rfl, rfl⟩
  | m + 1, cs, h => by
    obtain ⟨a, b, c, d, cs, rfl, hx⟩ := afterUuid_quad_some h
    rw [afterUuid_quad hx] at h
    obtain ⟨groups, hg, hlen, hcs⟩ := groups_of_afterUuid h
    have hquad : HexGroups ([a, b, c, d] :: groups) :=
      List.forall_mem_cons.mpr ⟨⟨List.cons_ne_nil _ _, ⟨1, rfl⟩, hx⟩, hg⟩
    unfold skipUnlessLast at hcs
    cases groups with
    | nil =>
      -- these were the last four
      have hm : ¬ 0 < m := by
        simp only [List.flatten_nil, List.length_nil] at hlen
        omega
      rw [if_neg hm, List.intercalate_nil] at hcs
      refine ⟨[[a, b, c, d]], hquad, ?_, ?_⟩
      · simp only [List.flatten_cons, List.flatten_nil, List.append_nil, List.length_cons,
          List.length_nil] at hlen ⊢
        omega
      · rw [hcs, List.intercalate_singleton]
    | cons g gs =>
      have hm : 0 < m := by
        by_contra hm
        have hnil := hg.eq_nil (by omega)
        cases hnil
      rw [if_pos hm] at hcs
      by_cases hhyphen : ∃ rest, cs = '-' :: rest
      · obtain ⟨rest, rfl⟩ := hhyphen
        obtain rfl : rest = _ := hcs
        refine ⟨[a, b, c, d] :: g :: gs, hquad, ?_, ?_⟩
        · rw [List.flatten_cons, List.length_append, hlen]
          simp only [List.length_cons, List.length_nil]
          omega
        · rw [List.intercalate_cons_cons]
          rfl
      · have hsame : skipHyphen cs = cs := by
          unfold skipHyphen
          split
          · exact absurd ⟨_, rfl⟩ hhyphen
          · rfl
        rw [hsame] at hcs
        refine ⟨(a :: b :: c :: d :: g) :: gs, hg.cons_quad hx, ?_, ?_⟩
        · simp only [List.flatten_cons, List.length_append, List.length_cons] at hlen ⊢
          omega
        · simp only [hcs, List.intercalate_cons_cons_left]

/-- **Groups are read.** -/
theorem afterUuid_groups : ∀ {m : Nat} {groups : List (List Char)}, HexGroups groups →
    groups.flatten.length = 4 * m → afterUuid (2 * m) (List.intercalate ['-'] groups) = some []
  | 0, groups, hg, hlen => by
    rw [hg.eq_nil hlen]
    rfl
  | m + 1, [], hg, hlen => by
    simp only [List.flatten_nil, List.length_nil] at hlen
    omega
  | m + 1, g :: gs, hg, hlen => by
    obtain ⟨⟨hne, hdvd, hhex⟩, hgs⟩ := List.forall_mem_cons.mp hg
    obtain ⟨a, b, c, d, g, rfl⟩ : ∃ a b c d g', g = a :: b :: c :: d :: g' := by
      rcases g with _ | ⟨a, _ | ⟨b, _ | ⟨c, _ | ⟨d, g⟩⟩⟩⟩
      · exact absurd rfl hne
      · simp at hdvd
      · simp at hdvd
      · simp at hdvd
      · exact ⟨a, b, c, d, g, rfl⟩
    have happ : ∀ x ∈ [a, b, c, d] ++ g, (hexVal x).isSome = true := hhex
    have hsplit := List.forall_mem_append.mp happ
    simp only [List.flatten_cons, List.length_append, List.length_cons] at hlen
    simp only [List.intercalate_cons_cons_left]
    rw [afterUuid_quad hsplit.1]
    unfold skipUnlessLast
    cases g with
    | cons x g =>
      have hrest : HexGroups ((x :: g) :: gs) := by
        refine List.forall_mem_cons.mpr ⟨⟨List.cons_ne_nil _ _, ?_, hsplit.2⟩, hgs⟩
        simp only [List.length_cons] at hdvd ⊢
        omega
      rw [if_pos (by simp only [List.length_cons] at hlen hdvd; omega),
        List.intercalate_cons_cons_left, skipHyphen_of_hex (hsplit.2 x List.mem_cons_self),
        ← List.intercalate_cons_cons_left]
      refine afterUuid_groups hrest ?_
      simp only [List.flatten_cons, List.length_append, List.length_cons] at hlen ⊢
      omega
    | nil =>
      cases gs with
      | nil =>
        simp only [List.flatten_nil, List.length_nil] at hlen
        obtain rfl : m = 0 := by omega
        rfl
      | cons g' gs =>
        have hm : 0 < m := by
          have := List.length_pos_iff.mpr (hgs g' List.mem_cons_self).1
          simp only [List.flatten_cons, List.length_append, List.length_nil] at hlen
          omega
        rw [if_pos hm, List.intercalate_cons_cons]
        refine afterUuid_groups hgs ?_
        simp only [List.length_nil] at hlen
        omega

theorem length_intercalate {groups : List (List Char)} (h : groups ≠ []) :
    (List.intercalate ['-'] groups).length + 1 = groups.flatten.length + groups.length := by
  induction groups with
  | nil => exact absurd rfl h
  | cons g gs ih =>
    cases gs with
    | nil =>
      rw [List.intercalate_singleton]
      simp
    | cons g' gs =>
      have ih := ih (List.cons_ne_nil _ _)
      rw [List.intercalate_cons_cons]
      simp only [List.length_append, List.length_cons, List.length_nil, List.flatten_cons] at ih ⊢
      omega

/-- Five groups of hexadecimal digits of lengths divisible by four, joined by hyphens. -/
def FiveGroups (id : String) : Prop :=
  ∃ groups, HexGroups groups ∧ groups.length = 5 ∧ id.toList = List.intercalate ['-'] groups

theorem uuidIn_isSome {s : String} (h : ∀ cs, s.toList ≠ '{' :: cs) :
    (uuidIn s).isSome = true ↔ afterUuid 16 s.toList = some [] := by
  unfold uuidIn afterUuid
  split
  · rename_i cs hs
    exact absurd hs (h cs)
  · split
    · rename_i n hr
      simp [hr]
    · rename_i hr
      constructor
      · intro hn
        cases hn
      · intro hn
        obtain ⟨⟨n, rest⟩, hread, rfl⟩ := Option.map_eq_some_iff.mp hn
        exact absurd hread (hr n)

/-- **Of the ids `decodeCursor` lets through, Postgres reads those of five groups.** -/
theorem uuidIn_isSome_iff {id : String} (h : isIdText id = true) :
    (uuidIn id).isSome = true ↔ FiveGroups id := by
  unfold isIdText at h
  rw [Bool.and_eq_true, decide_eq_true_eq, List.all_eq_true] at h
  obtain ⟨hlen, hclass⟩ := h
  have hbrace : ∀ cs, id.toList ≠ '{' :: cs := by
    intro cs hcs
    have hc := hclass '{' (hcs ▸ List.mem_cons_self)
    exact absurd hc (by decide)
  rw [uuidIn_isSome hbrace]
  constructor
  · intro hread
    obtain ⟨groups, hg, hdigits, hcs⟩ := groups_of_afterUuid (m := 8) hread
    refine ⟨groups, hg, ?_, hcs⟩
    have hne : groups ≠ [] := by
      rintro rfl
      simp at hdigits
    have hj := length_intercalate hne
    rw [← hcs, hlen, hdigits] at hj
    omega
  · rintro ⟨groups, hg, hfive, hcs⟩
    have hne : groups ≠ [] := by
      rintro rfl
      simp at hfive
    have hj := length_intercalate hne
    rw [← hcs, hlen, hfive] at hj
    rw [hcs]
    exact afterUuid_groups (m := 8) hg (by omega)

/-! ## The text of a cursor -/

/-- What a cursor decodes to. -/
def cursorText (raw : String) : String := Utf8.decode (Base64Url.decode raw.toList)

theorem cursorText_encodeCursor (c : AnalysisCursor) :
    cursorText (encodeCursor c) = c.createdAt ++ "|" ++ c.id := by
  unfold cursorText encodeCursor
  rw [String.toList_ofList, Base64Url.decode_encode, Utf8.decode_encode]

/-- A text is split at its first bar. -/
theorem decodeCursor_of_text (P : Instants) {raw createdAt id : String}
    (h : cursorText raw = createdAt ++ "|" ++ id) (hbar : '|' ∉ createdAt.toList) :
    decodeCursor P raw =
      if (P.dateParse createdAt).isNone then .error .timestamp
      else if !isIdText id then .error .id
      else .ok ⟨createdAt, id⟩ := by
  have hbefore : ∀ c ∈ createdAt.toList, decide (c ≠ '|') = true := by
    intro c hc
    rw [decide_eq_true_eq]
    rintro rfl
    exact hbar hc
  have htext : (Utf8.decode (Base64Url.decode raw.toList)).toList =
      createdAt.toList ++ '|' :: id.toList := by
    change (cursorText raw).toList = _
    rw [h, String.toList_append, String.toList_append]
    simp
  unfold decodeCursor
  simp only [htext]
  rw [List.dropWhile_append_of_pos hbefore, List.takeWhile_append_of_pos hbefore]
  simp only [List.dropWhile_cons, List.takeWhile_cons, decide_not, decide_true, Bool.not_true,
    Bool.false_eq_true, if_false, List.append_nil, String.ofList_toList]

/-- What `decodeCursor` lets through has a bar to be split at. -/
theorem cursorText_of_ok {P : Instants} {raw : String} {c : AnalysisCursor}
    (h : decodeCursor P raw = .ok c) :
    cursorText raw = c.createdAt ++ "|" ++ c.id ∧ '|' ∉ c.createdAt.toList := by
  unfold decodeCursor at h
  simp only at h
  split at h
  · cases h
  · rename_i x rest hdrop
    split at h
    · cases h
    · split at h
      · cases h
      · obtain rfl := Except.ok.inj h
        have hne : (cursorText raw).toList.dropWhile (· ≠ '|') ≠ [] := by
          rw [show (cursorText raw).toList.dropWhile (· ≠ '|') = x :: rest from hdrop]
          exact List.cons_ne_nil _ _
        have hbar := List.head_dropWhile_not (fun c : Char => decide (c ≠ '|')) hne
        have hsplit := @List.takeWhile_append_dropWhile _ (fun c : Char => decide (c ≠ '|'))
          (cursorText raw).toList
        simp only [show (cursorText raw).toList.dropWhile (· ≠ '|') = x :: rest from hdrop,
          List.head_cons, decide_eq_false_iff_not, not_not] at hbar hsplit
        subst hbar
        refine ⟨String.toList_inj.mp ?_, ?_⟩
        · rw [String.toList_append, String.toList_append, String.toList_ofList,
            String.toList_ofList, ← hsplit]
          simp [cursorText]
        · rw [String.toList_ofList]
          intro hmem
          have hall := List.all_takeWhile (p := fun c : Char => decide (c ≠ '|'))
            (l := (Utf8.decode (Base64Url.decode raw.toList)).toList)
          exact absurd (List.all_eq_true.mp hall _ hmem) (by decide)

/-- **What `decodeCursor` lets through**: two halves at the first bar, one that `Date.parse` reads
and one of 36 characters of the class. -/
theorem decodeCursor_ok_iff {P : Instants} {raw : String} {c : AnalysisCursor} :
    decodeCursor P raw = .ok c ↔ cursorText raw = c.createdAt ++ "|" ++ c.id ∧
      '|' ∉ c.createdAt.toList ∧ (P.dateParse c.createdAt).isSome = true ∧
      isIdText c.id = true := by
  constructor
  · intro h
    obtain ⟨htext, hbar⟩ := cursorText_of_ok h
    rw [decodeCursor_of_text P htext hbar] at h
    split at h
    · cases h
    · rename_i hdate
      split at h
      · cases h
      · rename_i hid
        refine ⟨htext, hbar, ?_, by simpa using hid⟩
        rw [← Option.not_isNone, Bool.eq_false_iff.mpr hdate]
        rfl
  · rintro ⟨htext, hbar, hdate, hid⟩
    rw [decodeCursor_of_text P htext hbar, if_neg, if_neg]
    · simp [hid]
    · rw [Option.isNone_iff_eq_none]
      exact Option.isSome_iff_ne_none.mp hdate

/-! ## The answer -/

/-- 400, or a query with a `timestamptz` and a `uuid`. -/
def CursorHandled (P : Instants) (db : Db) (query : ListQuery) : Prop :=
  (∃ message, listAnalyses P db query = .error .invalidRequest message) ∨
    ∃ cursor, queryCursor P query.cursor = .ok (some cursor) ∧
      (P.timestamptzIn cursor.createdAt).isSome = true ∧ (uuidIn cursor.id).isSome = true

/-- Where `Date.parse` and the class of characters let both halves through, Postgres reads the
timestamp and the id is of five groups. -/
def PostgresReads (P : Instants) (raw : String) : Prop :=
  ∀ createdAt id, cursorText raw = createdAt ++ "|" ++ id → '|' ∉ createdAt.toList →
    (P.dateParse createdAt).isSome = true → isIdText id = true →
    (P.timestamptzIn createdAt).isSome = true ∧ FiveGroups id

theorem postgresReads_of_ok {P : Instants} {raw : String} {c : AnalysisCursor}
    (h : decodeCursor P raw = .ok c) :
    PostgresReads P raw ↔
      (P.timestamptzIn c.createdAt).isSome = true ∧ (uuidIn c.id).isSome = true := by
  have hok := decodeCursor_ok_iff.mp h
  rw [uuidIn_isSome_iff hok.2.2.2]
  constructor
  · intro hreads
    exact hreads _ _ hok.1 hok.2.1 hok.2.2.1 hok.2.2.2
  · rintro hboth createdAt id htext hbar hdate hid
    -- the text is split in one way only
    have hother : decodeCursor P raw = .ok ⟨createdAt, id⟩ :=
      decodeCursor_ok_iff.mpr ⟨htext, hbar, hdate, hid⟩
    obtain rfl : c = ⟨createdAt, id⟩ := Except.ok.inj (h.symm.trans hother)
    exact hboth

theorem postgresReads_of_error {P : Instants} {raw : String} {e : CursorError}
    (h : decodeCursor P raw = .error e) : PostgresReads P raw := by
  intro createdAt id htext hbar hdate hid
  have hok : decodeCursor P raw = .ok ⟨createdAt, id⟩ :=
    decodeCursor_ok_iff.mpr ⟨htext, hbar, hdate, hid⟩
  rw [h] at hok
  cases hok

theorem queryCursor_of_ok {P : Instants} {cursor : Option String} {raw : String}
    (hc : cursor = some raw) {c : AnalysisCursor} (h : decodeCursor P raw = .ok c) :
    queryCursor P cursor = .ok (some c) := by
  rw [hc, queryCursor, h]
  rfl

/-- A cursor that is let through reaches the query, which Postgres refuses or not. -/
theorem listAnalyses_of_ok {P : Instants} {db : Db} {query : ListQuery} {raw : String}
    (hc : query.cursor = some raw) {c : AnalysisCursor} (h : decodeCursor P raw = .ok c) :
    (∀ message, listAnalyses P db query ≠ .error .invalidRequest message) ∧
      (listAnalyses P db query ≠ .internal ↔
        (P.timestamptzIn c.createdAt).isSome = true ∧ (uuidIn c.id).isSome = true) := by
  unfold listAnalyses recentAnalyses cursorKey
  rw [queryCursor_of_ok hc h]
  cases ht : P.timestamptzIn c.createdAt with
  | none => simp [ht, Except.map]
  | some t =>
    cases hu : uuidIn c.id with
    | none => simp [ht, hu, Except.map]
    | some u => simp [ht, hu, Except.map]

theorem listAnalyses_of_error {P : Instants} {db : Db} {query : ListQuery} {raw : String}
    (hc : query.cursor = some raw) {e : CursorError} (h : decodeCursor P raw = .error e) :
    listAnalyses P db query = .error .invalidRequest e.message := by
  unfold listAnalyses
  rw [hc, queryCursor, h]
  rfl

theorem cursorHandled_iff {P : Instants} {db : Db} {query : ListQuery} {raw : String}
    (hc : query.cursor = some raw) : CursorHandled P db query ↔ PostgresReads P raw := by
  cases h : decodeCursor P raw with
  | error e =>
    have hbad := @listAnalyses_of_error P db query raw hc e h
    exact iff_of_true (.inl ⟨_, hbad⟩) (postgresReads_of_error h)
  | ok c =>
    have hq := queryCursor_of_ok hc h
    rw [postgresReads_of_ok h]
    constructor
    · rintro (⟨message, hbad⟩ | ⟨c', hq', ht, hu⟩)
      · exact absurd hbad ((listAnalyses_of_ok hc h).1 message)
      · obtain rfl : c = c' := Option.some.inj (Except.ok.inj (hq.symm.trans hq'))
        exact ⟨ht, hu⟩
    · rintro ⟨ht, hu⟩
      exact .inr ⟨c, hq, ht, hu⟩

/-- **When a cursor is handled**: the route answers 400 or runs its query on values of Postgres's
types, and the query does not fail, exactly when Postgres reads both halves that were let
through. -/
theorem cursor_handled_iff (P : Instants) (db : Db) {query : ListQuery} {raw : String}
    (hc : query.cursor = some raw) :
    (CursorHandled P db query ↔ PostgresReads P raw) ∧
      (listAnalyses P db query ≠ .internal ↔ PostgresReads P raw) := by
  refine ⟨cursorHandled_iff hc, ?_⟩
  cases h : decodeCursor P raw with
  | error e =>
    have hbad := @listAnalyses_of_error P db query raw hc e h
    refine iff_of_true ?_ (postgresReads_of_error h)
    rw [hbad]
    intro hi
    cases hi
  | ok c =>
    rw [postgresReads_of_ok h]
    exact (listAnalyses_of_ok hc h).2

namespace Sample

theorem twenty_min : 1 ≤ 20 := by decide

theorem twenty_max : 20 ≤ 50 := by decide

/-- The first page at a cursor's text. -/
def cursorQuery (createdAt id : String) (h : encodeCursor ⟨createdAt, id⟩ ≠ "") : ListQuery where
  limit := 20
  cursor := some (encodeCursor ⟨createdAt, id⟩)
  limit_min := twenty_min
  limit_max := twenty_max
  cursor_min := by simpa using h

theorem encodeCursor_ne (createdAt id : String) : encodeCursor ⟨createdAt, id⟩ ≠ "" := by
  intro h
  have htext := cursorText_encodeCursor ⟨createdAt, id⟩
  rw [h] at htext
  have hlen := congrArg String.length htext
  rw [String.length_append, String.length_append] at hlen
  have hbar : ("|" : String).length = 1 := rfl
  have hnone : cursorText "" = "" := by
    simp [cursorText, Base64Url.decode, Base64Url.bytes, Utf8.decode, Utf8.decodeChars]
  rw [hnone, hbar, String.length_empty] at hlen
  omega

/-- 36 characters of the class, and no digit among them. -/
def hyphens : String := "------------------------------------"

/-- The start of the epoch. -/
def epochText : String := Calendar.isoText 0

theorem epochText_read : Instants.iso.dateParse epochText = some 0 ∧ '|' ∉ epochText.toList := by
  decide

end Sample

/-- At a row's own cursor. -/
theorem cursor_handled_row : CursorHandled Instants.iso Db.empty
    (Sample.cursorQuery Sample.epochText (uuidText 9) (Sample.encodeCursor_ne _ _)) := by
  refine (@cursor_handled_iff Instants.iso Db.empty (Sample.cursorQuery Sample.epochText
    (uuidText 9) (Sample.encodeCursor_ne _ _)) _ rfl).1.mpr ?_
  have hyear : Calendar.FourDigitYear 0 := by decide
  refine (postgresReads_of_ok (decodeCursor_encodeCursor Instants.iso hyear 9)).mpr ⟨?_, ?_⟩
  · rw [Instants.iso.timestamptzIn_iso 0 hyear]
    rfl
  · rw [uuidIn_uuidText]
    rfl

/-- Hyphens are let through, and refused by Postgres. -/
theorem cursor_of_hyphens : ¬ ∀ (P : Instants) (db : Db) (query : ListQuery) (raw : String),
    query.cursor = some raw → CursorHandled P db query := by
  intro h
  have hh := h Instants.iso Db.empty
    (Sample.cursorQuery Sample.epochText Sample.hyphens (Sample.encodeCursor_ne _ _)) _ rfl
  have hreads := (cursorHandled_iff rfl).mp hh
  have hdecode : decodeCursor Instants.iso (encodeCursor ⟨Sample.epochText, Sample.hyphens⟩) =
      .ok ⟨Sample.epochText, Sample.hyphens⟩ := by
    refine decodeCursor_ok_iff.mpr ⟨cursorText_encodeCursor _, Sample.epochText_read.2, ?_, ?_⟩
    · rw [Sample.epochText_read.1]
      rfl
    · decide
  have hid := ((postgresReads_of_ok hdecode).mp hreads).2
  exact absurd hid (by decide)

end BattleCloud
