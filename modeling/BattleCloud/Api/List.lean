import BattleCloud.Api.Store
import BattleCloud.Lib.Base64Url
import BattleCloud.Lib.Keyset
import Mathlib.Data.Prod.Lex

/-!
# The public list

`recentAnalyses`, `encodeCursor` and `decodeCursor` of `api/src/store.ts` and the route
`GET /v1/analyses`. The key of a row goes from `timestamptz` through a `Date` into ISO text,
base64url and back, and `listKey` is what Postgres compares.

What `Date.parse` and the `timestamptz` input make of an arbitrary text is a parameter
(`Instants`); both are only relied on to read ISO 8601 texts of whole milliseconds.
-/

namespace BattleCloud

/-- The readers of instants: `Date.parse` in milliseconds, `none` for `NaN`, and the `timestamptz`
input in microseconds, `none` where Postgres refuses the text. -/
structure Instants where
  dateParse : String → Option Int
  timestamptzIn : String → Option Int
  dateParse_iso : ∀ ms, Calendar.FourDigitYear ms → dateParse (Calendar.isoText ms) = some ms
  timestamptzIn_iso : ∀ ms, Calendar.FourDigitYear ms →
    timestamptzIn (Calendar.isoText ms) = some (1000 * ms)

/-- Readers of that one format. -/
def Instants.iso : Instants where
  dateParse := Calendar.readIso
  timestamptzIn s := (Calendar.readIso s).map (1000 * ·)
  dateParse_iso _ h := Calendar.readIso_isoText h
  timestamptzIn_iso _ h := by rw [Calendar.readIso_isoText h, Option.map_some]

/-! ## `uuid` texts -/

/-- The last hexadecimal digit of `n`. -/
def hexDigit (n : Nat) : Char :=
  if n % 16 < 10 then Char.ofNat (48 + n % 16) else Char.ofNat (87 + n % 16)

def hexVal (c : Char) : Option Nat :=
  if '0' ≤ c ∧ c ≤ '9' then some (c.toNat - 48)
  else if 'a' ≤ c ∧ c ≤ 'f' then some (c.toNat - 87)
  else if 'A' ≤ c ∧ c ≤ 'F' then some (c.toNat - 55)
  else none

/-- The last `k` bytes of a `uuid` as Postgres writes them: 8-4-4-4-12. -/
def uuidChars (u : Nat) : Nat → List Char
  | 0 => []
  | k + 1 =>
    hexDigit (u / 256 ^ k / 16) :: hexDigit (u / 256 ^ k) ::
      (if k ∈ [12, 10, 8, 6] then '-' :: uuidChars u k else uuidChars u k)

def uuidText (u : Uuid) : String := String.ofList (uuidChars u.val 16)

/-- A hyphen is read over. -/
def skipHyphen : List Char → List Char
  | '-' :: cs => cs
  | cs => cs

/-- Read `k` more bytes; a hyphen may follow every second one but the last. -/
def readUuid : Nat → Nat → List Char → Option (Nat × List Char)
  | 0, acc, cs => some (acc, cs)
  | k + 1, acc, h :: l :: cs => do
    let hi ← hexVal h
    let lo ← hexVal l
    readUuid k (acc * 256 + hi * 16 + lo) (if k % 2 = 0 ∧ 0 < k then skipHyphen cs else cs)
  | _, _, _ => none

/-- The `uuid` input: 32 digits, hyphens after groups of four, braces around all of it. -/
def uuidIn (s : String) : Option Nat :=
  match s.toList with
  | '{' :: cs =>
    match readUuid 16 0 cs with
    | some (n, ['}']) => some n
    | _ => none
  | cs =>
    match readUuid 16 0 cs with
    | some (n, []) => some n
    | _ => none

theorem hexVal_hexDigit (n : Nat) : hexVal (hexDigit n) = some (n % 16) := by
  unfold hexDigit
  have h : n % 16 < 16 := Nat.mod_lt _ (by omega)
  generalize n % 16 = k at h
  interval_cases k <;> rfl

theorem hexDigit_ne (n : Nat) : hexDigit n ≠ '-' ∧ hexDigit n ≠ '{' := by
  have h := hexVal_hexDigit n
  constructor <;> intro hd <;> rw [hd] at h <;> cases h

theorem skipHyphen_uuidChars (u k : Nat) : skipHyphen (uuidChars u k) = uuidChars u k := by
  cases k with
  | zero => rfl
  | succ k =>
    rw [uuidChars, skipHyphen]
    intro cs h
    exact (hexDigit_ne _).1 (List.cons.inj h).1

/-- A byte more of the number read so far. -/
theorem readUuid_uuidChars (u : Nat) :
    ∀ k, readUuid k (u / 256 ^ k) (uuidChars u k) = some (u, [])
  | 0 => by simp [readUuid, uuidChars]
  | k + 1 => by
    have hstep : u / 256 ^ (k + 1) * 256 + u / 256 ^ k / 16 % 16 * 16 + u / 256 ^ k % 16 =
        u / 256 ^ k := by
      rw [Nat.pow_succ, ← Nat.div_div_eq_div_mul]
      omega
    rw [uuidChars, readUuid]
    simp only [hexVal_hexDigit, Option.bind_eq_bind, Option.bind_some, hstep]
    by_cases hk : k ∈ [12, 10, 8, 6]
    · have hk' : k % 2 = 0 ∧ 0 < k := by
        simp only [List.mem_cons, List.not_mem_nil, or_false] at hk
        omega
      rw [if_pos hk, if_pos hk', skipHyphen]
      exact readUuid_uuidChars u k
    · rw [if_neg hk, skipHyphen_uuidChars, ite_self]
      exact readUuid_uuidChars u k

theorem uuidIn_uuidText (u : Uuid) : uuidIn (uuidText u) = some u.val := by
  have hread := readUuid_uuidChars u.val 16
  rw [Nat.div_eq_of_lt (by have := u.isLt; omega)] at hread
  unfold uuidIn uuidText
  rw [String.toList_ofList]
  split
  · rename_i cs h
    rw [uuidChars] at h
    exact absurd (List.cons.inj h).1 (hexDigit_ne _).2
  · rw [hread]

theorem mem_uuidChars {u : Nat} {c : Char} : ∀ {k : Nat}, c ∈ uuidChars u k →
    (hexVal c).isSome || c = '-'
  | 0, h => (List.not_mem_nil h).elim
  | k + 1, h => by
    have hdigit : ∀ n, (hexVal (hexDigit n)).isSome := fun n => by rw [hexVal_hexDigit]; rfl
    rw [uuidChars, List.mem_cons, List.mem_cons] at h
    rcases h with rfl | rfl | h
    · rw [hdigit, Bool.true_or]
    · rw [hdigit, Bool.true_or]
    · split at h
      · rcases List.mem_cons.mp h with rfl | h
        · rfl
        · exact mem_uuidChars h
      · exact mem_uuidChars h

/-! ## Cursors -/

structure AnalysisCursor where
  createdAt : String
  id : String

inductive CursorError where
  | separator
  | timestamp
  | id

def CursorError.message : CursorError → String
  | .separator => "cursor is not a valid pagination cursor"
  | .timestamp => "cursor carries an invalid timestamp"
  | .id => "cursor carries an invalid id"

def encodeCursor (cursor : AnalysisCursor) : String :=
  String.ofList (Base64Url.encode (Utf8.encode (cursor.createdAt ++ "|" ++ cursor.id)))

/-- `/^[0-9a-fA-F-]{36}$/`. -/
def isIdText (s : String) : Bool :=
  s.toList.length = 36 && s.toList.all fun c => (hexVal c).isSome || c = '-'

def decodeCursor (P : Instants) (raw : String) : Except CursorError AnalysisCursor :=
  let decoded := (Utf8.decode (Base64Url.decode raw.toList)).toList
  match decoded.dropWhile (· ≠ '|') with
  | [] => .error .separator
  | _ :: rest =>
    let createdAt := String.ofList (decoded.takeWhile (· ≠ '|'))
    let id := String.ofList rest
    if (P.dateParse createdAt).isNone then .error .timestamp
    else if !isIdText id then .error .id
    else .ok { createdAt, id }

theorem isIdText_uuidText (u : Uuid) : isIdText (uuidText u) = true := by
  unfold isIdText uuidText
  rw [String.toList_ofList, Bool.and_eq_true, List.all_eq_true]
  exact ⟨by simp [uuidChars], fun c hc => mem_uuidChars hc⟩

/-- **A cursor the API wrote is read back.** -/
theorem decodeCursor_encodeCursor (P : Instants) {ms : Int} (h : Calendar.FourDigitYear ms)
    (u : Uuid) : decodeCursor P (encodeCursor ⟨Calendar.isoText ms, uuidText u⟩) =
      .ok ⟨Calendar.isoText ms, uuidText u⟩ := by
  have hbar : ∀ c ∈ (Calendar.isoText ms).toList, decide (c ≠ '|') = true := by
    intro c hc
    rw [decide_eq_true_eq]
    rintro rfl
    rcases Calendar.mem_isoText hc with hd | hd
    · cases hd
    · exact absurd hd (by decide)
  have htext : (Utf8.decode (Base64Url.decode
      (encodeCursor ⟨Calendar.isoText ms, uuidText u⟩).toList)).toList =
      (Calendar.isoText ms).toList ++ '|' :: (uuidText u).toList := by
    unfold encodeCursor
    rw [String.toList_ofList, Base64Url.decode_encode, Utf8.decode_encode, String.toList_append,
      String.toList_append]
    simp
  unfold decodeCursor
  simp only [htext]
  rw [List.dropWhile_append_of_pos hbar, List.takeWhile_append_of_pos hbar]
  simp only [List.dropWhile_cons, List.takeWhile_cons, decide_not, decide_true, Bool.not_true,
    Bool.false_eq_true, if_false, List.append_nil, String.ofList_toList, P.dateParse_iso ms h,
    isIdText_uuidText]
  rfl

/-! ## Pages -/

structure AnalysisSummary where
  analysisId : Uuid
  replayId : String
  format : String
  rating : Option Int
  players : List String
  perspective : Perspective
  totalTurns : Int
  gradableTurns : Int
  searchBudgetMsPerTurn : Int
  opponentSamples : Int
  createdAt : String

def Json.str? : Json → Option String
  | .str s => some s
  | _ => none

/-- The strings of an array; anything that is not a string is dropped. -/
def Json.strings : Json → List String
  | .arr xs => xs.filterMap Json.str?
  | _ => []

/-- `analyses a JOIN replays r ON r.id = a.replay_id`. -/
def joined (db : Db) : List (AnalysisRow × ReplayRow) :=
  db.analyses.flatMap fun a =>
    (db.replays.filter fun r => r.id = a.columns.replayId).map fun r => (a, r)

/-- `(a.created_at, a.id)`, compared lexicographically. -/
def AnalysisRow.key (a : AnalysisRow) : Int ×ₗ Nat := toLex (a.createdAt.us, a.id.val)

def summary (row : AnalysisRow × ReplayRow) : AnalysisSummary :=
  { analysisId := row.1.id
    replayId := row.1.columns.replayId
    format := row.2.format
    rating := row.2.rating
    players := row.2.players.strings
    perspective := row.1.columns.perspective
    totalTurns := row.1.totalTurns
    gradableTurns := row.1.gradableTurns
    searchBudgetMsPerTurn := row.1.columns.searchBudgetMsPerTurn
    opponentSamples := row.1.columns.opponentSamples
    createdAt := isoTime row.1.createdAt }

/-- `($2::timestamptz, $3::uuid)`. -/
def cursorKey (P : Instants) : Option AnalysisCursor → Except DbError (Option (Int ×ₗ Nat))
  | none => .ok none
  | some c =>
    match P.timestamptzIn c.createdAt, uuidIn c.id with
    | some t, some u => .ok (some (toLex (t, u)))
    | _, _ => .error .badValue

def recentAnalyses (P : Instants) (db : Db) (limit : Nat) (cursor : Option AnalysisCursor) :
    Except DbError (List AnalysisSummary) :=
  (cursorKey P cursor).map fun pos =>
    (Keyset.page (fun row : AnalysisRow × ReplayRow => row.1.key) pos limit (joined db)).map summary

/-- What `ListQuerySchema` accepts. -/
structure ListQuery where
  limit : Nat
  cursor : Option String
  limit_min : 1 ≤ limit
  limit_max : limit ≤ 50
  cursor_min : cursor ≠ some ""

inductive ListResponse where
  /-- 200. -/
  | ok (analyses : List AnalysisSummary) (nextCursor : Option String)
  | error (kind : ErrorKind) (message : String)
  /-- 500: the statement was refused. -/
  | internal

/-- The cursor of a query. -/
def queryCursor (P : Instants) : Option String → Except CursorError (Option AnalysisCursor)
  | none => .ok none
  | some raw => (decodeCursor P raw).map some

/-- `GET /v1/analyses`. -/
def listAnalyses (P : Instants) (db : Db) (query : ListQuery) : ListResponse :=
  match queryCursor P query.cursor with
  | .error e => .error .invalidRequest e.message
  | .ok cursor =>
    -- one more than asked for, which is what decides whether there is a next page
    match recentAnalyses P db (query.limit + 1) cursor with
    | .error _ => .internal
    | .ok rows =>
      let analyses := rows.take query.limit
      .ok analyses
        (if query.limit < rows.length then
          analyses.getLast?.map fun last => encodeCursor ⟨last.createdAt, uuidText last.analysisId⟩
        else none)

theorem mem_joined {db : Db} {a : AnalysisRow} {r : ReplayRow} :
    (a, r) ∈ joined db ↔ a ∈ db.analyses ∧ r ∈ db.replays ∧ r.id = a.columns.replayId := by
  unfold joined
  simp only [List.mem_flatMap, List.mem_map, List.mem_filter, decide_eq_true_eq, Prod.mk.injEq]
  constructor
  · rintro ⟨a', ha, r', ⟨hr, he⟩, rfl, rfl⟩
    exact ⟨ha, hr, he⟩
  · rintro ⟨ha, hr, he⟩
    exact ⟨a, ha, r, ⟨hr, he⟩, rfl, rfl⟩

/-- A summary is of a row of the table. -/
theorem mem_recentAnalyses {P : Instants} {db : Db} {limit : Nat} {cursor : Option AnalysisCursor}
    {rows : List AnalysisSummary} (h : recentAnalyses P db limit cursor = .ok rows)
    {x : AnalysisSummary} (hx : x ∈ rows) :
    ∃ a ∈ db.analyses, x.analysisId = a.id ∧ x.totalTurns = a.totalTurns ∧
      x.gradableTurns = a.gradableTurns := by
  unfold recentAnalyses at h
  cases hpos : cursorKey P cursor with
  | error e =>
    rw [hpos] at h
    cases h
  | ok pos =>
    rw [hpos] at h
    obtain rfl := Except.ok.inj h
    obtain ⟨⟨a, r⟩, hrow, rfl⟩ := List.mem_map.mp hx
    have hin := (Keyset.mem_rowsAfter.mp (List.mem_of_mem_take hrow)).1
    exact ⟨a, (mem_joined.mp hin).1, rfl, rfl, rfl⟩

end BattleCloud
