import BattleCloud.Api.List

/-!
# Paging through the public list

A client asks for `GET /v1/analyses` and follows `nextCursor` until it is null, while analyses are
inserted between its requests (`walkList`; `db i` is what the request `i` reads). The cursor keeps
the milliseconds of the last row (`cutKey`), while Postgres compares microseconds.

`listAnalyses_request`: one request is one of `Keyset`. `list_complete_iff`: the walk always
ends, and shows every analysis of the first page's table exactly when none of them lies between
the last row of some page and the cursor made of it. `list_descends`: whatever it leaves out, it
shows nothing twice.
-/

namespace BattleCloud

/-- `ListQuerySchema` on a limit and a cursor. -/
def listQuery? (limit : Nat) (cursor : Option String) : Option ListQuery :=
  if h : 1 ≤ limit ∧ limit ≤ 50 ∧ cursor ≠ some "" then
    some { limit, cursor, limit_min := h.1, limit_max := h.2.1, cursor_min := h.2.2 }
  else none

/-- The pages a client sees from a cursor on, the request `i` being its next; `none` when it has
not come to a null cursor after `fuel` requests, or is answered something else than 200. -/
def walkList (P : Instants) (limit : Nat) (db : Nat → Db) :
    Nat → Nat → Option String → Option (List (List AnalysisSummary))
  | 0, _, _ => none
  | fuel + 1, i, cursor =>
    (listQuery? limit cursor).bind fun query =>
    match listAnalyses P (db i) query with
    | .ok analyses none => some [analyses]
    | .ok analyses (some next) => (walkList P limit db fuel (i + 1) (some next)).map (analyses :: ·)
    | _ => none

/-- The key a cursor stands for: the milliseconds of the row, and its id. -/
def cutKey (k : Int ×ₗ Nat) : Int ×ₗ Nat := toLex (1000 * ((ofLex k).1 / 1000), (ofLex k).2)

/-- What the constraints say about the tables the list reads. -/
structure Listable (db : Db) : Prop where
  ids : Table.Unique AnalysisRow.id db.analyses
  replayIds : Table.Unique ReplayRow.id db.replays
  replay : ∀ a ∈ db.analyses, ∃ r ∈ db.replays, r.id = a.columns.replayId

/-- A cursor text, and the position Postgres reads from it. -/
def Carries (cursor : Option String) (pos : Option (Int ×ₗ Nat)) : Prop :=
  (cursor = none ∧ pos = none) ∨
  ∃ a : AnalysisRow, cursor = some (encodeCursor ⟨isoTime a.createdAt, uuidText a.id⟩) ∧
    pos = some (cutKey a.key)

theorem cutKey_le (k : Int ×ₗ Nat) : cutKey k ≤ k := by
  have h : 1000 * ((ofLex k).1 / 1000) ≤ (ofLex k).1 := by omega
  rw [Prod.Lex.le_iff]
  unfold cutKey
  simp only [ofLex_toLex]
  rcases lt_or_eq_of_le h with h | h
  · exact Or.inl h
  · exact Or.inr ⟨h, le_rfl⟩

theorem encodeCursor_ne (c : AnalysisCursor) : encodeCursor c ≠ "" := by
  intro h
  have hd : Utf8.decode (Base64Url.decode (encodeCursor c).toList) =
      c.createdAt ++ "|" ++ c.id := by
    unfold encodeCursor
    rw [String.toList_ofList, Base64Url.decode_encode, Utf8.decode_encode]
  rw [h] at hd
  have hlen := congrArg (fun s : String => s.toList.length) hd
  simp [Base64Url.decode, Base64Url.bytes, Utf8.decode, Utf8.decodeChars] at hlen

/-- What the API makes of a cursor it wrote itself. -/
theorem cursorKey_of_row (P : Instants) (a : AnalysisRow) :
    ∃ c, decodeCursor P (encodeCursor ⟨isoTime a.createdAt, uuidText a.id⟩) = .ok c ∧
      cursorKey P (some c) = .ok (some (cutKey a.key)) := by
  refine ⟨_, decodeCursor_encodeCursor P a.createdAt.fourDigitYear a.id, ?_⟩
  simp only [cursorKey, P.timestamptzIn_iso _ a.createdAt.fourDigitYear, uuidIn_uuidText]
  rfl

/-- The key of a joined row. -/
abbrev rowKey (row : AnalysisRow × ReplayRow) : Int ×ₗ Nat := row.1.key

/-- **One request is one of the abstract walk**, the cursors carrying the positions. -/
theorem listAnalyses_request (P : Instants) (db : Db) {query : ListQuery}
    {pos : Option (Int ×ₗ Nat)} (hc : Carries query.cursor pos) :
    ∃ next, listAnalyses P db query =
        .ok ((Keyset.request rowKey cutKey query.limit pos (joined db)).1.map summary) next ∧
      Carries next (Keyset.request rowKey cutKey query.limit pos (joined db)).2 := by
  obtain ⟨limit, cursor, hl, hl', hne⟩ := query
  -- the cursor is read back as the position
  obtain ⟨c, hparse, hkey⟩ : ∃ c, queryCursor P cursor = .ok c ∧ cursorKey P c = .ok pos := by
    rcases hc with ⟨rfl, rfl⟩ | ⟨a, rfl, rfl⟩
    · exact ⟨none, rfl, rfl⟩
    · obtain ⟨c, hd, hk⟩ := cursorKey_of_row P a
      exact ⟨some c, by rw [queryCursor, hd]; rfl, hk⟩
  have hrows : recentAnalyses P db (limit + 1) c =
      .ok ((Keyset.page rowKey pos (limit + 1) (joined db)).map summary) := by
    unfold recentAnalyses
    rw [hkey]
    rfl
  unfold listAnalyses
  simp only [hparse, hrows, List.length_map, ← List.map_take, List.getLast?_map, Keyset.request]
  refine ⟨_, rfl, ?_⟩
  split
  · -- the last row of the page is the one the cursor is made of
    cases ((Keyset.page rowKey pos (limit + 1) (joined db)).take limit).getLast? with
    | none => exact Or.inl ⟨rfl, rfl⟩
    | some row => exact Or.inr ⟨row.1, rfl, rfl⟩
  · exact Or.inl ⟨rfl, rfl⟩

/-! ## The joined rows -/

/-- With its replay there exactly once, an analysis is joined exactly once. -/
theorem joined_map_fst {db : Db} (h : Listable db) : (joined db).map Prod.fst = db.analyses := by
  have hone : ∀ a ∈ db.analyses,
      ((db.replays.filter fun r => r.id = a.columns.replayId).map fun r => (a, r)).map Prod.fst =
        [a] := by
    intro a ha
    obtain ⟨r, hr, he⟩ := h.replay a ha
    have hcount : (db.replays.filter fun r => r.id = a.columns.replayId).length = 1 := by
      have hnd : (db.replays.map ReplayRow.id).count a.columns.replayId = 1 :=
        List.count_eq_one_of_mem h.replayIds (he ▸ List.mem_map_of_mem hr)
      rw [List.count, List.countP_map, List.countP_eq_length_filter] at hnd
      exact hnd
    obtain ⟨r', hr'⟩ := List.length_eq_one_iff.mp hcount
    rw [hr']
    rfl
  unfold joined
  rw [List.map_flatMap, List.flatMap_congr hone, List.flatMap_singleton']

/-- The joined rows have distinct keys. -/
theorem joined_nodup {db : Db} (h : Listable db) : ((joined db).map rowKey).Nodup := by
  have hmap : (joined db).map rowKey = db.analyses.map AnalysisRow.key := by
    rw [← joined_map_fst h, List.map_map]
    rfl
  have hids : (db.analyses.map AnalysisRow.key).map (fun k => (ofLex k).2) =
      (db.analyses.map AnalysisRow.id).map Fin.val := by
    rw [List.map_map, List.map_map]
    rfl
  rw [hmap]
  refine List.Nodup.of_map (fun k => (ofLex k).2) ?_
  rw [hids]
  exact List.Nodup.map Fin.val_injective h.ids

/-! ## The walk -/

/-- **A client's walk is the abstract one**, its pages summarised. -/
theorem walkList_eq (P : Instants) {limit : Nat} (hl : 1 ≤ limit) (hl' : limit ≤ 50)
    (db : Nat → Db) : ∀ (fuel i : Nat) {cursor : Option String} {pos : Option (Int ×ₗ Nat)},
      Carries cursor pos → walkList P limit db fuel i cursor =
        (Keyset.walk rowKey cutKey limit (fun i => joined (db i)) fuel i pos).map
          (List.map (List.map summary))
  | 0, _, _, _, _ => rfl
  | fuel + 1, i, cursor, pos, hc => by
    have hne : cursor ≠ some "" := by
      rcases hc with ⟨rfl, -⟩ | ⟨a, rfl, -⟩
      · exact nofun
      · exact fun h => encodeCursor_ne _ (Option.some.inj h)
    have hquery : listQuery? limit cursor = some ⟨limit, cursor, hl, hl', hne⟩ :=
      dif_pos ⟨hl, hl', hne⟩
    obtain ⟨next, hlist, hnext⟩ :=
      @listAnalyses_request P (db i) ⟨limit, cursor, hl, hl', hne⟩ pos hc
    rw [walkList, hquery, Option.bind_some, Keyset.walk]
    simp only [hlist]
    cases hreq : Keyset.request rowKey cutKey limit pos (joined (db i)) with
    | mk rows pos' =>
      rw [hreq] at hnext
      rcases hnext with ⟨rfl, rfl⟩ | ⟨a, rfl, rfl⟩
      · rfl
      · simp only
        rw [walkList_eq P hl hl' db fuel (i + 1) (Or.inr ⟨a, rfl, rfl⟩), Option.map_map,
          Option.map_map]
        rfl

/-- Rows are inserted, none is deleted. -/
structure Inserts (db db' : Db) : Prop where
  analyses : ∀ a ∈ db.analyses, a ∈ db'.analyses
  replays : ∀ r ∈ db.replays, r ∈ db'.replays

theorem Inserts.joined {db db' : Db} (h : Inserts db db') :
    ∀ row ∈ joined db, row ∈ joined db' := by
  rintro ⟨a, r⟩ hrow
  obtain ⟨ha, hr, he⟩ := mem_joined.mp hrow
  exact mem_joined.mpr ⟨h.analyses a ha, h.replays r hr, he⟩

theorem inserts_of_le {db : Nat → Db} (h : ∀ i, Inserts (db i) (db (i + 1))) {i j : Nat}
    (hij : i ≤ j) : Inserts (db i) (db j) := by
  induction hij with
  | refl => exact ⟨fun _ => id, fun _ => id⟩
  | @step j _ ih =>
    exact ⟨fun a ha => (h j).analyses a (ih.analyses a ha),
      fun r hr => (h j).replays r (ih.replays r hr)⟩

theorem inserts_from_first {db : Nat → Db} (h : ∀ i, Inserts (db i) (db (i + 1))) (i : Nat) :
    Inserts (db 0) (db i) :=
  inserts_of_le h (Nat.zero_le i)

variable {limit : Nat} {db : Nat → Db}

/-- The list is over when everything ever inserted has been passed. -/
theorem walkList_ends (P : Instants) (hl : 1 ≤ limit) (hl' : limit ≤ 50)
    (hdb : ∀ i, Listable (db i)) {all : Db} (hall : ∀ i, Inserts (db i) all) :
    ∃ fuel pages, walkList P limit db fuel 0 none = some pages := by
  obtain ⟨pages, hw⟩ : ∃ pages, Keyset.walk rowKey cutKey limit (fun i => joined (db i))
      ((joined all).length + 1) 0 none = some pages :=
    Keyset.walk_ends hl (fun i => joined_nodup (hdb i)) cutKey_le (fun i => (hall i).joined)
      (Nat.lt_succ_of_le (List.length_filter_le _ _))
  refine ⟨(joined all).length + 1, pages.map (List.map summary), ?_⟩
  rw [walkList_eq P hl hl' db _ _ (Or.inl ⟨rfl, rfl⟩), hw]
  rfl

/-- A walk that has ended shows what was there at its start exactly when no boundary has a gap. -/
theorem walkList_shows_iff (P : Instants) (hl : 1 ≤ limit) (hl' : limit ≤ 50)
    (hdb : ∀ i, Listable (db i)) (hins : ∀ i, Inserts (db i) (db (i + 1))) {fuel : Nat}
    {pages : List (List AnalysisSummary)} (h : walkList P limit db fuel 0 none = some pages) :
    (∀ a ∈ (db 0).analyses, ∃ x ∈ pages.flatten, x.analysisId = a.id) ↔
      Keyset.GapFree AnalysisRow.key cutKey limit (fun i => (db i).analyses) (db 0).analyses 0
        none := by
  rw [walkList_eq P hl hl' db _ _ (Or.inl ⟨rfl, rfl⟩)] at h
  obtain ⟨rows, hw, rfl⟩ := Option.map_eq_some_iff.mp h
  have hu := fun i => joined_nodup (hdb i)
  have hins' := inserts_from_first hins
  have hmap : (fun i => (joined (db i)).map Prod.fst) = fun i => (db i).analyses :=
    funext fun i => joined_map_fst (hdb i)
  -- an analysis is shown exactly when a joined row of it is
  have hshown : (∀ a ∈ (db 0).analyses, ∃ x ∈ (rows.map (List.map summary)).flatten,
      x.analysisId = a.id) ↔ ∀ row ∈ joined (db 0), Keyset.After rowKey none row →
        row ∈ rows.flatten := by
    rw [← List.map_flatten]
    constructor
    · rintro h ⟨a, r⟩ har -
      obtain ⟨ha, hr, he⟩ := mem_joined.mp har
      obtain ⟨x, hx, hid⟩ := h a ha
      obtain ⟨⟨a', r'⟩, hrow, rfl⟩ := List.mem_map.mp hx
      obtain ⟨⟨j, hj⟩, -⟩ := Keyset.mem_walk hl hu cutKey_le hw _ hrow
      obtain ⟨ha', hr', he'⟩ := mem_joined.mp hj
      obtain rfl : a' = a := (hdb j).ids.eq ha' ((hins' j).analyses a ha) hid
      obtain rfl : r' = r := (hdb j).replayIds.eq hr' ((hins' j).replays r hr) (he'.trans he.symm)
      exact hrow
    · intro h a ha
      obtain ⟨r, hr, he⟩ := (hdb 0).replay a ha
      have hshown := h (a, r) (mem_joined.mpr ⟨ha, hr, he⟩) nofun
      exact ⟨summary (a, r), List.mem_map_of_mem hshown, rfl⟩
  rw [hshown, Keyset.walk_complete_iff hl hu cutKey_le (fun i => (hins' i).joined) hw, ← hmap]
  unfold Keyset.GapFree
  constructor
  · intro hgap L hL a ha hlt
    obtain ⟨row, rfl, hrow⟩ := Keyset.boundary_of_map hL
    obtain ⟨r, hr, he⟩ := (hdb 0).replay a ha
    exact hgap row hrow (a, r) (mem_joined.mpr ⟨ha, hr, he⟩) hlt
  · rintro hgap row hrow ⟨a, r⟩ har hlt
    exact hgap row.1 (Keyset.boundary_map (f := Prod.fst) hrow) a (mem_joined.mp har).1 hlt

/-- **When paging shows everything.** The walk ends, and it shows every analysis that was stored
when its first page was read exactly when no such analysis lies below the last row of some page
and not below the cursor made of that row. -/
theorem list_complete_iff (P : Instants) (hl : 1 ≤ limit) (hl' : limit ≤ 50)
    (hdb : ∀ i, Listable (db i)) (hins : ∀ i, Inserts (db i) (db (i + 1))) {all : Db}
    (hall : ∀ i, Inserts (db i) all) :
    (∃ fuel pages, walkList P limit db fuel 0 none = some pages) ∧
    ∀ fuel pages, walkList P limit db fuel 0 none = some pages →
      ((∀ a ∈ (db 0).analyses, ∃ x ∈ pages.flatten, x.analysisId = a.id) ↔
        Keyset.GapFree AnalysisRow.key cutKey limit (fun i => (db i).analyses) (db 0).analyses 0
          none) :=
  ⟨walkList_ends P hl hl' hdb hall, fun _ _ h => walkList_shows_iff P hl hl' hdb hins h⟩

/-! ## The order of the list -/

/-- The joined rows behind the summaries a client was shown. -/
structure Shown (db : Nat → Db) (pages : List (List AnalysisSummary))
    (rows : List (AnalysisRow × ReplayRow)) : Prop where
  summaries : pages.flatten = rows.map summary
  stored : ∀ row ∈ rows, ∃ i, row ∈ joined (db i)

/-- A page with a cursor is full. -/
theorem listAnalyses_full {P : Instants} {db : Db} {query : ListQuery}
    {analyses : List AnalysisSummary} {next : String}
    (h : listAnalyses P db query = .ok analyses (some next)) : analyses.length = query.limit := by
  unfold listAnalyses at h
  split at h
  · cases h
  · split at h
    · cases h
    · rename_i rows _
      simp only [ListResponse.ok.injEq] at h
      obtain ⟨rfl, hnext⟩ := h
      split at hnext
      · rw [List.length_take]
        omega
      · cases hnext

/-- **The rows a walk shows come strictly downwards**, at the precision of the table. -/
theorem walkList_descends (P : Instants) (hl : 1 ≤ limit) (hl' : limit ≤ 50)
    (hdb : ∀ i, Listable (db i)) {fuel : Nat} {pages : List (List AnalysisSummary)}
    (h : walkList P limit db fuel 0 none = some pages) :
    (∃ rows, Shown db pages rows ∧ rows.Pairwise fun a b => rowKey b < rowKey a) ∧
      ∀ page ∈ pages.dropLast, page.length = limit := by
  rw [walkList_eq P hl hl' db _ _ (Or.inl ⟨rfl, rfl⟩)] at h
  obtain ⟨rows, hw, rfl⟩ := Option.map_eq_some_iff.mp h
  have hu := fun i => joined_nodup (hdb i)
  refine ⟨⟨rows.flatten, ⟨?_, fun row hrow => ?_⟩, ?_⟩, fun page hpage => ?_⟩
  · rw [← List.map_flatten]
  · exact (Keyset.mem_walk hl hu cutKey_le hw row hrow).1
  · exact Keyset.walk_pairwise hl hu cutKey_le hw
  · rw [← List.map_dropLast] at hpage
    obtain ⟨page, hp, rfl⟩ := List.mem_map.mp hpage
    rw [List.length_map]
    exact Keyset.walk_full hw page hp

/-- While rows are only inserted, an id stands for one row in all the tables. -/
theorem joined_eq_of_id (hdb : ∀ i, Listable (db i)) (hins : ∀ i, Inserts (db i) (db (i + 1)))
    {x y : AnalysisRow × ReplayRow} {i j : Nat} (hx : x ∈ joined (db i)) (hy : y ∈ joined (db j))
    (hid : x.1.id = y.1.id) : x.1 = y.1 := by
  have hx' := (inserts_of_le hins (Nat.le_max_left i j)).joined x hx
  have hy' := (inserts_of_le hins (Nat.le_max_right i j)).joined y hy
  exact (hdb (max i j)).ids.eq (mem_joined.mp hx').1 (mem_joined.mp hy').1 hid

/-- Rows of strictly descending keys have different ids. -/
theorem Shown.nodup (hdb : ∀ i, Listable (db i)) (hins : ∀ i, Inserts (db i) (db (i + 1)))
    {pages : List (List AnalysisSummary)} {rows : List (AnalysisRow × ReplayRow)}
    (hs : Shown db pages rows) (hp : rows.Pairwise fun a b => rowKey b < rowKey a) :
    (pages.flatten.map AnalysisSummary.analysisId).Nodup := by
  rw [hs.summaries, List.map_map, List.Nodup, List.pairwise_map]
  refine hp.imp_of_mem ?_
  intro a b ha hb hlt hid
  obtain ⟨i, hi⟩ := hs.stored a ha
  obtain ⟨j, hj⟩ := hs.stored b hb
  have hrow := joined_eq_of_id hdb hins hi hj hid
  have hkey : rowKey b = rowKey a := congrArg AnalysisRow.key hrow.symm
  exact absurd hlt (hkey ▸ lt_irrefl _)

/-- **The order of the list.** A page with a cursor is full, the walk ends, and what it shows
comes strictly downwards in the key of the table, each analysis at most once, with every page but
the last full. -/
theorem list_descends (P : Instants) (hl : 1 ≤ limit) (hl' : limit ≤ 50)
    (hdb : ∀ i, Listable (db i)) (hins : ∀ i, Inserts (db i) (db (i + 1))) {all : Db}
    (hall : ∀ i, Inserts (db i) all) :
    (∀ (i : Nat) (query : ListQuery) (analyses : List AnalysisSummary) (next : String),
      listAnalyses P (db i) query = .ok analyses (some next) → analyses.length = query.limit) ∧
    (∃ fuel pages, walkList P limit db fuel 0 none = some pages) ∧
    ∀ fuel pages, walkList P limit db fuel 0 none = some pages →
      (∃ rows, Shown db pages rows ∧ rows.Pairwise fun a b => rowKey b < rowKey a) ∧
      (pages.flatten.map AnalysisSummary.analysisId).Nodup ∧
      ∀ page ∈ pages.dropLast, page.length = limit := by
  refine ⟨fun _ _ _ _ h => listAnalyses_full h, walkList_ends P hl hl' hdb hall, ?_⟩
  intro fuel pages h
  obtain ⟨⟨rows, hs, hp⟩, hfull⟩ := walkList_descends P hl hl' hdb h
  exact ⟨⟨rows, hs, hp⟩, hs.nodup hdb hins hp, hfull⟩

/-- Rows created at whole milliseconds leave no gap. -/
theorem gapFree_of_millis (h : ∀ i, ∀ a ∈ (db i).analyses, a.createdAt.us % 1000 = 0) :
    Keyset.GapFree AnalysisRow.key cutKey limit (fun i => (db i).analyses) (db 0).analyses 0
      none := by
  intro L hL a _ hlt
  obtain ⟨j, hj⟩ := hL.mem
  have hms := h j L hj
  have hcut : cutKey L.key = L.key := by
    unfold cutKey AnalysisRow.key
    rw [ofLex_toLex, show 1000 * (L.createdAt.us / 1000) = L.createdAt.us by omega]
  rw [hcut]
  exact hlt

namespace Sample

/-- Two analyses of one replay, stored at these instants. -/
def twoProfiles (first second : Timestamptz) : Db :=
  let columns (p : Profile) : IdentityColumns :=
    (deriveIdentity ⟨"gen9ou-2672927429", .p1, p⟩ ⟨"v0.0.47", "2026-07"⟩).columns
  { replays := [⟨"gen9ou-2672927429", "gen9ou", none, .arr [], "|turn|1", 7⟩]
    analyses := [⟨1, columns .quick, .obj [], 1, 1, 300, false, first⟩,
      ⟨2, columns .ladderParity, .obj [], 1, 1, 1100, false, second⟩]
    jobs := [] }

/-- A second apart. -/
def apart : Db := twoProfiles ⟨1788739201000000, by decide⟩ ⟨1788739202000000, by decide⟩

/-- Within the same millisecond. -/
def together : Db := twoProfiles ⟨1788739200000300, by decide⟩ ⟨1788739200000500, by decide⟩

theorem listable_twoProfiles (t u : Timestamptz) : Listable (twoProfiles t u) where
  ids := by
    unfold Table.Unique
    show [(1 : Uuid), 2].Nodup
    decide
  replayIds := List.nodup_singleton _
  replay := by
    intro a ha
    refine ⟨_, List.mem_cons_self, ?_⟩
    rcases List.mem_cons.mp ha with rfl | ha
    · rfl
    · rw [List.mem_singleton.mp ha]
      rfl

theorem inserts_refl (db : Db) : Inserts db db := ⟨fun _ => id, fun _ => id⟩

end Sample

theorem list_complete_iff_apart :
    ∃ fuel pages, walkList Instants.iso 1 (fun _ => Sample.apart) fuel 0 none = some pages ∧
      ∀ a ∈ Sample.apart.analyses, ∃ x ∈ pages.flatten, x.analysisId = a.id := by
  obtain ⟨⟨fuel, pages, hw⟩, hiff⟩ := @list_complete_iff 1 (fun _ => Sample.apart) Instants.iso
    le_rfl (by decide) (fun _ => Sample.listable_twoProfiles _ _) (fun _ => Sample.inserts_refl _)
    Sample.apart (fun _ => Sample.inserts_refl _)
  exact ⟨fuel, pages, hw, (hiff fuel pages hw).mpr (gapFree_of_millis fun _ => by decide)⟩

theorem list_descends_together :
    ∃ fuel pages, walkList Instants.iso 1 (fun _ => Sample.together) fuel 0 none = some pages ∧
      (pages.flatten.map AnalysisSummary.analysisId).Nodup := by
  obtain ⟨-, ⟨fuel, pages, hw⟩, hall⟩ := @list_descends 1 (fun _ => Sample.together) Instants.iso
    le_rfl (by decide) (fun _ => Sample.listable_twoProfiles _ _) (fun _ => Sample.inserts_refl _)
    Sample.together (fun _ => Sample.inserts_refl _)
  exact ⟨fuel, pages, hw, (hall fuel pages hw).2.1⟩

/-- With one analysis a page, the other one of the same millisecond is on no page. -/
theorem list_skips_same_millisecond :
    ¬ ∀ (P : Instants) (limit : Nat) (db : Nat → Db) (all : Db), 1 ≤ limit → limit ≤ 50 →
      (∀ i, Listable (db i)) → (∀ i, Inserts (db i) (db (i + 1))) → (∀ i, Inserts (db i) all) →
      ∃ fuel pages, walkList P limit db fuel 0 none = some pages ∧
        ∀ a ∈ (db 0).analyses, ∃ x ∈ pages.flatten, x.analysisId = a.id := by
  intro h
  obtain ⟨fuel, pages, hw, hshown⟩ := h Instants.iso 1 (fun _ => Sample.together) Sample.together
    le_rfl (by decide) (fun _ => Sample.listable_twoProfiles _ _) (fun _ => Sample.inserts_refl _)
    (fun _ => Sample.inserts_refl _)
  have hgap := (walkList_shows_iff Instants.iso le_rfl (by decide)
    (fun _ => Sample.listable_twoProfiles _ _) (fun _ => Sample.inserts_refl _) hw).mp hshown
  -- the newer row ends the first page, the older one is in its gap
  have hnewer : Sample.together.analyses[1] ∈ Sample.together.analyses := List.getElem_mem _
  have holder : Sample.together.analyses[0] ∈ Sample.together.analyses := List.getElem_mem _
  have hend : Keyset.PageEnds AnalysisRow.key 1 none Sample.together.analyses
      Sample.together.analyses[1] :=
    ⟨hnewer, nofun, by decide, _, holder, by decide⟩
  have hin := hgap _ (.here hend) _ holder (by decide)
  exact absurd hin (by decide)

end BattleCloud
