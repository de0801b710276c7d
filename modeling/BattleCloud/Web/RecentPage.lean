import BattleCloud.Api.Paging
import BattleCloud.Fleet.Resubmit
import BattleCloud.Web.Journey

/-!
# The list of recent analyses

`RecentAnalyses` of `web/src/components/recent.tsx`: a first page when it opens, and one more with
every click on "Load more". Between a click, the moment the API reads the table and the moment its
answer arrives, the fleet takes any steps, and a write of a known identity changes the row that is
listed. The page is that of a production build; in a development build `StrictMode` runs the effect
of the first render twice.

`recent_list_shown`: the list comes strictly downwards in the key of the table, nothing twice, and
every row it shows is, in the current state, the summary of an analysis that its link opens.
-/

namespace BattleCloud

/-! ## The call -/

section

variable (host : Host) (P : Instants) (issue : JsString) (db : Db) (fault : Bool)

/-- `GET /v1/analyses?limit=20`. The `issue` is the text zod gives of an empty cursor. -/
def Host.sendList (cursor : Option String) : ApiResponse :=
  match listQuery? 20 cursor with
  | none => host.sendError (BattleCloud.fail .invalidRequest issue)
  | some query =>
    match listAnalyses P db query with
    | .error kind message => host.sendError (BattleCloud.fail kind (js message))
    | .internal => host.sendError (.internal queryError)
    | .ok analyses nextCursor =>
      if fault then host.sendError (.internal queryError)
      else host.send 200 (pageView analyses nextCursor).toJs

/-- `listAnalyses` of the client, with a cursor or without. -/
def apiListAnalyses (delivery : Delivery) (cursor : Option JsValue) :
    Except ClientError JsValue :=
  (cursor.mapM JsValue.toText).bind fun cursor =>
    request host.number (delivery.fetch (host.sendList P issue db fault
      (cursor.map JsString.text)))

end

/-! ## The component -/

/-- Where `load` stands. -/
inductive LoadPhase where
  | asking (cursor : Option JsValue)
  | settled (result : Except ClientError JsValue)
  | idle
  /-- Rendering throws, and the page is taken down. -/
  | thrown

structure ListView where
  analyses : List JsValue
  cursor : Option JsValue
  error : Option JsString
  phase : LoadPhase

/-- The effect of the first render. -/
def ListView.mount : ListView := ⟨[], some .null, none, .asking none⟩

/-- `load`, from where `listAnalyses` has settled. -/
def ListView.settle (v : ListView) : Except ClientError JsValue → ListView
  | .error _ => { v with error := some (js "Could not load recent analyses."), phase := .idle }
  | .ok page =>
    match property page "analyses", property page "nextCursor" with
    | .ok (some (.arr analyses)), .ok cursor => ⟨v.analyses ++ analyses, cursor, none, .idle⟩
    | _, _ => { v with phase := .thrown }

/-- "Load more": there is no button without a cursor, and it is disabled while a page loads. -/
def ListView.loadMore (v : ListView) : Option ListView :=
  match v.phase, v.cursor with
  | .idle, some .null => none
  | .idle, cursor => some { v with phase := .asking cursor }
  | _, _ => none

/-- `PROFILES` of the client. -/
def clientProfiles : List (String × Int × Int) := [("ladder-parity", 1000, 8), ("quick", 200, 2)]

def profileLabel (searchBudgetMsPerTurn opponentSamples : Int) : String :=
  match clientProfiles.find? fun p => p.2 = (searchBudgetMsPerTurn, opponentSamples) with
  | some p => p.1
  | none => "custom"

/-- The two tables of profiles agree. -/
theorem profileLabel_params (p : Profile) :
    profileLabel p.params.searchBudgetMsPerTurn p.params.opponentSamples = p.name := by
  cases p <;> rfl

/-! ## The page and the fleet -/

structure ListPage where
  fleet : Fleet
  view : ListView

inductive ListPageAction where
  | fleet (action : Action)
  /-- The API reads the table. -/
  | handle (fault : Bool) (delivery : Delivery)
  | settle
  | loadMore

namespace ListPage

def step (host : Host) (P : Instants) (issue : JsString) (s : ListPage) :
    ListPageAction → Option ListPage
  | .fleet action => (s.fleet.step action).map fun fleet => { s with fleet }
  | .handle fault delivery =>
    match s.view.phase with
    | .asking cursor =>
      let result := apiListAnalyses host P issue s.fleet.db fault delivery cursor
      some { s with view := { s.view with phase := .settled result } }
    | _ => none
  | .settle =>
    match s.view.phase with
    | .settled result => some { s with view := s.view.settle result }
    | _ => none
  | .loadMore => s.view.loadMore.map fun view => { s with view }

/-- The page opens. -/
def mount (fleet : Fleet) : ListPage := ⟨fleet, ListView.mount⟩

/-- No answer fails to get through. -/
def InContact (_ : ListPage) : ListPageAction → Prop
  | .handle fault delivery => fault = false ∧ delivery = .delivered
  | _ => True

end ListPage

/-! ## What a request gets -/

/-- A listed row: what is sent of it, and where it is in the order of the table. -/
abbrev ListItem := AnalysisSummary × (Int ×ₗ Nat)

def itemOf (row : AnalysisRow × ReplayRow) : ListItem := (summary row, rowKey row)

/-- The row as the page has it. -/
def itemRead (host : Host) (x : ListItem) : JsValue := (summaryView x.1).toJs.reread host.number

/-- The cursor as the page has it. -/
def cursorRead (cursor : Option String) : JsValue := (nullable .str cursor).toJs

/-- A row of the table has this summary and this place. -/
def Listed (db : Db) (x : ListItem) : Prop := ∃ row ∈ joined db, itemOf row = x

/-- A page of the list, read from a position on, and the position it ends at. -/
structure PageOk (db : Db) (pos : Option (Int ×ₗ Nat)) (items : List ListItem)
    (next : Option (Int ×ₗ Nat)) : Prop where
  listed : ∀ x ∈ items, Listed db x
  descends : items.Pairwise fun x y => y.2 < x.2
  after : ∀ x ∈ items, ∀ k ∈ pos, x.2 < k
  below : ∀ k ∈ next, ∀ x ∈ items, k ≤ x.2
  full : next ≠ none → items.length = 20

theorem Db.Valid.listable {db : Db} (hv : db.Valid) : Listable db :=
  ⟨hv .analysesPkey, hv .replaysPkey, hv .analysesReplayIdFkey⟩

theorem pageOk_request {db : Db} (hv : db.Valid) (pos : Option (Int ×ₗ Nat)) :
    PageOk db pos ((Keyset.request rowKey cutKey 20 pos (joined db)).1.map itemOf)
      (Keyset.request rowKey cutKey 20 pos (joined db)).2 := by
  have hu := joined_nodup hv.listable
  refine ⟨?_, ?_, ?_, ?_, ?_⟩
  · intro x hx
    obtain ⟨row, hrow, rfl⟩ := List.mem_map.mp hx
    exact ⟨row, (Keyset.mem_request hrow).1, rfl⟩
  · exact List.pairwise_map.mpr (Keyset.request_pairwise hu)
  · intro x hx
    obtain ⟨row, hrow, rfl⟩ := List.mem_map.mp hx
    exact (Keyset.mem_request hrow).2
  · intro k hk x hx
    obtain ⟨row, hrow, rfl⟩ := List.mem_map.mp hx
    exact Keyset.le_of_mem_request (by decide) hu cutKey_le hk hrow
  · intro hnext
    obtain ⟨k, hk⟩ := Option.ne_none_iff_exists'.mp hnext
    rw [List.length_map]
    exact Keyset.request_full hk

theorem toJsAll_eq (xs : List Json) : Json.toJsAll xs = xs.map Json.toJs := by
  induction xs with
  | nil => rfl
  | cons x xs ih => rw [Json.toJsAll, ih, List.map_cons]

theorem rereadAll_eq (number : JsString → JsNumber) (xs : List JsValue) :
    JsValue.rereadAll number xs = xs.map (JsValue.reread number) := by
  induction xs with
  | nil => rfl
  | cons x xs ih => rw [JsValue.rereadAll, ih, List.map_cons]

theorem toJsAll_keys {xs : List Json} (h : ∀ x ∈ xs, x.toJs.distinctKeys = true) :
    (Json.arr xs).toJs.distinctKeys = true := by
  rw [Json.toJs, JsValue.distinctKeys]
  induction xs with
  | nil => rfl
  | cons x xs ih =>
    obtain ⟨hx, hxs⟩ := List.forall_mem_cons.mp h
    rw [Json.toJsAll, JsValue.distinctAll, hx, ih hxs]
    rfl

theorem summaryView_keys (x : AnalysisSummary) : (summaryView x).toJs.distinctKeys = true := by
  have hkeys : ["analysisId", "replayId", "format", "rating", "players", "perspective",
      "totalTurns", "gradableTurns", "searchBudgetMsPerTurn", "opponentSamples",
      "createdAt"].Nodup := by decide
  have hplayers : (Json.arr (x.players.map .str)).toJs.distinctKeys = true := by
    refine toJsAll_keys fun y hy => ?_
    obtain ⟨player, -, rfl⟩ := List.mem_map.mp hy
    rfl
  refine toJs_keys hkeys ?_
  simp only [List.forall_mem_cons]
  exact ⟨rfl, rfl, rfl, nullable_keys (fun _ => rfl) _, hplayers, rfl, rfl, rfl, rfl, rfl, rfl,
    List.forall_mem_nil _⟩

theorem pageView_keys (xs : List AnalysisSummary) (cursor : Option String) :
    (pageView xs cursor).toJs.distinctKeys = true := by
  have hkeys : ["analyses", "nextCursor"].Nodup := by decide
  have hrows : (Json.arr (xs.map summaryView)).toJs.distinctKeys = true := by
    refine toJsAll_keys fun y hy => ?_
    obtain ⟨x, -, rfl⟩ := List.mem_map.mp hy
    exact summaryView_keys x
  refine toJs_keys hkeys ?_
  simp only [List.forall_mem_cons]
  exact ⟨hrows, nullable_keys (fun _ => rfl) _, List.forall_mem_nil _⟩

/-- A page as the client gets it. -/
def pageRead (host : Host) (items : List ListItem) (cursor : Option String) : JsValue :=
  (pageView (items.map Prod.fst) cursor).toJs.reread host.number

/-- The properties of a page. -/
theorem property_pageRead (host : Host) (items : List ListItem) (cursor : Option String) :
    property (pageRead host items cursor) "analyses" =
      .ok (some (.arr (items.map (itemRead host)))) ∧
    property (pageRead host items cursor) "nextCursor" = .ok (some (cursorRead cursor)) := by
  have hrows : (JsValue.arr (Json.toJsAll ((items.map Prod.fst).map summaryView))).reread
      host.number = .arr (items.map (itemRead host)) := by
    rw [JsValue.reread, rereadAll_eq, toJsAll_eq, List.map_map, List.map_map, List.map_map]
    rfl
  have hcursor : (nullable Json.str cursor).toJs.reread host.number = cursorRead cursor := by
    cases cursor <;> rfl
  rw [pageRead, pageView, Json.toJs, JsValue.reread, property, property, fieldOf_reread,
    fieldOf_reread, fieldOf_toJs, fieldOf_toJs]
  refine ⟨?_, ?_⟩
  · rw [← hrows]
    rfl
  · rw [← hcursor]
    rfl

section

variable {host : Host} {P : Instants} {issue : JsString} {db : Db} {cursor : Option String}
  {pos : Option (Int ×ₗ Nat)} {asked : Option JsValue}

/-- A page that goes on from a cursor the API wrote. -/
theorem sendList_page (fault : Bool) (hc : Carries cursor pos) :
    ∃ next, Carries next (Keyset.request rowKey cutKey 20 pos (joined db)).2 ∧
      host.sendList P issue db fault cursor =
        if fault then host.sendError (.internal queryError)
        else host.send 200 (pageView (((Keyset.request rowKey cutKey 20 pos
          (joined db)).1.map itemOf).map Prod.fst) next).toJs := by
  have hne : cursor ≠ some "" := by
    rcases hc with ⟨rfl, -⟩ | ⟨a, rfl, -⟩
    · exact nofun
    · exact fun h => encodeCursor_ne _ (Option.some.inj h)
  have hquery : listQuery? 20 cursor = some ⟨20, cursor, by decide, by decide, hne⟩ :=
    dif_pos ⟨by decide, by decide, hne⟩
  obtain ⟨next, hlist, hnext⟩ :=
    @listAnalyses_request P db ⟨20, cursor, by decide, by decide, hne⟩ pos hc
  refine ⟨next, hnext, ?_⟩
  unfold Host.sendList
  rw [hquery, List.map_map]
  simp only [hlist]
  rfl

/-- A cursor the API sent is sent back. -/
theorem apiListAnalyses_sent (delivery : Delivery) {fault : Bool}
    (hasked : asked = cursor.map fun c => .str (js c)) :
    apiListAnalyses host P issue db fault delivery asked =
      request host.number (delivery.fetch (host.sendList P issue db fault cursor)) := by
  rw [hasked]
  cases cursor with
  | none => rfl
  | some c =>
    have htext : (some (JsValue.str (js c))).mapM JsValue.toText = .ok (some (js c)) := rfl
    simp only [apiListAnalyses, Option.map_some, htext, Except.bind, JsString.text_js]

/-- **A request that gets through is answered with a page.** -/
theorem apiListAnalyses_found (hc : Carries cursor pos)
    (hasked : asked = cursor.map fun c => .str (js c)) :
    ∃ next, Carries next (Keyset.request rowKey cutKey 20 pos (joined db)).2 ∧
      apiListAnalyses host P issue db false .delivered asked = .ok (pageRead host
        ((Keyset.request rowKey cutKey 20 pos (joined db)).1.map itemOf) next) := by
  obtain ⟨next, hnext, hsend⟩ := @sendList_page host P issue db cursor pos false hc
  refine ⟨next, hnext, ?_⟩
  rw [apiListAnalyses_sent .delivered hasked, Delivery.fetch, hsend]
  exact request_sent host (pageView_keys _ _)

theorem apiListAnalyses_missed (hc : Carries cursor pos)
    (hasked : asked = cursor.map fun c => .str (js c)) {fault : Bool} {delivery : Delivery}
    (h : ¬ (fault = false ∧ delivery = .delivered)) :
    ∃ cause, apiListAnalyses host P issue db fault delivery asked = .error cause := by
  rw [apiListAnalyses_sent delivery hasked]
  by_cases hdelivery : delivery = .delivered
  · have hfault : fault = true := by
      rw [← Bool.not_eq_false]
      exact fun hf => h ⟨hf, hdelivery⟩
    obtain ⟨next, -, hsend⟩ := @sendList_page host P issue db cursor pos fault hc
    rw [hdelivery, Delivery.fetch, hsend, hfault]
    exact request_not_ok _ rfl
  · exact request_undelivered host.number hdelivery _

end

/-! ## What stays listed -/

/-- A write of a known identity leaves what is listed of its row. -/
theorem Listed.mono {s : Fleet} (hv : s.db.Valid) {e : Event} {db : Db} (h : Effect s e db)
    {x : ListItem} (hx : Listed s.db x) : Listed db x := by
  obtain ⟨⟨a, r⟩, hrow, rfl⟩ := hx
  obtain ⟨ha, hr, hid⟩ := mem_joined.mp hrow
  obtain ⟨a', ha', hkept⟩ := h.kept hv ha
  refine ⟨(a', r), mem_joined.mpr ⟨ha', h.replays r hr, hkept.columns ▸ hid⟩, ?_⟩
  simp only [itemOf, summary, AnalysisRow.key, hkept.id, hkept.columns, hkept.createdAt,
    hkept.totalTurns, hkept.gradableTurns]

/-- Every stored identity was derived from a request. -/
def Requested (c : IdentityColumns) : Prop :=
  ∃ request build, c = (deriveIdentity request build).columns

theorem requested_of_reachable {s : Fleet} (h : s.Reachable) :
    ∀ a ∈ s.db.analyses, Requested a.columns := by
  have hjobs : ∀ j ∈ s.db.jobs, Requested j.columns := by
    refine StepSystem.Reach.invariant_of (I := fun s : Fleet =>
      ∀ j ∈ s.db.jobs, Requested j.columns) (fun j h => (List.not_mem_nil h).elim) ?_ h
    rintro s a s' hr hreq - hst j' hj'
    have hv := valid_of_reachable hr
    obtain ⟨e, -, hs⟩ := step_spec hv hst
    by_cases hn : ∀ j ∈ s.db.jobs, j.id ≠ j'.id
    · obtain ⟨i, sub, turns, -, -, -, -, hcol⟩ := hs.effect.new_job hj' hn
      exact ⟨sub.request, sub.build, hcol⟩
    · obtain ⟨j, hj, hid⟩ : ∃ j ∈ s.db.jobs, j.id = j'.id := by simpa using hn
      obtain ⟨k, hk, hkid, hkc⟩ := hs.effect.jobs j hj
      rw [← (hs.valid hv).job_eq hk hj' (hkid.trans hid), hkc]
      exact hreq j hj
  intro a ha
  obtain ⟨j, hj, -, -, hcol⟩ := (provenance_of_reachable h).2.1.row a ha
  exact hcol ▸ hjobs j hj

/-- "Load more" asks for what comes after the cursor. -/
theorem ListView.loadMore_some {v view : ListView} {cursor : Option String}
    (hcursor : v.cursor = some (cursorRead cursor)) (h : v.loadMore = some view) :
    ∃ text, cursor = some text ∧
      view = { v with phase := .asking (some (cursorRead (some text))) } := by
  unfold loadMore at h
  rw [hcursor] at h
  cases cursor with
  | none => cases hphase : v.phase <;> rw [hphase] at h <;> cases h
  | some text =>
    cases hphase : v.phase with
    | idle =>
      rw [hphase] at h
      refine ⟨text, rfl, ?_⟩
      rw [hcursor]
      exact (Option.some.inj h).symm
    | _ => rw [hphase] at h; cases h

/-! ## What the page shows -/

namespace ListPage

/-- What the page has and where it goes on. -/
structure Has (host : Host) (s : ListPage) (items : List ListItem) (cursor : Option String)
    (pos : Option (Int ×ₗ Nat)) : Prop where
  analyses : s.view.analyses = items.map (itemRead host)
  next : s.view.cursor = some (cursorRead cursor)
  carries : Carries cursor pos
  listed : ∀ x ∈ items, Listed s.fleet.db x
  descends : items.Pairwise fun x y => y.2 < x.2
  below : ∀ k ∈ pos, ∀ x ∈ items, k ≤ x.2
  full : pos ≠ none → 20 ∣ items.length

/-- An answer that may be old. -/
def Answer (host : Host) (db : Db) (pos : Option (Int ×ₗ Nat))
    (result : Except ClientError JsValue) : Prop :=
  (∃ cause, result = .error cause) ∨
    ∃ items next pos', PageOk db pos items pos' ∧ Carries next pos' ∧
      result = .ok (pageRead host items next)

/-- `load` goes on from the end of what the page has. -/
inductive Loads (host : Host) (db : Db) (items : List ListItem) (cursor : Option String)
    (pos : Option (Int ×ₗ Nat)) : LoadPhase → Prop
  | asking {asked : Option JsValue} (h : asked = cursor.map fun c => .str (js c))
      (hfirst : pos = none → items = []) : Loads host db items cursor pos (.asking asked)
  | settled {result : Except ClientError JsValue} (h : Answer host db pos result)
      (hfirst : pos = none → items = []) : Loads host db items cursor pos (.settled result)
  | idle : Loads host db items cursor pos .idle

structure Inv (host : Host) (s : ListPage) : Prop where
  fleet : s.fleet.Reachable
  has : ∃ items cursor pos, Has host s items cursor pos ∧
    Loads host s.fleet.db items cursor pos s.view.phase

variable {host : Host} {P : Instants} {issue : JsString} {s s' : ListPage}

theorem inv_mount {fleet : Fleet} (h : fleet.Reachable) : Inv host (mount fleet) := by
  refine ⟨h, [], none, none, ⟨rfl, rfl, Or.inl ⟨rfl, rfl⟩, ?_, .nil, nofun, nofun⟩,
    .asking rfl fun _ => rfl⟩
  exact fun x hx => (List.not_mem_nil hx).elim

/-- **A step of the fleet** takes nothing off the list. -/
theorem Inv.fleet_step (h : Inv host s) {action : Action} {fleet : Fleet}
    (hst : s.fleet.step action = some fleet) : Inv host { s with fleet } := by
  have hv := valid_of_reachable h.fleet
  obtain ⟨e, -, hs⟩ := step_spec hv hst
  obtain ⟨items, cursor, pos, hhas, hloads⟩ := h.has
  refine ⟨.next h.fleet trivial hst, items, cursor, pos, { hhas with
    listed := fun x hx => (hhas.listed x hx).mono hv hs.effect }, ?_⟩
  generalize s.view.phase = phase at hloads ⊢
  cases hloads with
  | asking hasked hfirst => exact .asking hasked hfirst
  | settled hanswer hfirst =>
    refine .settled (hanswer.imp_right ?_) hfirst
    rintro ⟨items', next, pos', hpage, hnext, hresult⟩
    exact ⟨items', next, pos', { hpage with
      listed := fun x hx => (hpage.listed x hx).mono hv hs.effect }, hnext, hresult⟩
  | idle => exact .idle

/-- The next page goes below what is there. -/
theorem Has.append {items items' : List ListItem} {cursor next : Option String}
    {pos pos' : Option (Int ×ₗ Nat)} (h : Has host s items cursor pos)
    (hfirst : pos = none → items = []) (hpage : PageOk s.fleet.db pos items' pos')
    (hnext : Carries next pos') :
    Has host { s with view := ⟨s.view.analyses ++ items'.map (itemRead host),
      some (cursorRead next), none, .idle⟩ } (items ++ items') next pos' := by
  have hbelow : ∀ x ∈ items, ∀ y ∈ items', y.2 < x.2 := by
    intro x hx y hy
    cases hpos : pos with
    | none =>
      rw [hfirst hpos] at hx
      exact (List.not_mem_nil hx).elim
    | some k => exact (hpage.after y hy k hpos).trans_le (h.below k hpos x hx)
  refine ⟨by rw [h.analyses, List.map_append], rfl, hnext, ?_, ?_, ?_, ?_⟩
  · intro x hx
    rcases List.mem_append.mp hx with hx | hx
    · exact h.listed x hx
    · exact hpage.listed x hx
  · exact List.pairwise_append.mpr ⟨h.descends, hpage.descends, hbelow⟩
  · intro k hk x hx
    rcases List.mem_append.mp hx with hx | hx
    · -- the page is full, so it has a row between the position and the rows above
      have hlen := hpage.full (by rw [hk]; exact nofun)
      obtain ⟨y, hy⟩ : ∃ y, y ∈ items' := List.exists_mem_of_length_pos (by omega)
      exact (hpage.below k hk y hy).trans (hbelow x hx y hy).le
    · exact hpage.below k hk x hx
  · intro hpos'
    have hlen := hpage.full hpos'
    rw [List.length_append, hlen]
    refine Nat.dvd_add ?_ (Nat.dvd_refl 20)
    by_cases hpos : pos = none
    · rw [hfirst hpos]
      exact Nat.dvd_zero 20
    · exact h.full hpos

theorem Inv.settle_step (h : Inv host s) {result : Except ClientError JsValue}
    (hphase : s.view.phase = .settled result) :
    Inv host { s with view := s.view.settle result } := by
  obtain ⟨items, cursor, pos, hhas, hloads⟩ := h.has
  rw [hphase] at hloads
  cases hloads with
  | settled hanswer hfirst =>
    rcases hanswer with ⟨cause, rfl⟩ | ⟨items', next, pos', hpage, hnext, rfl⟩
    · exact ⟨h.fleet, items, cursor, pos, { hhas with }, .idle⟩
    · obtain ⟨hanalyses, hcursor⟩ := property_pageRead host items' next
      have hsettle : s.view.settle (.ok (pageRead host items' next)) =
          ⟨s.view.analyses ++ items'.map (itemRead host), some (cursorRead next), none,
            .idle⟩ := by
        simp only [ListView.settle, hanalyses, hcursor]
      rw [hsettle]
      exact ⟨h.fleet, items ++ items', next, pos', hhas.append hfirst hpage hnext, .idle⟩

theorem Inv.step (h : Inv host s) {action : ListPageAction}
    (hst : ListPage.step host P issue s action = some s') : Inv host s' := by
  cases action with
  | fleet action =>
    obtain ⟨fleet, hfleet, rfl⟩ := Option.map_eq_some_iff.mp hst
    exact h.fleet_step hfleet
  | handle fault delivery =>
    simp only [ListPage.step] at hst
    split at hst
    · rename_i asked hphase
      obtain rfl := Option.some.inj hst
      obtain ⟨items, cursor, pos, hhas, hloads⟩ := h.has
      rw [hphase] at hloads
      cases hloads with
      | asking hasked hfirst =>
        refine ⟨h.fleet, items, cursor, pos, { hhas with }, .settled ?_ hfirst⟩
        by_cases hcontact : fault = false ∧ delivery = .delivered
        · obtain ⟨next, hnext, hfound⟩ := @apiListAnalyses_found host P issue s.fleet.db _ _ _
            hhas.carries hasked
          rw [hcontact.1, hcontact.2]
          exact Or.inr ⟨_, next, _, pageOk_request (valid_of_reachable h.fleet) pos, hnext, hfound⟩
        · exact Or.inl (apiListAnalyses_missed hhas.carries hasked hcontact)
    · cases hst
  | settle =>
    simp only [ListPage.step] at hst
    split at hst
    · rename_i result hphase
      obtain rfl := Option.some.inj hst
      exact h.settle_step hphase
    · cases hst
  | loadMore =>
    obtain ⟨view, hview, rfl⟩ := Option.map_eq_some_iff.mp hst
    obtain ⟨items, cursor, pos, hhas, -⟩ := h.has
    obtain ⟨text, rfl, rfl⟩ := ListView.loadMore_some hhas.next hview
    refine ⟨h.fleet, items, some text, pos, { hhas with }, .asking ?_ ?_⟩
    · rfl
    · rintro rfl
      rcases hhas.carries with ⟨hnone, -⟩ | ⟨_, -, hsome⟩
      · cases hnone
      · cases hsome

theorem inv_of_reachable {fleet : Fleet} (h : fleet.Reachable)
    (hr : StepSystem.Reachable (ListPage.step host P issue) (mount fleet) s) : Inv host s :=
  StepSystem.Reach.invariant (inv_mount h) (fun _ _ _ hi _ hst => hi.step hst) hr

/-- With every answer through there is no error on the way. -/
theorem no_error_of_contact {fleet : Fleet} (h : fleet.Reachable)
    (hr : StepSystem.Reach (ListPage.step host P issue) InContact (mount fleet) s) :
    s.view.error = none := by
  have hkept : s.view.error = none ∧
      ∀ result, s.view.phase = .settled result →
        ∃ items next, result = .ok (pageRead host items next) := by
    refine StepSystem.Reach.invariant_of (I := fun s : ListPage => s.view.error = none ∧
      ∀ result, s.view.phase = .settled result →
        ∃ items next, result = .ok (pageRead host items next))
      ⟨rfl, fun _ h => by cases h⟩ ?_ hr
    rintro s action s' hr ⟨herror, hok⟩ hcontact hst
    have hi := inv_of_reachable h hr.reachable
    cases action with
    | fleet action =>
      obtain ⟨fleet, -, rfl⟩ := Option.map_eq_some_iff.mp hst
      exact ⟨herror, hok⟩
    | handle fault delivery =>
      obtain ⟨rfl, rfl⟩ := hcontact
      simp only [ListPage.step] at hst
      split at hst
      · rename_i asked hphase
        obtain rfl := Option.some.inj hst
        obtain ⟨items, cursor, pos, hhas, hloads⟩ := hi.has
        rw [hphase] at hloads
        cases hloads with
        | asking hasked hfirst =>
          obtain ⟨next, -, hfound⟩ := @apiListAnalyses_found host P issue s.fleet.db _ _ _
            hhas.carries hasked
          exact ⟨herror, fun result hresult =>
            ⟨_, next, (LoadPhase.settled.inj hresult).symm.trans hfound⟩⟩
      · cases hst
    | settle =>
      simp only [ListPage.step] at hst
      split at hst
      · rename_i result hphase
        obtain rfl := Option.some.inj hst
        obtain ⟨items', next, rfl⟩ := hok result hphase
        obtain ⟨hanalyses, hcursor⟩ := property_pageRead host items' next
        simp only [ListView.settle, hanalyses, hcursor]
        exact ⟨trivial, nofun⟩
      · cases hst
    | loadMore =>
      obtain ⟨view, hview, rfl⟩ := Option.map_eq_some_iff.mp hst
      obtain ⟨items, cursor, pos, hhas, -⟩ := hi.has
      obtain ⟨text, -, rfl⟩ := ListView.loadMore_some hhas.next hview
      exact ⟨herror, nofun⟩
  exact hkept.1

/-- Items of different places are of different analyses. -/
theorem Has.nodup {items : List ListItem} {cursor : Option String} {pos : Option (Int ×ₗ Nat)}
    (h : Has host s items cursor pos) (hv : s.fleet.db.Valid) :
    (items.map fun x => x.1.analysisId).Nodup := by
  refine List.pairwise_map.mpr (h.descends.imp_of_mem ?_)
  intro x y hx hy hlt hid
  obtain ⟨row, hrow, rfl⟩ := h.listed x hx
  obtain ⟨row', hrow', rfl⟩ := h.listed y hy
  have hsame : row.1 = row'.1 :=
    hv.listable.ids.eq (mem_joined.mp hrow).1 (mem_joined.mp hrow').1 hid
  have hkey : (itemOf row').2 = (itemOf row).2 := congrArg AnalysisRow.key hsame.symm
  rw [hkey] at hlt
  exact lt_irrefl _ hlt

/-- The list of the page is the list of the table, so far. -/
structure Lists (host : Host) (s : ListPage) (items : List ListItem) : Prop where
  analyses : s.view.analyses = items.map (itemRead host)
  descends : items.Pairwise fun x y => y.2 < x.2
  nodup : (items.map fun x => x.1.analysisId).Nodup
  /-- Every row is what is stored now, under a link that stays good and a profile that exists. -/
  rows : ∀ x ∈ items, ∃ a r, (a, r) ∈ joined s.fleet.db ∧ itemOf (a, r) = x ∧
    navigate (js "/a/" ++ js (uuidText x.1.analysisId)) = .analysis (js (uuidText x.1.analysisId)) ∧
    ShowsFrom host s.fleet a.columns (js (uuidText x.1.analysisId)) ∧
    ∃ profile : Profile,
      profileLabel x.1.searchBudgetMsPerTurn x.1.opponentSamples = profile.name
  /-- While there is a button, all pages are full. -/
  full : s.view.cursor ≠ some .null → 20 ∣ items.length

theorem Inv.lists (h : Inv host s) : ∃ items, Lists host s items := by
  obtain ⟨items, cursor, pos, hhas, -⟩ := h.has
  refine ⟨items, hhas.analyses, hhas.descends, hhas.nodup (valid_of_reachable h.fleet), ?_, ?_⟩
  · intro x hx
    obtain ⟨⟨a, r⟩, hrow, rfl⟩ := hhas.listed x hx
    have ha := (mem_joined.mp hrow).1
    obtain ⟨request, build, hcol⟩ := requested_of_reachable h.fleet a ha
    refine ⟨a, r, hrow, rfl, (navigate_uuid a.id).1, showsFrom host h.fleet ha,
      request.profile, ?_⟩
    simp only [itemOf, summary, hcol]
    exact profileLabel_params request.profile
  · intro hcursor
    refine hhas.full fun hpos => hcursor ?_
    rcases hhas.carries with ⟨rfl, -⟩ | ⟨_, -, hsome⟩
    · exact hhas.next
    · rw [hpos] at hsome
      cases hsome

theorem Inv.not_thrown (h : Inv host s) : s.view.phase ≠ .thrown := by
  obtain ⟨_, _, _, -, hloads⟩ := h.has
  intro hthrown
  rw [hthrown] at hloads
  cases hloads

/-- A step puts rows below what is there, or none. -/
theorem prefix_step {action : ListPageAction}
    (hst : ListPage.step host P issue s action = some s') :
    s.view.analyses <+: s'.view.analyses := by
  cases action with
  | fleet action =>
    obtain ⟨fleet, -, rfl⟩ := Option.map_eq_some_iff.mp hst
    exact List.prefix_rfl
  | handle fault delivery =>
    simp only [ListPage.step] at hst
    split at hst
    · obtain rfl := Option.some.inj hst
      exact List.prefix_rfl
    · cases hst
  | settle =>
    simp only [ListPage.step] at hst
    split at hst
    · rename_i result _
      obtain rfl := Option.some.inj hst
      cases result with
      | error cause => exact List.prefix_rfl
      | ok page =>
        simp only [ListView.settle]
        split
        · exact List.prefix_append _ _
        · exact List.prefix_rfl
    · cases hst
  | loadMore =>
    obtain ⟨view, hview, rfl⟩ := Option.map_eq_some_iff.mp hst
    unfold ListView.loadMore at hview
    split at hview
    · cases hview
    · obtain rfl := Option.some.inj hview
      exact List.prefix_rfl
    · cases hview

theorem prefix_of_reachable (hr : StepSystem.Reachable (ListPage.step host P issue) s s') :
    s.view.analyses <+: s'.view.analyses :=
  StepSystem.Reach.invariant (I := fun t : ListPage => s.view.analyses <+: t.view.analyses)
    List.prefix_rfl (fun _ _ _ hi _ hst => hi.trans (prefix_step hst)) hr

end ListPage

/-- **The list of recent analyses.** However the steps of the page and of the fleet interleave, and
however old an answer is when it arrives: the rows come strictly downwards in the key of the table,
none twice; each is the summary of its analysis as it is stored now, under a link that opens this
analysis from then on and a label that names a profile; rows are only added, below; as long as
there is a button every page was full; and there is no error if every answer gets through. -/
theorem recent_list_shown (host : Host) (P : Instants) (issue : JsString) {fleet : Fleet}
    (h : fleet.Reachable) :
    (∀ s, StepSystem.Reachable (ListPage.step host P issue) (.mount fleet) s →
      s.view.phase ≠ .thrown ∧ (∃ items, s.Lists host items) ∧
      ∀ s', StepSystem.Reachable (ListPage.step host P issue) s s' →
        s.view.analyses <+: s'.view.analyses) ∧
    ∀ s, StepSystem.Reach (ListPage.step host P issue) ListPage.InContact (.mount fleet) s →
      s.view.error = none := by
  refine ⟨fun s hr => ?_, fun s hr => ListPage.no_error_of_contact h hr⟩
  have hi := ListPage.inv_of_reachable h hr
  exact ⟨hi.not_thrown, hi.lists, fun s' hr' => ListPage.prefix_of_reachable hr'⟩

/-- An analysis is written between the opening of the page and the answer to it. -/
theorem recent_list_shown_written :
    ∃ s, StepSystem.Reachable (ListPage.step Sample.host Instants.iso [])
        (.mount (Fleet.after Sample.analyzed)) s ∧ s.view.analyses.length = 1 ∧
      (∃ items, s.Lists Sample.host items) := by
  obtain ⟨next, -, hfound⟩ := @apiListAnalyses_found Sample.host Instants.iso []
    (Fleet.after Sample.reported).db none none none (Or.inl ⟨rfl, rfl⟩) rfl
  have hrows : (Keyset.request rowKey cutKey 20 none
    (joined (Fleet.after Sample.reported).db)).1.length = 1 := by decide
  generalize Keyset.request rowKey cutKey 20 none (joined (Fleet.after Sample.reported).db) = rows
    at hfound hrows
  have hwritten : StepSystem.exec (ListPage.step Sample.host Instants.iso [])
      (.mount (Fleet.after Sample.analyzed)) ((Sample.report 0 9).map ListPageAction.fleet) =
        some (.mount (Fleet.after Sample.reported)) := rfl
  have hhandle : ListPage.step Sample.host Instants.iso [] (.mount (Fleet.after Sample.reported))
      (.handle false .delivered) = some ⟨Fleet.after Sample.reported, { ListView.mount with
        phase := .settled (.ok (pageRead Sample.host (rows.1.map itemOf) next)) }⟩ := by
    rw [← hfound]
    rfl
  have hr := StepSystem.Reach.next
    (.next (StepSystem.reachable_of_exec .init hwritten) trivial hhandle)
    (a := ListPageAction.settle) trivial rfl
  obtain ⟨hanalyses, hcursor⟩ := property_pageRead Sample.host (rows.1.map itemOf) next
  refine ⟨_, hr, ?_, ((recent_list_shown Sample.host Instants.iso []
    (Fleet.reachable_after Sample.analyzed)).1 _ hr).2.1⟩
  simp only [ListView.settle, hanalyses, hcursor, ListView.mount, List.nil_append, List.length_map,
    hrows]

end BattleCloud
