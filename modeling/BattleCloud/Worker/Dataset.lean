import BattleCloud.Fleet.Outcome
import BattleCloud.Fleet.Threads
import BattleCloud.Worker.Report
import Mathlib.Data.List.Dedup
import Mathlib.Data.List.DropRight

/-!
# The check of the usage statistics at startup

`main` of `worker/battle_cloud_worker/__main__.py` up to the loop, and `installed_datasets` of
`engine.py`. The check is on months: that of the configuration has to be among those of the file
names. The engine chooses by the other two parts of a name, the format of the replay and the
cutoff of the identity (`StatsFile.Loadable`); this is all that is known of it here.

`dataset_check_iff`: an accepted worker analyzes with no other month than its own exactly if no
file that a job can ask for is of another one. A job can ask for any format (a replay brings its
own) and for the cutoff of a profile; `Asked` is a run for each of them. Two months side by side
pass the check (`two_months_pass`).

`repr` and the text of a `Path` are Python's. A set is in the order of its first insertions.
-/

namespace BattleCloud

/-! ## The files -/

/-- A file `<month>_<format>-<cutoff>.json`; no file name has U+0000 in it. -/
structure StatsFile where
  month : String
  format : String
  cutoff : Nat
  month_unsplit : '_' ∉ month.toList
  month_nulFree : nulFree month = true
  format_nulFree : nulFree format = true

def StatsFile.name (f : StatsFile) : String :=
  f.month ++ "_" ++ f.format ++ "-" ++ toString f.cutoff ++ ".json"

/-- `fnmatch(name, "*_*.json")`. -/
def matchesStats (name : String) : Bool :=
  ".json".toList.isSuffixOf name.toList && (name.toList.rdrop 5).contains '_'

/-- `name.split("_", 1)[0]`. -/
def monthOf (name : String) : String := String.ofList (name.toList.takeWhile fun c => c ≠ '_')

/-- `installed_datasets`, from the names in `data/usage_stats`. -/
def installedDatasets (names : List String) : List String :=
  ((names.filter matchesStats).map monthOf).dedup

theorem monthOf_name (f : StatsFile) : monthOf f.name = f.month := by
  have hname : f.name.toList = f.month.toList ++
      '_' :: (f.format ++ "-" ++ toString f.cutoff ++ ".json").toList := by
    simp [StatsFile.name]
  have hmonth : ∀ c ∈ f.month.toList, decide (c ≠ '_') = true := by
    intro c hc
    refine decide_eq_true fun he => f.month_unsplit ?_
    rw [← he]
    exact hc
  unfold monthOf
  rw [hname, List.takeWhile_append_of_pos hmonth, List.takeWhile_cons_of_neg (by simp),
    List.append_nil, String.ofList_toList]

theorem matchesStats_name (f : StatsFile) : matchesStats f.name = true := by
  have hname : f.name.toList =
      (f.month ++ "_" ++ f.format ++ "-" ++ toString f.cutoff).toList ++ ".json".toList := by
    simp [StatsFile.name]
  have hdrop : f.name.toList.rdrop 5 =
      (f.month ++ "_" ++ f.format ++ "-" ++ toString f.cutoff).toList := by
    rw [hname]
    exact List.rdrop_append_length
  unfold matchesStats
  rw [hdrop, hname, Bool.and_eq_true, List.isSuffixOf_iff_suffix]
  exact ⟨List.suffix_append _ _, by simp⟩

/-- **The months of the files are what is installed.** -/
theorem mem_installedDatasets {files : List StatsFile} {month : String} :
    month ∈ installedDatasets (files.map StatsFile.name) ↔ ∃ f ∈ files, f.month = month := by
  unfold installedDatasets
  rw [List.mem_dedup, List.mem_map]
  constructor
  · rintro ⟨name, hname, rfl⟩
    obtain ⟨f, hf, rfl⟩ := List.mem_map.mp (List.mem_filter.mp hname).1
    exact ⟨f, hf, (monthOf_name f).symm⟩
  · rintro ⟨f, hf, rfl⟩
    exact ⟨f.name, List.mem_filter.mpr ⟨List.mem_map_of_mem hf, matchesStats_name f⟩,
      monthOf_name f⟩

/-! ## `main` -/

section Main

variable (py : PyBuiltins) (path : String → String)

/-- `str(sorted(present))`. -/
def sortedText (present : List String) : String :=
  "[" ++ ", ".intercalate ((present.mergeSort fun a b => a ≤ b).map py.repr) ++ "]"

/-- The check of the dataset; `dataDir` is `str(config.engine_data_dir)`. -/
def checkDataset (dataset dataDir : String) (present : List String) : Except String Unit :=
  if dataset ∈ present then .ok ()
  else
    .error ("USAGE_STATS_DATASET" ++ ("=" ++ py.repr dataset ++ " but " ++ dataDir ++
      "/data/usage_stats carries " ++
      if present.isEmpty then "no usage-stats files" else sortedText py present))

/-- `main` up to the loop: the worker that starts, or what is printed before it returns 2. `path`
is the text of a `Path`, and `listing` gives the names in its `data/usage_stats`. -/
def main (env : WorkerEnv) (cores : Int) (listing : String → List String) :
    Except String (HostConfig cores) :=
  (((env.fromEnv py cores).bind fun config =>
    (checkDataset py config.queue.usageStatsDataset (path config.engineDataDir)
      (installedDatasets (listing config.engineDataDir))).map fun _ => config)).mapError
    ("configuration error: " ++ ·)

end Main

variable {py : PyBuiltins} {path : String → String} {env : WorkerEnv} {cores : Int}
  {listing : String → List String} {config : HostConfig cores}

theorem checkDataset_ok_iff {dataset dataDir : String} {present : List String} :
    checkDataset py dataset dataDir present = .ok () ↔ dataset ∈ present := by
  unfold checkDataset
  split <;> simp_all

/-- What a worker that starts has passed. -/
theorem main_ok_iff :
    main py path env cores listing = .ok config ↔
      env.fromEnv py cores = .ok config ∧
        config.queue.usageStatsDataset ∈ installedDatasets (listing config.engineDataDir) := by
  unfold main
  rw [except_mapError_ok, except_bind_ok]
  constructor
  · rintro ⟨c, hc, hcheck⟩
    obtain ⟨u, hu, rfl⟩ := except_map_ok.mp hcheck
    exact ⟨hc, checkDataset_ok_iff.mp hu⟩
  · rintro ⟨hc, hmem⟩
    exact ⟨config, hc, except_map_ok.mpr ⟨(), checkDataset_ok_iff.mpr hmem, rfl⟩⟩

/-- **What `main` prints names the variable to change.** -/
theorem main_names {message : String} (h : main py path env cores listing = .error message) :
    ∃ rest, message = "configuration error: " ++ rest ∧ WorkerEnv.Names rest := by
  obtain ⟨rest, hx, rfl⟩ := except_mapError_error.mp h
  refine ⟨rest, rfl, ?_⟩
  rcases except_bind_error.mp hx with hx | ⟨config, -, hx⟩
  · exact WorkerEnv.fromEnv_names hx
  · have hx := except_map_error.mp hx
    unfold checkDataset at hx
    split at hx
    · cases hx
    · obtain rfl := Except.error.inj hx
      exact WorkerEnv.names_of_mem (by decide) _

/-! ## What the engine may load -/

/-- The engine may load the file for a call; it does not look at the month. -/
def StatsFile.Loadable (f : StatsFile) (payload : EnginePayload) (kwargs : AnalyzeKwargs) : Prop :=
  f.format = payload.formatid ∧ (f.cutoff : Int) = kwargs.usageStatsCutoff

/-- Whatever a worker of the dataset analyzes, the engine can load no file of another month. -/
def ClaimsNamed (files : List StatsFile) (dataset : String) : Prop :=
  ∀ s : Fleet, s.Reachable → ∀ (i : Nat) (w : Worker) (job : ClaimedJob) (payload : EnginePayload)
    (heartbeat : Nat), s.workers[i]? = some w → w.config.usageStatsDataset = dataset →
    w.phase = .analyzing job payload heartbeat →
    ∀ f ∈ files, f.Loadable payload (analyzeKwargs job.identity) → f.month = dataset

/-- Nor could it for the replay and the arguments of any analysis stored under the dataset. -/
def RowsNamed (files : List StatsFile) (dataset : String) : Prop :=
  ∀ s : Fleet, s.Reachable → ∀ a ∈ s.db.analyses, a.columns.usageStatsDataset = dataset →
    ∀ r ∈ s.db.replays, r.id = a.columns.replayId →
    ∀ f ∈ files, f.Loadable r.payload a.columns.kwargs → f.month = dataset

/-- Some job asks for files of the cutoff. -/
def StatsFile.Requested (f : StatsFile) : Prop :=
  ∃ p : Profile, (f.cutoff : Int) = p.params.usageStatsCutoff

theorem usageStatsCutoff_requested {s : Fleet} (h : s.Reachable) {j : JobRow} (hj : j ∈ s.db.jobs) :
    ∃ p : Profile, j.columns.usageStatsCutoff = p.params.usageStatsCutoff := by
  obtain ⟨request, build, hc⟩ := jobsRequested_of_reachable h j hj
  exact ⟨request.profile, by rw [hc]; rfl⟩

/-- Files of the cutoffs that are asked for are enough to look at. -/
theorem claimsNamed_of_requested {files : List StatsFile} {dataset : String}
    (h : ∀ f ∈ files, f.Requested → f.month = dataset) : ClaimsNamed files dataset := by
  intro s hs i w job payload heartbeat hw _ hph f hf hload
  have hok := (processesOk_of_reachable hs).workers i w hw
  unfold WorkerOk at hok
  rw [hph] at hok
  obtain ⟨j, hj, -, hc⟩ := hok.1.row
  obtain ⟨p, hp⟩ := usageStatsCutoff_requested hs hj
  refine h f hf ⟨p, ?_⟩
  rw [hload.2, ← hp, hc]
  rfl

theorem rowsNamed_of_requested {files : List StatsFile} {dataset : String}
    (h : ∀ f ∈ files, f.Requested → f.month = dataset) : RowsNamed files dataset := by
  intro s hs a ha _ r _ _ f hf hload
  obtain ⟨-, j, hj, -, -, hc⟩ := (analysis_provenance hs).1 a ha
  obtain ⟨p, hp⟩ := usageStatsCutoff_requested hs hj
  refine h f hf ⟨p, ?_⟩
  rw [hload.2, ← hp, hc]
  rfl

/-! ## A run for any format and any profile -/

namespace Asked

variable (format dataset : String) (p : Profile)

def request : SubmitRequest := { Sample.request with profile := p }

def build : EngineBuild := { Sample.build with usageStatsDataset := dataset }

def identity : AnalysisIdentity := deriveIdentity (request p) (build dataset)

/-- A replay of the format. -/
def payload : ReplayPayload :=
  { id := "gen9ou-2672927429", log := "|turn|1", raw := .obj [("formatid", .str format)] }

def row : ReplayRow :=
  { id := "gen9ou-2672927429", format, rating := none, players := .arr [], log := "|turn|1"
    payloadBytes := 7 }

def job : JobRow :=
  JobRow.fresh 7 (identity dataset p).columns p 1 (estimateDuration 1 p) Sample.noon

def claimed : JobRow := (job dataset p).claim "host/1" 900 Sample.noon

def worker : WorkerConfig :=
  { Sample.config with mode := .forever, usageStatsDataset := dataset }

def run : AnalysisRun := ⟨Sample.document 1 1, 600, false⟩

def analysis : AnalysisRow :=
  { id := 9, columns := (identity dataset p).columns, document := Sample.document 1 1
    totalTurns := 1, gradableTurns := 1, wallMs := 600, degraded := false
    createdAt := Sample.later }

def completed : JobRow := (claimed dataset p).complete 9 Sample.later

/-- The tables with the replay. -/
def tables (analyses : List AnalysisRow) (jobs : List JobRow) : Db := ⟨[row format], analyses, jobs⟩

variable {format dataset}

theorem perspectiveOf_p1 {bs : List (IdentityColumn × SqlValue)}
    (h : bs.lookup .perspective = some (.text Perspective.p1.text)) :
    perspectiveOf bs = .ok .p1 := by
  have hp1 : pgText "p1" = .ok "p1" := by decide
  unfold perspectiveOf textOf
  rw [h]
  show (pgText "p1").bind _ = _
  rw [hp1]
  rfl

/-- The identity is bound as it is. -/
theorem bound (hd : nulFree dataset = true) : (identity dataset p).Bound := by
  have hid : pgText "gen9ou-2672927429" = .ok "gen9ou-2672927429" := by decide
  have htag : pgText "v0.0.47" = .ok "v0.0.47" := by decide
  unfold AnalysisIdentity.Bound
  cases p <;>
    exact ofBindings_of hid (perspectiveOf_p1 rfl) rfl rfl rfl rfl (pgText_of_nulFree hd) htag rfl

theorem payload_row (hf : nulFree format = true) : (payload format).row = .ok (row format) := by
  have hid : pgText "gen9ou-2672927429" = .ok "gen9ou-2672927429" := by decide
  have hlog : pgText "|turn|1" = .ok "|turn|1" := by decide
  have hbytes : int4 (("|turn|1" : String).utf8ByteSize : Nat) = .ok 7 := by decide
  have hformat : (payload format).format = format := by
    simp [payload, ReplayPayload.format, Json.get?]
  have hrating : (payload format).rating = none := by
    simp [payload, ReplayPayload.rating, Json.get?]
  have hplayers : (payload format).players = .arr [] := by
    simp [payload, ReplayPayload.players, Json.get?]
  have hid' : pgText (payload format).id = .ok "gen9ou-2672927429" := hid
  have hlog' : pgText (payload format).log = .ok "|turn|1" := hlog
  have hbytes' : int4 (payload format).payloadBytes = .ok 7 := hbytes
  unfold ReplayPayload.row
  rw [hid', hformat, hrating, hplayers, hlog', hbytes', pgText_of_nulFree hf]
  rfl

theorem checks (hne : dataset ≠ "") : (identity dataset p).columns.Checks := by
  have hparams : 0 < p.params.searchBudgetMsPerTurn ∧ 1 ≤ p.params.opponentSamples ∧
      1 ≤ p.params.threads ∧ 0 ≤ p.params.usageStatsCutoff := by
    cases p <;> decide
  exact ⟨hparams.1, hparams.2.1, hparams.2.2.1, hparams.2.2.2, hne⟩

/-- Tables of one job and at most one analysis, all of the same identity. -/
theorem valid_tables (hne : dataset ≠ "") {j : JobRow} {analyses : List AnalysisRow}
    (hanalyses : analyses = [] ∨ analyses = [analysis dataset p])
    (hc : j.columns = (identity dataset p).columns) (he : j.EstimatesCheck)
    (ha : j.AnalysisStored (tables format analyses [j])) (hclaim : j.ClaimIsAllOrNothing)
    (hs : j.SucceededHasAnalysis) (hf : j.FailedHasKind) :
    (tables format analyses [j]).Valid := by
  have hlive : Table.UniqueWhere JobRow.live JobRow.columns [j] := by
    unfold Table.UniqueWhere
    cases hl : j.live <;> simp [hl]
  have hreplay : "gen9ou-2672927429" = (identity dataset p).columns.replayId := rfl
  intro c
  rcases hanalyses with rfl | rfl <;> cases c <;>
    simp [Constraint.Holds, tables, row, analysis, Table.Unique, hc, checks p hne, he, hclaim, hs,
      hf, hlive] <;> assumption

theorem estimates (j : JobRow) (ht : j.estimatedTurns = some 1)
    (hm : j.estimatedSearchMs = some (estimateDuration 1 p)) : j.EstimatesCheck := by
  have hms : 0 ≤ estimateDuration 1 p := by cases p <;> decide
  unfold JobRow.EstimatesCheck
  rw [ht, hm]
  simp [hms]

theorem valid_job (hne : dataset ≠ "") : (tables format [] [job dataset p]).Valid :=
  valid_tables p hne (Or.inl rfl) rfl (estimates p _ rfl rfl) rfl (Or.inl ⟨rfl, rfl, rfl⟩)
    (Or.inl (by simp [job, JobRow.fresh])) (Or.inl (by simp [job, JobRow.fresh]))

theorem valid_claimed (hne : dataset ≠ "") : (tables format [] [claimed dataset p]).Valid :=
  valid_tables p hne (Or.inl rfl) rfl (estimates p _ rfl rfl) rfl (Or.inr ⟨rfl, rfl, rfl⟩)
    (Or.inl (by simp [claimed, JobRow.claim])) (Or.inl (by simp [claimed, JobRow.claim]))

theorem valid_analysis (hne : dataset ≠ "") :
    (tables format [analysis dataset p] [claimed dataset p]).Valid :=
  valid_tables p hne (Or.inr rfl) rfl (estimates p _ rfl rfl) rfl (Or.inr ⟨rfl, rfl, rfl⟩)
    (Or.inl (by simp [claimed, JobRow.claim])) (Or.inl (by simp [claimed, JobRow.claim]))

theorem valid_completed (hne : dataset ≠ "") :
    (tables format [analysis dataset p] [completed dataset p]).Valid :=
  valid_tables p hne (Or.inr rfl) rfl (estimates p _ rfl rfl) rfl (Or.inl ⟨rfl, rfl, rfl⟩)
    (Or.inr rfl) (Or.inl (by simp [completed, JobRow.complete]))

theorem lookup_eq (hd : nulFree dataset = true) :
    analysisByIdentity Db.empty (identity dataset p) = .ok none := by
  have hb := bound p hd
  unfold AnalysisIdentity.Bound at hb
  show (IdentityColumns.ofBindings (identityColumns.zip _)).bind _ = _
  rw [hb]
  rfl

theorem upsert_eq (hf : nulFree format = true) :
    upsertReplay Db.empty (payload format) = .ok (tables format [] []) := by
  have hv : (tables format [] []).Valid := by
    intro c
    cases c <;> simp [tables, row, Constraint.Holds, Table.Unique, Table.UniqueWhere]
  unfold upsertReplay
  rw [payload_row hf]
  exact Db.commit_ok.mpr ⟨hv, rfl⟩

theorem enqueue_eq (hd : nulFree dataset = true) (hne : dataset ≠ "") :
    enqueue (tables format [] []) (identity dataset p) p 1 (estimateDuration 1 p) 7 Sample.noon =
      .ok (tables format [] [job dataset p], job dataset p, true) := by
  have hb := bound p hd
  unfold AnalysisIdentity.Bound at hb
  have hms : int4 (estimateDuration 1 p) = .ok (estimateDuration 1 p) := by cases p <;> rfl
  have hcheck : (job dataset p).check = .ok () := by
    have hc : (job dataset p).columns.Checks := checks p hne
    unfold JobRow.check
    rw [if_neg (not_not_intro hc), if_neg (not_not_intro (estimates p _ rfl rfl))]
  have hcommit : (tables format [] [job dataset p]).commit = _ :=
    Db.commit_ok.mpr ⟨valid_job p hne, rfl⟩
  unfold enqueue proposedJob
  rw [hb, hms]
  show ((job dataset p).check).bind _ = _
  rw [hcheck]
  show ((tables format [] [job dataset p]).commit).map _ = _
  rw [hcommit]
  rfl

theorem claim_eq (hne : dataset ≠ "") :
    claimJob (tables format [] [job dataset p]) "host/1" 900 (build dataset) [] Sample.noon =
      .ok (tables format [] [claimed dataset p], some (claimed dataset p).claimed) := by
  have hnext : nextClaimable (tables format [] [job dataset p]) (build dataset) [] =
      some (job dataset p) := by
    have hc : (job dataset p).claimable (build dataset) [] = true :=
      JobRow.claimable_iff.mpr ⟨rfl, rfl, rfl, List.not_mem_nil⟩
    simp [nextClaimable, tables, hc, firstBefore]
  unfold claimJob
  rw [hnext]
  show ((JobUpdate.claim 7 "host/1" 900 Sample.noon).run _).map _ = _
  have hv : ((JobUpdate.claim 7 "host/1" 900 Sample.noon).apply
      (tables format [] [job dataset p])).Valid := valid_claimed p hne
  rw [JobUpdate.run_eq hv]
  rfl

theorem load_eq (analyses : List AnalysisRow) (jobs : List JobRow) :
    loadReplay (tables format analyses jobs) "gen9ou-2672927429" = some (row format).payload := by
  simp [loadReplay, tables, row]

theorem proposed_eq (hd : nulFree dataset = true) :
    proposedAnalysis (claimed dataset p).claimed run 9 Sample.later = .ok (analysis dataset p) := by
  have hb : IdentityColumns.ofBindings (insertBindings (claimed dataset p).claimed) = _ :=
    ofBindings_of_bound (bound p hd)
  have hdocument : pgJsonb run.document = .ok run.document := if_pos (by decide)
  have htotal : integerOf (run.document.getOrZero "totalTurns") = .ok 1 := by decide
  have hgradable : integerOf (run.document.getOrZero "gradableTurns") = .ok 1 := by decide
  have hwall : int4 run.wallMs = .ok 600 := by decide
  unfold proposedAnalysis
  rw [hb, hdocument, htotal, hgradable, hwall]
  rfl

theorem insert_eq (hd : nulFree dataset = true) (hne : dataset ≠ "") :
    insertAnalysis (tables format [] [claimed dataset p]) (claimed dataset p).claimed run 9
      Sample.later =
      .ok (tables format [analysis dataset p] [claimed dataset p], analysis dataset p) := by
  have hcheck : (analysis dataset p).check = .ok () := by
    have hc : (analysis dataset p).columns.Checks := checks p hne
    unfold AnalysisRow.check
    rw [if_neg (not_not_intro hc)]
    rfl
  have hcommit : (tables format [analysis dataset p] [claimed dataset p]).commit = _ :=
    Db.commit_ok.mpr ⟨valid_analysis p hne, rfl⟩
  unfold insertAnalysis
  rw [proposed_eq p hd]
  show ((analysis dataset p).check).bind _ = _
  rw [hcheck]
  show ((tables format [analysis dataset p] [claimed dataset p]).commit).map _ = _
  rw [hcommit]
  rfl

theorem report_eq (hd : nulFree dataset = true) (hne : dataset ≠ "") :
    reportSuccess (tables format [] [claimed dataset p]) "host/1" (claimed dataset p).claimed run 9
      Sample.later =
      .ok (some (tables format [analysis dataset p] [completed dataset p],
        analysis dataset p)) := by
  unfold reportSuccess
  rw [insert_eq p hd hne]
  have hv : ((JobUpdate.complete 7 "host/1" 9 Sample.later).apply
      (tables format [analysis dataset p] [claimed dataset p])).Valid := valid_completed p hne
  show ((JobUpdate.complete 7 "host/1" 9 Sample.later).run _).map _ = _
  rw [JobUpdate.run_eq hv]
  rfl

/-- A replay of the format has been submitted for analysis. -/
theorem exists_submitted (hd : nulFree dataset = true) (hne : dataset ≠ "")
    (hf : nulFree format = true) :
    ∃ s : Fleet, s.Reachable ∧ s.db = tables format [] [job dataset p] ∧ s.workers = [] ∧
      s.heartbeats = [] := by
  have hturns : estimateTurns (payload format).log = 1 := by
    show estimateTurns "|turn|1" = 1
    decide
  have hlookup : analysisByIdentity Db.empty (deriveIdentity (request p) (build dataset)) =
      .ok none := lookup_eq p hd
  have hupsert : upsertReplay Db.empty ⟨(request p).replayId, (payload format).log,
      (payload format).raw⟩ = .ok (tables format [] []) := upsert_eq hf
  have henqueue : enqueue (tables format [] []) (deriveIdentity (request p) (build dataset))
      (request p).profile ((1 : Nat) : Int) (estimateDuration 1 (request p).profile) 7 Sample.noon =
      .ok (tables format [] [job dataset p], job dataset p, true) := enqueue_eq p hd hne
  obtain ⟨s₀, hst₀, hdb₀, hsub₀, hw₀, hh₀⟩ : ∃ s : Fleet,
      Fleet.init.step (.submit (request p) (build dataset)) = some s ∧ s.db = Db.empty ∧
      s.submissions[0]? = some ⟨request p, build dataset, .received⟩ ∧ s.workers = [] ∧
      s.heartbeats = [] :=
    ⟨_, rfl, rfl, rfl, rfl, rfl⟩
  obtain ⟨s₁, hst₁, hdb₁, hsub₁, hw₁, hh₁⟩ := Fleet.step_submission hsub₀ .lookup
    (by simp only [submissionStep, hdb₀, Submission.identity, hlookup]; rfl)
  obtain ⟨s₂, hst₂, hdb₂, hsub₂, hw₂, hh₂⟩ := Fleet.step_submission hsub₁ (.tryConsume true) rfl
  obtain ⟨s₃, hst₃, hdb₃, hsub₃, hw₃, hh₃⟩ := Fleet.step_submission hsub₂ .replayLog
    (by simp only [submissionStep, hdb₂, hdb₁]; rfl)
  obtain ⟨s₄, hst₄, hdb₄, hsub₄, hw₄, hh₄⟩ := Fleet.step_submission hsub₃
    (.fetch (.ok ((payload format).log, (payload format).raw))) rfl
  obtain ⟨s₅, hst₅, hdb₅, hsub₅, hw₅, hh₅⟩ := Fleet.step_submission hsub₄ .upsertReplay
    (by simp only [submissionStep, hdb₄, hdb₃, hupsert]; rfl)
  obtain ⟨s₆, hst₆, hdb₆, -, hw₆, hh₆⟩ := Fleet.step_submission hsub₅ (.enqueue 7 Sample.noon)
    (by simp only [submissionStep, hdb₅, hturns, Submission.identity, henqueue]; rfl)
  have hr₃ : s₃.Reachable :=
    .next (.next (.next (.next .init trivial hst₀) trivial hst₁) trivial hst₂) trivial hst₃
  refine ⟨s₆, .next (.next (.next hr₃ trivial hst₄) trivial hst₅) trivial hst₆, hdb₆, ?_, ?_⟩
  · rw [hw₆, hw₅, hw₄, hw₃, hw₂, hw₁, hw₀]
  · rw [hh₆, hh₅, hh₄, hh₃, hh₂, hh₁, hh₀]

/-- A worker of the dataset is at the replay. -/
theorem exists_analyzing (hd : nulFree dataset = true) (hne : dataset ≠ "")
    (hf : nulFree format = true) :
    ∃ s : Fleet, s.Reachable ∧ s.db = tables format [] [claimed dataset p] ∧
      s.workers[0]? = some ⟨"host/1", worker dataset,
        .analyzing (claimed dataset p).claimed (row format).payload 0⟩ ∧
      s.heartbeats = [⟨0, 7, .beating⟩] := by
  have hclaim : claimJob (tables format [] [job dataset p]) "host/1" (worker dataset).leaseSeconds
      (Worker.build ⟨"host/1", worker dataset, .claiming⟩) [] Sample.noon =
      .ok (tables format [] [claimed dataset p], some (claimed dataset p).claimed) :=
    claim_eq p hne
  have hload : loadReplay (tables format [] [claimed dataset p])
      (claimed dataset p).claimed.replayId = some (row format).payload := load_eq _ _
  obtain ⟨s₀, hr₀, hdb₀, hw₀, hh₀⟩ := exists_submitted p hd hne hf
  obtain ⟨s₁, hst₁, hdb₁, hw₁, hh₁⟩ : ∃ s, s₀.step (.spawn "host/1" (worker dataset)) = some s ∧
      s.db = s₀.db ∧ s.workers[0]? = some ⟨"host/1", worker dataset, .claiming⟩ ∧
      s.heartbeats = [] :=
    ⟨{ s₀ with workers := [⟨"host/1", worker dataset, .claiming⟩], log := .quiet :: s₀.log },
      by simp only [Fleet.step, hw₀]; rfl, rfl, rfl, hh₀⟩
  obtain ⟨s₂, hst₂, hdb₂, hw₂, hh₂⟩ := Fleet.step_worker hw₁ (.claim [] Sample.noon)
    (by simp only [workerStep, hdb₁, hdb₀, hclaim]; rfl)
  obtain ⟨s₃, hst₃, hdb₃, hw₃, hh₃⟩ := Fleet.step_worker hw₂ .load
    (by simp only [workerStep, hdb₂, hload, hh₂, hh₁]; rfl)
  refine ⟨s₃, .next (.next (.next hr₀ trivial hst₁) trivial hst₂) trivial hst₃, hdb₃, hw₃, ?_⟩
  rw [hh₃, hh₂, hh₁]
  rfl

/-- Its analysis is stored. -/
theorem exists_stored (hd : nulFree dataset = true) (hne : dataset ≠ "")
    (hf : nulFree format = true) :
    ∃ s : Fleet, s.Reachable ∧ analysis dataset p ∈ s.db.analyses ∧ row format ∈ s.db.replays := by
  obtain ⟨s₀, hr₀, hdb₀, hw₀, hh₀⟩ := exists_analyzing p hd hne hf
  obtain ⟨s₁, hst₁, hdb₁, hw₁, -⟩ := Fleet.step_worker hw₀ (.analyze (.ok run))
    (by simp only [workerStep, hdb₀, hh₀]; rfl)
  have hreporting : s₁.workers[0]? = some ⟨"host/1", worker dataset,
      .reporting (claimed dataset p).claimed run⟩ := hw₁
  obtain ⟨s₂, hst₂, hdb₂, hw₂, -⟩ := Fleet.step_worker hreporting (.insert 9 Sample.later)
    (by simp only [workerStep, hdb₁, insert_eq p hd hne]; rfl)
  obtain ⟨s₃, hst₃, hdb₃, -, -⟩ := Fleet.step_worker hw₂ .complete
    (by simp only [workerStep, hdb₂, report_eq p hd hne]; rfl)
  refine ⟨s₃, .next (.next (.next hr₀ trivial hst₁) trivial hst₂) trivial hst₃, ?_, ?_⟩
  · rw [hdb₃]
    exact List.mem_cons_self
  · rw [hdb₃]
    exact List.mem_cons_self

end Asked

/-! ## When the check is sufficient -/

variable {files : List StatsFile} {dataset : String}

theorem requested_of_claimsNamed (hd : nulFree dataset = true) (hne : dataset ≠ "")
    (h : ClaimsNamed files dataset) : ∀ f ∈ files, f.Requested → f.month = dataset := by
  rintro f hf ⟨p, hp⟩
  obtain ⟨s, hr, -, hw, -⟩ := Asked.exists_analyzing p hd hne f.format_nulFree
  exact h s hr 0 _ _ _ 0 hw rfl rfl f hf ⟨rfl, hp⟩

theorem requested_of_rowsNamed (hd : nulFree dataset = true) (hne : dataset ≠ "")
    (h : RowsNamed files dataset) : ∀ f ∈ files, f.Requested → f.month = dataset := by
  rintro f hf ⟨p, hp⟩
  obtain ⟨s, hr, ha, hreplay⟩ := Asked.exists_stored p hd hne f.format_nulFree
  exact h s hr _ ha rfl _ hreplay rfl f hf ⟨rfl, hp⟩

/-- **When the check at startup is sufficient.** Of a worker that starts, whatever its directory
holds: everything the engine could load, for a job it claims or an analysis it stores, is of its
dataset exactly if every file of a cutoff that jobs ask for is. -/
theorem dataset_check_iff (h : main py path env cores listing = .ok config)
    (hdir : listing config.engineDataDir = files.map StatsFile.name) :
    (ClaimsNamed files config.queue.usageStatsDataset ↔
      ∀ f ∈ files, f.Requested → f.month = config.queue.usageStatsDataset) ∧
    (RowsNamed files config.queue.usageStatsDataset ↔
      ∀ f ∈ files, f.Requested → f.month = config.queue.usageStatsDataset) := by
  obtain ⟨henv, hmem⟩ := main_ok_iff.mp h
  rw [hdir] at hmem
  obtain ⟨g, -, hg⟩ := mem_installedDatasets.mp hmem
  have hne := WorkerEnv.fromEnv_dataset henv
  have hd : nulFree config.queue.usageStatsDataset = true := hg ▸ g.month_nulFree
  exact ⟨⟨requested_of_claimsNamed hd hne, claimsNamed_of_requested⟩,
    ⟨requested_of_rowsNamed hd hne, rowsNamed_of_requested⟩⟩

namespace Sample

def july : StatsFile := ⟨"2026-07", "gen9ou", 1500, by decide, by decide, by decide⟩

def june : StatsFile := ⟨"2026-06", "gen9ou", 1500, by decide, by decide, by decide⟩

/-- An older file that no job asks for. -/
def juneRated : StatsFile := ⟨"2026-06", "gen9ou", 1825, by decide, by decide, by decide⟩

/-- A worker with the dataset 2026-07 over these files starts. -/
theorem main_ok {files : List StatsFile} (h : july ∈ files) :
    main Sample.py id halved 4 (fun _ => files.map StatsFile.name) =
      .ok (halvedConfig 4 (by decide)) :=
  main_ok_iff.mpr ⟨rfl, mem_installedDatasets.mpr ⟨july, h, rfl⟩⟩

theorem juneRated_unrequested : ¬ juneRated.Requested := by
  rintro ⟨p, hp⟩
  cases p <;> exact absurd hp (by decide)

end Sample

theorem dataset_check_one_month :
    ClaimsNamed [Sample.july, Sample.juneRated] "2026-07" ∧
      RowsNamed [Sample.july, Sample.juneRated] "2026-07" := by
  have hstarts := @Sample.main_ok [Sample.july, Sample.juneRated] List.mem_cons_self
  have hfiles : ∀ f ∈ [Sample.july, Sample.juneRated], f.Requested → f.month = "2026-07" := by
    intro f hf hreq
    rcases List.mem_cons.mp hf with rfl | hf
    · rfl
    · rw [List.mem_singleton.mp hf] at hreq
      exact absurd hreq Sample.juneRated_unrequested
  exact ⟨(dataset_check_iff hstarts rfl).1.mpr hfiles, (dataset_check_iff hstarts rfl).2.mpr hfiles⟩

/-- The files of two months pass the check, and a job can be analyzed with the other one. -/
theorem two_months_pass :
    main Sample.py id Sample.halved 4 (fun _ => [Sample.july, Sample.june].map StatsFile.name) =
        .ok (Sample.halvedConfig 4 (by decide)) ∧
      ¬ ClaimsNamed [Sample.july, Sample.june] "2026-07" ∧
      ¬ RowsNamed [Sample.july, Sample.june] "2026-07" := by
  have hjune : ¬ ∀ f ∈ [Sample.july, Sample.june], f.Requested → f.month = "2026-07" := by
    intro h
    have heq := h Sample.june (List.mem_cons_of_mem _ List.mem_cons_self) ⟨.quick, rfl⟩
    exact absurd heq (by decide)
  refine ⟨Sample.main_ok List.mem_cons_self, fun h => hjune ?_, fun h => hjune ?_⟩
  · exact requested_of_claimsNamed (by decide) (by decide) h
  · exact requested_of_rowsNamed (by decide) (by decide) h

end BattleCloud
