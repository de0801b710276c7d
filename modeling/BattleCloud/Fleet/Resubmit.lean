import BattleCloud.Fleet.Provenance

/-!
# When a resubmission repeats an analysis

The cache lookup and the enqueue of a submission are separate statements, and the partial index
only knows live jobs. `no_repeated_analysis`: a run in which no report of an identity commits
between the lookup and the creating enqueue of one submission (`NoRace`) never creates a job for
an identity that is already analyzed, and never runs the engine for one but by a job created
before. `raced` is the shortest run that breaks both.
-/

namespace BattleCloud

/-- The submission's own cache miss. -/
def Event.isMiss (i : Nat) : Event → Bool
  | .missed k _ => k = i
  | _ => false

/-- What happened since the submission's cache lookup missed. -/
def sinceMissed (i : Nat) (log : List Event) : List Event := log.takeWhile fun e => !e.isMiss i

/-- The step is no enqueue, or the enqueue joins a live job, or nothing was stored for the
identity since the submission looked it up. -/
def NoRace (s : Fleet) : Action → Prop
  | .submission i (.enqueue _ _) =>
    ∀ sub ∈ s.submissions[i]?, NoLiveJob s.db sub.columns →
      ∀ e ∈ sinceMissed i s.log, e.stores sub.columns = false
  | _ => True

instance (s : Fleet) (a : Action) : Decidable (NoRace s a) :=
  match a with
  | .submission i (.enqueue _ _) =>
    inferInstanceAs (Decidable (∀ sub ∈ s.submissions[i]?, NoLiveJob s.db sub.columns →
      ∀ e ∈ sinceMissed i s.log, e.stores sub.columns = false))
  | .submission _ .lookup | .submission _ (.tryConsume _) | .submission _ .replayLog
  | .submission _ (.fetch _) | .submission _ .upsertReplay | .submission _ .respond
  | .submission _ .abort | .submit .. | .spawn .. | .worker .. | .heartbeat .. =>
    inferInstanceAs (Decidable True)

/-- Between a missed lookup and the enqueue. -/
def SubmissionPhase.missed : SubmissionPhase → Bool
  | .limiting | .acquiring | .fetching | .storing _ | .enqueueing _ => true
  | _ => false

variable {s s' : Fleet}

/-! ## Jobs and their creation -/

/-- A job that was not there is the fresh row of an enqueue that found no live job. -/
theorem Effect.new_job {e : Event} {db : Db} (h : Effect s e db) {j' : JobRow}
    (hj' : j' ∈ db.jobs) (hn : ∀ j ∈ s.db.jobs, j.id ≠ j'.id) :
    ∃ i sub turns, e = .created i j'.id j'.columns ∧ s.submissions[i]? = some sub ∧
      sub.phase = .enqueueing turns ∧ NoLiveJob s.db sub.columns ∧ j'.columns = sub.columns := by
  have hold : ∀ {u : JobUpdate} {d : Db}, d.jobs = s.db.jobs → j' ∈ (u.apply d).jobs → False := by
    intro u d hdb hmem
    obtain ⟨j, hj, ⟨-, rfl⟩ | ⟨-, rfl⟩⟩ := Table.mem_updateWhere.mp hmem
    · exact hn j (hdb ▸ hj) (u.set_id j).symm
    · exact hn j (hdb ▸ hj) rfl
  cases h with
  | readOnly _ => exact absurd rfl (hn j' hj')
  | present i => exact absurd rfl (hn j' hj')
  | upserted i _ => exact absurd rfl (hn j' hj')
  | created newId now hsub hph hl =>
    rcases List.mem_append.mp hj' with hj | hj
    · exact absurd rfl (hn j' hj)
    · rw [List.mem_singleton.mp hj]
      exact ⟨_, _, _, rfl, hsub, hph, hl, rfl⟩
  | claimed now _ _ _ _ => exact (hold rfl hj').elim
  | renewed now _ _ => exact (hold rfl hj').elim
  | failed now _ _ _ => exact (hold rfl hj').elim
  | reclaimed now _ => exact (hold rfl hj').elim
  | completed _ _ _ _ => exact (hold (d := s.db.putAnalysis _) rfl hj').elim

/-- Every job was created by some submission. -/
def JobsCreated (s : Fleet) : Prop :=
  ∀ j ∈ s.db.jobs, ∃ i, .created i j.id j.columns ∈ s.log

/-- Every engine call is for a job created before it. -/
def InvocationsCreated (log : List Event) : Prop :=
  ∀ l₁ w job c l₂, log = l₁ ++ .invoked w job c :: l₂ → ∃ i, .created i job c ∈ l₂

theorem JobsCreated.step (hv : s.db.Valid) (hc : JobsCreated s) {a : Action}
    (h : s.step a = some s') : JobsCreated s' := by
  obtain ⟨e, hlog, hs⟩ := step_spec hv h
  intro j' hj'
  rw [hlog]
  by_cases hn : ∀ j ∈ s.db.jobs, j.id ≠ j'.id
  · obtain ⟨i, -, -, rfl, -⟩ := hs.effect.new_job hj' hn
    exact ⟨i, List.mem_cons_self⟩
  · obtain ⟨j, hj, hid⟩ : ∃ j ∈ s.db.jobs, j.id = j'.id := by simpa using hn
    obtain ⟨k, hk, hkid, hkc⟩ := hs.effect.jobs j hj
    rw [← (hs.valid hv).job_eq hk hj' (hkid.trans hid), hkid, hkc]
    obtain ⟨i, hi⟩ := hc j hj
    exact ⟨i, List.mem_cons_of_mem _ hi⟩

theorem InvocationsCreated.step (hv : s.db.Valid) (hp : ProcessesOk s) (hj : JobsCreated s)
    (hc : InvocationsCreated s.log) {a : Action} (h : s.step a = some s') :
    InvocationsCreated s'.log := by
  obtain ⟨e, hlog, hs⟩ := step_spec hv h
  intro l₁ w job c l₂ hsplit
  rw [hlog] at hsplit
  rcases List.cons_eq_append_iff.mp hsplit with ⟨rfl, hinv⟩ | ⟨l, rfl, hrest⟩
  · cases hinv
    obtain ⟨v, cj, hw, hph, rfl, rfl⟩ := hs.recorded
    have hok := hp.workers w v hw
    simp only [WorkerOk, hph] at hok
    obtain ⟨j, hjm, hid, hcol⟩ := hok.row
    rw [← hid, ← hcol]
    exact hj j hjm
  · exact hc l w job c l₂ hrest

/-! ## The history of `analyses` -/

/-- A stored identity has a row from then on. -/
theorem Effect.keeps_columns (hv : s.db.Valid) {e : Event} {db : Db} (h : Effect s e db)
    {a : AnalysisRow} (ha : a ∈ s.db.analyses) : ∃ a' ∈ db.analyses, a'.columns = a.columns := by
  cases h with
  | completed hw hph hpr ho =>
    obtain ⟨a', ha', -, hc⟩ := putAnalysis_keeps hv _ ha
    exact ⟨a', ha', hc⟩
  | _ => exact ⟨a, ha, rfl⟩

/-- What the history says is stored has a row. -/
def StoredRows (s : Fleet) : Prop :=
  ∀ e ∈ s.log, ∀ c, e.stores c = true → ∃ a ∈ s.db.analyses, a.columns = c

theorem StoredRows.step (hv : s.db.Valid) (hst : StoredRows s) {a : Action}
    (h : s.step a = some s') : StoredRows s' := by
  obtain ⟨e, hlog, hs⟩ := step_spec hv h
  intro e' he' c hc
  rw [hlog] at he'
  rcases List.mem_cons.mp he' with rfl | he'
  · rcases hs.effect.analyses with ⟨-, hno⟩ | ⟨i, job, row, rfl, hrow, -⟩
    · rw [hno c] at hc
      cases hc
    · exact ⟨row, hrow, by simpa [Event.stores] using hc⟩
  · obtain ⟨a', ha', rfl⟩ := hst e' he' c hc
    exact hs.effect.keeps_columns hv ha'

/-- A row of the identity of a submission past its lookup was stored since. -/
def MissedOk (s : Fleet) : Prop :=
  ∀ (i : Nat) (sub : Submission), s.submissions[i]? = some sub → sub.phase.missed = true →
    ∀ a ∈ s.db.analyses, a.columns = sub.columns →
      ∃ e ∈ sinceMissed i s.log, e.stores sub.columns = true

/-- A submission gets past its lookup by missing. -/
theorem SubmissionStep.missed {db db' : Db} {i : Nat} {sub : Submission} {a : SubmissionAction}
    {ph : SubmissionPhase} {e : Event} (h : SubmissionStep db i sub a db' ph e)
    (hph : ph.missed = true) : sub.phase.missed = true ∨ e = .missed i sub.columns := by
  have hpast : ∀ {p : SubmissionPhase}, sub.phase = p → p.missed = true →
      sub.phase.missed = true ∨ e = .missed i sub.columns := by
    rintro p hp hm
    rw [hp]
    exact Or.inl hm
  cases h with
  | miss hp hok => exact Or.inr rfl
  | allowed hp => exact hpast hp rfl
  | stored hp hok => exact hpast hp rfl
  | absent hp hok => exact hpast hp rfl
  | fetched log raw hp => exact hpast hp rfl
  | upserted hp hok => exact hpast hp rfl
  | _ => cases hph

theorem MissedOk.step (hv : s.db.Valid) (hm : MissedOk s) {a : Action} (h : s.step a = some s') :
    MissedOk s' := by
  obtain ⟨e, hlog, hs⟩ := step_spec hv h
  intro i sub' hsub' hph row hrow hc
  rw [hlog]
  -- the submission before the step, unless it is new
  have hback : ∃ sub, s.submissions[i]? = some sub ∧ sub.columns = sub'.columns ∧
      (sub.phase.missed = true ∨ e = .missed i sub.columns) := by
    rcases step_submissions h hsub' with
      hsub | ⟨_, _, -, -, rfl⟩ | ⟨sub, act, ph, e', -, hsub, hst, rfl, hlog'⟩
    · exact ⟨sub', hsub, rfl, Or.inl hph⟩
    · cases hph
    · obtain rfl : e' = e := by
        rw [hlog] at hlog'
        exact (List.cons.inj hlog').1.symm
      exact ⟨sub, hsub, rfl, hst.missed hph⟩
  obtain ⟨sub, hsub, hcols, hor⟩ := hback
  by_cases hmiss : e.isMiss i = true
  · -- the step is the lookup itself: there is no row of the identity
    cases e with
    | missed k c =>
      obtain rfl : k = i := by simpa [Event.isMiss] using hmiss
      obtain ⟨⟨sub₀, hsub₀, rfl⟩, hno⟩ := hs.recorded
      obtain rfl : sub₀ = sub := Option.some.inj (hsub₀.symm.trans hsub)
      rcases hs.effect.analyses with ⟨hsame, -⟩ | ⟨_, _, _, hcase, -⟩
      · rw [hsame] at hrow
        exact absurd (hc.trans hcols.symm) (hno row hrow)
      · cases hcase
    | _ => cases hmiss
  · have hcons : sinceMissed i (e :: s.log) = e :: sinceMissed i s.log := by
      unfold sinceMissed
      rw [List.takeWhile_cons, if_pos (by simpa using hmiss)]
    rw [hcons]
    by_cases hst : e.stores sub'.columns = true
    · exact ⟨e, List.mem_cons_self, hst⟩
    · have hold : row ∈ s.db.analyses := by
        rcases hs.effect.analyses with ⟨hsame, -⟩ | ⟨_, _, row', rfl, -, hall⟩
        · exact hsame ▸ hrow
        · rcases hall row hrow with rfl | ⟨hold, -⟩
          · exact absurd (by simpa [Event.stores] using hc) hst
          · exact hold
      have hphase : sub.phase.missed = true := by
        rcases hor with hp | rfl
        · exact hp
        · exact absurd (by simp [Event.isMiss]) hmiss
      obtain ⟨e', he', hst'⟩ := hm i sub hsub hphase row hold (hc.trans hcols.symm)
      exact ⟨e', List.mem_cons_of_mem _ he', by rw [← hcols]; exact hst'⟩

/-! ## Runs -/

/-- What the history keeps in every run. -/
structure CacheHistory (s : Fleet) : Prop where
  created : JobsCreated s
  invoked : InvocationsCreated s.log
  stored : StoredRows s
  missed : MissedOk s

theorem cacheHistory_of_reachable (h : s.Reachable) : CacheHistory s := by
  have hinit : CacheHistory Fleet.init :=
    ⟨fun j h => (List.not_mem_nil h).elim,
      fun l₁ w job c l₂ h => by simp [Fleet.init] at h,
      fun e h => (List.not_mem_nil h).elim, fun i sub h => by simp [Fleet.init] at h⟩
  refine StepSystem.Reach.invariant_of hinit ?_ h
  intro s a s' hr hc _ hst
  have hv := valid_of_reachable hr
  exact ⟨hc.created.step hv hst,
    hc.invoked.step hv (processesOk_of_reachable hr) hc.created hst, hc.stored.step hv hst,
    hc.missed.step hv hst⟩

/-- A job is created by the enqueue of the submission that is credited with it. -/
theorem SubmissionStep.of_created {db db' : Db} {k i : Nat} {sub : Submission}
    {act : SubmissionAction} {ph : SubmissionPhase} {job : Uuid} {c : IdentityColumns}
    (h : SubmissionStep db k sub act db' ph (.created i job c)) :
    k = i ∧ ∃ newId now, act = .enqueue newId now := by
  cases h with
  | created hph hok => exact ⟨rfl, _, _, rfl⟩

theorem Effect.of_created {i : Nat} {job : Uuid} {c : IdentityColumns} {db : Db}
    (h : Effect s (.created i job c) db) :
    ∃ sub turns, s.submissions[i]? = some sub ∧ sub.phase = .enqueueing turns ∧
      NoLiveJob s.db sub.columns ∧ c = sub.columns := by
  cases h with
  | readOnly hr => cases hr
  | created newId now hsub hph hl => exact ⟨_, _, hsub, hph, hl, rfl⟩

/-- **Without a race, a job is created for an identity without a row.** -/
theorem created_not_stored (hr : s.Reachable) {a : Action} (hnr : NoRace s a)
    (h : s.step a = some s') {i : Nat} {job : Uuid} {c : IdentityColumns}
    (hlog : s'.log = .created i job c :: s.log) : ∀ row ∈ s.db.analyses, row.columns ≠ c := by
  have hv := valid_of_reachable hr
  obtain ⟨e, hlog', hs⟩ := step_spec hv h
  obtain rfl : e = .created i job c := (List.cons.inj (hlog'.symm.trans hlog)).1
  obtain ⟨sub, turns, hsub, hph, hl, rfl⟩ := hs.effect.of_created
  obtain ⟨k, act, sub₀, ph, rfl, -, hst⟩ := step_ofSubmission h hlog rfl
  obtain ⟨rfl, newId, now, rfl⟩ := hst.of_created
  intro row hrow he
  have hmissed : sub.phase.missed = true := by
    rw [hph]
    rfl
  obtain ⟨e', he', hstore⟩ := (cacheHistory_of_reachable hr).missed k sub hsub hmissed row hrow he
  rw [hnr sub hsub hl e' he'] at hstore
  cases hstore

/-- No job of the history was created for an identity already stored. -/
def CreatedFresh (log : List Event) : Prop :=
  ∀ l₁ i job c l₂, log = l₁ ++ .created i job c :: l₂ → ∀ e ∈ l₂, e.stores c = false

theorem createdFresh_of_reach (h : StepSystem.Reach Fleet.step NoRace Fleet.init s) :
    CreatedFresh s.log := by
  refine StepSystem.Reach.invariant_of (I := fun s : Fleet => CreatedFresh s.log) ?_ ?_ h
  · intro l₁ i job c l₂ h
    simp [Fleet.init] at h
  intro s a s' hreach hf hnr hst l₁ i job c l₂ hsplit
  have hr := hreach.reachable
  obtain ⟨e, hlog, -⟩ := step_spec (valid_of_reachable hr) hst
  rw [hlog] at hsplit
  rcases List.cons_eq_append_iff.mp hsplit with ⟨rfl, hcr⟩ | ⟨l, rfl, hrest⟩
  · obtain ⟨rfl, rfl⟩ := List.cons.inj hcr
    intro e he
    by_contra hne
    obtain ⟨row, hrow, hc⟩ := (cacheHistory_of_reachable hr).stored e he c
      (Bool.eq_true_of_not_eq_false hne)
    exact created_not_stored hr hnr hst hlog row hrow hc
  · exact hf l i job c l₂ hrest

/-- **No repeated core-minute, without a race.** In every run in which no report of an identity
commits between the missed lookup and the creating enqueue of one submission: no step creates a
job for an identity that has a row, and an engine call for an identity already stored is for a
job created before it was. -/
theorem no_repeated_analysis (h : StepSystem.Reach Fleet.step NoRace Fleet.init s) :
    (∀ a s', NoRace s a → s.step a = some s' → ∀ j' ∈ s'.db.jobs,
      (∀ j ∈ s.db.jobs, j.id ≠ j'.id) → ∀ row ∈ s.db.analyses, row.columns ≠ j'.columns) ∧
    (∀ l₁ w job c l₂ e l₃, s.log = l₁ ++ .invoked w job c :: (l₂ ++ e :: l₃) →
      e.stores c = true → ∃ i, .created i job c ∈ l₃) := by
  have hr := h.reachable
  constructor
  · intro a s' hnr hst j' hj' hn
    obtain ⟨e, hlog, hs⟩ := step_spec (valid_of_reachable hr) hst
    obtain ⟨i, sub, turns, rfl, -⟩ := hs.effect.new_job hj' hn
    exact created_not_stored hr hnr hst hlog
  · intro l₁ w job c l₂ e l₃ hlog hstore
    obtain ⟨i, hi⟩ := (cacheHistory_of_reachable hr).invoked l₁ w job c _ hlog
    refine ⟨i, ?_⟩
    rcases List.mem_append.mp hi with hi | hi
    · -- created after the write, against `CreatedFresh`
      obtain ⟨m₁, m₂, rfl⟩ := List.append_of_mem hi
      have hsplit : s.log = (l₁ ++ .invoked w job c :: m₁) ++
          .created i job c :: (m₂ ++ e :: l₃) := by
        rw [hlog]
        simp only [List.append_assoc, List.cons_append]
      have hno := createdFresh_of_reach h _ i job c _ hsplit e
        (List.mem_append_right _ List.mem_cons_self)
      rw [hno] at hstore
      cases hstore
    · rcases List.mem_cons.mp hi with rfl | hi
      · cases hstore
      · exact hi

theorem no_repeated_analysis_reported :
    (Fleet.afterIf NoRace Sample.reported).db.analyses.map AnalysisRow.id = [9] ∧
    ∀ l₁ w job c l₂ e l₃,
      (Fleet.afterIf NoRace Sample.reported).log = l₁ ++ .invoked w job c :: (l₂ ++ e :: l₃) →
      e.stores c = true → ∃ i, .created i job c ∈ l₃ :=
  ⟨by decide, (no_repeated_analysis (Fleet.reach_afterIf NoRace Sample.reported)).2⟩

/-! ## The race -/

namespace Sample

/-- A second submission of the same identity has missed the cache and got its rate allowance,
when the first one's job is claimed, analyzed and reported. -/
def raced : List Action :=
  submitFirst 7 ++
    [.submit request build, .submission 1 .lookup, .submission 1 (.tryConsume true),
      .submission 1 .replayLog] ++
    analyze 0 "host/1" ⟨document 2 2, 1200, false⟩ ++ report 0 9

end Sample

/-- The second submission creates a job for the identity that was stored under its eyes. -/
theorem enqueue_repeats_analysis :
    ¬ ∀ s : Fleet, s.Reachable → ∀ a s', s.step a = some s' → ∀ j' ∈ s'.db.jobs,
      (∀ j ∈ s.db.jobs, j.id ≠ j'.id) → ∀ row ∈ s.db.analyses, row.columns ≠ j'.columns := by
  intro h
  have hraced := h (Fleet.after Sample.raced) (Fleet.reachable_after _)
    (.submission 1 (.enqueue 8 Sample.later))
  have hbad : ((Fleet.after Sample.raced).step (.submission 1 (.enqueue 8 Sample.later))).any
      (fun s' => s'.db.jobs.any fun j' =>
        decide (∀ j ∈ (Fleet.after Sample.raced).db.jobs, j.id ≠ j'.id) &&
        (Fleet.after Sample.raced).db.analyses.any fun row => row.columns = j'.columns) = true := by
    decide
  obtain ⟨s', hst, hs'⟩ := (Option.any_eq_true _ _).mp hbad
  obtain ⟨j', hj', hb⟩ := List.any_eq_true.mp hs'
  rw [Bool.and_eq_true] at hb
  obtain ⟨row, hrow, hc⟩ := List.any_eq_true.mp hb.2
  exact hraced s' hst j' hj' (of_decide_eq_true hb.1) row hrow (of_decide_eq_true hc)

end BattleCloud
