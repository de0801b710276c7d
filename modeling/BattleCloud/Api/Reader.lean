import BattleCloud.Api.Fetch
import BattleCloud.Lib.System

/-!
# The capped reader, read by read

`readCapped` of `api/src/replay/fetch.ts` on a stream that need not end: a step of `Reader` is one
pass of the loop, or the `finally`. `readCapped` of `Api.Fetch` is what it comes to on a body of
finitely many chunks (`readCapped_eq`).

`reader_exact`: on a finite body the result depends on the bytes alone, not on where they were
cut; at no time is more retained than the cap; and the read that passes the cap is the last one,
with one `cancel()` after it.
-/

namespace BattleCloud

/-- What a `read()` gives: `{ done, value }`, or a rejection. -/
inductive ReadResult where
  | done
  | value (value : Option (List UInt8))
  | fails (cause : Thrown)

def ReadResult.isValue : ReadResult → Bool
  | .value _ => true
  | _ => false

def ReadResult.bytes : ReadResult → List UInt8
  | .value (some chunk) => chunk
  | _ => []

/-- A reader's reads, in order. -/
abbrev ReadStream := Nat → ReadResult

/-- The bytes of the first reads. -/
def ReadStream.bytesBefore (stream : ReadStream) : Nat → List UInt8
  | 0 => []
  | n + 1 => stream.bytesBefore n ++ (stream n).bytes

/-- The reads of a body. -/
def Body.stream (body : Body) : ReadStream := fun n =>
  match body.reads[n]? with
  | some value => .value value
  | none =>
    match body.ends with
    | .done => .done
    | .fails cause _ => .fails cause

/-- `throw new ReplayFetchError('replay_too_large', ..)`. -/
def tooLarge (maxBytes : Nat) : Failure :=
  .replayFetchError .replayTooLarge (js s!"replay body exceeded {maxBytes} bytes")

/-! ## The loop -/

/-- Where `readCapped` stands; `leaving` is before the `finally`, with what leaves the `try`. -/
inductive ReaderPhase where
  | reading
  | leaving (outcome : Except Failure Unit)
  | returned (result : Except Failure JsString)

structure Reader where
  /-- How often `read()` was called. -/
  reads : Nat
  total : Nat
  chunks : List (List UInt8)
  /-- How often `cancel()` was called. -/
  cancels : Nat
  phase : ReaderPhase

namespace Reader

def init : Reader := ⟨0, 0, [], 0, .reading⟩

variable (deps : ReplayDeps) (stream : ReadStream)

/-- One pass of the loop. -/
def pass (s : Reader) : Reader :=
  match stream s.reads with
  | .done => { s with reads := s.reads + 1, phase := .leaving (.ok ()) }
  | .fails cause =>
    { s with reads := s.reads + 1, phase := .leaving (.error (.unclassified cause)) }
  | .value none => { s with reads := s.reads + 1 }
  | .value (some value) =>
    if deps.maxBytes < s.total + value.length then
      { s with
        reads := s.reads + 1
        total := s.total + value.length
        phase := .leaving (.error (tooLarge deps.maxBytes)) }
    else
      { s with
        reads := s.reads + 1
        total := s.total + value.length
        chunks := s.chunks ++ [value] }

def step (s : Reader) (_ : Unit) : Option Reader :=
  match s.phase with
  | .reading => some (s.pass deps stream)
  | .leaving outcome =>
    some { s with
      cancels := s.cancels + 1
      phase := .returned (outcome.map fun _ => deps.decode s.chunks.flatten) }
  | .returned _ => none

/-- The states of a `readCapped`. -/
abbrev Reachable : Reader → Prop := StepSystem.Reachable (step deps stream) init

/-- It returns, and with this. -/
def Returns (result : Except Failure JsString) : Prop :=
  (∃ s, Reachable deps stream s ∧ s.phase = .returned result) ∧
    ∀ s result', Reachable deps stream s → s.phase = .returned result' → result' = result

/-! ## What a pass leaves -/

/-- Why the loop was left at a read. -/
inductive Exits (n : Nat) : Except Failure Unit → Prop
  | done (h : stream n = .done) : Exits n (.ok ())
  | fails {cause : Thrown} (h : stream n = .fails cause) :
    Exits n (.error (.unclassified cause))
  | past (h : deps.maxBytes < (stream.bytesBefore (n + 1)).length) :
    Exits n (.error (tooLarge deps.maxBytes))

/-- The chunks are those of the first `n` reads, within the cap. -/
structure Retains (s : Reader) (n : Nat) : Prop where
  values : ∀ i < n, (stream i).isValue = true
  chunks : s.chunks.flatten = stream.bytesBefore n
  cap : (stream.bytesBefore n).length ≤ deps.maxBytes

/-- **The loop invariant.** -/
inductive Ok (s : Reader) : Prop
  | reading (h : s.phase = .reading) (hr : Retains deps stream s s.reads)
    (ht : s.total = (stream.bytesBefore s.reads).length) (hc : s.cancels = 0)
  | leaving {n : Nat} {outcome : Except Failure Unit} (h : s.phase = .leaving outcome)
    (hr : Retains deps stream s n) (hn : s.reads = n + 1) (hx : Exits deps stream n outcome)
    (hc : s.cancels = 0)
  | returned {n : Nat} {outcome : Except Failure Unit}
    (h : s.phase = .returned (outcome.map fun _ => deps.decode (stream.bytesBefore n)))
    (hr : Retains deps stream s n) (hn : s.reads = n + 1) (hx : Exits deps stream n outcome)
    (hc : s.cancels = 1)

variable {deps stream} {s s' : Reader}

theorem Retains.values_succ {n : Nat} (h : Retains deps stream s n)
    (hv : (stream n).isValue = true) : ∀ i < n + 1, (stream i).isValue = true := by
  intro i hi
  rcases Nat.lt_succ_iff_lt_or_eq.mp hi with hlt | rfl
  · exact h.values i hlt
  · exact hv

/-- A pass goes on with one value more, or leaves. -/
theorem Ok.pass (h : s.phase = .reading) (hr : Retains deps stream s s.reads)
    (ht : s.total = (stream.bytesBefore s.reads).length) (hc : s.cancels = 0) :
    Ok deps stream (s.pass deps stream) := by
  unfold Reader.pass
  cases hread : stream s.reads with
  | done =>
    exact .leaving (n := s.reads) rfl ⟨hr.values, hr.chunks, hr.cap⟩ rfl (.done hread) hc
  | fails cause =>
    exact .leaving (n := s.reads) rfl ⟨hr.values, hr.chunks, hr.cap⟩ rfl (.fails hread) hc
  | value value =>
    have hvalues := hr.values_succ (by rw [hread]; rfl)
    have hbytes : stream.bytesBefore (s.reads + 1) =
        stream.bytesBefore s.reads ++ (stream s.reads).bytes := rfl
    cases value with
    | none =>
      have hsame : stream.bytesBefore (s.reads + 1) = stream.bytesBefore s.reads := by
        rw [hbytes, hread]
        exact List.append_nil _
      exact .reading h ⟨hvalues, hsame ▸ hr.chunks, hsame ▸ hr.cap⟩ (hsame ▸ ht) hc
    | some value =>
      rw [hread, ReadResult.bytes] at hbytes
      have hlen : (stream.bytesBefore (s.reads + 1)).length = s.total + value.length := by
        rw [hbytes, List.length_append, ht]
      by_cases hcap : deps.maxBytes < s.total + value.length
      · simp only [if_pos hcap]
        exact .leaving (n := s.reads) rfl ⟨hr.values, hr.chunks, hr.cap⟩ rfl
          (.past (hlen ▸ hcap)) hc
      · simp only [if_neg hcap]
        have hle : (stream.bytesBefore (s.reads + 1)).length ≤ deps.maxBytes :=
          hlen ▸ Nat.le_of_not_lt hcap
        refine .reading h ⟨hvalues, ?_, hle⟩ hlen.symm hc
        show (s.chunks ++ [value]).flatten = _
        rw [List.flatten_append, hr.chunks, hbytes, List.flatten_singleton]

theorem Ok.step (h : Ok deps stream s) (hst : s.step deps stream () = some s') :
    Ok deps stream s' := by
  unfold Reader.step at hst
  cases h with
  | reading h hr ht hc =>
    rw [h] at hst
    obtain rfl := Option.some.inj hst
    exact Ok.pass h hr ht hc
  | leaving h hr hn hx hc =>
    rw [h] at hst
    obtain rfl := Option.some.inj hst
    exact .returned (by rw [hr.chunks]) ⟨hr.values, hr.chunks, hr.cap⟩ hn hx (by simp [hc])
  | returned h =>
    rw [h] at hst
    cases hst

theorem ok_of_reachable (h : Reachable deps stream s) : Ok deps stream s := by
  refine StepSystem.Reach.invariant (I := Ok deps stream) ?_ ?_ h
  · refine .reading rfl ⟨?_, rfl, Nat.zero_le _⟩ rfl rfl
    intro i hi
    exact absurd hi (Nat.not_lt_zero i)
  · intro s a s' hs _ hst
    exact hs.step hst

theorem Ok.retains (h : Ok deps stream s) : ∃ n, Retains deps stream s n := by
  cases h with
  | reading _ hr => exact ⟨_, hr⟩
  | leaving _ hr => exact ⟨_, hr⟩
  | returned _ hr => exact ⟨_, hr⟩

/-! ## The read that is the last -/

variable (deps stream) in
/-- The loop is left at read `n`, and not before. -/
structure FirstStop (n : Nat) (outcome : Except Failure Unit) : Prop where
  values : ∀ i < n, (stream i).isValue = true
  cap : (stream.bytesBefore n).length ≤ deps.maxBytes
  exits : Exits deps stream n outcome

theorem length_bytesBefore_mono {m n : Nat} (h : m ≤ n) :
    (stream.bytesBefore m).length ≤ (stream.bytesBefore n).length := by
  induction h with
  | refl => exact Nat.le_refl _
  | step _ ih =>
    rw [ReadStream.bytesBefore, List.length_append]
    omega

/-- Where the stream ends, or passes the cap. -/
theorem Exits.stops {n : Nat} {outcome : Except Failure Unit} (h : Exits deps stream n outcome) :
    (stream n).isValue = false ∨ deps.maxBytes < (stream.bytesBefore (n + 1)).length := by
  cases h with
  | done h => exact .inl (by rw [h]; rfl)
  | fails h => exact .inl (by rw [h]; rfl)
  | past h => exact .inr h

theorem FirstStop.le {n n' : Nat} {outcome outcome' : Except Failure Unit}
    (h : FirstStop deps stream n outcome) (h' : FirstStop deps stream n' outcome') : n' ≤ n := by
  by_contra hlt
  have hlt : n < n' := Nat.lt_of_not_le hlt
  rcases h.exits.stops with hv | hp
  · rw [h'.values n hlt] at hv
    cases hv
  · have hle := @length_bytesBefore_mono stream (n + 1) n' (by omega)
    have hcap := h'.cap
    omega

/-- At an end no bytes are read. -/
theorem FirstStop.not_past {n : Nat} {outcome : Except Failure Unit}
    (h : FirstStop deps stream n outcome) (hbytes : (stream n).bytes = []) :
    ¬ deps.maxBytes < (stream.bytesBefore (n + 1)).length := by
  rw [ReadStream.bytesBefore, hbytes, List.append_nil]
  exact Nat.not_lt.mpr h.cap

theorem FirstStop.outcome_eq {n : Nat} {outcome outcome' : Except Failure Unit}
    (h : FirstStop deps stream n outcome) (h' : FirstStop deps stream n outcome') :
    outcome' = outcome := by
  cases h.exits with
  | done hs =>
    cases h'.exits with
    | done => rfl
    | fails hs' =>
      rw [hs] at hs'
      cases hs'
    | past hp => exact absurd hp (h.not_past (by rw [hs]; rfl))
  | fails hs =>
    cases h'.exits with
    | done hs' =>
      rw [hs] at hs'
      cases hs'
    | fails hs' =>
      rw [hs] at hs'
      cases hs'
      rfl
    | past hp => exact absurd hp (h.not_past (by rw [hs]; rfl))
  | past hp =>
    cases h'.exits with
    | done hs => exact absurd hp (h.not_past (by rw [hs]; rfl))
    | fails hs => exact absurd hp (h.not_past (by rw [hs]; rfl))
    | past => rfl

theorem Ok.firstStop {result : Except Failure JsString} (h : Ok deps stream s)
    (hs : s.phase = .returned result) : ∃ n outcome, FirstStop deps stream n outcome ∧
      result = outcome.map (fun _ => deps.decode (stream.bytesBefore n)) ∧
      s.reads = n + 1 ∧ s.cancels = 1 := by
  cases h with
  | reading h =>
    rw [h] at hs
    cases hs
  | leaving h =>
    rw [h] at hs
    cases hs
  | @returned n outcome h hr hn hx hc =>
    rw [h] at hs
    exact ⟨n, outcome, ⟨hr.values, hr.cap, hx⟩, (ReaderPhase.returned.inj hs).symm, hn, hc⟩

/-- No read after it, and one `cancel()`. -/
theorem FirstStop.bound {n : Nat} {outcome : Except Failure Unit}
    (h : FirstStop deps stream n outcome) (hs : Ok deps stream s) :
    s.reads ≤ n + 1 ∧ s.cancels ≤ 1 := by
  cases hs with
  | reading _ hr ht hc =>
    refine ⟨?_, by omega⟩
    by_contra hlt
    have hlt : n + 1 < s.reads := Nat.lt_of_not_le hlt
    rcases h.exits.stops with hv | hp
    · rw [hr.values n (by omega)] at hv
      cases hv
    · have hle := @length_bytesBefore_mono stream (n + 1) s.reads (Nat.le_of_lt hlt)
      have hcap := hr.cap
      omega
  | leaving _ hr hn hx hc => exact ⟨hn ▸ Nat.succ_le_succ (h.le ⟨hr.values, hr.cap, hx⟩), by omega⟩
  | returned _ hr hn hx hc => exact ⟨hn ▸ Nat.succ_le_succ (h.le ⟨hr.values, hr.cap, hx⟩), by omega⟩

/-! ## That it returns -/

theorem pass_cases (s : Reader) : (s.pass deps stream).reads = s.reads + 1 ∧
    ((s.pass deps stream).phase = s.phase ∨
      ∃ outcome, (s.pass deps stream).phase = .leaving outcome) := by
  unfold Reader.pass
  split
  · exact ⟨rfl, .inr ⟨_, rfl⟩⟩
  · exact ⟨rfl, .inr ⟨_, rfl⟩⟩
  · exact ⟨rfl, .inl rfl⟩
  · split
    · exact ⟨rfl, .inr ⟨_, rfl⟩⟩
    · exact ⟨rfl, .inl rfl⟩

/-- The loop gets to its next read, or `readCapped` returns. -/
theorem reading_or_returned (n : Nat) :
    (∃ s, Reachable deps stream s ∧ s.phase = .reading ∧ s.reads = n) ∨
      ∃ s result, Reachable deps stream s ∧ s.phase = .returned result := by
  induction n with
  | zero => exact .inl ⟨init, .init, rfl, rfl⟩
  | succ n ih =>
    rcases ih with ⟨s, hs, hph, hn⟩ | h
    · have hstep : s.step deps stream () = some (s.pass deps stream) := by
        unfold Reader.step
        rw [hph]
      have hpass : Reachable deps stream (s.pass deps stream) := hs.next trivial hstep
      obtain ⟨hreads, hsame | ⟨outcome, hleft⟩⟩ := @pass_cases deps stream s
      · exact .inl ⟨_, hpass, hsame.trans hph, by rw [hreads, hn]⟩
      · -- the `finally`
        have hlast : (s.pass deps stream).step deps stream () = some
            { s.pass deps stream with
              cancels := (s.pass deps stream).cancels + 1
              phase := .returned
                (outcome.map fun _ => deps.decode (s.pass deps stream).chunks.flatten) } := by
          unfold Reader.step
          rw [hleft]
        exact .inr ⟨_, _, hpass.next trivial hlast, rfl⟩
    · exact .inr h

/-- **`readCapped` returns** where the stream ends or passes the cap. -/
theorem FirstStop.returns {n : Nat} {outcome : Except Failure Unit}
    (h : FirstStop deps stream n outcome) :
    Returns deps stream (outcome.map fun _ => deps.decode (stream.bytesBefore n)) := by
  have hunique : ∀ s result', Reachable deps stream s → s.phase = .returned result' →
      result' = outcome.map fun _ => deps.decode (stream.bytesBefore n) := by
    intro s result' hs hph
    obtain ⟨n', outcome', hstop, rfl, -, -⟩ := (ok_of_reachable hs).firstStop hph
    obtain rfl : n' = n := Nat.le_antisymm (h.le hstop) (hstop.le h)
    rw [h.outcome_eq hstop]
  refine ⟨?_, hunique⟩
  rcases @reading_or_returned deps stream (n + 2) with ⟨s, hs, hph, hn⟩ | ⟨s, result, hs, hph⟩
  · have hbound := (h.bound (ok_of_reachable hs)).1
    omega
  · exact ⟨s, hs, hunique s result hs hph ▸ hph⟩

theorem exists_firstStop {n : Nat} (h : (stream n).isValue = false ∨
    deps.maxBytes < (stream.bytesBefore (n + 1)).length) :
    ∃ n' outcome, FirstStop deps stream n' outcome := by
  classical
  have hex : ∃ n, (stream n).isValue = false ∨
      deps.maxBytes < (stream.bytesBefore (n + 1)).length := ⟨n, h⟩
  have hmin : ∀ i < Nat.find hex, (stream i).isValue = true ∧
      (stream.bytesBefore (i + 1)).length ≤ deps.maxBytes := by
    intro i hi
    have hno := not_or.mp (Nat.find_min hex hi)
    exact ⟨by simpa using hno.1, Nat.le_of_not_lt hno.2⟩
  have hcap : (stream.bytesBefore (Nat.find hex)).length ≤ deps.maxBytes := by
    cases hn : Nat.find hex with
    | zero => exact Nat.zero_le _
    | succ i => exact (hmin i (by omega)).2
  have hx : ∃ outcome, Exits deps stream (Nat.find hex) outcome := by
    rcases Nat.find_spec hex with hv | hp
    · cases hread : stream (Nat.find hex) with
      | done => exact ⟨_, .done hread⟩
      | fails cause => exact ⟨_, .fails hread⟩
      | value _ =>
        rw [hread] at hv
        cases hv
    · exact ⟨_, .past hp⟩
  obtain ⟨outcome, hx⟩ := hx
  exact ⟨Nat.find hex, outcome, fun i hi => (hmin i hi).1, hcap, hx⟩

end Reader

/-! ## A finite body -/

theorem bytesOf_append (xs ys : List (Option (List UInt8))) :
    bytesOf (xs ++ ys) = bytesOf xs ++ bytesOf ys := by
  unfold bytesOf
  rw [List.filterMap_append, List.flatten_append]

theorem Body.bytesBefore_stream (body : Body) (n : Nat) :
    body.stream.bytesBefore n = bytesOf (body.reads.take n) := by
  induction n with
  | zero => rfl
  | succ n ih =>
    rw [ReadStream.bytesBefore, ih, List.take_add_one, bytesOf_append]
    congr 1
    unfold Body.stream
    cases body.reads[n]? with
    | none => cases body.ends <;> rfl
    | some value => cases value <;> simp [ReadResult.bytes, bytesOf]

theorem Body.isValue_stream (body : Body) {n : Nat} :
    (body.stream n).isValue = true ↔ n < body.reads.length := by
  unfold Body.stream
  cases h : body.reads[n]? with
  | none =>
    have hlen := List.getElem?_eq_none_iff.mp h
    cases body.ends <;> simp [ReadResult.isValue, hlen]
  | some value =>
    have hlen := (List.getElem?_eq_some_iff.mp h).1
    simp [ReadResult.isValue, hlen]

/-- What comes after the last chunk. -/
def StreamEnd.outcome : StreamEnd → Except Failure Unit
  | .done => .ok ()
  | .fails cause _ => .error (.unclassified cause)

theorem Body.firstStop_end {deps : ReplayDeps} {body : Body}
    (h : (bytesOf body.reads).length ≤ deps.maxBytes) :
    Reader.FirstStop deps body.stream body.reads.length body.ends.outcome := by
  refine ⟨fun i hi => body.isValue_stream.mpr hi, ?_, ?_⟩
  · rwa [body.bytesBefore_stream, List.take_length]
  · cases hends : body.ends with
    | done => exact .done (by simp [Body.stream, hends])
    | fails cause expired => exact .fails (by simp [Body.stream, hends])

/-- Too many bytes are too many in front of the end. -/
theorem Body.firstStop_past {deps : ReplayDeps} {body : Body}
    (h : deps.maxBytes < (bytesOf body.reads).length) :
    ∃ n, Reader.FirstStop deps body.stream n (.error (tooLarge deps.maxBytes)) := by
  have hpast : deps.maxBytes < (body.stream.bytesBefore (body.reads.length + 1)).length := by
    rwa [body.bytesBefore_stream, List.take_of_length_le (Nat.le_succ _)]
  obtain ⟨n, outcome, hstop⟩ := Reader.exists_firstStop (.inr hpast)
  have hvalue : (body.stream n).isValue = true := by
    rw [body.isValue_stream]
    by_contra hlen
    have hcap := hstop.cap
    rw [body.bytesBefore_stream, List.take_of_length_le (Nat.le_of_not_lt hlen)] at hcap
    omega
  cases hstop.exits with
  | done hs =>
    rw [hs] at hvalue
    cases hvalue
  | fails hs =>
    rw [hs] at hvalue
    cases hvalue
  | past => exact ⟨n, hstop⟩

/-- **The reader refines `readCapped`.** -/
theorem readCapped_eq {deps : ReplayDeps} {response : HttpResponse} {body : Body}
    (h : response.body = some body) :
    Reader.Returns deps body.stream (readCapped deps response) := by
  unfold readCapped
  rw [h]
  simp only [readLoop_eq body.ends [] (Nat.zero_le deps.maxBytes), Nat.zero_add, List.nil_append]
  by_cases hcap : deps.maxBytes < (bytesOf body.reads).length
  · rw [if_pos hcap]
    obtain ⟨n, hstop⟩ := Body.firstStop_past hcap
    exact hstop.returns
  · rw [if_neg hcap]
    have hreturns := (Body.firstStop_end (Nat.le_of_not_lt hcap)).returns
    rw [body.bytesBefore_stream, List.take_length] at hreturns
    cases hends : body.ends with
    | done =>
      rw [hends] at hreturns
      exact hreturns
    | fails cause expired =>
      rw [hends] at hreturns
      exact hreturns

/-- **The capped reader is exact.** Of a finite body, however it is cut, it returns the decoding of
all of its bytes if they are within the cap, and `replay_too_large` otherwise. On any stream what
it retains is within the cap. A chunk that passes the cap is the last one it reads, it is followed
by one `cancel()`, and `replay_too_large` is the result. -/
theorem reader_exact (deps : ReplayDeps) :
    (∀ (bytes : List UInt8) (cut : List (Option (List UInt8))), bytesOf cut = bytes →
      Reader.Returns deps (Body.stream ⟨cut, .done⟩)
        (if bytes.length ≤ deps.maxBytes then .ok (deps.decode bytes)
        else .error (tooLarge deps.maxBytes))) ∧
    (∀ stream s, Reader.Reachable deps stream s → s.chunks.flatten.length ≤ deps.maxBytes) ∧
    ∀ (stream : ReadStream) (n : Nat), (∀ i < n, (stream i).isValue = true) →
      (stream.bytesBefore n).length ≤ deps.maxBytes →
      deps.maxBytes < (stream.bytesBefore (n + 1)).length →
        Reader.Returns deps stream (.error (tooLarge deps.maxBytes)) ∧
        ∀ s, Reader.Reachable deps stream s → s.reads ≤ n + 1 ∧ s.cancels ≤ 1 ∧
          ∀ result, s.phase = .returned result → s.reads = n + 1 ∧ s.cancels = 1 := by
  refine ⟨?_, ?_, ?_⟩
  · rintro bytes cut rfl
    by_cases hcap : (bytesOf cut).length ≤ deps.maxBytes
    · rw [if_pos hcap]
      have hreturns := (@Body.firstStop_end deps ⟨cut, .done⟩ hcap).returns
      rwa [Body.bytesBefore_stream, List.take_length] at hreturns
    · rw [if_neg hcap]
      obtain ⟨n, hstop⟩ := @Body.firstStop_past deps ⟨cut, .done⟩ (Nat.lt_of_not_le hcap)
      exact hstop.returns
  · intro stream s hs
    obtain ⟨n, hr⟩ := (Reader.ok_of_reachable hs).retains
    rw [hr.chunks]
    exact hr.cap
  · intro stream n hvalues hcap hpast
    have hstop : Reader.FirstStop deps stream n (.error (tooLarge deps.maxBytes)) :=
      ⟨hvalues, hcap, .past hpast⟩
    refine ⟨hstop.returns, fun s hs => ?_⟩
    have hok := Reader.ok_of_reachable hs
    refine ⟨(hstop.bound hok).1, (hstop.bound hok).2, fun result hph => ?_⟩
    obtain ⟨n', outcome, hstop', -, hreads, hcancels⟩ := hok.firstStop hph
    obtain rfl : n' = n := Nat.le_antisymm (hstop.le hstop') (hstop'.le hstop)
    exact ⟨hreads, hcancels⟩

namespace Sample

/-- Two bytes a read, without end. -/
def endless : ReadStream := fun _ => .value (some [104, 105])

def capOf (maxBytes : Nat) : ReplayDeps := { replayDeps with maxBytes }

end Sample

/-- Of an endless stream three chunks are read under a cap of five bytes. -/
theorem reader_exact_endless : Reader.Returns (Sample.capOf 5) Sample.endless
    (.error (tooLarge 5)) ∧
    ∀ s, Reader.Reachable (Sample.capOf 5) Sample.endless s → s.reads ≤ 3 := by
  have h := (reader_exact (Sample.capOf 5)).2.2 Sample.endless 2 (fun _ _ => rfl) (by decide)
    (by decide)
  exact ⟨h.1, fun s hs => (h.2 s hs).1⟩

end BattleCloud
