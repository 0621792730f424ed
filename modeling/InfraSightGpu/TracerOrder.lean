import InfraSightGpu.Tracer

namespace InfraSightGpu.TracerOrder

open InfraSightGpu.Events InfraSightGpu.Records InfraSightGpu.Handlers InfraSightGpu.TimeSeries
open InfraSightGpu.Tracer InfraSightGpu.Lib.Maps InfraSightGpu.Lib.Runs

variable {F : Type} {n : Nat}

def eventsOf (p : UInt32) (rs : List GpuRecord) : List Event :=
  (rs.filter fun r => r.pid = p).map GpuRecord.event

@[simp] theorem eventsOf_append (p : UInt32) (rs qs : List GpuRecord) :
    eventsOf p (rs ++ qs) = eventsOf p rs ++ eventsOf p qs := by
  simp [eventsOf]

theorem eventsOf_cons (p : UInt32) (r : GpuRecord) (rs : List GpuRecord) :
    eventsOf p (r :: rs) = (if r.event.IsOf p then [r.event] else []) ++ eventsOf p rs := by
  by_cases hp : r.pid = p <;> simp [eventsOf, GpuRecord.event_isOf, hp]

theorem isOf_of_mem_eventsOf {p : UInt32} {rs : List GpuRecord} {ev : Event}
    (h : ev ∈ eventsOf p rs) : ev.IsOf p := by
  obtain ⟨r, hr, rfl⟩ := List.mem_map.mp h
  exact (r.event_isOf p).mpr (by simpa using (List.mem_filter.mp hr).2)

def readForWindows (p : UInt32) : Reader → List Event
  | .updatingWindows ev => if ev.IsOf p then [ev] else []
  | _ => []

def readForSeries (p : UInt32) : Reader → List Event
  | .updatingWindows ev => if ev.IsOf p then [ev] else []
  | .updatingSeries ev => if ev.IsOf p then [ev] else []
  | _ => []

variable [GoFloat F]

def Tells (tk : GpuEventToken F) (ev : Event) : Prop :=
  TokenHistory.Describes tk (tk.timestamp, ev)

inductive Steps (s : State F n) : Action n → State F n → Prop where
  | program (call) : Steps s (.program call) (runProgram s call)
  | read {garbage r rest} (hr : s.reader = .idle) (hring : s.kernel.gpuRingbuf = r :: rest) :
    Steps s (.read garbage) { s with
      kernel := { s.kernel with gpuRingbuf := rest }
      reader := ((decodeRecord (r.rawSample garbage)).map Reader.updatingWindows).getD .idle }
  | updateWindows {now ev} (hr : s.reader = .updatingWindows ev) :
    Steps s (.updateWindows now) { s with
      windows := WindowHistory.traceUpdate s.windows now ev
      reader := .updatingSeries ev }
  | stampToken {now ev} (hr : s.reader = .updatingSeries ev) (hp : s.series.pending = none) :
    Steps s (.stampToken now) { s with
      series := { s.series with pending := prepare now ev }
      reader := if (prepare (F := F) now ev).isSome then .committing else .idle }
  | commitToken {v} (hr : s.reader = .committing) (hp : s.series.pending = some v) :
    Steps s .commitToken { s with
      series := { s.series with tc := commit s.series.tc v, pending := none }
      reader := .idle }
  | flushWindows {now order} (ho : Enumerates order s.windows.ga.windows) :
    Steps s (.flushWindows now order) { s with
      windows := WindowHistory.traceFlush s.windows now order }
  | flushSeries {order} (ho : Enumerates order s.series.tc.buffers) :
    Steps s (.flushSeries order) { s with
      series := { s.series with
        tc := (flush s.series.tc order).1
        returned := s.series.returned ++ [(flush s.series.tc order).2] } }

theorem steps_of_eq_some {s u : State F n} {a : Action n} (h : step s a = some u) :
    Steps s a u := by
  cases a with
  | program call =>
    cases h
    exact .program call
  | read garbage =>
    simp only [step, readRecord] at h
    split at h <;> cases h
    next hr hring => exact .read hr hring
  | updateWindows now =>
    simp only [step] at h
    split at h
    · next ev hr =>
      cases h
      exact .updateWindows hr
    · cases h
  | stampToken now =>
    simp only [step] at h
    split at h
    · next ev hr =>
      obtain ⟨series, hs, rfl⟩ := Option.map_eq_some_iff.mp h
      obtain ⟨hp, rfl⟩ := TokenHistory.step_stamp.mp hs
      exact .stampToken hr hp
    · cases h
  | commitToken =>
    simp only [step] at h
    split at h
    · next hr =>
      obtain ⟨series, hs, rfl⟩ := Option.map_eq_some_iff.mp h
      obtain ⟨v, hp, rfl⟩ := TokenHistory.step_commit.mp hs
      exact .commitToken hr hp
    · cases h
  | flushWindows now order =>
    obtain ⟨windows, hs, rfl⟩ := Option.map_eq_some_iff.mp h
    obtain ⟨ho, rfl⟩ := WindowHistory.step_flush.mp hs
    exact .flushWindows ho
  | flushSeries order =>
    obtain ⟨series, hs, rfl⟩ := Option.map_eq_some_iff.mp h
    obtain ⟨ho, rfl⟩ := TokenHistory.step_flush.mp hs
    exact .flushSeries ho

/-- Every event of the process that was submitted is with the collectors, with
the reader or in the ring, and the three follow one another in the order of
submission. A call of `Update` in progress was prepared from an event. -/
structure Ordered (s : State F n) : Prop where
  windows : ∀ p, eventsOf p s.submitted =
    (s.windows.segments p).flat.map Prod.snd ++ readForWindows p s.reader ++
      eventsOf p s.kernel.gpuRingbuf
  series : ∀ p, ∃ evs, eventsOf p s.submitted =
      evs ++ readForSeries p s.reader ++ eventsOf p s.kernel.gpuRingbuf ∧
    List.Forall₂ Tells (TokenHistory.tokensOf p s.series) evs
  prepared : ∀ v, s.series.pending = some v → ∃ now ev, prepare now ev = some v
  committing : s.reader = .committing → s.series.pending ≠ none

theorem ordered_start (D interval : Duration) (now : Time) :
    Ordered (start (F := F) n D interval now) where
  windows _ := rfl
  series _ := ⟨[], rfl, List.Forall₂.nil⟩
  prepared _ h := by cases h
  committing h := by cases h

theorem ordered_program {s : State F n} (hi : Ordered s) (call : Call n) :
    Ordered (runProgram s call) := by
  obtain ⟨r, -, -, hring, hsub⟩ | ⟨hring, hsub⟩ := runProgram_effect s call
  · refine ⟨fun p => ?_, fun p => ?_, hi.prepared, hi.committing⟩
    · rw [hring, hsub, eventsOf_append, eventsOf_append, hi.windows p, List.append_assoc]
      rfl
    · obtain ⟨evs, hevs, htells⟩ := hi.series p
      refine ⟨evs, ?_, htells⟩
      rw [hring, hsub, eventsOf_append, eventsOf_append, hevs, List.append_assoc]
      rfl
  · refine ⟨fun p => ?_, fun p => ?_, hi.prepared, hi.committing⟩
    · rw [hring, hsub]
      exact hi.windows p
    · rw [hring, hsub]
      exact hi.series p

section Steps

variable {D : Duration} {s u : State F n} (hc : Consistent D s) (hi : Ordered s)
include hc hi

theorem ordered_read {garbage : Nat → UInt8} (hs : step s (.read garbage) = some u) :
    Ordered u := by
  cases steps_of_eq_some hs with
  | @read _ r rest hr hring =>
  have hdec : decodeRecord (r.rawSample garbage) = some r.event :=
    decodeRecord_rawSample (hc.flags r (by simp [hring])) garbage
  rw [hdec, Option.map_some, Option.getD_some]
  refine ⟨fun p => ?_, fun p => ?_, hi.prepared, fun h => (by cases h)⟩
  · have hwin := hi.windows p
    rw [hring, hr, eventsOf_cons] at hwin
    simpa [readForWindows] using hwin
  · obtain ⟨evs, hevs, htells⟩ := hi.series p
    rw [hring, hr, eventsOf_cons] at hevs
    refine ⟨evs, ?_, htells⟩
    simpa [readForSeries] using hevs

theorem ordered_updateWindows {now : Time} (hs : step s (.updateWindows now) = some u) :
    Ordered u := by
  cases steps_of_eq_some hs with
  | @updateWindows _ ev hr =>
  refine ⟨fun p => ?_, fun p => ?_, hi.prepared, fun h => (by cases h)⟩
  · have hflat := WindowHistory.flat_step (a := .update now ev) hc.refines rfl p
    have hwin := hi.windows p
    dsimp only
    rw [hflat, hwin, hr]
    by_cases hp : ev.IsOf p <;> simp [readForWindows, WindowHistory.timedEvents, hp]
  · obtain ⟨evs, hevs, htells⟩ := hi.series p
    rw [hr] at hevs
    exact ⟨evs, hevs, htells⟩

omit hc in
theorem ordered_stampToken {now : Time} (hs : step s (.stampToken now) = some u) :
    Ordered u := by
  cases steps_of_eq_some hs with
  | @stampToken _ ev hr hp =>
  have hwin : ∀ p, readForWindows p
      (if (prepare (F := F) now ev).isSome then .committing else .idle) = [] := by
    intro p
    split <;> rfl
  have hser : ∀ p, readForSeries p
      (if (prepare (F := F) now ev).isSome then .committing else .idle) = [] := by
    intro p
    split <;> rfl
  refine ⟨fun p => ?_, fun p => ?_, fun v hv => ⟨now, ev, hv⟩, fun hcommitting hnone => ?_⟩
  · rw [hwin, hi.windows p, hr]
    rfl
  · obtain ⟨evs, hevs, htells⟩ := hi.series p
    have htok := TokenHistory.tokensOf_step (a := .stamp now ev)
      (TokenHistory.step_stamp.mpr ⟨hp, rfl⟩) p
    refine ⟨evs ++ readForSeries p (.updatingSeries ev), ?_, ?_⟩
    · rw [hser, hevs, hr, List.append_nil]
    · dsimp only
      rw [htok]
      refine List.rel_append htells ?_
      by_cases hev : ev.IsOf p
      · obtain ⟨tk, htk⟩ := TokenHistory.isOf_prepare (F := F) now hev
        have hdescribes := TokenHistory.describes_eventToToken htk
        have htells : Tells tk ev := by
          rw [Tells, hdescribes.1]
          exact hdescribes
        simpa [TokenHistory.callsOf, TokenHistory.calls, readForSeries, hev, htk] using htells
      · simp [TokenHistory.callsOf, TokenHistory.calls, readForSeries, hev]
  · rw [show prepare (F := F) now ev = none from hnone] at hcommitting
    cases hcommitting

omit hc in
theorem ordered_commitToken (hs : step s .commitToken = some u) : Ordered u := by
  cases steps_of_eq_some hs with
  | @commitToken v hr hp =>
  refine ⟨fun p => ?_, fun p => ?_, fun v hv => (by cases hv), fun h => (by cases h)⟩
  · rw [hi.windows p, hr]
    rfl
  · obtain ⟨evs, hevs, htells⟩ := hi.series p
    have htok := TokenHistory.tokensOf_step (a := .commit)
      (TokenHistory.step_commit.mpr ⟨v, hp, rfl⟩) p
    refine ⟨evs, ?_, ?_⟩
    · rw [hevs, hr]
      rfl
    · dsimp only
      rw [htok]
      simpa [TokenHistory.callsOf, TokenHistory.calls] using htells

theorem ordered_flushWindows {now : Time} {order : List UInt32}
    (hs : step s (.flushWindows now order) = some u) : Ordered u := by
  cases steps_of_eq_some hs with
  | flushWindows ho =>
  refine ⟨fun p => ?_, hi.series, hi.prepared, hi.committing⟩
  have hflat := WindowHistory.flat_step (a := .flush now order) hc.refines
    (WindowHistory.step_flush.mpr ⟨ho, rfl⟩) p
  dsimp only
  rw [hflat, hi.windows p]
  simp [WindowHistory.timedEvents]

omit hc in
theorem ordered_flushSeries {order : List UInt32} (hs : step s (.flushSeries order) = some u) :
    Ordered u := by
  cases steps_of_eq_some hs with
  | flushSeries ho =>
  refine ⟨hi.windows, fun p => ?_, hi.prepared, hi.committing⟩
  obtain ⟨evs, hevs, htells⟩ := hi.series p
  have htok := TokenHistory.tokensOf_step (a := .flush order)
    (TokenHistory.step_flush.mpr ⟨ho, rfl⟩) p
  refine ⟨evs, hevs, ?_⟩
  dsimp only
  rw [htok]
  simpa [TokenHistory.callsOf, TokenHistory.calls] using htells

theorem ordered_step {a : Action n} (hs : step s a = some u) : Ordered u := by
  cases a with
  | program call =>
    cases hs
    exact ordered_program hi call
  | read garbage => exact ordered_read hc hi hs
  | updateWindows now => exact ordered_updateWindows hc hi hs
  | stampToken now => exact ordered_stampToken hi hs
  | commitToken => exact ordered_commitToken hi hs
  | flushWindows now order => exact ordered_flushWindows hc hi hs
  | flushSeries order => exact ordered_flushSeries hi hs

end Steps

theorem ordered_run {D interval : Duration} {now : Time} {acts : List (Action n)}
    {s : State F n} (h : exec step (start n D interval now) acts = some s) : Ordered s :=
  exec_induction (I := fun _ s => Ordered s) (ordered_start D interval now)
    (fun _ _ _ _ hr hi hs => ordered_step (consistent_run hr) hi hs) h

end InfraSightGpu.TracerOrder
