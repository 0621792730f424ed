import InfraSightGpu.Aggregator
import InfraSightGpu.Lib.Runs
import InfraSightGpu.Lib.Segments

namespace InfraSightGpu.WindowHistory

open InfraSightGpu.Events InfraSightGpu.Fingerprint InfraSightGpu.Aggregator
open InfraSightGpu.Lib.Maps InfraSightGpu.Lib.Runs InfraSightGpu.Lib.Segments

variable {F : Type} [GoFloat F]

/-- A call of `Update` or `Flush` with the reading of `time.Now` it sees. -/
inductive Action where
  | update (now : Time) (ev : Event)
  | flush (now : Time) (order : List UInt32)
deriving DecidableEq

def Action.now : Action → Time
  | .update now _ => now
  | .flush now _ => now

abbrev Timed := Time × Event

/-- The aggregator and the batches it has returned. The segments are ghost
state: for every process, the events counted in each of its windows. -/
structure Trace (F : Type) where
  ga : GPUAggregator F
  batches : List (GpuBatch F)
  segments : UInt32 → History Timed

def start (windowDuration : Duration) (now : Time) : Trace F where
  ga := newGPUAggregator windowDuration now
  batches := []
  segments := fun _ => History.empty

def traceUpdate (t : Trace F) (now : Time) (ev : Event) : Trace F where
  ga := update t.ga now ev
  batches := t.batches
  segments := fun p => if ev.IsOf p then (t.segments p).push (now, ev) else t.segments p

/-- The open segment of a process is closed when a window of it is returned. -/
def traceFlush (t : Trace F) (now : Time) (order : List UInt32) : Trace F :=
  let (ga, batch) := flush t.ga now order
  { ga := ga
    batches := t.batches ++ batch.toList
    segments := fun p =>
      if (batchEvents batch).filter (fun e => e.pid = p) = [] then t.segments p
      else (t.segments p).cut }

def step (t : Trace F) : Action → Option (Trace F)
  | .update now ev => some (traceUpdate t now ev)
  | .flush now order =>
    if Enumerates order t.ga.windows then some (traceFlush t now order) else none

theorem step_flush {t u : Trace F} {now : Time} {order : List UInt32} :
    step t (.flush now order) = some u ↔
      Enumerates order t.ga.windows ∧ traceFlush t now order = u := by
  rw [step, Option.ite_none_right_eq_some, Option.some.injEq]

def emitted (p : UInt32) (t : Trace F) : List (GpuEvent F) :=
  (t.batches.flatMap GpuBatch.batch).filter (fun e => e.pid = p)

def timedEvents (p : UInt32) (acts : List Action) : List Timed :=
  acts.filterMap fun
    | .update now ev => if ev.IsOf p then some (now, ev) else none
    | .flush _ _ => none

/-- The window made of a segment: opened by its first event, all recorded in order. -/
def windowOf (windowDuration : Duration) : List Timed → Option (GPUFingerprint F)
  | [] => none
  | x :: xs => x.2.source.map fun s =>
      (x :: xs).foldl (fun w y => record w y.2) (newWindow windowDuration x.1 s.1 s.2.toList)

theorem record_frame (w : GPUFingerprint F) (ev : Event) :
    (record w ev).pid = w.pid ∧ (record w ev).comm = w.comm ∧
      (record w ev).windowStart = w.windowStart ∧ (record w ev).windowEnd = w.windowEnd := by
  cases ev with
  | memcpy e => by_cases h : e.kind = UInt8.ofNat dirHtod <;> simp [record, recordMemcpy, h]
  | kernelLaunch e | memalloc e | stream e | other => exact ⟨rfl, rfl, rfl, rfl⟩

theorem foldl_record_frame (w : GPUFingerprint F) (seg : List Timed) :
    let w' := seg.foldl (fun w x => record w x.2) w
    w'.pid = w.pid ∧ w'.comm = w.comm ∧ w'.windowStart = w.windowStart ∧
      w'.windowEnd = w.windowEnd := by
  induction seg generalizing w with
  | nil => exact ⟨rfl, rfl, rfl, rfl⟩
  | cons x seg ih =>
    obtain ⟨h1, h2, h3, h4⟩ := ih (record w x.2)
    obtain ⟨r1, r2, r3, r4⟩ := record_frame w x.2
    exact ⟨h1.trans r1, h2.trans r2, h3.trans r3, h4.trans r4⟩

theorem source_of_isOf {p : UInt32} {ev : Event} (h : ev.IsOf p) :
    ∃ comm, ev.source = some (p, comm) := by
  obtain ⟨s, hs, hp⟩ := Option.map_eq_some_iff.mp h
  exact ⟨s.2, by rw [hs, ← hp]⟩

theorem windowOf_cons (D : Duration) {p : UInt32} {x : Timed} (xs : List Timed)
    (h : x.2.IsOf p) : ∃ comm, x.2.source = some (p, comm) ∧ windowOf (F := F) D (x :: xs) =
      some ((x :: xs).foldl (fun w y => record w y.2) (newWindow D x.1 p comm.toList)) := by
  obtain ⟨comm, hs⟩ := source_of_isOf h
  exact ⟨comm, hs, by simp [windowOf, hs]⟩

theorem metric_windowOf {D : Duration} {seg : List Timed} {w : GPUFingerprint F}
    (hw : windowOf D seg = some w) (m : Metric) : m.get w = 0 := by
  have hfold : ∀ (w : GPUFingerprint F) (seg : List Timed),
      m.get (seg.foldl (fun w x => record w x.2) w) = m.get w := by
    intro w seg
    induction seg generalizing w with
    | nil => rfl
    | cons x seg ih => exact (ih (record w x.2)).trans (m.get_record w x.2)
  cases seg with
  | nil => cases hw
  | cons x xs =>
    obtain ⟨s, -, rfl⟩ := Option.map_eq_some_iff.mp hw
    exact (hfold _ (x :: xs)).trans (m.get_newWindow _ _ _ _)

theorem windowOf_snoc {D : Duration} {p : UInt32} {seg : List Timed} {now : Time} {ev : Event}
    {comm : Vector UInt8 150} (hseg : ∀ x ∈ seg, x.2.IsOf p) (hev : ev.source = some (p, comm)) :
    windowOf (F := F) D (seg ++ [(now, ev)]) =
      some (record ((windowOf D seg).getD (newWindow D now p comm.toList)) ev) := by
  cases seg with
  | nil => simp [windowOf, hev]
  | cons x xs =>
    obtain ⟨c, hs, hw⟩ := windowOf_cons (F := F) D xs (hseg x (by simp))
    rw [hw, List.cons_append]
    simp [windowOf, hs, List.foldl_append]

structure Refines (D : Duration) (t : Trace F) : Prop where
  duration : t.ga.windowDuration = D
  own : ∀ p, ∀ x ∈ (t.segments p).flat, x.2.IsOf p
  live : ∀ p, t.ga.windows.lookup p = windowOf D (t.segments p).current
  reported : ∀ p, (emitted p t).map some =
    (t.segments p).closed.map fun seg => (windowOf D seg).map fun w => windowEvent (deriveMetrics w)

theorem Refines.own_current {D : Duration} {t : Trace F} (h : Refines D t) (p : UInt32) :
    ∀ x ∈ (t.segments p).current, x.2.IsOf p :=
  fun x hx => h.own p x (List.mem_append_right _ hx)

theorem Refines.keyedByPid {D : Duration} {t : Trace F} (h : Refines D t) : KeyedByPid t.ga := by
  intro p w hw
  rw [h.live p] at hw
  cases hc : (t.segments p).current with
  | nil => simp [hc, windowOf] at hw
  | cons x xs =>
    have hx := h.own_current p x (by simp [hc])
    obtain ⟨c, hs, hwin⟩ := windowOf_cons (F := F) D xs hx
    rw [hc, hwin] at hw
    cases hw
    exact (foldl_record_frame _ _).1

theorem refines_start (D : Duration) (now : Time) : Refines D (start (F := F) D now) :=
  ⟨rfl, by simp [start], fun _ => rfl, fun _ => rfl⟩

theorem refines_update {D : Duration} {t : Trace F} (h : Refines D t) (now : Time) (ev : Event) :
    Refines D (traceUpdate t now ev) := by
  have hdur : (update t.ga now ev).windowDuration = D :=
    (windowDuration_update t.ga now ev).trans h.duration
  refine ⟨hdur, fun p x hx => ?_, fun p => ?_, fun p => ?_⟩
  · by_cases hp : ev.IsOf p
    · simp only [traceUpdate, hp, if_true, History.flat_push, List.mem_append,
        List.mem_singleton] at hx
      obtain hx | rfl := hx
      · exact h.own p x hx
      · exact hp
    · simp only [traceUpdate, hp, if_false] at hx
      exact h.own p x hx
  · simp only [traceUpdate, lookup_update]
    by_cases hp : ev.IsOf p
    · obtain ⟨comm, hs⟩ := source_of_isOf hp
      simp only [hs, hp, if_true, History.current_push]
      rw [windowOf_snoc (h.own_current p) hs, windowFor, h.duration, h.live p]
    · simp only [hp, if_false]
      cases hs : ev.source with
      | none => exact h.live p
      | some s =>
        have hne : p ≠ s.1 := fun he => hp (by simp [Event.IsOf, hs, he])
        simp only [hne, if_false]
        exact h.live p
  · have hc : ((traceUpdate t now ev).segments p).closed = (t.segments p).closed := by
      simp only [traceUpdate]
      split <;> rfl
    rw [hc]
    exact h.reported p

theorem emitted_traceFlush {D : Duration} {t : Trace F} (h : Refines D t) (now : Time)
    {order : List UInt32} (ho : Enumerates order t.ga.windows) (p : UInt32) :
    emitted p (traceFlush t now order) =
      emitted p t ++ ((t.ga.windows.lookup p).bind (report now)).toList := by
  rw [← flush_events_of h.keyedByPid now ho p]
  simp only [emitted, traceFlush, List.flatMap_append, List.filter_append]
  cases (flush t.ga now order).2 <;> simp [batchEvents]

theorem segments_traceFlush {D : Duration} {t : Trace F} (h : Refines D t) (now : Time)
    {order : List UInt32} (ho : Enumerates order t.ga.windows) (p : UInt32) :
    (traceFlush t now order).segments p =
      if ((t.ga.windows.lookup p).bind (report now)) = none then t.segments p
      else (t.segments p).cut := by
  simp only [traceFlush, flush_events_of h.keyedByPid now ho p, Option.toList_eq_nil_iff]

theorem refines_flush {D : Duration} {t : Trace F} (h : Refines D t) (now : Time)
    {order : List UInt32} (ho : Enumerates order t.ga.windows) :
    Refines D (traceFlush t now order) := by
  refine ⟨(flush_fst t.ga now order).2.trans h.duration, fun p x hx => ?_, fun p => ?_, fun p => ?_⟩
  · rw [segments_traceFlush h now ho] at hx
    split at hx
    · exact h.own p x hx
    · exact h.own p x (by simpa using hx)
  · rw [segments_traceFlush h now ho]
    simp only [traceFlush, lookup_flush t.ga now ho]
    cases hr : (t.ga.windows.lookup p).bind (report now) with
    | none => simpa using h.live p
    | some e => simp [windowOf]
  · rw [emitted_traceFlush h now ho, segments_traceFlush h now ho, List.map_append, h.reported p]
    cases hr : (t.ga.windows.lookup p).bind (report now) with
    | none => simp
    | some e =>
      obtain ⟨w, hw, he⟩ := Option.bind_eq_some_iff.mp hr
      have hwin := (h.live p).symm.trans hw
      have hne : (t.segments p).current ≠ [] := fun hc => by simp [hc, windowOf] at hwin
      obtain ⟨-, rfl⟩ := report_eq_some.mp he
      simp [History.closed_cut _ hne, hwin]

theorem refines_step {D : Duration} {t u : Trace F} {a : Action} (h : Refines D t)
    (hs : step t a = some u) : Refines D u := by
  cases a with
  | update now ev =>
    cases hs
    exact refines_update h now ev
  | flush now order =>
    obtain ⟨ho, rfl⟩ := step_flush.mp hs
    exact refines_flush h now ho

theorem refines_run {D : Duration} {now : Time} {acts : List Action} {t : Trace F}
    (h : exec step (start D now) acts = some t) : Refines D t :=
  exec_induction (I := fun _ t => Refines D t) (refines_start D now)
    (fun _ _ _ _ _ ih hs => refines_step ih hs) h

theorem Refines.live_segment {D : Duration} {t : Trace F} (h : Refines D t) {p : UInt32}
    {w : GPUFingerprint F} (hw : t.ga.windows.lookup p = some w) :
    ∃ seg ∈ (t.segments p).all, windowOf D seg = some w := by
  have hwin := (h.live p).symm.trans hw
  have hne : (t.segments p).current ≠ [] := fun hc => by simp [hc, windowOf] at hwin
  exact ⟨(t.segments p).current, by simp [History.all, hne], hwin⟩

theorem Refines.reported_segment {D : Duration} {t : Trace F} (h : Refines D t) {p : UInt32}
    {e : GpuEvent F} (he : e ∈ emitted p t) :
    ∃ seg ∈ (t.segments p).all, ∃ w, windowOf D seg = some w ∧
      windowEvent (deriveMetrics w) = e := by
  have hmem : some e ∈ (emitted p t).map some := List.mem_map_of_mem he
  rw [h.reported p] at hmem
  obtain ⟨seg, hseg, hwin⟩ := List.mem_map.mp hmem
  obtain ⟨w, hw, hevent⟩ := Option.map_eq_some_iff.mp hwin
  exact ⟨seg, List.mem_append_left _ hseg, w, hw, hevent⟩

/-- What can be read off every window, reported or open, can be read off the
segments: the windows of a process are those of its segments, in order. -/
theorem windows_eq {X : Type} {g : GpuEvent F → Option X} {f : GPUFingerprint F → X}
    (hgf : ∀ w, g (windowEvent (deriveMetrics w)) = some (f w)) {D : Duration} {t : Trace F}
    (h : Refines D t) (p : UInt32) :
    (emitted p t).map g ++ ((t.ga.windows.lookup p).map fun w => some (f w)).toList =
      (t.segments p).all.map fun seg => (windowOf (F := F) D seg).map f := by
  have hemit : (emitted p t).map g =
      (t.segments p).closed.map fun seg => (windowOf (F := F) D seg).map f := by
    have hj := congrArg (List.map fun e => e.bind g) (h.reported p)
    rw [List.map_map, List.map_map] at hj
    refine hj.trans (List.map_congr_left fun seg _ => ?_)
    cases hw : windowOf (F := F) D seg <;> simp [hw, hgf]
  have hlive : ((t.ga.windows.lookup p).map fun w => some (f w)).toList =
      (if (t.segments p).current = [] then [] else [(t.segments p).current]).map
        fun seg => (windowOf (F := F) D seg).map f := by
    have hown := h.own_current p
    rw [h.live p]
    cases hc : (t.segments p).current with
    | nil => rfl
    | cons x xs =>
      obtain ⟨comm, -, hw⟩ := windowOf_cons (F := F) D xs (hown x (by simp [hc]))
      simp [hw]
  rw [hemit, hlive, History.all, List.map_append]

theorem flat_step {D : Duration} {t u : Trace F} {a : Action} (h : Refines D t)
    (hs : step t a = some u) (p : UInt32) :
    (u.segments p).flat = (t.segments p).flat ++ timedEvents p [a] := by
  cases a with
  | update now ev =>
    cases hs
    by_cases hp : ev.IsOf p <;> simp [traceUpdate, timedEvents, hp]
  | flush now order =>
    obtain ⟨ho, rfl⟩ := step_flush.mp hs
    rw [segments_traceFlush h now ho]
    split <;> simp [timedEvents]

theorem flat_run {D : Duration} {now : Time} {acts : List Action} {t : Trace F}
    (h : exec step (start D now) acts = some t) (p : UInt32) :
    (t.segments p).flat = timedEvents p acts := by
  refine exec_induction (I := fun acts t => (t.segments p).flat = timedEvents p acts) rfl ?_ h
  intro as t a u hr ih hs
  rw [flat_step (refines_run hr) hs p, ih]
  simp [timedEvents, List.filterMap_append]

end InfraSightGpu.WindowHistory
