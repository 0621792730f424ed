import InfraSightGpu.WindowTimes

namespace InfraSightGpu.WindowTicks

open InfraSightGpu.Events InfraSightGpu.Fingerprint InfraSightGpu.Aggregator
open InfraSightGpu.Lib.Maps InfraSightGpu.Lib.Runs InfraSightGpu.Lib.Segments
open InfraSightGpu.WindowHistory InfraSightGpu.WindowTotals InfraSightGpu.WindowTimes

variable {F : Type} [GoFloat F] {D : Duration} {T0 : Time}

structure Report (F : Type) where
  tick : Time
  event : GpuEvent F
  counted : List Timed

/-- The aggregator under its runner. The clock, the number of ticks so far and
the reports are ghost state. -/
structure State (F : Type) where
  trace : Trace F
  clock : Time
  ticks : Nat
  reports : List (Report F)

def start (D : Duration) (T0 : Time) : State F where
  trace := WindowHistory.start D T0
  clock := T0
  ticks := 0
  reports := []

inductive Action where
  | update (now : Time) (ev : Event)
  | tick (order : List UInt32)
  | wait (now : Time)
deriving DecidableEq

def reportOf (s : State F) (now : Time) (e : GpuEvent F) : Report F where
  tick := now
  event := e
  counted := (s.trace.segments e.pid).current

def tickTime (D : Duration) (T0 : Time) (k : Nat) : Time := T0 + k * D

/-- Time does not pass the next tick without its flush. An update at the
instant of a tick may come before or after it. -/
def step (D : Duration) (T0 : Time) (s : State F) : Action → Option (State F)
  | .update now ev =>
    if s.clock ≤ now ∧ now ≤ tickTime D T0 (s.ticks + 1) then
      some { s with trace := traceUpdate s.trace now ev, clock := now }
    else none
  | .tick order =>
    let now := tickTime D T0 (s.ticks + 1)
    if Enumerates order s.trace.ga.windows then some {
      trace := traceFlush s.trace now order
      clock := now
      ticks := s.ticks + 1
      reports := s.reports ++
        (batchEvents (flush s.trace.ga now order).2).map (reportOf s now) }
    else none
  | .wait now =>
    if s.clock ≤ now ∧ now ≤ tickTime D T0 (s.ticks + 1) then some { s with clock := now }
    else none

def passed (p : UInt32) (acts : List Action) : List Timed :=
  acts.filterMap fun
    | .update now ev => if ev.IsOf p then some (now, ev) else none
    | .tick _ => none
    | .wait _ => none

/-- The report is that of the window of its events. It comes more than one
duration and at most two after the start of the window, and at most two after
each of the events. -/
structure Prompt (D : Duration) (r : Report F) : Prop where
  window : ∃ w, windowOf D r.counted = some w ∧ windowEvent (deriveMetrics w) = r.event ∧
    w.windowStart + D < r.tick ∧ r.tick ≤ w.windowStart + 2 * D
  counted : ∀ x ∈ r.counted, r.tick ≤ x.1 + 2 * D

/-- An open window started no earlier than one duration before the last tick. -/
structure Open (s : State F) (lastTick : Time) (D : Duration) (p : UInt32) : Prop where
  recent : ∀ f ∈ (s.trace.segments p).current.head?, lastTick ≤ f.1 + D
  ordered : ∀ f ∈ (s.trace.segments p).current.head?, ∀ x ∈ (s.trace.segments p).current, f.1 ≤ x.1
  past : ∀ x ∈ (s.trace.segments p).current, x.1 ≤ s.clock

structure Inv (D : Duration) (T0 : Time) (acts : List Action) (s : State F) : Prop where
  refines : Refines D s.trace
  flat : ∀ p, (s.trace.segments p).flat = passed p acts
  clock : tickTime D T0 s.ticks ≤ s.clock ∧ s.clock ≤ tickTime D T0 (s.ticks + 1)
  live : ∀ p, Open s (tickTime D T0 s.ticks) D p
  closed : ∀ p, (s.reports.filter fun r => r.event.pid = p).map Report.counted =
    (s.trace.segments p).closed
  batches : s.reports.map Report.event = s.trace.batches.flatMap GpuBatch.batch
  prompt : ∀ r ∈ s.reports, Prompt D r

theorem tickTime_succ (D : Duration) (T0 : Time) (k : Nat) :
    tickTime D T0 (k + 1) = tickTime D T0 k + D := by
  rw [tickTime, tickTime]
  push_cast
  ring

theorem passed_snoc (p : UInt32) (acts : List Action) (a : Action) :
    passed p (acts ++ [a]) = passed p acts ++ passed p [a] := by
  simp [passed, List.filterMap_append]

theorem inv_start (hD : 0 < D) (T0 : Time) : Inv D T0 [] (start (F := F) D T0) := by
  have hnil : ∀ p, ((start (F := F) D T0).trace.segments p).current = [] := fun _ => rfl
  refine ⟨refines_start D T0, fun _ => rfl, ?_, fun p => ?_, fun _ => rfl, rfl, ?_⟩
  · rw [tickTime_succ]
    simp only [start, tickTime]
    constructor <;> push_cast <;> linarith
  · constructor <;> simp [hnil]
  · simp [start]

theorem inv_wait {acts : List Action} {s : State F} (hi : Inv D T0 acts s) {now : Time}
    (hn : s.clock ≤ now ∧ now ≤ tickTime D T0 (s.ticks + 1)) :
    Inv D T0 (acts ++ [.wait now]) { s with clock := now } := by
  refine ⟨hi.refines, fun p => ?_, ⟨hi.clock.1.trans hn.1, hn.2⟩, fun p => ?_, hi.closed,
    hi.batches, hi.prompt⟩
  · rw [passed_snoc, hi.flat p]
    simp [passed]
  · obtain ⟨hrecent, hordered, hpast⟩ := hi.live p
    exact ⟨hrecent, hordered, fun x hx => (hpast x hx).trans hn.1⟩

theorem open_push {s : State F} {lastTick : Time} {p : UInt32} (ho : Open s lastTick D p)
    (hD : 0 < D) (hlast : lastTick ≤ s.clock) {now : Time} {ev : Event} (hn : s.clock ≤ now)
    (hp : ev.IsOf p) :
    Open { s with trace := traceUpdate s.trace now ev, clock := now } lastTick D p := by
  have hseg : ((traceUpdate s.trace now ev).segments p).current =
      (s.trace.segments p).current ++ [(now, ev)] := by
    simp [traceUpdate, hp]
  obtain ⟨hrecent, hordered, hpast⟩ := ho
  constructor
  all_goals rw [hseg]
  · intro f hf
    cases hc : (s.trace.segments p).current with
    | nil =>
      rw [hc] at hf
      cases hf
      dsimp only
      linarith
    | cons x xs =>
      rw [hc] at hf hrecent
      exact hrecent f (by simpa using hf)
  · intro f hf x hx
    cases hc : (s.trace.segments p).current with
    | nil =>
      rw [hc] at hf hx
      cases hf
      rw [List.nil_append, List.mem_singleton] at hx
      rw [hx]
    | cons y ys =>
      rw [hc] at hf hx hordered hpast
      obtain rfl : y = f := by simpa using hf
      obtain hx | hx := List.mem_append.mp hx
      · exact hordered y rfl x hx
      · rw [List.mem_singleton.mp hx]
        exact (hpast y (by simp)).trans hn
  · intro x hx
    obtain hx | hx := List.mem_append.mp hx
    · exact (hpast x hx).trans hn
    · rw [List.mem_singleton.mp hx]

theorem inv_update (hD : 0 < D) {acts : List Action} {s : State F} (hi : Inv D T0 acts s)
    {now : Time} {ev : Event} (hn : s.clock ≤ now ∧ now ≤ tickTime D T0 (s.ticks + 1)) :
    Inv D T0 (acts ++ [.update now ev])
      { s with trace := traceUpdate s.trace now ev, clock := now } := by
  refine ⟨refines_update hi.refines now ev, fun p => ?_, ⟨hi.clock.1.trans hn.1, hn.2⟩,
    fun p => ?_, fun p => ?_, hi.batches, hi.prompt⟩
  · have hflat := flat_step hi.refines (a := .update now ev) rfl p
    rw [passed_snoc, ← hi.flat p]
    exact hflat
  · by_cases hp : ev.IsOf p
    · exact open_push (hi.live p) hD hi.clock.1 hn.1 hp
    · have hseg : (traceUpdate s.trace now ev).segments p = s.trace.segments p := by
        simp [traceUpdate, hp]
      obtain ⟨hrecent, hordered, hpast⟩ := hi.live p
      constructor
      all_goals rw [hseg]
      · exact hrecent
      · exact hordered
      · exact fun x hx => (hpast x hx).trans hn.1
  · have hclosed : ((traceUpdate s.trace now ev).segments p).closed =
        (s.trace.segments p).closed := by
      by_cases hp : ev.IsOf p <;> simp [traceUpdate, hp]
    rw [hi.closed p]
    exact hclosed.symm

theorem report_of_current {s : State F} (h : Refines D s.trace) {now : Time} {p : UInt32}
    {e : GpuEvent F} (he : (s.trace.ga.windows.lookup p).bind (report now) = some e) :
    ∃ f w, (s.trace.segments p).current.head? = some f ∧ w.windowStart = f.1 ∧
      w.windowStart + D < now ∧ windowOf D (s.trace.segments p).current = some w ∧
      windowEvent (deriveMetrics w) = e := by
  obtain ⟨w, hw, hr⟩ := Option.bind_eq_some_iff.mp he
  obtain ⟨hexp, hevent⟩ := report_eq_some.mp hr
  have hwin := (h.live p).symm.trans hw
  obtain ⟨f, hf, hstart, hend⟩ := windowOf_bounds (h.own_current p) hwin
  rw [hend, ← hstart] at hexp
  exact ⟨f, w, hf, hstart, hexp, hwin, hevent⟩

theorem not_expired_of_none {s : State F} (h : Refines D s.trace) {now : Time} {p : UInt32}
    (hn : (s.trace.ga.windows.lookup p).bind (report now) = none) :
    ∀ f ∈ (s.trace.segments p).current.head?, now ≤ f.1 + D := by
  intro f hf
  obtain ⟨w, hw, hend⟩ := live_of_head h hf
  rw [hw, Option.bind_some, report, ite_eq_right_iff] at hn
  rw [← hend]
  exact not_lt.mp fun hlt => by cases hn hlt

section Tick

variable {acts : List Action} {s : State F} (hi : Inv D T0 acts s) {now : Time}
  {order : List UInt32} (ho : Enumerates order s.trace.ga.windows)
include hi ho

theorem open_tick (hn : s.clock ≤ now) (ticks : Nat) (reports : List (Report F)) (p : UInt32) :
    Open ⟨traceFlush s.trace now order, now, ticks, reports⟩ now D p := by
  have hseg := segments_traceFlush hi.refines now ho p
  cases hr : (s.trace.ga.windows.lookup p).bind (report now) with
  | none =>
    rw [if_pos hr] at hseg
    constructor
    all_goals rw [hseg]
    · exact not_expired_of_none hi.refines hr
    · exact (hi.live p).ordered
    · exact fun x hx => ((hi.live p).past x hx).trans hn
  | some e =>
    have hcut : ((traceFlush s.trace now order).segments p).current = [] := by
      rw [hseg, hr]
      simp
    constructor <;> simp [hcut]

theorem closed_tick (p : UInt32) :
    ((s.reports ++ (batchEvents (flush s.trace.ga now order).2).map (reportOf s now)).filter
        fun r => r.event.pid = p).map Report.counted =
      ((traceFlush s.trace now order).segments p).closed := by
  have hevents := flush_events_of hi.refines.keyedByPid now ho p
  have hpids : ((fun r : Report F => decide (r.event.pid = p)) ∘ reportOf s now) =
      fun e => decide (e.pid = p) := rfl
  rw [List.filter_append, List.map_append, hi.closed p, List.filter_map, List.map_map,
    hpids, hevents, segments_traceFlush hi.refines now ho p]
  cases hr : (s.trace.ga.windows.lookup p).bind (report now) with
  | none => simp
  | some e =>
    obtain ⟨f, w, hf, -, -, hw, he⟩ := report_of_current hi.refines hr
    have hne : (s.trace.segments p).current ≠ [] := fun hc => by simp [hc] at hf
    have hpid : e.pid = p := by
      rw [← he, windowEvent_pid]
      exact hi.refines.keyedByPid p w ((hi.refines.live p).trans hw)
    simp [History.closed_cut _ hne, hpid, reportOf]

theorem prompt_tick (hlast : now = tickTime D T0 s.ticks + D) {e : GpuEvent F}
    (he : e ∈ batchEvents (flush s.trace.ga now order).2) :
    Prompt D (reportOf s now e) := by
  have hmem : e ∈ (batchEvents (flush s.trace.ga now order).2).filter fun x => x.pid = e.pid :=
    List.mem_filter.mpr ⟨he, by simp⟩
  rw [flush_events_of hi.refines.keyedByPid now ho, Option.mem_toList] at hmem
  obtain ⟨f, w, hf, hstart, hexp, hw, hev⟩ := report_of_current hi.refines hmem
  have hrecent := (hi.live e.pid).recent f hf
  refine ⟨⟨w, hw, hev, hexp, ?_⟩, fun x hx => ?_⟩
  · simp only [reportOf]
    linarith
  · have hle := (hi.live e.pid).ordered f hf x hx
    simp only [reportOf]
    linarith

theorem inv_tick (hD : 0 < D) (hnow : now = tickTime D T0 (s.ticks + 1)) :
    Inv D T0 (acts ++ [.tick order])
      { trace := traceFlush s.trace now order
        clock := now
        ticks := s.ticks + 1
        reports := s.reports ++
          (batchEvents (flush s.trace.ga now order).2).map (reportOf s now) } := by
  have hlast : now = tickTime D T0 s.ticks + D := hnow.trans (tickTime_succ D T0 s.ticks)
  refine ⟨refines_flush hi.refines now ho, fun p => ?_, ?_, fun p => ?_, closed_tick hi ho, ?_, ?_⟩
  · rw [passed_snoc, ← hi.flat p, segments_traceFlush hi.refines now ho p]
    split <;> simp [passed]
  · rw [tickTime_succ D T0 (s.ticks + 1), ← hnow]
    exact ⟨le_rfl, by linarith⟩
  · rw [← hnow]
    exact open_tick hi ho (hnow ▸ hi.clock.2) _ _ p
  · rw [List.map_append, List.map_map, hi.batches]
    simp only [traceFlush, List.flatMap_append]
    cases (flush s.trace.ga now order).2 <;> simp [batchEvents, reportOf, Function.comp_def]
  · intro r hr
    obtain hr | hr := List.mem_append.mp hr
    · exact hi.prompt r hr
    · obtain ⟨e, he, rfl⟩ := List.mem_map.mp hr
      exact prompt_tick hi ho hlast he

end Tick

theorem inv_run (hD : 0 < D) {acts : List Action} {s : State F}
    (h : exec (step D T0) (start D T0) acts = some s) : Inv D T0 acts s := by
  refine exec_induction (I := Inv D T0) (inv_start hD T0) ?_ h
  intro as t a u _ hi hs
  cases a with
  | update now ev =>
    rw [step, Option.ite_none_right_eq_some, Option.some.injEq] at hs
    obtain ⟨hn, rfl⟩ := hs
    exact inv_update hD hi hn
  | tick order =>
    rw [step, Option.ite_none_right_eq_some, Option.some.injEq] at hs
    obtain ⟨ho, rfl⟩ := hs
    exact inv_tick hi ho hD rfl
  | wait now =>
    rw [step, Option.ite_none_right_eq_some, Option.some.injEq] at hs
    obtain ⟨hn, rfl⟩ := hs
    exact inv_wait hi hn

/-- Every open window is at most two durations old, every window is reported
more than one duration and at most two after its start, and every event is
reported at most two durations after its update, unless that time has not passed. -/
theorem windows_outlived (D : Duration) (hD : 0 < D) (T0 : Time) (acts : List Action)
    (s : State F) (h : exec (step D T0) (start D T0) acts = some s) :
    (∀ p w, s.trace.ga.windows.lookup p = some w → s.clock ≤ w.windowStart + 2 * D) ∧
      s.reports.map Report.event = s.trace.batches.flatMap GpuBatch.batch ∧
      (∀ r ∈ s.reports, ∃ tw, r.event.payload = .tw tw ∧ tw.windowStartNs + D < r.tick ∧
        r.tick ≤ tw.windowStartNs + 2 * D) ∧
      (∀ r ∈ s.reports,
        (windowOf D r.counted).map (fun w => windowEvent (deriveMetrics w)) = some r.event ∧
          ∀ x ∈ r.counted, r.tick ≤ x.1 + 2 * D) ∧
      ∀ p, ∃ pending, passed p acts =
          (s.reports.filter fun r => r.event.pid = p).flatMap Report.counted ++ pending ∧
        ∀ x ∈ pending, s.clock ≤ x.1 + 2 * D := by
  have hi := inv_run hD h
  have hclock : s.clock ≤ tickTime D T0 s.ticks + D := by
    rw [← tickTime_succ]
    exact hi.clock.2
  refine ⟨fun p w hw => ?_, hi.batches, fun r hr => ?_, fun r hr => ⟨?_, (hi.prompt r hr).counted⟩,
    fun p => ⟨(s.trace.segments p).current, ?_, fun x hx => ?_⟩⟩
  · rw [hi.refines.live p] at hw
    obtain ⟨f, hf, hstart, -⟩ := windowOf_bounds (hi.refines.own_current p) hw
    have hrecent := (hi.live p).recent f hf
    rw [hstart]
    linarith
  · obtain ⟨w, -, he, hlo, hhi⟩ := (hi.prompt r hr).window
    obtain ⟨tw, hpay, hrep⟩ := payload_report w
    rw [← hrep.windowStart] at hlo hhi
    exact ⟨tw, he ▸ hpay, hlo, hhi⟩
  · obtain ⟨w, hw, he, -⟩ := (hi.prompt r hr).window
    rw [hw, Option.map_some, he]
  · rw [← hi.flat p, History.flat, ← hi.closed p, List.flatMap_def]
  · have hf := List.head?_eq_some_head (List.ne_nil_of_mem hx)
    have hrecent := (hi.live p).recent _ hf
    have hle := (hi.live p).ordered _ hf x hx
    linarith

def gridRun : List Action :=
  [.update 10 (sampleLaunch 7 32), .tick [7], .update 10 (sampleLaunch 8 32), .wait 17,
    .update 20 (sampleMemcpy 7 5 1), .tick [8, 7], .tick [8, 7], .update 33 (sampleLaunch 8 1)]

theorem windows_outlived_gridRun :
    ∃ s, exec (step 10 0) (start (F := ℚ) 10 0) gridRun = some s ∧
    (∀ p w, s.trace.ga.windows.lookup p = some w → s.clock ≤ w.windowStart + 2 * 10) ∧
      s.reports.map Report.event = s.trace.batches.flatMap GpuBatch.batch ∧
      (∀ r ∈ s.reports, ∃ tw, r.event.payload = .tw tw ∧ tw.windowStartNs + 10 < r.tick ∧
        r.tick ≤ tw.windowStartNs + 2 * 10) ∧
      (∀ r ∈ s.reports,
        (windowOf 10 r.counted).map (fun w => windowEvent (deriveMetrics w)) = some r.event ∧
          ∀ x ∈ r.counted, r.tick ≤ x.1 + 2 * 10) ∧
      ∀ p, ∃ pending, passed p gridRun =
          (s.reports.filter fun r => r.event.pid = p).flatMap Report.counted ++ pending ∧
        ∀ x ∈ pending, s.clock ≤ x.1 + 2 * 10 := by
  have h : (exec (step 10 0) (start (F := ℚ) 10 0) gridRun).isSome := by decide +kernel
  have hs := (Option.some_get h).symm
  exact ⟨_, hs, windows_outlived 10 (by decide) 0 gridRun _ hs⟩

end InfraSightGpu.WindowTicks
