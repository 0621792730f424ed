import InfraSightGpu.WindowTimes

namespace InfraSightGpu.WindowSpans

open InfraSightGpu.Events InfraSightGpu.Fingerprint InfraSightGpu.Aggregator
open InfraSightGpu.Lib.Maps InfraSightGpu.Lib.Runs InfraSightGpu.Lib.Segments
open InfraSightGpu.WindowHistory InfraSightGpu.WindowTotals InfraSightGpu.WindowTimes

variable {F : Type} [GoFloat F]

def eventSpan (e : GpuEvent F) : Option (Time × Time) :=
  match e.payload with
  | .tw tw => some (tw.windowStartNs, tw.windowEndNs)
  | .token _ => none

def spansOf (p : UInt32) (t : Trace F) : List (Option (Time × Time)) :=
  (emitted p t).map eventSpan ++
    ((t.ga.windows.lookup p).map fun w => some (w.windowStart, w.windowEnd)).toList

/-- A flush reports and removes the window of a process if it has expired, and
leaves it as it is otherwise. -/
def FlushesExpired (ga : GPUAggregator F) (now : Time) (order : List UInt32) (p : UInt32) : Prop :=
  let events := (batchEvents (flush ga now order).2).filter fun e => e.pid = p
  let after := (flush ga now order).1.windows.lookup p
  match ga.windows.lookup p with
  | some w =>
    if w.windowEnd < now then events = [windowEvent (deriveMetrics w)] ∧ after = none
    else events = [] ∧ after = some w
  | none => events = [] ∧ after = none

theorem flushesExpired {ga : GPUAggregator F} (hk : KeyedByPid ga) (now : Time)
    {order : List UInt32} (h : Enumerates order ga.windows) (p : UInt32) :
    FlushesExpired ga now order p := by
  rw [FlushesExpired, flush_events_of hk now h p, lookup_flush ga now h p]
  cases hw : ga.windows.lookup p with
  | none => exact ⟨rfl, rfl⟩
  | some w =>
    by_cases hexp : w.windowEnd < now
    · simp [report, hexp]
    · simp [report, hexp]

theorem length_batch_le {ga : GPUAggregator F} (hk : KeyedByPid ga) (now : Time)
    {order : List UInt32} (h : Enumerates order ga.windows) (p : UInt32) :
    ((batchEvents (flush ga now order).2).filter fun e => e.pid = p).length ≤ 1 := by
  rw [flush_events_of hk now h p]
  exact Option.length_toList_le

theorem eventSpan_report (w : GPUFingerprint F) :
    eventSpan (windowEvent (deriveMetrics w)) = some (w.windowStart, w.windowEnd) := by
  obtain ⟨tw, hpay, hrep⟩ := payload_report w
  rw [eventSpan, hpay, ← hrep.windowStart, ← hrep.windowEnd]

def segmentSpan (D : Duration) (seg : List Timed) : Option (Time × Time) :=
  seg.head?.map fun f => (f.1, f.1 + D)

theorem span_windowOf {D : Duration} {p : UInt32} {seg : List Timed} (hne : seg ≠ [])
    (hseg : ∀ x ∈ seg, x.2.IsOf p) :
    (windowOf (F := F) D seg).map (fun w => (w.windowStart, w.windowEnd)) = segmentSpan D seg := by
  have hsum := summary_windowOf (F := F) (D := D) hne hseg
  obtain ⟨w, hw, -⟩ := Option.map_eq_some_iff.mp hsum
  obtain ⟨f, hf, hs, he⟩ := windowOf_bounds hseg hw
  rw [hw, segmentSpan, hf, Option.map_some, Option.map_some, hs, he]

theorem spansOf_eq {D : Duration} {t : Trace F} (h : Refines D t) (p : UInt32) :
    spansOf p t = (t.segments p).all.map (segmentSpan D) := by
  rw [spansOf, windows_eq eventSpan_report h p]
  apply List.map_congr_left
  intro seg hm
  exact span_windowOf ((t.segments p).all_ne seg hm)
    fun x hx => h.own p x (History.mem_flat_of_mem hm hx)

def Before (D : Duration) (seg seg' : List Timed) : Prop :=
  ∀ f ∈ seg.head?, ∀ g ∈ seg'.head?, f.1 + D < g.1

structure Spaced (D : Duration) (acts : List Action) (t : Trace F) : Prop where
  ordered : ∀ p, (t.segments p).all.Pairwise (Before D)
  expired : ∀ p, ∀ seg ∈ (t.segments p).closed, ∀ f ∈ seg.head?, ∃ a ∈ acts, f.1 + D < a.now

theorem pairwise_all_push {D : Duration} {s : History Timed} {x : Timed}
    (h : s.all.Pairwise (Before D)) (hx : ∀ seg ∈ s.closed, ∀ f ∈ seg.head?, f.1 + D < x.1) :
    (s.push x).all.Pairwise (Before D) := by
  have hall : (s.push x).all = s.closed ++ [s.current ++ [x]] := by simp [History.all]
  obtain ⟨hclosed, -, hcross⟩ := List.pairwise_append.mp h
  rw [hall, List.pairwise_append]
  refine ⟨hclosed, List.pairwise_singleton _ _, fun seg hseg last hlast => ?_⟩
  rw [List.mem_singleton.mp hlast]
  intro f hf g hg
  by_cases hc : s.current = []
  · simp only [hc, List.nil_append, List.head?_cons, Option.mem_def, Option.some.injEq] at hg
    exact hg ▸ hx seg hseg f hf
  · rw [List.head?_append_of_ne_nil _ hc] at hg
    exact hcross seg hseg s.current (by simp [hc]) f hf g hg

theorem spaced_update {D : Duration} {acts : List Action} {t : Trace F} (h : Spaced D acts t)
    {now : Time} {ev : Event} (hclock : Clocked (acts ++ [.update now ev])) :
    Spaced D (acts ++ [.update now ev]) (traceUpdate t now ev) := by
  have hlater : ∀ p, ∀ seg ∈ (t.segments p).closed, ∀ f ∈ seg.head?, f.1 + D < now := by
    intro p seg hseg f hf
    obtain ⟨a, ha, hlt⟩ := h.expired p seg hseg f hf
    have hle : a.now ≤ now :=
      (List.pairwise_append.mp hclock).2.2 a ha (.update now ev) (by simp)
    exact lt_of_lt_of_le hlt hle
  constructor
  · intro p
    by_cases hp : ev.IsOf p
    · simpa [traceUpdate, hp] using pairwise_all_push (x := (now, ev)) (h.ordered p) (hlater p)
    · simpa [traceUpdate, hp] using h.ordered p
  · intro p seg hseg f hf
    refine ⟨.update now ev, by simp, hlater p seg ?_ f hf⟩
    by_cases hp : ev.IsOf p <;> simpa [traceUpdate, hp] using hseg

theorem spaced_flush {D : Duration} {acts : List Action} {t : Trace F} (hr : Refines D t)
    (h : Spaced D acts t) (now : Time) {order : List UInt32}
    (ho : Enumerates order t.ga.windows) :
    Spaced D (acts ++ [.flush now order]) (traceFlush t now order) := by
  have hold : ∀ p, ∀ seg ∈ (t.segments p).closed, ∀ f ∈ seg.head?,
      ∃ a ∈ acts ++ [.flush now order], f.1 + D < a.now := by
    intro p seg hseg f hf
    obtain ⟨a, ha, hlt⟩ := h.expired p seg hseg f hf
    exact ⟨a, List.mem_append_left _ ha, hlt⟩
  constructor
  · intro p
    rw [segments_traceFlush hr now ho]
    split
    · exact h.ordered p
    · rw [History.all_cut]
      exact h.ordered p
  · intro p seg hseg f hf
    rw [segments_traceFlush hr now ho] at hseg
    split at hseg
    · exact hold p seg hseg f hf
    · next hsome =>
      obtain ⟨e, he⟩ := Option.ne_none_iff_exists'.mp hsome
      obtain ⟨w, hw, hrep⟩ := Option.bind_eq_some_iff.mp he
      obtain ⟨hexp, -⟩ := report_eq_some.mp hrep
      have hne : (t.segments p).current ≠ [] := by
        intro hc
        rw [hr.live p, hc] at hw
        cases hw
      rw [History.closed_cut _ hne] at hseg
      obtain hseg | hseg := List.mem_append.mp hseg
      · exact hold p seg hseg f hf
      · rw [List.mem_singleton.mp hseg] at hf
        obtain ⟨w', hw', hend⟩ := live_of_head hr hf
        obtain rfl : w = w' := Option.some.inj (hw.symm.trans hw')
        exact ⟨.flush now order, by simp, hend ▸ hexp⟩

theorem spaced_run {D : Duration} {now : Time} {acts : List Action} {t : Trace F}
    (h : exec step (start D now) acts = some t) (hclock : Clocked acts) : Spaced D acts t := by
  refine exec_induction (I := fun acts t => Clocked acts → Spaced D acts t) ?_ ?_ h hclock
  · intro _
    exact ⟨fun p => by simp [start, History.all, History.empty],
      fun p => by simp [start, History.empty]⟩
  · intro as t a u hr ih hs hcl
    have hold := ih (List.pairwise_append.mp hcl).1
    cases a with
    | update now ev =>
      cases hs
      exact spaced_update hold hcl
    | flush now order =>
      obtain ⟨ho, rfl⟩ := step_flush.mp hs
      exact spaced_flush (refines_run hr) hold now ho

theorem batches_run {D : Duration} {now : Time} {acts : List Action} {t : Trace F}
    (h : exec step (start D now) acts = some t) :
    ∀ b ∈ t.batches, ∀ p, (b.batch.filter fun e => e.pid = p).length ≤ 1 := by
  refine exec_induction (I := fun _ t => ∀ b ∈ t.batches, ∀ p,
    (b.batch.filter fun e => e.pid = p).length ≤ 1) (by simp [start]) ?_ h
  intro as t a u hr ih hs
  cases a with
  | update now ev =>
    cases hs
    exact ih
  | flush now order =>
    obtain ⟨ho, rfl⟩ := step_flush.mp hs
    intro b hb p
    obtain hb | hb := List.mem_append.mp hb
    · exact ih b hb p
    · have hbatch : (flush t.ga now order).2 = some b := Option.mem_toList.mp hb
      have hle := length_batch_le (refines_run hr).keyedByPid now ho p
      rw [hbatch] at hle
      exact hle

/-- The windows of a process are intervals of the configured length that follow
each other without touching, each flush returns at most one of them, and a flush
returns and removes exactly the windows that have ended. -/
theorem windows_disjoint (D : Duration) (now : Time) (acts : List Action) (t : Trace F)
    (h : exec step (start D now) acts = some t) (hclock : Clocked acts) :
    (∀ b ∈ t.batches, ∀ p, (b.batch.filter fun e => e.pid = p).length ≤ 1) ∧
      (∀ p, ∃ spans : List (Time × Time), spansOf p t = spans.map some ∧
        (∀ s ∈ spans, s.2 = s.1 + D) ∧ spans.Pairwise fun a b => a.2 < b.1) ∧
      ∀ now' order, Enumerates order t.ga.windows → ∀ p, FlushesExpired t.ga now' order p := by
  have hr := refines_run h
  refine ⟨batches_run h, fun p => ?_, fun now' order ho p =>
    flushesExpired hr.keyedByPid now' ho p⟩
  refine ⟨(t.segments p).all.filterMap (segmentSpan D), ?_, ?_, ?_⟩
  · rw [spansOf_eq hr p]
    have hsome : ∀ seg ∈ (t.segments p).all,
        (segmentSpan D seg).map some = some (segmentSpan D seg) := by
      intro seg hm
      rw [segmentSpan, List.head?_eq_some_head ((t.segments p).all_ne seg hm)]
      rfl
    rw [List.map_filterMap, List.filterMap_congr hsome, List.filterMap_eq_map']
  · intro s hs
    obtain ⟨seg, -, hseg⟩ := List.mem_filterMap.mp hs
    obtain ⟨f, -, rfl⟩ := Option.map_eq_some_iff.mp hseg
    rfl
  · refine List.Pairwise.filterMap _ ?_ ((spaced_run h hclock).ordered p)
    intro seg seg' hbefore a ha b hb
    obtain ⟨f, hf, rfl⟩ := Option.map_eq_some_iff.mp ha
    obtain ⟨g, hg, rfl⟩ := Option.map_eq_some_iff.mp hb
    exact hbefore f hf g hg

theorem windows_disjoint_mixedRun : ∃ t, exec step (start (F := ℚ) 2 0) mixedRun = some t ∧
    (∀ b ∈ t.batches, ∀ p, (b.batch.filter fun e => e.pid = p).length ≤ 1) ∧
      (∀ p, ∃ spans : List (Time × Time), spansOf p t = spans.map some ∧
        (∀ s ∈ spans, s.2 = s.1 + 2) ∧ spans.Pairwise fun a b => a.2 < b.1) ∧
      ∀ now' order, Enumerates order t.ga.windows → ∀ p, FlushesExpired t.ga now' order p := by
  have h : (exec step (start (F := ℚ) 2 0) mixedRun).isSome := by decide +kernel
  have ht := (Option.some_get h).symm
  exact ⟨_, ht, windows_disjoint 2 0 mixedRun _ ht (by decide)⟩

end InfraSightGpu.WindowSpans
