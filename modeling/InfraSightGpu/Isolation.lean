import InfraSightGpu.Pipeline
import InfraSightGpu.WindowHistory

namespace InfraSightGpu.Isolation

open InfraSightGpu.Events InfraSightGpu.Fingerprint InfraSightGpu.Aggregator
open InfraSightGpu.TimeSeries InfraSightGpu.Pipeline InfraSightGpu.Lib.Maps InfraSightGpu.Lib.Runs

variable {F : Type} [GoFloat F]

/-- A call of `Update` or `Flush`. An update stands where it holds the mutex,
with the clock reading that it takes. -/
inductive Action where
  | update (now : Time) (ev : Event)
  | flush (now : Time) (order : List UInt32)
deriving DecidableEq

/-- A collector, and for every flush what it returned and left behind. -/
structure Trace (F : Type) where
  collector : Collector F
  flushes : List (Option (GpuBatch F) × Collector F)

inductive Kind where
  | gpuAggregator | timeSeriesCollector
deriving DecidableEq

def newCollector (kind : Kind) (t : Duration) (now : Time) : Collector F :=
  match kind with
  | .gpuAggregator => .aggregator (newGPUAggregator t now)
  | .timeSeriesCollector => .timeSeries (newTimeSeriesCollector t)

def start (kind : Kind) (t : Duration) (now : Time) : Trace F where
  collector := newCollector kind t now
  flushes := []

def step (t : Trace F) : Action → Option (Trace F)
  | .update now ev => some { t with collector := t.collector.update now ev }
  | .flush now order => (t.collector.flush now order).map fun (c, batch) =>
      { collector := c, flushes := t.flushes ++ [(batch, c)] }

inductive View where
  | update (now : Time) (ev : Event)
  | flush (now : Time)
deriving DecidableEq

def viewOf (p : UInt32) : Action → Option View
  | .update now ev => if ev.IsOf p then some (.update now ev) else none
  | .flush now _ => some (.flush now)

inductive Share (F : Type) where
  | window (windowDuration : Duration) (w : Option (GPUFingerprint F))
  | buffer (tokens : Option (List (GpuEventToken F))) (comm : Option GoString)

def shareOf (p : UInt32) : Collector F → Share F
  | .aggregator ga => .window ga.windowDuration (ga.windows.lookup p)
  | .timeSeries tc => .buffer (tc.buffers.lookup p) (tc.comms.lookup p)

def shown (p : UInt32) (x : Option (GpuBatch F) × Collector F) : List (GpuEvent F) × Share F :=
  ((batchEvents x.1).filter (fun e => e.pid = p), shareOf p x.2)

/-- The part of a trace that a process may depend on. -/
structure Local (F : Type) where
  share : Share F
  flushes : List (List (GpuEvent F) × Share F)

def localOf (p : UInt32) (t : Trace F) : Local F where
  share := shareOf p t.collector
  flushes := t.flushes.map (shown p)

def Share.update (now : Time) (ev : Event) : Share F → Share F
  | .window d w => .window d (ev.source.elim w fun s =>
      some (record (w.getD (newWindow d now s.1 s.2.toList)) ev))
  | .buffer tokens comm => (prepare now ev).elim (.buffer tokens comm) fun u =>
      .buffer (some (tokens.getD [] ++ [u.token])) (some u.comm)

def Share.flush (p : UInt32) (now : Time) : Share F → List (GpuEvent F) × Share F
  | .window d w => ((w.bind (report now)).toList,
      .window d (if (w.bind (report now)).isSome then none else w))
  | .buffer tokens comm => ((tokens.getD []).map fun tk => tokenEvent p (comm.getD []) tk,
      .buffer none none)

def stepLocal (p : UInt32) (q : Local F) : View → Option (Local F)
  | .update now ev => some { q with share := q.share.update now ev }
  | .flush now => some {
      share := (q.share.flush p now).2
      flushes := q.flushes ++ [q.share.flush p now] }

def Keyed : Collector F → Prop
  | .aggregator ga => KeyedByPid ga
  | .timeSeries _ => True

omit [GoFloat F] in
theorem keyed_new (kind : Kind) (t : Duration) (now : Time) :
    Keyed (newCollector (F := F) kind t now) := by
  cases kind with
  | gpuAggregator => intro p w h; simp [newGPUAggregator] at h
  | timeSeriesCollector => trivial

theorem keyed_update {c : Collector F} (h : Keyed c) (now : Time) (ev : Event) :
    Keyed (c.update now ev) := by
  cases c with
  | timeSeries tc => trivial
  | aggregator ga =>
    intro p w hw
    rw [lookup_update] at hw
    split at hw
    · next pid comm _ =>
      split at hw
      · next hp =>
        cases hw
        rw [(WindowHistory.record_frame _ _).1, hp, windowFor]
        cases hold : ga.windows.lookup pid with
        | none => rfl
        | some w => exact h pid w hold
      · exact h p w hw
    · exact h p w hw

theorem keyed_flush {c c' : Collector F} {batch : Option (GpuBatch F)} (h : Keyed c) {now : Time}
    {order : List UInt32} (hf : c.flush now order = some (c', batch)) : Keyed c' := by
  cases flushes_of_eq_some hf with
  | timeSeries ho => trivial
  | @aggregator ga ho =>
    intro p w hw
    rw [lookup_flush ga now ho] at hw
    split at hw
    · cases hw
    · exact h p w hw

theorem share_update {p : UInt32} {now : Time} {ev : Event} (hp : ev.IsOf p) (c : Collector F) :
    shareOf p (c.update now ev) = (shareOf p c).update now ev := by
  obtain ⟨comm, hs⟩ := WindowHistory.source_of_isOf hp
  cases c with
  | aggregator ga =>
    simp [shareOf, Collector.update, Share.update, lookup_update, windowDuration_update, hs,
      windowFor]
  | timeSeries tc =>
    cases hu : prepare (F := F) now ev with
    | none => simp [shareOf, Collector.update, Share.update, TimeSeries.update, hu]
    | some u =>
      obtain ⟨c, hsu, -, -⟩ := prepare_eq_some.mp hu
      have hpid : u.pid = p := congrArg Prod.fst (Option.some.inj (hsu.symm.trans hs))
      subst hpid
      simp [shareOf, Collector.update, Share.update, TimeSeries.update, hu, commit]

theorem share_update_of_not {p : UInt32} {now : Time} {ev : Event} (hp : ¬ ev.IsOf p)
    (c : Collector F) : shareOf p (c.update now ev) = shareOf p c := by
  cases c with
  | aggregator ga =>
    have hlook : (Aggregator.update ga now ev).windows.lookup p = ga.windows.lookup p := by
      rw [lookup_update]
      split
      · next pid comm hs => exact if_neg fun he => hp (by simp [Event.IsOf, hs, he])
      · rfl
    simp [shareOf, Collector.update, windowDuration_update, hlook]
  | timeSeries tc =>
    cases hu : prepare (F := F) now ev with
    | none => simp [shareOf, Collector.update, TimeSeries.update, hu]
    | some u =>
      obtain ⟨c, hs, -, -⟩ := prepare_eq_some.mp hu
      have hne : p ≠ u.pid := fun he => hp (by simp [Event.IsOf, hs, he])
      simp [shareOf, Collector.update, TimeSeries.update, hu, commit, hne]

theorem share_flush {c c' : Collector F} {batch : Option (GpuBatch F)} (h : Keyed c) {now : Time}
    {order : List UInt32} (hf : c.flush now order = some (c', batch)) (p : UInt32) :
    shown p (batch, c') = (shareOf p c).flush p now := by
  cases flushes_of_eq_some hf with
  | @aggregator ga ho =>
    simp only [shown, shareOf, Share.flush, Aggregator.flush_events_of h now ho,
      lookup_flush ga now ho, (Aggregator.flush_fst ga now order).2]
  | @timeSeries tc ho =>
    have hempty : (TimeSeries.flush tc order).1.buffers = ∅ ∧
        (TimeSeries.flush tc order).1.comms = ∅ := by
      unfold TimeSeries.flush
      dsimp only
      split <;> exact ⟨rfl, rfl⟩
    simp [shown, shareOf, Share.flush, TimeSeries.flush_events_of tc ho, hempty, held]

theorem keyed_step {t u : Trace F} {a : Action} (h : Keyed t.collector)
    (hs : step t a = some u) : Keyed u.collector := by
  cases a with
  | update now ev =>
    cases hs
    exact keyed_update h now ev
  | flush now order =>
    obtain ⟨⟨c, batch⟩, hf, rfl⟩ := Option.map_eq_some_iff.mp hs
    exact keyed_flush h hf

/-- One step of a collector is a step, or no step, of the collector that knows
one process only. -/
theorem local_step {t u : Trace F} {a : Action} (h : Keyed t.collector) (hs : step t a = some u)
    (p : UInt32) : exec (stepLocal p) (localOf p t) (viewOf p a).toList = some (localOf p u) := by
  cases a with
  | update now ev =>
    cases hs
    by_cases hp : ev.IsOf p
    · simp [viewOf, hp, stepLocal, localOf, share_update hp]
    · simp [viewOf, hp, localOf, share_update_of_not hp]
  | flush now order =>
    obtain ⟨⟨c, batch⟩, hf, rfl⟩ := Option.map_eq_some_iff.mp hs
    have hshown := share_flush h hf p
    simp only [viewOf, Option.toList_some, exec_cons, exec_nil, stepLocal, localOf,
      Option.bind_some, List.map_append, List.map_singleton, ← hshown]
    rfl

/-- What a process is reported to do depends on its own updates and on when the
flushes come, and on nothing that other processes do. -/
theorem reports_isolated (kind : Kind) (d : Duration) (now now' : Time) (acts acts' : List Action)
    (t t' : Trace F) (h : exec step (start kind d now) acts = some t)
    (h' : exec step (start kind d now') acts' = some t') (p : UInt32)
    (hviews : acts.filterMap (viewOf p) = acts'.filterMap (viewOf p)) :
    t.flushes.map (shown p) = t'.flushes.map (shown p) ∧
      shareOf p t.collector = shareOf p t'.collector := by
  have hstart : localOf (F := F) p (start kind d now) = localOf p (start kind d now') := by
    cases kind <;> rfl
  have hlocal : localOf p t = localOf p t' :=
    proj_eq_of_views_eq (I := fun t => Keyed t.collector) (fun _ _ _ => keyed_step)
      (fun _ _ _ hk hs => local_step hk hs p) (keyed_new kind d now) (keyed_new kind d now')
      hstart h h' hviews
  rw [localOf, localOf, Local.mk.injEq] at hlocal
  exact ⟨hlocal.2, hlocal.1⟩

def aloneRun : List Action :=
  [.update 1 (sampleLaunch 7 32), .flush 2 [7], .update 3 (sampleMemcpy 7 100 0), .flush 9 [7]]

def busyRun : List Action :=
  [.update 0 (sampleLaunch 8 1), .update 1 (sampleLaunch 7 32), .flush 2 [7, 8], .update 2 .other,
    .update 3 (sampleMemcpy 7 100 0), .update 4 (sampleLaunch 9 1), .flush 9 [9, 8, 7]]

theorem reports_isolated_busyRun : ∃ t t',
    exec step (start (F := ℚ) .gpuAggregator 2 0) aloneRun = some t ∧
      exec step (start (F := ℚ) .gpuAggregator 2 5) busyRun = some t' ∧
      t.flushes.map (shown 7) = t'.flushes.map (shown 7) ∧
      shareOf 7 t.collector = shareOf 7 t'.collector := by
  have h : (exec step (start (F := ℚ) .gpuAggregator 2 0) aloneRun).isSome := by decide +kernel
  have h' : (exec step (start (F := ℚ) .gpuAggregator 2 5) busyRun).isSome := by decide +kernel
  have ht := (Option.some_get h).symm
  have ht' := (Option.some_get h').symm
  exact ⟨_, _, ht, ht',
    reports_isolated .gpuAggregator 2 0 5 aloneRun busyRun _ _ ht ht' 7 (by decide +kernel)⟩

end InfraSightGpu.Isolation
