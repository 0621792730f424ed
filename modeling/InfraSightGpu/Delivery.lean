import InfraSightGpu.System
import InfraSightGpu.TracerOrder

namespace InfraSightGpu.Delivery

open InfraSightGpu.Events InfraSightGpu.Fingerprint InfraSightGpu.TimeSeries
open InfraSightGpu.Pipeline InfraSightGpu.System InfraSightGpu.TracerOrder
open InfraSightGpu.Lib.Maps InfraSightGpu.Lib.Runs InfraSightGpu.Lib.Segments

variable {F Loader : Type} {n : Nat}

def flushed (t : Tracer.State F n) : Kind → List (Option (GpuBatch F))
  | .windows => t.windows.batches.map some
  | .series => t.series.returned.filter Option.isSome

/-- The batches of a collector on the way to the client, oldest first. -/
def onTheWay (c : Loader × Kind) (s : System.State F n Loader) :
    List (Parcel F (Loader × Kind)) :=
  inTransit Prod.fst c s.pipeline

def eventsIn (p : UInt32) (bs : List (Option (GpuBatch F))) : List (GpuEvent F) :=
  (bs.flatMap batchEvents).filter fun e => e.pid = p

def tokensIn (p : UInt32) (bs : List (Option (GpuBatch F))) : List (GpuEventToken F) :=
  (eventsIn p bs).filterMap TokenHistory.eventToken

theorem eventsIn_append (p : UInt32) (bs cs : List (Option (GpuBatch F))) :
    eventsIn p (bs ++ cs) = eventsIn p bs ++ eventsIn p cs := by
  simp [eventsIn]

theorem tokensIn_append (p : UInt32) (bs cs : List (Option (GpuBatch F))) :
    tokensIn p (bs ++ cs) = tokensIn p bs ++ tokensIn p cs := by
  simp [tokensIn, eventsIn_append]

theorem eventsIn_filter (p : UInt32) (bs : List (Option (GpuBatch F))) :
    eventsIn p (bs.filter Option.isSome) = eventsIn p bs := by
  induction bs with
  | nil => rfl
  | cons b bs ih =>
    cases b with
    | none => simpa [eventsIn, batchEvents] using ih
    | some b =>
      simp only [eventsIn, List.filter_cons, Option.isSome_some, if_true, List.flatMap_cons,
        List.filter_append]
      exact congrArg (_ ++ ·) ih

theorem eventsIn_map_some (p : UInt32) (bs : List (GpuBatch F)) :
    eventsIn p (bs.map some) = (bs.flatMap GpuBatch.batch).filter fun e => e.pid = p := by
  simp only [eventsIn, List.flatMap_map]
  rfl

variable [DecidableEq Loader]

theorem pipeline_withTracer (s : System.State F n Loader) (l : Loader) (k : Kind)
    {t : Tracer.State F n}
    (hother : ∀ k', k' ≠ k → collectorOf t k' = collectorOf (s.tracer l) k') :
    (s.withTracer l t).pipeline = { s.pipeline with
      collector := Function.update s.pipeline.collector (l, k) (collectorOf t k) } := by
  have hcol : (s.withTracer l t).pipeline.collector =
      Function.update s.pipeline.collector (l, k) (collectorOf t k) := by
    funext c
    obtain ⟨l', k'⟩ := c
    by_cases hl : l' = l
    · subst hl
      by_cases hk : k' = k
      · subst hk
        simp [State.pipeline, State.withTracer]
      · have hne : (l', k') ≠ (l', k) := fun h => hk (congrArg Prod.snd h)
        rw [Function.update_of_ne hne]
        simpa [State.pipeline, State.withTracer] using hother k' hk
    · have hne : (l', k') ≠ (l, k) := fun h => hl (congrArg Prod.fst h)
      rw [Function.update_of_ne hne]
      simp [State.pipeline, State.withTracer, hl]
  rw [← hcol]
  rfl

theorem pipeline_same (s : System.State F n Loader) (l : Loader) {t : Tracer.State F n}
    (h : ∀ k, collectorOf t k = collectorOf (s.tracer l) k) :
    (s.withTracer l t).pipeline = s.pipeline := by
  have hself : Function.update s.pipeline.collector (l, .windows) (collectorOf t .windows) =
      s.pipeline.collector := by
    rw [h]
    exact Function.update_eq_self _ _
  rw [pipeline_withTracer s l .windows fun k _ => h k, hself]

variable [GoFloat F]

theorem collector_of_handover {q p : Pipeline.State F Loader (Loader × Kind)}
    {a : Pipeline.Action Loader (Loader × Kind)} (ha : isHandover a)
    (h : Pipeline.step Prod.fst q a = some p) :
    p.collector = q.collector ∧ p.returned = q.returned := by
  cases Pipeline.steps_of_eq_some h with
  | update | quietTick | tick | startLoader => cases ha
  | startCollector | stopRunner | handToForwarder | stopForwarder | handToLoader | stopLoader
  | enqueue | dequeue | keepSending | giveUp | stopClient | cancel => exact ⟨rfl, rfl⟩

theorem collector_of_tick {q p : Pipeline.State F Loader (Loader × Kind)} {c : Loader × Kind}
    {now : Time} {order : List UInt32}
    (h : Pipeline.step Prod.fst q (.tick c now order) = some p) :
    ∃ col batch, (q.collector c).flush now order = some (col, batch) ∧
      p.collector = Function.update q.collector c col ∧
      p.returned = Function.update q.returned c (q.returned c ++ [batch]) := by
  cases Pipeline.steps_of_eq_some h with
  | quietTick hr hflush => exact ⟨_, _, hflush, rfl, rfl⟩
  | tick hr hflush => exact ⟨_, _, hflush, rfl, rfl⟩

theorem flush_trace {t u : Tracer.State F n} {now : Time} {order : List UInt32} {k : Kind}
    {col : Collector F} {batch : Option (GpuBatch F)}
    (ht : Tracer.step t (flushAction now order k) = some u)
    (hflush : (collectorOf t k).flush now order = some (col, batch)) :
    collectorOf u k = col ∧ (∀ k', k' ≠ k → collectorOf u k' = collectorOf t k') ∧
      flushed u k = flushed t k ++ [batch].filter Option.isSome ∧
      ∀ k', k' ≠ k → flushed u k' = flushed t k' := by
  cases k with
  | windows =>
    cases TracerOrder.steps_of_eq_some ht with
    | flushWindows ho =>
    cases flushes_of_eq_some hflush with
    | aggregator ho' =>
    have hother : ∀ k' : Kind, k' ≠ .windows → k' = .series := by
      rintro (_ | _) hk
      · exact absurd rfl hk
      · rfl
    refine ⟨rfl, fun k' hk => ?_, ?_, fun k' hk => ?_⟩
    · rw [hother k' hk]
      rfl
    · cases hb : (Aggregator.flush t.windows.ga now order).2 <;>
        simp [flushed, WindowHistory.traceFlush, hb]
    · rw [hother k' hk]
      rfl
  | series =>
    cases TracerOrder.steps_of_eq_some ht with
    | flushSeries ho =>
    cases flushes_of_eq_some hflush with
    | timeSeries ho' =>
    have hother : ∀ k' : Kind, k' ≠ .series → k' = .windows := by
      rintro (_ | _) hk
      · rfl
      · exact absurd rfl hk
    refine ⟨rfl, fun k' hk => ?_, ?_, fun k' hk => ?_⟩
    · rw [hother k' hk]
      rfl
    · rw [flushed, flushed, List.filter_append]
    · rw [hother k' hk]
      rfl

theorem collectors_of_trace {t u : Tracer.State F n} {a : Tracer.Action n}
    (h : Tracer.step t a = some u) (hflush : ∀ now order k, a ≠ flushAction now order k) :
    flushed u = flushed t ∧
      ((∀ k, collectorOf u k = collectorOf t k) ∨
        (∃ now ev, collectorOf u .windows = (collectorOf t .windows).update now ev ∧
          collectorOf u .series = collectorOf t .series) ∨
        ∃ v, t.series.pending = some v ∧ collectorOf u .windows = collectorOf t .windows ∧
          collectorOf u .series = .timeSeries (commit t.series.tc v)) := by
  cases TracerOrder.steps_of_eq_some h with
  | program | read hr hring | stampToken hr hp =>
    refine ⟨by funext k; cases k <;> rfl, .inl fun k => ?_⟩
    cases k <;> rfl
  | @updateWindows now ev hr =>
    exact ⟨by funext k; cases k <;> rfl, .inr (.inl ⟨now, ev, rfl, rfl⟩)⟩
  | @commitToken v hr hp =>
    exact ⟨by funext k; cases k <;> rfl, .inr (.inr ⟨v, hp, rfl, rfl⟩)⟩
  | @flushWindows now order ho => exact absurd rfl (hflush now order .windows)
  | @flushSeries order ho => exact absurd rfl (hflush 0 order .series)

theorem pipeline_of_trace {s : System.State F n Loader} {l : Loader} {t : Tracer.State F n}
    {a : Tracer.Action n} (hi : Ordered (s.tracer l)) (ht : Tracer.step (s.tracer l) a = some t)
    (hflush : ∀ now order k, a ≠ flushAction now order k) :
    ∃ bs, exec (Pipeline.step Prod.fst) s.pipeline bs = some (s.withTracer l t).pipeline := by
  obtain ⟨-, hsame | ⟨now, ev, hwin, hser⟩ | ⟨v, hv, hwin, hser⟩⟩ := collectors_of_trace ht hflush
  · exact ⟨[], by rw [pipeline_same s l hsame, exec_nil]⟩
  · refine ⟨[.update (l, .windows) now ev], ?_⟩
    have hother : ∀ k', k' ≠ Kind.windows → collectorOf t k' = collectorOf (s.tracer l) k' := by
      rintro (_ | _) hk
      · exact absurd rfl hk
      · exact hser
    rw [pipeline_withTracer s l .windows hother, hwin]
    rfl
  · obtain ⟨now, ev, hprepare⟩ := hi.prepared v hv
    refine ⟨[.update (l, .series) now ev], ?_⟩
    have hother : ∀ k', k' ≠ Kind.series → collectorOf t k' = collectorOf (s.tracer l) k' := by
      rintro (_ | _) hk
      · exact hwin
      · exact absurd rfl hk
    have hupdate : (s.pipeline.collector (l, .series)).update now ev =
        .timeSeries (commit (s.tracer l).series.tc v) := by
      simp [State.pipeline, collectorOf, Collector.update, TimeSeries.update, hprepare]
    rw [pipeline_withTracer s l .series hother, hser, exec_cons, Pipeline.step, hupdate]
    rfl

omit [DecidableEq Loader] [GoFloat F] in
theorem pipeline_withPipeline {s : System.State F n Loader}
    {p : Pipeline.State F Loader (Loader × Kind)} (h : p.collector = s.pipeline.collector) :
    (s.withPipeline p).pipeline = p := by
  have heq : (s.withPipeline p).pipeline = { p with collector := s.pipeline.collector } := rfl
  rw [heq, ← h]

/-- A step of the program is none, one or an `Update` of the pipeline. -/
theorem pipeline_step {s u : System.State F n Loader} {a : System.Action n Loader}
    (hi : ∀ l, Ordered (s.tracer l)) (h : System.step s a = some u) :
    ∃ bs, exec (Pipeline.step Prod.fst) s.pipeline bs = some u.pipeline := by
  cases System.steps_of_eq_some h with
  | select | readError => exact ⟨[], rfl⟩
  | program ht | updateWindows ht | stampToken ht | commitToken ht | read hl ht =>
    exact pipeline_of_trace (hi _) ht (by rintro now order (_ | _) <;> simp [flushAction])
  | @tick c now order p t hp ht =>
    refine ⟨[.tick c now order], ?_⟩
    obtain ⟨col, batch, hflush, hcol, -⟩ := collector_of_tick hp
    obtain ⟨hk, hother, -⟩ := flush_trace ht hflush
    have hpipe : ((s.withPipeline p).withTracer c.1 t).pipeline = p := by
      rw [pipeline_withTracer (s.withPipeline p) c.1 c.2 hother, hk]
      change { p with collector := Function.update s.pipeline.collector c col } = p
      rw [← hcol]
    rw [exec_cons, hp, hpipe]
    rfl
  | @startLoader l p hp =>
    refine ⟨[.startLoader l], ?_⟩
    have hcol : p.collector = s.pipeline.collector := by
      cases Pipeline.steps_of_eq_some hp with
      | startLoader => rfl
    rw [exec_cons, hp]
    exact congrArg some (pipeline_withPipeline hcol).symm
  | @pipeline a p ha hp =>
    refine ⟨[a], ?_⟩
    rw [exec_cons, hp, pipeline_withPipeline (collector_of_handover ha hp).1]
    rfl

theorem flushed_step {s u : System.State F n Loader} {a : System.Action n Loader}
    (hm : ∀ c, (s.returned c).filter Option.isSome = flushed (s.tracer c.1) c.2)
    (h : System.step s a = some u) (c : Loader × Kind) :
    (u.returned c).filter Option.isSome = flushed (u.tracer c.1) c.2 := by
  have htrace : ∀ l t b, Tracer.step (s.tracer l) b = some t →
      (∀ now order k, b ≠ flushAction now order k) →
      (s.returned c).filter Option.isSome =
        flushed ((s.withTracer l t).tracer c.1) c.2 := by
    intro l t b ht hb
    rw [hm c]
    by_cases hl : c.1 = l
    · subst hl
      rw [State.tracer_self, (collectors_of_trace ht hb).1]
    · rw [State.tracer_of_ne s hl]
  cases System.steps_of_eq_some h with
  | select | readError => exact hm c
  | program ht | updateWindows ht | stampToken ht | commitToken ht | read hl ht =>
    exact htrace _ _ _ ht (by rintro now order (_ | _) <;> simp [flushAction])
  | @tick d now order p t hp ht =>
    obtain ⟨col, batch, hflush, -, hreturned⟩ := collector_of_tick hp
    obtain ⟨-, -, hown, hother⟩ := flush_trace ht hflush
    change (p.returned c).filter Option.isSome = _
    rw [hreturned]
    by_cases hc : c = d
    · subst hc
      rw [Function.update_self, State.tracer_self, hown, List.filter_append]
      exact congrArg (· ++ _) (hm c)
    · rw [Function.update_of_ne hc]
      by_cases hl : c.1 = d.1
      · have hk : c.2 ≠ d.2 := fun hk => hc (Prod.ext hl hk)
        rw [hl, State.tracer_self, hother c.2 hk, ← hl]
        exact hm c
      · rw [State.tracer_of_ne _ hl]
        exact hm c
  | @startLoader l p hp =>
    cases Pipeline.steps_of_eq_some hp with
    | startLoader => exact hm c
  | @pipeline a p ha hp =>
    change (p.returned c).filter Option.isSome = _
    rw [(collector_of_handover ha hp).2]
    exact hm c

section Runs

variable {timeWindow : Duration} {now : Loader → Time} {acts : List (System.Action n Loader)}
  {s : System.State F n Loader}
  (h : exec System.step (System.start F n timeWindow now) acts = some s)
include h

theorem ordered_tracer (l : Loader) : Ordered (s.tracer l) := ordered_run (tracer_run h l)

theorem flushed_run (c : Loader × Kind) :
    (s.returned c).filter Option.isSome = flushed (s.tracer c.1) c.2 :=
  exec_induction (I := fun _ s => ∀ c : Loader × Kind,
      (s.returned c).filter Option.isSome = flushed (s.tracer c.1) c.2)
    (by rintro ⟨l, _ | _⟩ <;> rfl) (fun _ _ _ _ _ hm hs => flushed_step hm hs) h c

/-- Behind the collectors, the program runs as a pipeline. -/
theorem pipeline_run : ∃ bs, exec (Pipeline.step Prod.fst)
    (Pipeline.start Loader fun c => collectorOf
      (Tracer.start (F := F) n timeWindow seriesInterval (now c.1)) c.2) bs = some s.pipeline :=
  exec_simulate (g := State.pipeline)
    (I := fun s => ∃ acts, exec System.step (System.start F n timeWindow now) acts = some s)
    (fun _ a _ ⟨as, hr⟩ hs => ⟨as ++ [a], exec_snoc_eq_some.mpr ⟨_, hr, hs⟩⟩)
    (fun _ _ _ ⟨_, hr⟩ hs => pipeline_step (fun l => ordered_run (tracer_run hr l)) hs)
    ⟨[], rfl⟩ h

/-- The batches of a collector are those that were sent, in the order of the
flushes, followed by those on the way. -/
theorem flushed_eq (c : Loader × Kind) : flushed (s.tracer c.1) c.2 =
    batchesOf c s.sent ++ batchesOf c (onTheWay c s) := by
  obtain ⟨bs, hbs⟩ := pipeline_run h
  rw [← flushed_run h c]
  exact (inv_run hbs).order c

theorem tokens_flushed (l : Loader) (p : UInt32) :
    TokenHistory.flushedTokens p (s.tracer l).series =
      tokensIn p (batchesOf (l, .series) s.sent) ++
        tokensIn p (batchesOf (l, .series) (onTheWay (l, .series) s)) := by
  have heq := flushed_eq h (l, .series)
  rw [← tokensIn_append, ← heq, flushed, tokensIn, eventsIn_filter]
  rfl

theorem windows_flushed (l : Loader) (p : UInt32) :
    WindowHistory.emitted p (s.tracer l).windows =
      eventsIn p (batchesOf (l, .windows) s.sent) ++
        eventsIn p (batchesOf (l, .windows) (onTheWay (l, .windows) s)) := by
  have heq := flushed_eq h (l, .windows)
  rw [← eventsIn_append, ← heq, flushed, eventsIn_map_some]
  rfl

theorem sent_tells (l : Loader) (p : UInt32) :
    List.Forall₂ Tells (tokensIn p (batchesOf (l, .series) s.sent))
      ((eventsOf p (s.tracer l).submitted).take
        (tokensIn p (batchesOf (l, .series) s.sent)).length) := by
  obtain ⟨evs, hevs, htells⟩ := (ordered_tracer h l).series p
  rw [TokenHistory.tokensOf, tokens_flushed h] at htells
  have htake := List.forall₂_take (tokensIn p (batchesOf (l, .series) s.sent)).length htells
  have hlen : (tokensIn p (batchesOf (l, .series) s.sent)).length ≤ evs.length := by
    rw [← htells.length_eq]
    simp only [List.length_append]
    omega
  rw [hevs, List.append_assoc, List.take_append_of_le_length hlen]
  simpa only [List.append_assoc, List.take_left] using htake

end Runs

/-- From the eBPF programs to the client, nothing of a process is lost,
duplicated or reordered. The records that were submitted are, oldest first,
those whose tokens were sent, are on the way, are in the buffer of the time
series or with the call of `Update` in progress, the one that the reader has
decoded, and those in the ring. What was sent tells of the oldest records. -/
theorem tokens_delivered (timeWindow : Duration) (now : Loader → Time)
    (acts : List (System.Action n Loader)) (s : System.State F n Loader)
    (h : exec System.step (System.start F n timeWindow now) acts = some s) (l : Loader)
    (p : UInt32) : ∃ evs,
      eventsOf p (s.tracer l).submitted = evs ++ readForSeries p (s.tracer l).reader ++
        eventsOf p (s.tracer l).kernel.gpuRingbuf ∧
      List.Forall₂ Tells (tokensIn p (batchesOf (l, .series) s.sent) ++
        tokensIn p (batchesOf (l, .series) (onTheWay (l, .series) s)) ++
        held p (s.tracer l).series.tc ++
        TokenHistory.pendingTokens p (s.tracer l).series) evs ∧
      List.Forall₂ Tells (tokensIn p (batchesOf (l, .series) s.sent))
        ((eventsOf p (s.tracer l).submitted).take
          (tokensIn p (batchesOf (l, .series) s.sent)).length) := by
  obtain ⟨evs, hevs, htells⟩ := (ordered_tracer h l).series p
  rw [TokenHistory.tokensOf, tokens_flushed h] at htells
  exact ⟨evs, hevs, htells, sent_tells h l p⟩

/-- One token is sent, one is on the way, one is buffered and a record is in
the ring when the run ends; the first window is on the way too. -/
def sampleRun : List (System.Action 1 Unit) :=
  [.startLoader (), .pipeline (.startCollector ((), .windows)),
    .pipeline (.startCollector ((), .series)), .select (),
    .program () (Handlers.sampleCall (.cuMemAlloc 64) 1 10 true), .read () fun _ => 0,
    .updateWindows () 1, .stampToken () 2, .commitToken (), .tick ((), .series) 5 [7],
    .pipeline (.handToForwarder ((), .series)), .pipeline (.handToLoader ((), .series)),
    .pipeline (.enqueue ()), .pipeline .dequeue,
    .program () (Handlers.sampleCall (.cuMemcpyHtod 8) 1 11 true), .select (),
    .read () fun _ => 0, .updateWindows () 6, .stampToken () 6, .commitToken (),
    .tick ((), .series) 10 [7], .tick ((), .windows) 12 [7],
    .program () (Handlers.sampleCall (.cuMemcpyDtoh 8) 1 13 true),
    .program () (Handlers.sampleCall (.cuMemcpyDtoh 9) 1 14 true), .select (),
    .read () fun _ => 0, .updateWindows () 13, .stampToken () 13, .commitToken ()]

theorem tokens_delivered_sampleRun : ∃ s,
    exec System.step (System.start ℚ 1 3 fun _ => 0) sampleRun = some s ∧ ∃ evs,
      eventsOf 7 (s.tracer ()).submitted = evs ++ readForSeries 7 (s.tracer ()).reader ++
        eventsOf 7 (s.tracer ()).kernel.gpuRingbuf ∧
      List.Forall₂ Tells (tokensIn 7 (batchesOf ((), .series) s.sent) ++
        tokensIn 7 (batchesOf ((), .series) (onTheWay ((), .series) s)) ++
        held 7 (s.tracer ()).series.tc ++
        TokenHistory.pendingTokens 7 (s.tracer ()).series) evs ∧
      List.Forall₂ Tells (tokensIn 7 (batchesOf ((), .series) s.sent))
        ((eventsOf 7 (s.tracer ()).submitted).take
          (tokensIn 7 (batchesOf ((), .series) s.sent)).length) := by
  have h : (exec System.step (System.start ℚ 1 3 fun _ => 0) sampleRun).isSome := by
    decide +kernel
  have ht := (Option.some_get h).symm
  exact ⟨_, ht, tokens_delivered 3 (fun _ => 0) sampleRun _ ht () 7⟩

/-- The windows of a process that were sent, those on the way and the open one
summarise consecutive non-empty groups of its records, in order, and after
them come only the record that the reader has decoded and those in the ring. -/
theorem windows_delivered (timeWindow : Duration) (now : Loader → Time)
    (acts : List (System.Action n Loader)) (s : System.State F n Loader)
    (h : exec System.step (System.start F n timeWindow now) acts = some s) (l : Loader)
    (p : UInt32) : ∃ hist : History WindowHistory.Timed,
      eventsOf p (s.tracer l).submitted = hist.flat.map Prod.snd ++
        readForWindows p (s.tracer l).reader ++ eventsOf p (s.tracer l).kernel.gpuRingbuf ∧
      (eventsIn p (batchesOf (l, .windows) s.sent) ++
          eventsIn p (batchesOf (l, .windows) (onTheWay (l, .windows) s))).map some =
        hist.closed.map (fun seg => (WindowHistory.windowOf timeWindow seg).map
          fun w => windowEvent (deriveMetrics w)) ∧
      (s.tracer l).windows.ga.windows.lookup p =
        WindowHistory.windowOf timeWindow hist.current := by
  have hc := Tracer.consistent_run (tracer_run h l)
  refine ⟨(s.tracer l).windows.segments p, (ordered_tracer h l).windows p, ?_, hc.refines.live p⟩
  rw [← windows_flushed h l p]
  exact hc.refines.reported p

theorem windows_delivered_sampleRun : ∃ s,
    exec System.step (System.start ℚ 1 3 fun _ => 0) sampleRun = some s ∧
      ∃ hist : History WindowHistory.Timed,
        eventsOf 7 (s.tracer ()).submitted = hist.flat.map Prod.snd ++
          readForWindows 7 (s.tracer ()).reader ++ eventsOf 7 (s.tracer ()).kernel.gpuRingbuf ∧
        (eventsIn 7 (batchesOf ((), .windows) s.sent) ++
            eventsIn 7 (batchesOf ((), .windows) (onTheWay ((), .windows) s))).map some =
          hist.closed.map (fun seg => (WindowHistory.windowOf 3 seg).map
            fun w => windowEvent (deriveMetrics w)) ∧
        (s.tracer ()).windows.ga.windows.lookup 7 =
          WindowHistory.windowOf 3 hist.current := by
  have h : (exec System.step (System.start ℚ 1 3 fun _ => 0) sampleRun).isSome := by
    decide +kernel
  have ht := (Option.some_get h).symm
  exact ⟨_, ht, windows_delivered 3 (fun _ => 0) sampleRun _ ht () 7⟩

end InfraSightGpu.Delivery
