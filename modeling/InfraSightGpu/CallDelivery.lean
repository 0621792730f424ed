import InfraSightGpu.CallReports
import InfraSightGpu.CollectorViews
import InfraSightGpu.Completion

namespace InfraSightGpu.CallDelivery

open InfraSightGpu.Events InfraSightGpu.Records InfraSightGpu.Handlers InfraSightGpu.Attachment
open InfraSightGpu.CallReports InfraSightGpu.TracerOrder InfraSightGpu.Lib.Runs

variable {F Loader : Type} {n : ℕ}

def executionsOf : Attachment.Action n → List (Call n)
  | .enter _ _ regs executions | .leave _ _ regs executions =>
    executions.map fun x => ⟨x.1.program regs, x.2⟩
  | .tracepoint call => [call]

def programCalls [DecidableEq Loader] (l : Loader) (acts : List (System.Action n Loader)) :
    List (Call n) :=
  acts.filterMap fun
    | .program l' call => if l' = l then some call else none
    | _ => none

structure Says [GoFloat F] (tk : GpuEventToken F) (r : Report) : Prop where
  eventType : tk.eventType = r.eventType
  value : ∀ v ∈ r.value, tk.value = GoFloat.ofUInt64 v
  dir : ∀ d ∈ r.dir, tk.dir = d

theorem says_of_tells [GoFloat F] {tk : GpuEventToken F} {ev : Event} (h : Tells tk ev) :
    ∃ r, eventReport ev = some r ∧ Says tk r := by
  obtain ⟨-, h⟩ := h
  cases ev with
  | kernelLaunch e | memalloc e => exact ⟨_, rfl, h.1, by simpa using h.2, by simp⟩
  | memcpy e => exact ⟨_, rfl, h.1, by simpa using h.2.1, by simpa using h.2.2⟩
  | stream e => exact ⟨_, rfl, h.1, by simp [syncReport], by simp [syncReport]⟩
  | other => exact h.elim

theorem says_of_all [GoFloat F] {tks : List (GpuEventToken F)} {evs : List Event}
    (h : List.Forall₂ Tells tks evs) : List.Forall₂ Says tks (evs.filterMap eventReport) := by
  induction h with
  | nil => exact List.Forall₂.nil
  | cons htells _ ih =>
    obtain ⟨r, hr, hsays⟩ := says_of_tells htells
    rw [List.filterMap_cons_some hr]
    exact List.Forall₂.cons hsays ih

section Kernels

/-- A kernel whose ring still holds the records that were read. -/
def behind (read : List GpuRecord) (k : Kernel n) : Kernel n :=
  { k with gpuRingbuf := read ++ k.gpuRingbuf }

theorem handle_behind (read : List GpuRecord) (k : Kernel n) (call : Call n) :
    handle (behind read k) call = behind read (handle k call) := by
  obtain ⟨program, c⟩ := call
  have hsubmit : ∀ r, (if c.reserved then submitAndCount (behind read k) c r else behind read k) =
      behind read (if c.reserved then submitAndCount k c r else k) := by
    intro r
    split
    · simp [submitAndCount, behind]
    · rfl
  have hret : handleSyncRet (behind read k) c = behind read (handleSyncRet k c) := by
    unfold handleSyncRet
    cases hts : k.startEventsStream.lookup c.pidTgid with
    | none => simp [behind, hts]
    | some ts => by_cases hc : c.reserved <;> simp [behind, hts, hc, submitAndCount]
  cases program with
  | cuLaunchkernel | cuMemAlloc | cuMemcpyHtod | cuMemcpyDtoh | cuMemcpyHtodAsync
  | cuMemcpyDtohAsync => exact hsubmit _
  | cuStreamSync | cuCtxSync | processExit => rfl
  | cuStreamSynchronizeRet | cuCtxSyncRet => exact hret
  | watchdogIoctl mem fd =>
    simp only [handle, watchdogIoctl]
    split_ifs <;> rfl

theorem kernel_run {host : Host} {calls : List (Attachment.Action n)} {f : Attachment.State n}
    (h : exec (Attachment.step host) (Attachment.start n) calls = some f) :
    f.kernel = (calls.flatMap executionsOf).foldl handle (emptyKernel n) := by
  refine exec_induction (I := fun as s =>
    s.kernel = (as.flatMap executionsOf).foldl handle (emptyKernel n)) rfl ?_ h
  intro as t a u _ hk hs
  rw [List.flatMap_append, List.flatMap_singleton, List.foldl_append, ← hk]
  cases a with
  | enter id offset regs executions =>
    rw [Attachment.step, Option.ite_none_right_eq_some, Option.some.injEq] at hs
    obtain ⟨-, rfl⟩ := hs
    rw [executionsOf, List.foldl_map]
    rfl
  | leave id offset regs executions =>
    rw [Attachment.step] at hs
    split at hs
    · cases hs
    · rw [Option.ite_none_right_eq_some, Option.some.injEq] at hs
      obtain ⟨-, rfl⟩ := hs
      rw [executionsOf, List.foldl_map]
      rfl
  | tracepoint call =>
    rw [Attachment.step, Option.ite_none_right_eq_some, Option.some.injEq] at hs
    obtain ⟨-, rfl⟩ := hs
    rfl

/-- The kernel of a tracer as it were if no record had been read. -/
def unread (s : Tracer.State F n) : Kernel n := { s.kernel with gpuRingbuf := s.submitted }

def callOf : Tracer.Action n → Option (Call n)
  | .program call => some call
  | _ => none

theorem unread_runProgram {s : Tracer.State F n} {read : List GpuRecord}
    (hread : s.submitted = read ++ s.kernel.gpuRingbuf) (call : Call n) :
    (Tracer.runProgram s call).submitted =
        read ++ (Tracer.runProgram s call).kernel.gpuRingbuf ∧
      unread (Tracer.runProgram s call) = handle (unread s) call := by
  have hsub : (Tracer.runProgram s call).submitted =
      read ++ (Tracer.runProgram s call).kernel.gpuRingbuf := by
    obtain ⟨r, -, -, hring, hsub⟩ | ⟨hring, hsub⟩ := Tracer.runProgram_effect s call
    · rw [hring, hsub, hread, List.append_assoc]
    · rw [hring, hsub, hread]
  refine ⟨hsub, ?_⟩
  have hbehind : unread s = behind read s.kernel := by rw [unread, hread, behind]
  rw [hbehind, handle_behind, unread, hsub]
  rfl

variable [GoFloat F]

theorem unread_run {D interval : Duration} {now : Time} {acts : List (Tracer.Action n)}
    {s : Tracer.State F n}
    (h : exec Tracer.step (Tracer.start n D interval now) acts = some s) :
    (∃ read, s.submitted = read ++ s.kernel.gpuRingbuf) ∧
      unread s = (acts.filterMap callOf).foldl handle (emptyKernel n) := by
  refine exec_induction (I := fun as s => (∃ read, s.submitted = read ++ s.kernel.gpuRingbuf) ∧
    unread s = (as.filterMap callOf).foldl handle (emptyKernel n)) ⟨⟨[], rfl⟩, rfl⟩ ?_ h
  rintro as t a u - ⟨⟨read, hread⟩, hkernel⟩ hs
  rw [List.filterMap_append, List.foldl_append, ← hkernel]
  cases TracerOrder.steps_of_eq_some hs with
  | program call =>
    obtain ⟨hsub, hunread⟩ := unread_runProgram hread call
    exact ⟨⟨read, hsub⟩, hunread⟩
  | @read garbage r rest hr hring =>
    refine ⟨⟨read ++ [r], ?_⟩, rfl⟩
    dsimp only
    rw [hread, hring, List.append_assoc, List.singleton_append]
  | updateWindows | stampToken | commitToken | flushWindows | flushSeries =>
    exact ⟨⟨read, hread⟩, rfl⟩

variable [DecidableEq Loader]

theorem programCalls_eq (l : Loader) (acts : List (System.Action n Loader)) :
    programCalls l acts = (acts.filterMap (System.tracerView l)).filterMap callOf := by
  rw [programCalls, List.filterMap_filterMap]
  congr 1
  funext a
  cases a with
  | program l' call | read l' | updateWindows l' | stampToken l' | commitToken l' =>
    by_cases hl : l' = l <;> simp [System.tracerView, callOf, hl]
  | tick c now order =>
    obtain ⟨l', k⟩ := c
    by_cases hl : l' = l <;> cases k <;>
      simp [System.tracerView, System.flushAction, callOf, hl]
  | select | readError | startLoader | pipeline => rfl

/-- The records that a loader has submitted are those of the library calls that
run its programs. -/
theorem submitted_eq {timeWindow : Duration} {now : Loader → Time}
    {acts : List (System.Action n Loader)} {s : System.State F n Loader}
    (h : exec System.step (System.start F n timeWindow now) acts = some s) {l : Loader}
    {host : Host} {calls : List (Attachment.Action n)} {f : Attachment.State n}
    (hf : exec (Attachment.step host) (Attachment.start n) calls = some f)
    (hcalls : programCalls l acts = calls.flatMap executionsOf) :
    (s.tracer l).submitted = f.kernel.gpuRingbuf := by
  have hunread := (unread_run (System.tracer_run h l)).2
  rw [← programCalls_eq, hcalls, ← kernel_run hf] at hunread
  exact congrArg Kernel.gpuRingbuf hunread

end Kernels

section Runs

open InfraSightGpu.System InfraSightGpu.Pipeline InfraSightGpu.TimeSeries InfraSightGpu.Delivery
open InfraSightGpu.Completion InfraSightGpu.WindowTotals InfraSightGpu.CollectorViews
open InfraSightGpu.Lib.Segments InfraSightGpu.Lib.Words InfraSightGpu.Lib.Quiescence

variable [GoFloat F]

def summariesOf [DecidableEq Loader] (l : Loader) (p : UInt32) (s : System.State F n Loader) :
    List Summary :=
  (eventsIn p (batchesOf (l, .windows) s.sent)).filterMap eventSummary ++
    ((s.tracer l).windows.ga.windows.lookup p).toList.map fingerprintSummary

theorem summaries_of_trace {D : Duration} {t : WindowHistory.Trace F}
    (h : WindowHistory.Refines D t) (p : UInt32) :
    (WindowHistory.emitted p t).filterMap eventSummary ++
        (t.ga.windows.lookup p).toList.map fingerprintSummary =
      (t.segments p).all.map fun seg => Summary.of p (seg.map Prod.snd) := by
  have hall := congrArg (List.filterMap id) (windowsOf_eq h p)
  rw [windowsOf, List.filterMap_append, List.filterMap_map, List.filterMap_map] at hall
  simp only [Function.comp_def, id_eq, List.filterMap_eq_map'] at hall
  rw [← hall]
  congr 1
  cases t.ga.windows.lookup p <;> rfl

theorem typeCount_eq (k : GpuEventType) (evs : List Event) :
    typeCount k evs = (evs.filterMap eventReport).countP fun r => r.eventType = k := by
  rw [typeCount, List.countP_filterMap]
  apply List.countP_congr
  intro ev _
  cases ev <;> simp [eventType, eventReport, syncReport]

theorem counts_modEq (k : GpuEventType) (p : UInt32) (segs : List (List WindowHistory.Timed)) :
    ((segs.map fun seg => Summary.of p (seg.map Prod.snd)).map
        fun x => countOf k x.totals).sum ≡
      ((segs.flatten.map Prod.snd).filterMap eventReport).countP (fun r => r.eventType = k)
        [MOD 2 ^ 64] := by
  have hpieces := sum_pieces_modEq (f := fun seg => typeCount k (seg.map Prod.snd)) rfl
    (fun a b => by rw [List.map_append]; exact List.countP_append) (2 ^ 64) segs
  rw [← typeCount_eq, List.map_map]
  simpa only [Function.comp_def, Summary.of, countOf_of] using hpieces

variable [DecidableEq Loader]

/-- From the calls of the library to `SendGpuBatch`, when the probes that could
not be attached are of one kind: the tokens of a process that were sent say what
its calls have to report, oldest first. When nothing internal is left to do,
those sent and those buffered say all of it, and the windows sent and the open
one count it. -/
theorem calls_told (host : Host)
    (hsafe : (∀ offset, Exits host offset → Enters host offset) ∨
      ∀ offset, Enters host offset → Exits host offset)
    (calls : List (Attachment.Action n)) (hres : ∀ a ∈ calls, Reserved a)
    (f : Attachment.State n)
    (hf : exec (Attachment.step host) (Attachment.start n) calls = some f)
    (timeWindow : Duration) (now : Loader → Time) (acts : List (System.Action n Loader))
    (s : System.State F n Loader)
    (h : exec System.step (System.start F n timeWindow now) acts = some s) (l : Loader)
    (hcalls : programCalls l acts = calls.flatMap executionsOf) (p : UInt32) :
    (∃ told, told <+: calls.flatMap (reported host p) ∧
      List.Forall₂ Says (tokensIn p (batchesOf (l, .series) s.sent)) told) ∧
    (s.cancelled = false → s.client ≠ .returned → Quiet System.step (isInternal ·) s →
      List.Forall₂ Says
        (tokensIn p (batchesOf (l, .series) s.sent) ++ held p (s.tracer l).series.tc)
        (calls.flatMap (reported host p)) ∧
      ∀ k, ((summariesOf l p s).map fun x => countOf k x.totals).sum ≡
        (calls.flatMap (reported host p)).countP (fun r => r.eventType = k) [MOD 2 ^ 64]) := by
  rw [← missing_iff] at hsafe
  have hreports : calls.flatMap (reported host p) =
      (eventsOf p (s.tracer l).submitted).filterMap eventReport := by
    rw [submitted_eq h hf hcalls, ← reportsOf_run hsafe hres hf, reportsOf]
  rw [hreports]
  refine ⟨⟨_, (List.take_prefix _ _).filterMap _, says_of_all (sent_tells h l p)⟩,
    fun hc hclient hq => ⟨says_of_all (told_of_quiet h hc hclient hq l p).1, fun k => ?_⟩⟩
  have hrest := atRest_of_quiet h hc hq l
  have hevents : eventsOf p (s.tracer l).submitted =
      ((s.tracer l).windows.segments p).flat.map Prod.snd := by
    rw [(ordered_tracer h l).windows p, hrest.reader, hrest.ring]
    simp [readForWindows, eventsOf]
  have hsent : WindowHistory.emitted p (s.tracer l).windows =
      eventsIn p (batchesOf (l, .windows) s.sent) := by
    rw [windows_flushed h l p, onTheWay_of_quiet h hc hclient hq]
    simp [batchesOf, eventsIn]
  have hcounts := counts_modEq k p ((s.tracer l).windows.segments p).all
  rw [← summaries_of_trace (Tracer.consistent_run (tracer_run h l)).refines p, hsent,
    History.flatten_all, ← hevents] at hcounts
  exact hcounts

def readOne (now : Time) : List (System.Action 1 Unit) :=
  [.read () fun _ => 0, .updateWindows () now, .stampToken () now, .commitToken (), .select ()]

def toldRun : List (System.Action 1 Unit) :=
  [.startLoader (), .pipeline (.startCollector ((), .windows)),
    .pipeline (.startCollector ((), .series)), .select ()] ++
  (sampleCalls.flatMap executionsOf).map (.program ()) ++ readOne 1 ++ readOne 2 ++ readOne 3 ++
  [.tick ((), .series) 5 [7], .tick ((), .windows) 6 [7]] ++ deliveries

theorem calls_told_toldRun : ∃ f s,
    exec (Attachment.step sampleHost) (Attachment.start 1) sampleCalls = some f ∧
    exec System.step (System.start ℚ 1 3 fun _ => 0) toldRun = some s ∧
    (∃ told, told <+: sampleCalls.flatMap (reported sampleHost 7) ∧
      List.Forall₂ Says (tokensIn 7 (batchesOf ((), .series) s.sent)) told) ∧
    List.Forall₂ Says
      (tokensIn 7 (batchesOf ((), .series) s.sent) ++ held 7 (s.tracer ()).series.tc)
      (sampleCalls.flatMap (reported sampleHost 7)) ∧
    ∀ k, ((summariesOf () 7 s).map fun x => countOf k x.totals).sum ≡
      (sampleCalls.flatMap (reported sampleHost 7)).countP (fun r => r.eventType = k)
        [MOD 2 ^ 64] := by
  have hpairs := enters_iff_exits sampleHost sampleAddress (fun _ _ => rfl) fun _ _ => rfl
  have hres : ∀ a ∈ sampleCalls, Reserved a := by
    simp [sampleCalls, Reserved, sampleCall]
  obtain ⟨f, hf⟩ : ∃ f, exec (Attachment.step sampleHost) (Attachment.start 1) sampleCalls =
      some f := by
    apply Option.isSome_iff_exists.mp
    decide +kernel
  obtain ⟨s, hs, hsettled, hc⟩ : ∃ s, exec System.step (System.start ℚ 1 3 fun _ => 0) toldRun =
      some s ∧ Settled s ∧ s.cancelled = false := by
    decide +kernel
  obtain ⟨hsent, hall⟩ := calls_told sampleHost (.inl fun offset => (hpairs offset).mpr)
    sampleCalls hres f hf 3 (fun _ => 0) toldRun s hs () rfl 7
  exact ⟨f, s, hf, hs, hsent, hall hc (by simp [hsettled.client]) (quiet_of_settled hsettled)⟩

end Runs

end InfraSightGpu.CallDelivery
