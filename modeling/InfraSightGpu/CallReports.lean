import InfraSightGpu.Attachment
import InfraSightGpu.TracerOrder

namespace InfraSightGpu.CallReports

open InfraSightGpu.Events InfraSightGpu.Records InfraSightGpu.Handlers InfraSightGpu.Attachment
open InfraSightGpu.TracerOrder (eventsOf eventsOf_append)
open InfraSightGpu.Lib.Runs

variable {n : ℕ}

/-- What the token of a call has to say. The length of a wait is not known
when the call is made. -/
structure Report where
  eventType : GpuEventType
  value : Option UInt64
  dir : Option ℤ
deriving DecidableEq

def entryReport : Program → Option Report
  | .cuLaunchkernel gridX gridY gridZ blockX blockY stackSlot => some
    { eventType := .eventKernelLaunch
      value := some (gridX * gridY * gridZ * (blockX * blockY * stackSlot.getD 0))
      dir := none }
  | .cuMemAlloc bytesize => some ⟨.eventMemalloc, some bytesize, none⟩
  | .cuMemcpyHtod bytesize | .cuMemcpyHtodAsync bytesize =>
    some ⟨.eventMemcpy, some bytesize, some (Int.ofNat dirHtod)⟩
  | .cuMemcpyDtoh bytesize | .cuMemcpyDtohAsync bytesize =>
    some ⟨.eventMemcpy, some bytesize, some (Int.ofNat dirDtoh)⟩
  | _ => none

def syncReport : Report := ⟨.eventStreamSync, none, none⟩

/-- What a step of the library has to report of a process: each entry program
but those of synchronisations, and each return from one with a probe at both ends. -/
def reported (host : Host) (p : UInt32) : Action n → List Report
  | .enter id _ regs executions =>
    if (id >>> 32).toUInt32 = p then
      executions.filterMap fun x => entryReport (x.1.program regs)
    else []
  | .leave id offset _ _ =>
    if (id >>> 32).toUInt32 = p ∧ Enters host offset ∧ Exits host offset then [syncReport] else []
  | .tracepoint _ => []

def Reserved : Action n → Prop
  | .enter _ _ _ executions => ∀ x ∈ executions, x.2.reserved
  | _ => True

def eventReport : Event → Option Report
  | .kernelLaunch e => some ⟨.eventKernelLaunch, some e.totalThreads, none⟩
  | .memalloc e => some ⟨.eventMemalloc, some e.byteSize, none⟩
  | .memcpy e => some ⟨.eventMemcpy, some e.byteSize, some (if e.kind = 0 then 0 else 1)⟩
  | .stream _ => some syncReport
  | .other => none

section Reports

def reportsOf (p : UInt32) (rs : List GpuRecord) : List Report :=
  (eventsOf p rs).filterMap eventReport

theorem reportsOf_append (p : UInt32) (rs qs : List GpuRecord) :
    reportsOf p (rs ++ qs) = reportsOf p rs ++ reportsOf p qs := by
  rw [reportsOf, eventsOf_append, List.filterMap_append]
  rfl

theorem reportsOf_singleton (p : UInt32) (r : GpuRecord) :
    reportsOf p [r] = if r.pid = p then (eventReport r.event).toList else [] := by
  by_cases hp : r.pid = p
  · cases h : eventReport r.event <;> simp [reportsOf, eventsOf, hp, h]
  · simp [reportsOf, eventsOf, hp]

theorem reportsOf_submitted (k : Kernel n) {c : Ctx n} {r : GpuRecord} (hpid : r.pid = c.pid)
    (hres : c.reserved) (p : UInt32) :
    reportsOf p (if c.reserved then submitAndCount k c r else k).gpuRingbuf =
      reportsOf p k.gpuRingbuf ++
        if (c.pidTgid >>> 32).toUInt32 = p then (eventReport r.event).toList else [] := by
  rw [if_pos hres, submitAndCount, reportsOf_append, reportsOf_singleton, hpid]
  rfl

theorem reportsOf_entry {host : Host} {offset : Offset} {id : UInt64} (regs : Registers)
    {executions : List (Execution n)}
    (hprogs : ∀ x ∈ executions, x.1 ∈ entryPrograms host offset)
    (hid : ∀ x ∈ executions, x.2.pidTgid = id) (hres : ∀ x ∈ executions, x.2.reserved)
    (k : Kernel n) (p : UInt32) :
    reportsOf p (runAll regs k executions).gpuRingbuf = reportsOf p k.gpuRingbuf ++
      if (id >>> 32).toUInt32 = p then executions.filterMap fun x => entryReport (x.1.program regs)
      else [] := by
  induction executions generalizing k with
  | nil => simp [runAll]
  | cons x xs ih =>
    rw [List.forall_mem_cons] at hprogs hid hres
    have hone : reportsOf p (handle k ⟨x.1.program regs, x.2⟩).gpuRingbuf =
        reportsOf p k.gpuRingbuf ++
          if (id >>> 32).toUInt32 = p then (entryReport (x.1.program regs)).toList else [] := by
      obtain ⟨prog, c⟩ := x
      obtain ⟨rfl, -⟩ := hid
      have hret := entry_not_ret hprogs.1 regs
      dsimp only at hret hres ⊢
      cases prog with
      | handleCuStreamSynchronizeRet | handleCuCtxSyncRet => cases hret
      | handleCuStreamSync | handleCuCtxSync =>
        simp only [UprobeProgram.program, entryReport, Option.toList_none, ite_self,
          List.append_nil]
        rfl
      | _ => exact reportsOf_submitted k rfl hres.1 p
    have hrest : runAll regs k (x :: xs) = runAll regs (handle k ⟨x.1.program regs, x.2⟩) xs := rfl
    rw [hrest, ih hprogs.2 hid.2 hres.2, hone, List.append_assoc]
    by_cases hp : (id >>> 32).toUInt32 = p
    · cases hr : entryReport (x.1.program regs) <;> simp [hp, hr]
    · simp [hp]

theorem ring_of_tracepoint {call : Call n} (h : isTracepoint call.program) (k : Kernel n) :
    (handle k call).gpuRingbuf = k.gpuRingbuf := by
  obtain ⟨program, c⟩ := call
  cases program with
  | watchdogIoctl mem fd =>
    simp only [handle, watchdogIoctl]
    split_ifs <;> rfl
  | processExit => rfl
  | _ => cases h

theorem reportsOf_step {host : Host} (hsafe : ¬ Strands host ∨ ¬ Intrudes host)
    {s u : State n} (hi : Inv host s) {a : Action n}
    (hres : Reserved a) (h : step host s a = some u) (p : UInt32) :
    reportsOf p u.kernel.gpuRingbuf =
      reportsOf p s.kernel.gpuRingbuf ++ reported host p a := by
  cases a with
  | enter id offset regs executions =>
    rw [step, Option.ite_none_right_eq_some, Option.some.injEq] at h
    obtain ⟨⟨hruns, -⟩, rfl⟩ := h
    exact reportsOf_entry regs hruns.mem hruns.2 hres s.kernel p
  | leave id offset regs executions =>
    have htiming := ownTiming_of hsafe hi (.leave id offset regs executions)
    obtain ⟨entry, fs, -, hframes, -, -⟩ := step_leave h
    have hone := htiming _ (by rw [hframes]; rfl) u h
    by_cases hboth : Enters host offset ∧ Exits host offset
    · rw [if_pos hboth] at hone
      obtain ⟨e, hring, -, hpid⟩ := hone
      rw [hring, reportsOf_append, reportsOf_singleton, reported, GpuRecord.pid, hpid]
      by_cases hp : (id >>> 32).toUInt32 = p
      · rw [if_pos hp, if_pos ⟨hp, hboth⟩]
        rfl
      · rw [if_neg hp, if_neg fun h => hp h.1]
    · rw [if_neg hboth] at hone
      rw [hone, reported, if_neg fun h => hboth h.2, List.append_nil]
  | tracepoint call =>
    rw [step, Option.ite_none_right_eq_some, Option.some.injEq] at h
    obtain ⟨htp, rfl⟩ := h
    rw [reported, List.append_nil]
    exact congrArg (reportsOf p) (ring_of_tracepoint htp s.kernel)

theorem reportsOf_run {host : Host} (hsafe : ¬ Strands host ∨ ¬ Intrudes host)
    {calls : List (Action n)} (hres : ∀ a ∈ calls, Reserved a) {f : State n}
    (h : exec (step host) (start n) calls = some f) (p : UInt32) :
    reportsOf p f.kernel.gpuRingbuf = calls.flatMap (reported host p) := by
  refine exec_induction (I := fun as s => (∀ a ∈ as, Reserved a) →
    reportsOf p s.kernel.gpuRingbuf = as.flatMap (reported host p)) ?_ ?_ h hres
  · intro _
    rfl
  · intro as t a u ht hcalls hs hres
    rw [List.forall_mem_append, List.forall_mem_singleton] at hres
    rw [reportsOf_step hsafe (inv_run ht) hres.2 hs, hcalls hres.1, List.flatMap_append,
      List.flatMap_singleton]

end Reports

section Counts

open InfraSightGpu.Tracer (recordsOf)

def due (host : Host) (p : UInt32) : Action n → ℕ
  | .enter id offset _ _ =>
    if (id >>> 32).toUInt32 = p then
      (entryPrograms host offset).countP fun prog => !isTiming prog
    else 0
  | .leave id offset _ _ =>
    if (id >>> 32).toUInt32 = p ∧ Enters host offset ∧ Exits host offset then 1 else 0
  | .tracepoint _ => 0

theorem length_reportsOf (p : UInt32) (rs : List GpuRecord) :
    (reportsOf p rs).length = recordsOf p rs := by
  induction rs with
  | nil => rfl
  | cons r rs ih =>
    have hone : (eventReport r.event).isSome := by cases r <;> rfl
    obtain ⟨report, hreport⟩ := Option.isSome_iff_exists.mp hone
    rw [← List.singleton_append, reportsOf_append, reportsOf_singleton, hreport,
      List.length_append, ih, Tracer.recordsOf_append]
    by_cases hp : r.pid = p <;> simp [recordsOf, hp]

theorem isSome_entryReport (regs : Registers) {host : Host} {offset : Offset}
    {prog : UprobeProgram} (h : prog ∈ entryPrograms host offset) :
    (entryReport (prog.program regs)).isSome = !isTiming prog := by
  have hret := entry_not_ret h regs
  cases prog with
  | handleCuStreamSynchronizeRet | handleCuCtxSyncRet => cases hret
  | _ => rfl

theorem length_reported {host : Host} {s u : State n} {a : Action n}
    (h : step host s a = some u) (p : UInt32) : (reported host p a).length = due host p a := by
  cases a with
  | enter id offset regs executions =>
    rw [step, Option.ite_none_right_eq_some] at h
    obtain ⟨⟨hruns, -⟩, -⟩ := h
    rw [reported, due]
    by_cases hp : (id >>> 32).toUInt32 = p
    · rw [if_pos hp, if_pos hp, List.length_filterMap_eq_countP, ← hruns.1.countP_eq,
        List.countP_map]
      exact List.countP_congr fun x hx => by
        rw [Function.comp_apply, isSome_entryReport regs (hruns.mem x hx)]
    · rw [if_neg hp, if_neg hp, List.length_nil]
  | leave id offset regs executions =>
    rw [reported, due]
    split <;> rfl
  | tracepoint call => rfl

/-- The calls of a process and its records: one for each name that a probe of a
launch, an allocation or a copy was attached under, and one for each return of
a synchronisation that is probed at both ends. -/
theorem calls_recorded (host : Host) (n : ℕ)
    (hsafe : (∀ offset, Exits host offset → Enters host offset) ∨
      ∀ offset, Enters host offset → Exits host offset)
    (acts : List (Action n)) (hres : ∀ a ∈ acts, Reserved a) (s : State n)
    (h : exec (step host) (start n) acts = some s) (p : UInt32) :
    recordsOf p s.kernel.gpuRingbuf = (acts.map (due host p)).sum := by
  rw [← missing_iff] at hsafe
  rw [← length_reportsOf, reportsOf_run hsafe hres h]
  refine exec_induction (I := fun as _ =>
    (as.flatMap (reported host p)).length = (as.map (due host p)).sum) rfl ?_ h
  intro as t a u _ hlength hs
  rw [List.flatMap_append, List.flatMap_singleton, List.length_append, hlength,
    length_reported hs, List.map_append, List.sum_append, List.map_singleton, List.sum_singleton]

/-- A library with two names for one function, and one that waits. -/
def sampleAddress : String → Option Offset
  | "cuMemAlloc" => some 16
  | "cuMemAlloc_v2" => some 16
  | "cuCtxSynchronize" => some 32
  | _ => none

def sampleHost : Host where
  uprobe name _ := sampleAddress name
  uretprobe name _ := sampleAddress name
  tracepoint _ _ := true

def sampleCalls : List (Action 1) :=
  let regs : Registers := ⟨fun _ => 64, none⟩
  let c := (sampleCall .cuCtxSync 1 10 true).ctx
  [.enter c.pidTgid 16 regs [(.handleCuMemAlloc, c), (.handleCuMemAlloc, c)],
    .leave c.pidTgid 16 regs [],
    .enter c.pidTgid 32 regs [(.handleCuCtxSync, c)],
    .leave c.pidTgid 32 regs [(.handleCuCtxSyncRet, c)]]

theorem calls_recorded_sampleCalls : ∃ s, exec (step sampleHost) (start 1) sampleCalls = some s ∧
    recordsOf 7 s.kernel.gpuRingbuf = (sampleCalls.map (due sampleHost 7)).sum := by
  have hpairs := enters_iff_exits sampleHost sampleAddress (fun _ _ => rfl) fun _ _ => rfl
  have hres : ∀ a ∈ sampleCalls, Reserved a := by
    simp [sampleCalls, Reserved, sampleCall]
  obtain ⟨s, hs⟩ : ∃ s, exec (step sampleHost) (start 1) sampleCalls = some s := by
    apply Option.isSome_iff_exists.mp
    decide +kernel
  exact ⟨s, hs, calls_recorded sampleHost 1 (.inl fun offset => (hpairs offset).mpr) sampleCalls
    hres s hs 7⟩

end Counts

end InfraSightGpu.CallReports
