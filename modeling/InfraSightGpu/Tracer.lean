import InfraSightGpu.Handlers
import InfraSightGpu.WindowTotals
import InfraSightGpu.TokenHistory

namespace InfraSightGpu.Tracer

open InfraSightGpu.Events InfraSightGpu.Records InfraSightGpu.WatchdogMap InfraSightGpu.Handlers
open InfraSightGpu.Lib.Maps InfraSightGpu.Lib.Runs

variable {F : Type} [GoFloat F] {n : Nat}

/-- Where the ring reader stands: before the next `Rb.Read`, or in the calls
of `Update` that `sendToCollectors` makes with the event it decoded. -/
inductive Reader where
  | idle
  | updatingWindows (ev : Event)
  | updatingSeries (ev : Event)
  | committing
deriving DecidableEq

/-- The eBPF programs, the ring reader and the two collectors. The records
submitted so far are ghost state. -/
structure State (F : Type) (n : Nat) where
  kernel : Kernel n
  reader : Reader
  windows : WindowHistory.Trace F
  series : TokenHistory.Trace F
  submitted : List GpuRecord

def start (n : Nat) (windowDuration flushInterval : Duration) (now : Time) : State F n where
  kernel := emptyKernel n
  reader := .idle
  windows := WindowHistory.start windowDuration now
  series := TokenHistory.start flushInterval
  submitted := []

/-- An execution of a program, a step of the ring reader, or a flush. The
garbage of a read is what the padding of the record held. -/
inductive Action (n : Nat) where
  | program (call : Call n)
  | read (garbage : Nat → UInt8)
  | updateWindows (now : Time)
  | stampToken (now : Time)
  | commitToken
  | flushWindows (now : Time) (order : List UInt32)
  | flushSeries (order : List UInt32)

def runProgram (s : State F n) (call : Call n) : State F n :=
  let kernel := handle s.kernel call
  { s with
    kernel := kernel
    submitted := s.submitted ++ kernel.gpuRingbuf.drop s.kernel.gpuRingbuf.length }

/-- The oldest record leaves the ring. One that cannot be decoded is dropped. -/
def readRecord (s : State F n) (garbage : Nat → UInt8) : Option (State F n) :=
  match s.reader, s.kernel.gpuRingbuf with
  | .idle, r :: rest => some { s with
      kernel := { s.kernel with gpuRingbuf := rest }
      reader := ((decodeRecord (r.rawSample garbage)).map Reader.updatingWindows).getD .idle }
  | _, _ => none

def step (s : State F n) : Action n → Option (State F n)
  | .program call => some (runProgram s call)
  | .read garbage => readRecord s garbage
  | .updateWindows now =>
    match s.reader with
    | .updatingWindows ev => (WindowHistory.step s.windows (.update now ev)).map
        fun windows => { s with windows := windows, reader := .updatingSeries ev }
    | _ => none
  | .stampToken now =>
    match s.reader with
    | .updatingSeries ev => (TokenHistory.step s.series (.stamp now ev)).map
        fun series => { s with
          series := series
          reader := if series.pending.isSome then .committing else .idle }
    | _ => none
  | .commitToken =>
    match s.reader with
    | .committing => (TokenHistory.step s.series .commit).map
        fun series => { s with series := series, reader := .idle }
    | _ => none
  | .flushWindows now order => (WindowHistory.step s.windows (.flush now order)).map
      fun windows => { s with windows := windows }
  | .flushSeries order => (TokenHistory.step s.series (.flush order)).map
      fun series => { s with series := series }

def recordsOf (p : UInt32) (rs : List GpuRecord) : Nat := rs.countP fun r => r.pid = p

@[simp] theorem recordsOf_append (p : UInt32) (rs qs : List GpuRecord) :
    recordsOf p (rs ++ qs) = recordsOf p rs + recordsOf p qs := List.countP_append

/-- The execution submits a record of the process, and the process still has
no entry: the insertion into `ioctl_watchdog_map` failed. -/
def InsertionFails (p : UInt32) (k : Kernel n) (call : Call n) : Prop :=
  call.ctx.pid = p ∧ (handle k call).gpuRingbuf ≠ k.gpuRingbuf ∧
    p ∉ (handle k call).ioctlWatchdogMap

def isProcessExit : Program → Bool
  | .processExit => true
  | _ => false

instance (p : UInt32) (k : Kernel n) (call : Call n) : Decidable (InsertionFails p k call) :=
  inferInstanceAs (Decidable (_ ∧ _ ∧ _))

/-- The action neither deletes the entry of the process nor fails to create it. -/
def Spares (p : UInt32) (s : State F n) : Action n → Prop
  | .program call =>
    ¬ (isProcessExit call.program ∧ call.ctx.pid = p) ∧ ¬ InsertionFails p s.kernel call
  | _ => True

instance (p : UInt32) (s : State F n) (a : Action n) : Decidable (Spares p s a) := by
  cases a <;> unfold Spares <;> infer_instance

def beforeWindows (p : UInt32) : Reader → Nat
  | .updatingWindows ev => if ev.IsOf p then 1 else 0
  | _ => 0

def beforeSeries (p : UInt32) : Reader → Nat
  | .updatingWindows ev => if ev.IsOf p then 1 else 0
  | .updatingSeries ev => if ev.IsOf p then 1 else 0
  | _ => 0

structure Delivered (p : UInt32) (s : State F n) : Prop where
  windows : recordsOf p s.submitted =
    recordsOf p s.kernel.gpuRingbuf + beforeWindows p s.reader + (s.windows.segments p).flat.length
  series : recordsOf p s.submitted =
    recordsOf p s.kernel.gpuRingbuf + beforeSeries p s.reader +
      (TokenHistory.tokensOf p s.series).length

structure Consistent (D : Duration) (s : State F n) : Prop where
  flags : ∀ r ∈ s.kernel.gpuRingbuf, r.flag = r.eventFlag
  refines : WindowHistory.Refines D s.windows
  pending : s.reader ≠ .committing → s.series.pending = none
  delivered : ∀ p, Delivered p s

omit [GoFloat F] in
theorem runProgram_effect (s : State F n) (call : Call n) :
    (∃ r, r.pid = call.ctx.pid ∧ r.flag = r.eventFlag ∧
      (runProgram s call).kernel.gpuRingbuf = s.kernel.gpuRingbuf ++ [r] ∧
      (runProgram s call).submitted = s.submitted ++ [r]) ∨
    (runProgram s call).kernel.gpuRingbuf = s.kernel.gpuRingbuf ∧
      (runProgram s call).submitted = s.submitted := by
  cases handle_effect s.kernel call with
  | submitted r hpid hflag hring hmap =>
    exact .inl ⟨r, hpid, hflag, hring, by simp [runProgram, hring]⟩
  | ioctl hring hmap | exited _ hring hmap | quiet hring hmap =>
    exact .inr ⟨hring, by simp [runProgram, hring]⟩

theorem consistent_program {D : Duration} {s : State F n} (hi : Consistent D s) (call : Call n) :
    Consistent D (runProgram s call) := by
  obtain ⟨r, -, hflag, hring, hsub⟩ | ⟨hring, hsub⟩ := runProgram_effect s call
  · refine ⟨fun x hx => ?_, hi.refines, hi.pending, fun p => ?_⟩
    · rw [hring] at hx
      obtain hx | hx := List.mem_append.mp hx
      · exact hi.flags x hx
      · rw [List.mem_singleton.mp hx, hflag]
    · obtain ⟨hw, ht⟩ := hi.delivered p
      refine ⟨?_, ?_⟩
      · rw [hring, hsub, recordsOf_append, recordsOf_append, hw]
        simp only [runProgram]
        omega
      · rw [hring, hsub, recordsOf_append, recordsOf_append, ht]
        simp only [runProgram]
        omega
  · refine ⟨fun x hx => hi.flags x (hring ▸ hx), hi.refines, hi.pending, fun p => ⟨?_, ?_⟩⟩
    · rw [hring, hsub]
      exact (hi.delivered p).windows
    · rw [hring, hsub]
      exact (hi.delivered p).series

theorem consistent_read {D : Duration} {s u : State F n} (hi : Consistent D s)
    (garbage : Nat → UInt8) (hs : readRecord s garbage = some u) : Consistent D u := by
  unfold readRecord at hs
  split at hs
  · next r rest hidle hring =>
    cases hs
    have hdec : decodeRecord (r.rawSample garbage) = some r.event :=
      decodeRecord_rawSample (hi.flags r (by simp [hring])) garbage
    refine ⟨fun x hx => hi.flags x (by simp [hring, hx]), hi.refines,
      fun _ => hi.pending (by simp [hidle]), fun p => ?_⟩
    have hone : recordsOf p (r :: rest) =
        recordsOf p rest + if r.event.IsOf p then 1 else 0 := by
      simp [recordsOf, List.countP_cons, GpuRecord.event_isOf]
    obtain ⟨hw, ht⟩ := hi.delivered p
    rw [hring, hone, hidle] at hw ht
    refine ⟨?_, ?_⟩
    · simpa [hdec, beforeWindows] using hw
    · simpa [hdec, beforeSeries, beforeWindows] using ht
  · cases hs

theorem consistent_updateWindows {D : Duration} {s : State F n} (hi : Consistent D s) (now : Time)
    {ev : Event} (hreader : s.reader = .updatingWindows ev) {windows : WindowHistory.Trace F}
    (hs : WindowHistory.step s.windows (.update now ev) = some windows) :
    Consistent D { s with windows := windows, reader := .updatingSeries ev } := by
  refine ⟨hi.flags, WindowHistory.refines_step hi.refines hs,
    fun _ => hi.pending (by simp [hreader]), fun p => ?_⟩
  obtain ⟨hw, ht⟩ := hi.delivered p
  have hflat := WindowHistory.flat_step hi.refines hs p
  have hone : (WindowHistory.timedEvents p [.update now ev]).length =
      if ev.IsOf p then 1 else 0 := by
    by_cases hp : ev.IsOf p <;> simp [WindowHistory.timedEvents, hp]
  rw [hreader] at hw ht
  refine ⟨?_, ht⟩
  rw [hw]
  simp only [beforeWindows, hflat, List.length_append, hone]
  omega

theorem length_stamped (p : UInt32) (now : Time) (ev : Event) :
    ((TokenHistory.callsOf p [.stamp now ev]).filterMap
      fun x => TimeSeries.eventToToken (F := F) x.1 x.2).length = if ev.IsOf p then 1 else 0 := by
  by_cases hp : ev.IsOf p
  · obtain ⟨tk, htk⟩ := TokenHistory.isOf_prepare (F := F) now hp
    simp [TokenHistory.callsOf, TokenHistory.calls, hp, htk]
  · simp [TokenHistory.callsOf, TokenHistory.calls, hp]

theorem consistent_stampToken {D : Duration} {s : State F n} (hi : Consistent D s) (now : Time)
    {ev : Event} (hreader : s.reader = .updatingSeries ev) {series : TokenHistory.Trace F}
    (hs : TokenHistory.step s.series (.stamp now ev) = some series) :
    Consistent D { s with
      series := series
      reader := if series.pending.isSome then .committing else .idle } := by
  refine ⟨hi.flags, hi.refines, fun hne => ?_, fun p => ?_⟩
  · by_contra hsome
    exact hne (if_pos (Option.isSome_iff_ne_none.mpr hsome))
  · obtain ⟨hw, ht⟩ := hi.delivered p
    have htok := TokenHistory.tokensOf_step hs p
    have hwin : beforeWindows p (if series.pending.isSome then .committing else .idle) = 0 := by
      split <;> rfl
    have hser : beforeSeries p (if series.pending.isSome then .committing else .idle) = 0 := by
      split <;> rfl
    rw [hreader] at hw ht
    refine ⟨?_, ?_⟩
    · rw [hw, hwin]
      rfl
    · rw [ht, hser, htok, List.length_append, length_stamped, beforeSeries]
      dsimp only
      omega

theorem consistent_commitToken {D : Duration} {s : State F n} (hi : Consistent D s)
    (hreader : s.reader = .committing) {series : TokenHistory.Trace F}
    (hs : TokenHistory.step s.series .commit = some series) :
    Consistent D { s with series := series, reader := .idle } := by
  refine ⟨hi.flags, hi.refines, fun _ => ?_, fun p => ?_⟩
  · obtain ⟨u, -, rfl⟩ := TokenHistory.step_commit.mp hs
    rfl
  · obtain ⟨hw, ht⟩ := hi.delivered p
    have htok := TokenHistory.tokensOf_step hs p
    rw [hreader] at hw ht
    refine ⟨hw, ?_⟩
    rw [ht, htok]
    simp [TokenHistory.callsOf, TokenHistory.calls, beforeSeries]

theorem consistent_flushWindows {D : Duration} {s : State F n} (hi : Consistent D s) (now : Time)
    (order : List UInt32) {windows : WindowHistory.Trace F}
    (hs : WindowHistory.step s.windows (.flush now order) = some windows) :
    Consistent D { s with windows := windows } := by
  refine ⟨hi.flags, WindowHistory.refines_step hi.refines hs, hi.pending, fun p => ?_⟩
  obtain ⟨hw, ht⟩ := hi.delivered p
  refine ⟨?_, ht⟩
  rw [hw, WindowHistory.flat_step hi.refines hs p]
  simp [WindowHistory.timedEvents]

theorem consistent_flushSeries {D : Duration} {s : State F n} (hi : Consistent D s)
    (order : List UInt32) {series : TokenHistory.Trace F}
    (hs : TokenHistory.step s.series (.flush order) = some series) :
    Consistent D { s with series := series } := by
  refine ⟨hi.flags, hi.refines, fun hne => ?_, fun p => ?_⟩
  · obtain ⟨-, rfl⟩ := TokenHistory.step_flush.mp hs
    exact hi.pending hne
  · obtain ⟨hw, ht⟩ := hi.delivered p
    refine ⟨hw, ?_⟩
    rw [ht, TokenHistory.tokensOf_step hs p]
    simp [TokenHistory.callsOf, TokenHistory.calls]

theorem consistent_step {D : Duration} {s u : State F n} {a : Action n} (hi : Consistent D s)
    (hs : step s a = some u) : Consistent D u := by
  cases a with
  | program call =>
    cases hs
    exact consistent_program hi call
  | read garbage => exact consistent_read hi garbage hs
  | updateWindows now =>
    simp only [step] at hs
    split at hs
    · next ev hreader =>
      obtain ⟨windows, hw, rfl⟩ := Option.map_eq_some_iff.mp hs
      exact consistent_updateWindows hi now hreader hw
    · cases hs
  | stampToken now =>
    simp only [step] at hs
    split at hs
    · next ev hreader =>
      obtain ⟨series, ht, rfl⟩ := Option.map_eq_some_iff.mp hs
      exact consistent_stampToken hi now hreader ht
    · cases hs
  | commitToken =>
    simp only [step] at hs
    split at hs
    · next hreader =>
      obtain ⟨series, ht, rfl⟩ := Option.map_eq_some_iff.mp hs
      exact consistent_commitToken hi hreader ht
    · cases hs
  | flushWindows now order =>
    obtain ⟨windows, hw, rfl⟩ := Option.map_eq_some_iff.mp hs
    exact consistent_flushWindows hi now order hw
  | flushSeries order =>
    obtain ⟨series, ht, rfl⟩ := Option.map_eq_some_iff.mp hs
    exact consistent_flushSeries hi order ht

theorem consistent_start (D interval : Duration) (now : Time) :
    Consistent D (start (F := F) n D interval now) :=
  ⟨by simp [start, emptyKernel], WindowHistory.refines_start D now, fun _ => rfl,
    fun _ => ⟨rfl, rfl⟩⟩

theorem consistent_run {D interval : Duration} {now : Time} {acts : List (Action n)}
    {s : State F n} (h : exec step (start n D interval now) acts = some s) : Consistent D s :=
  exec_induction (I := fun _ s => Consistent D s) (consistent_start D interval now)
    (fun _ _ _ _ _ hi hs => consistent_step hi hs) h

theorem step_counters {s u : State F n} {a : Action n} (hs : step s a = some u) :
    (∃ call, a = .program call ∧ u = runProgram s call) ∨
      u.kernel.ioctlWatchdogMap = s.kernel.ioctlWatchdogMap ∧ u.submitted = s.submitted := by
  cases a with
  | program call =>
    cases hs
    exact .inl ⟨call, rfl, rfl⟩
  | read garbage =>
    simp only [step, readRecord] at hs
    split at hs <;> cases hs
    exact .inr ⟨rfl, rfl⟩
  | updateWindows now | stampToken now | commitToken =>
    simp only [step] at hs
    split at hs
    · obtain ⟨x, -, rfl⟩ := Option.map_eq_some_iff.mp hs
      exact .inr ⟨rfl, rfl⟩
    · cases hs
  | flushWindows now order | flushSeries order =>
    obtain ⟨x, -, rfl⟩ := Option.map_eq_some_iff.mp hs
    exact .inr ⟨rfl, rfl⟩

end InfraSightGpu.Tracer
