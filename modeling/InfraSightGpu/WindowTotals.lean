import InfraSightGpu.WindowHistory

namespace InfraSightGpu.WindowTotals

open InfraSightGpu.Events InfraSightGpu.Fingerprint InfraSightGpu.Aggregator
open InfraSightGpu.Lib.Runs InfraSightGpu.Lib.Segments InfraSightGpu.WindowHistory

variable {F : Type} [GoFloat F]

def launches (evs : List Event) : List GpuprintGpuKernelLaunchEventT :=
  evs.filterMap fun | .kernelLaunch e => some e | _ => none

def allocs (evs : List Event) : List GpuprintGpuMemallocEventT :=
  evs.filterMap fun | .memalloc e => some e | _ => none

def copies (evs : List Event) : List GpuprintGpuMemcpyEventT :=
  evs.filterMap fun | .memcpy e => some e | _ => none

def syncs (evs : List Event) : List GpuprintGpuStreamEventT :=
  evs.filterMap fun | .stream e => some e | _ => none

def htodCopies (evs : List Event) : List GpuprintGpuMemcpyEventT :=
  (copies evs).filter fun e => e.kind = 0

def dtohCopies (evs : List Event) : List GpuprintGpuMemcpyEventT :=
  (copies evs).filter fun e => e.kind ≠ 0

def sum64 (xs : List UInt64) : Nat := (xs.map UInt64.toNat).sum % 2 ^ 64

def max64 (xs : List UInt64) : Nat := (xs.map UInt64.toNat).foldl Nat.max 0

@[simp] theorem sum64_snoc (xs : List UInt64) (x : UInt64) :
    sum64 (xs ++ [x]) = (sum64 xs + x.toNat) % 2 ^ 64 := by
  simp [sum64]

@[simp] theorem max64_snoc (xs : List UInt64) (x : UInt64) :
    max64 (xs ++ [x]) = Nat.max (max64 xs) x.toNat := by
  simp [max64]

structure Totals where
  kernelLaunchCount : Nat
  memAllocCount : Nat
  memcpyCount : Nat
  streamSyncCount : Nat
  totalThreadsLaunched : Nat
  totalMemAllocBytes : Nat
  totalMemcpyBytes : Nat
  htodBytes : Nat
  dtohBytes : Nat
  maxThreadsPerKernel : Nat
  maxSyncTimeNs : Nat
deriving DecidableEq

def Totals.of (evs : List Event) : Totals where
  kernelLaunchCount := (launches evs).length % 2 ^ 64
  memAllocCount := (allocs evs).length % 2 ^ 64
  memcpyCount := (copies evs).length % 2 ^ 64
  streamSyncCount := (syncs evs).length % 2 ^ 64
  totalThreadsLaunched := sum64 ((launches evs).map (·.totalThreads))
  totalMemAllocBytes := sum64 ((allocs evs).map (·.byteSize))
  totalMemcpyBytes := sum64 ((copies evs).map (·.byteSize))
  htodBytes := sum64 ((htodCopies evs).map (·.byteSize))
  dtohBytes := sum64 ((dtohCopies evs).map (·.byteSize))
  maxThreadsPerKernel := max64 ((launches evs).map (·.totalThreads))
  maxSyncTimeNs := max64 ((syncs evs).map (·.deltaNs))

def Totals.add (s : Totals) : Event → Totals
  | .kernelLaunch e => { s with
      kernelLaunchCount := (s.kernelLaunchCount + 1) % 2 ^ 64
      totalThreadsLaunched := (s.totalThreadsLaunched + e.totalThreads.toNat) % 2 ^ 64
      maxThreadsPerKernel := Nat.max s.maxThreadsPerKernel e.totalThreads.toNat }
  | .memalloc e => { s with
      memAllocCount := (s.memAllocCount + 1) % 2 ^ 64
      totalMemAllocBytes := (s.totalMemAllocBytes + e.byteSize.toNat) % 2 ^ 64 }
  | .memcpy e => { s with
      memcpyCount := (s.memcpyCount + 1) % 2 ^ 64
      totalMemcpyBytes := (s.totalMemcpyBytes + e.byteSize.toNat) % 2 ^ 64
      htodBytes := if e.kind = 0 then (s.htodBytes + e.byteSize.toNat) % 2 ^ 64 else s.htodBytes
      dtohBytes := if e.kind = 0 then s.dtohBytes else (s.dtohBytes + e.byteSize.toNat) % 2 ^ 64 }
  | .stream e => { s with
      streamSyncCount := (s.streamSyncCount + 1) % 2 ^ 64
      maxSyncTimeNs := Nat.max s.maxSyncTimeNs e.deltaNs.toNat }
  | .other => s

theorem Totals.of_snoc (evs : List Event) (ev : Event) :
    Totals.of (evs ++ [ev]) = (Totals.of evs).add ev := by
  cases ev with
  | memcpy e =>
    by_cases h : e.kind = 0 <;>
      simp [Totals.of, Totals.add, launches, allocs, copies, syncs, htodCopies, dtohCopies, h]
  | kernelLaunch e | memalloc e | stream e | other =>
    simp [Totals.of, Totals.add, launches, allocs, copies, syncs, htodCopies, dtohCopies]

def totalCalls (t : Totals) : Nat :=
  t.kernelLaunchCount + t.memAllocCount + t.memcpyCount + t.streamSyncCount

theorem length_kinds {p : UInt32} (evs : List Event) (h : ∀ ev ∈ evs, ev.IsOf p) :
    (launches evs).length + (allocs evs).length + (copies evs).length + (syncs evs).length =
      evs.length := by
  induction evs with
  | nil => rfl
  | cons ev evs ih =>
    have hrest := ih fun x hx => h x (by simp [hx])
    have hev := h ev (by simp)
    cases ev with
    | other => simp [Event.IsOf, Event.source] at hev
    | kernelLaunch e | memalloc e | memcpy e | stream e =>
      simp only [launches, allocs, copies, syncs] at hrest
      simp [launches, allocs, copies, syncs]
      omega

theorem totalCalls_of {p : UInt32} {evs : List Event} (h : ∀ ev ∈ evs, ev.IsOf p)
    (hlen : evs.length < 2 ^ 64) : totalCalls (Totals.of evs) = evs.length := by
  have hle : ∀ {E : Type} (g : Event → Option E),
      (evs.filterMap g).length % 2 ^ 64 = (evs.filterMap g).length :=
    fun g => Nat.mod_eq_of_lt ((List.length_filterMap_le g evs).trans_lt hlen)
  rw [← length_kinds evs h]
  simp only [totalCalls, Totals.of, launches, allocs, copies, syncs, hle]

def fingerprintTotals (w : GPUFingerprint F) : Totals where
  kernelLaunchCount := w.kernelLaunchCount.toNat
  memAllocCount := w.memAllocCount.toNat
  memcpyCount := w.memcpyCount.toNat
  streamSyncCount := w.streamSyncCount.toNat
  totalThreadsLaunched := w.totalThreadsLaunched.toNat
  totalMemAllocBytes := w.totalMemAllocBytes.toNat
  totalMemcpyBytes := w.totalMemcpyBytes.toNat
  htodBytes := w.htodBytes.toNat
  dtohBytes := w.dtohBytes.toNat
  maxThreadsPerKernel := w.maxThreadsPerKernel.toNat
  maxSyncTimeNs := w.maxSyncTimeNs.toNat

theorem toNat_max (a b : UInt64) : (Fingerprint.max a b).toNat = Nat.max a.toNat b.toNat := by
  unfold Fingerprint.max
  split
  · next h => exact (Nat.max_eq_left (Nat.le_of_lt (UInt64.lt_iff_toNat_lt.mp h))).symm
  · next h =>
    have hle : a.toNat ≤ b.toNat := Nat.le_of_not_lt fun hlt => h (UInt64.lt_iff_toNat_lt.mpr hlt)
    exact (Nat.max_eq_right hle).symm

theorem fingerprintTotals_record (w : GPUFingerprint F) (ev : Event) :
    fingerprintTotals (record w ev) = (fingerprintTotals w).add ev := by
  cases ev with
  | memcpy e =>
    have hd : (UInt8.ofNat dirHtod) = 0 := rfl
    by_cases h : e.kind = 0 <;>
      simp [fingerprintTotals, Totals.add, record, recordMemcpy, hd, h, UInt64.toNat_add]
  | kernelLaunch e | memalloc e | stream e | other =>
    simp [fingerprintTotals, Totals.add, record, recordKernelLaunch, recordMemalloc, recordStream,
      toNat_max, UInt64.toNat_add]

theorem fingerprintTotals_foldl (D : Duration) (now : Time) (pid : UInt32) (comm : List UInt8)
    (seg : List Timed) :
    fingerprintTotals (seg.foldl (fun w x => record w x.2) (newWindow (F := F) D now pid comm)) =
      Totals.of (seg.map Prod.snd) := by
  induction seg using List.reverseRecOn with
  | nil => rfl
  | append_singleton seg x ih =>
    rw [List.foldl_append, List.map_append, List.map_singleton, Totals.of_snoc, ← ih]
    exact fingerprintTotals_record _ x.2

def windowTotals (tw : GpuTimeWindow F) : Totals where
  kernelLaunchCount := tw.kernelLaunchCount.toNat
  memAllocCount := tw.memAllocCount.toNat
  memcpyCount := tw.memcpyCount.toNat
  streamSyncCount := tw.streamSyncCount.toNat
  totalThreadsLaunched := tw.totalThreadsLaunched.toNat
  totalMemAllocBytes := tw.totalMemAllocBytes.toNat
  totalMemcpyBytes := tw.totalMemcpyBytes.toNat
  htodBytes := tw.htodBytes.toNat
  dtohBytes := tw.dtohBytes.toNat
  maxThreadsPerKernel := tw.maxThreadsPerKernel.toNat
  maxSyncTimeNs := tw.maxSyncTimeNs.toNat

/-- What a reported window takes over from the window of the aggregator, and
the metrics that `Flush` computes for it. -/
structure Reports (tw : GpuTimeWindow F) (w : GPUFingerprint F) : Prop where
  windowStart : tw.windowStartNs = w.windowStart
  windowEnd : tw.windowEndNs = w.windowEnd
  totals : windowTotals tw = fingerprintTotals w
  metric : ∀ m : Metric, m.reported tw = if m.Guard w then m.value w else m.get w

theorem payload_report (w : GPUFingerprint F) :
    ∃ tw, (windowEvent (deriveMetrics w)).payload = .tw tw ∧ Reports tw w := by
  refine ⟨_, rfl, ?_, ?_, ?_, fun m => ?_⟩
  · simp only [deriveMetrics]
    split_ifs <;> rfl
  · simp only [deriveMetrics]
    split_ifs <;> rfl
  · simp only [windowTotals, fingerprintTotals, deriveMetrics]
    split_ifs <;> rfl
  · rw [← m.get_deriveMetrics]
    cases m <;> rfl

structure Summary where
  pid : UInt32
  comm : GoString
  totals : Totals
deriving DecidableEq

def Summary.of (pid : UInt32) (seg : List Event) : Summary where
  pid := pid
  comm := ((seg.head?.bind Event.source).map fun s => byteSliceToString s.2.toList).getD []
  totals := Totals.of seg

def fingerprintSummary (w : GPUFingerprint F) : Summary := ⟨w.pid, w.comm, fingerprintTotals w⟩

def eventSummary (e : GpuEvent F) : Option Summary :=
  match e.payload with
  | .tw tw => some ⟨e.pid, e.comm, windowTotals tw⟩
  | .token _ => none

theorem eventSummary_report (w : GPUFingerprint F) :
    eventSummary (windowEvent (deriveMetrics w)) = some (fingerprintSummary w) := by
  simp only [eventSummary, windowEvent, windowTotals, deriveMetrics, fingerprintSummary,
    fingerprintTotals]
  split_ifs <;> rfl

theorem summary_windowOf {D : Duration} {p : UInt32} {seg : List Timed} (hne : seg ≠ [])
    (hseg : ∀ x ∈ seg, x.2.IsOf p) :
    (windowOf (F := F) D seg).map fingerprintSummary =
      some (Summary.of p (seg.map Prod.snd)) := by
  cases seg with
  | nil => exact absurd rfl hne
  | cons x xs =>
    obtain ⟨comm, hs, hw⟩ := windowOf_cons (F := F) D xs (hseg x (by simp))
    obtain ⟨hpid, hcomm, -, -⟩ :=
      foldl_record_frame (newWindow (F := F) D x.1 p comm.toList) (x :: xs)
    rw [hw, Option.map_some]
    simp only [fingerprintSummary, Summary.of, hpid, hcomm, fingerprintTotals_foldl]
    simp [newWindow, hs]

def windowsOf (p : UInt32) (t : Trace F) : List (Option Summary) :=
  (emitted p t).map eventSummary ++
    ((t.ga.windows.lookup p).map fun w => some (fingerprintSummary w)).toList

def gpuEvents (p : UInt32) (acts : List Action) : List Event := (timedEvents p acts).map Prod.snd

theorem windowsOf_eq {D : Duration} {t : Trace F} (h : Refines D t) (p : UInt32) :
    windowsOf p t = (t.segments p).all.map fun seg => some (Summary.of p (seg.map Prod.snd)) := by
  rw [windowsOf, windows_eq eventSummary_report h p]
  apply List.map_congr_left
  intro seg hm
  exact summary_windowOf ((t.segments p).all_ne seg hm)
    fun x hx => h.own p x (History.mem_flat_of_mem hm hx)

/-- No event is lost, duplicated or attributed to another process: the
windows of a process cut the sequence of its events into consecutive
segments, and each of them reports exactly its segment. -/
theorem windows_partition_events (D : Duration) (now : Time) (acts : List Action) (t : Trace F)
    (h : exec step (start D now) acts = some t) (p : UInt32) :
    ∃ segs : List (List Event), segs.flatten = gpuEvents p acts ∧ (∀ seg ∈ segs, seg ≠ []) ∧
      windowsOf p t = segs.map fun seg => some (Summary.of p seg) := by
  refine ⟨(t.segments p).all.map (List.map Prod.snd), ?_, ?_, ?_⟩
  · rw [gpuEvents, ← flat_run h p, ← History.flatten_all, List.map_flatten]
  · intro seg hm
    obtain ⟨s, hs, rfl⟩ := List.mem_map.mp hm
    simpa using (t.segments p).all_ne s hs
  · rw [windowsOf_eq (refines_run h) p, List.map_map]
    rfl

def mixedRun : List Action :=
  [.update 1 (sampleLaunch 7 32), .update 2 (sampleMemcpy 8 100 0), .update 3 (sampleMemcpy 7 5 1),
    .flush 4 [7, 8], .update 5 (sampleLaunch 7 64), .update 6 .other, .flush 7 [7, 8]]

theorem windows_partition_events_mixedRun :
    ∃ t, exec step (start (F := ℚ) 2 0) mixedRun = some t ∧
      ∃ segs : List (List Event), segs.flatten = gpuEvents 7 mixedRun ∧ (∀ seg ∈ segs, seg ≠ []) ∧
        windowsOf 7 t = segs.map fun seg => some (Summary.of 7 seg) := by
  have h : (exec step (start (F := ℚ) 2 0) mixedRun).isSome := by decide +kernel
  have ht := (Option.some_get h).symm
  exact ⟨_, ht, windows_partition_events 2 0 mixedRun _ ht 7⟩

end InfraSightGpu.WindowTotals
