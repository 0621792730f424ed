import InfraSightGpu.Events

namespace InfraSightGpu.Fingerprint

open InfraSightGpu.Events

variable {F : Type} [GoFloat F]

structure GPUFingerprint (F : Type) where
  pid : UInt32
  comm : GoString
  windowStart : Time
  windowEnd : Time
  kernelLaunchCount : UInt64
  memAllocCount : UInt64
  memcpyCount : UInt64
  streamSyncCount : UInt64
  avgThreadsPerKernel : F
  maxThreadsPerKernel : UInt64
  avgBlocksPerKernel : F
  totalThreadsLaunched : UInt64
  totalMemAllocBytes : UInt64
  avgMemAllocBytes : F
  totalMemcpyBytes : UInt64
  avgMemcpyBytes : F
  htodBytes : UInt64
  dtohBytes : UInt64
  htodRatio : F
  avgSyncTimeNs : F
  maxSyncTimeNs : UInt64
  syncFraction : F
  launchRate : F
  memcpyRate : F
  allocRate : F
deriving DecidableEq

/-- The window that `ensureWindow` creates: every field it does not set has
its zero value. -/
def newWindow (windowDuration : Duration) (now : Time) (pid : UInt32) (comm : List UInt8) :
    GPUFingerprint F where
  pid := pid
  comm := byteSliceToString comm
  windowStart := now
  windowEnd := now + windowDuration
  kernelLaunchCount := 0
  memAllocCount := 0
  memcpyCount := 0
  streamSyncCount := 0
  avgThreadsPerKernel := 0
  maxThreadsPerKernel := 0
  avgBlocksPerKernel := 0
  totalThreadsLaunched := 0
  totalMemAllocBytes := 0
  avgMemAllocBytes := 0
  totalMemcpyBytes := 0
  avgMemcpyBytes := 0
  htodBytes := 0
  dtohBytes := 0
  htodRatio := 0
  avgSyncTimeNs := 0
  maxSyncTimeNs := 0
  syncFraction := 0
  launchRate := 0
  memcpyRate := 0
  allocRate := 0

protected def max (a b : UInt64) : UInt64 := if a > b then a else b

def runningAvg (avg : F) (n x : UInt64) : F :=
  (avg * GoFloat.ofUInt64 (n - 1) + GoFloat.ofUInt64 x) / GoFloat.ofUInt64 n

def recordKernelLaunch (w : GPUFingerprint F) (e : GpuprintGpuKernelLaunchEventT) :
    GPUFingerprint F :=
  let kernelLaunchCount := w.kernelLaunchCount + 1
  let totalThreads := e.totalThreads
  -- a product of uint32 values, so it wraps at 2^32
  let blocks := e.gridx * e.gridy * e.gridz
  { w with
    kernelLaunchCount := kernelLaunchCount
    totalThreadsLaunched := w.totalThreadsLaunched + totalThreads
    avgThreadsPerKernel := runningAvg w.avgThreadsPerKernel kernelLaunchCount totalThreads
    maxThreadsPerKernel := Fingerprint.max w.maxThreadsPerKernel totalThreads
    avgBlocksPerKernel := runningAvg w.avgBlocksPerKernel kernelLaunchCount blocks.toUInt64 }

def recordMemalloc (w : GPUFingerprint F) (e : GpuprintGpuMemallocEventT) : GPUFingerprint F :=
  let memAllocCount := w.memAllocCount + 1
  { w with
    memAllocCount := memAllocCount
    totalMemAllocBytes := w.totalMemAllocBytes + e.byteSize
    avgMemAllocBytes := runningAvg w.avgMemAllocBytes memAllocCount e.byteSize }

def recordMemcpy (w : GPUFingerprint F) (e : GpuprintGpuMemcpyEventT) : GPUFingerprint F :=
  let memcpyCount := w.memcpyCount + 1
  let w' := { w with
    memcpyCount := memcpyCount
    totalMemcpyBytes := w.totalMemcpyBytes + e.byteSize
    avgMemcpyBytes := runningAvg w.avgMemcpyBytes memcpyCount e.byteSize }
  if e.kind = UInt8.ofNat dirHtod then { w' with htodBytes := w.htodBytes + e.byteSize }
  else { w' with dtohBytes := w.dtohBytes + e.byteSize }

def recordStream (w : GPUFingerprint F) (e : GpuprintGpuStreamEventT) : GPUFingerprint F :=
  let streamSyncCount := w.streamSyncCount + 1
  { w with
    streamSyncCount := streamSyncCount
    avgSyncTimeNs := runningAvg w.avgSyncTimeNs streamSyncCount e.deltaNs
    maxSyncTimeNs := Fingerprint.max w.maxSyncTimeNs e.deltaNs }

def record (w : GPUFingerprint F) : Event → GPUFingerprint F
  | .kernelLaunch e => recordKernelLaunch w e
  | .memalloc e => recordMemalloc w e
  | .memcpy e => recordMemcpy w e
  | .stream e => recordStream w e
  | .other => w

def deriveMetrics (w : GPUFingerprint F) : GPUFingerprint F :=
  let duration : F := GoFloat.seconds (w.windowEnd - w.windowStart)
  let totalEvents := w.kernelLaunchCount + w.memcpyCount + w.memAllocCount + w.streamSyncCount
  let w := if w.totalMemcpyBytes > 0 then
      { w with htodRatio := GoFloat.ofUInt64 w.htodBytes / GoFloat.ofUInt64 w.totalMemcpyBytes }
    else w
  let w := if totalEvents > 0 then
      { w with syncFraction := GoFloat.ofUInt64 w.streamSyncCount / GoFloat.ofUInt64 totalEvents }
    else w
  if 0 < duration then
    { w with
      launchRate := GoFloat.ofUInt64 w.kernelLaunchCount / duration
      memcpyRate := GoFloat.ofUInt64 w.memcpyCount / duration
      allocRate := GoFloat.ofUInt64 w.memAllocCount / duration }
  else w

def windowEvent (w : GPUFingerprint F) : GpuEvent F where
  pid := w.pid
  comm := w.comm
  eventType := "GPU_TIME_WINDOW"
  payload := .tw {
    windowStartNs := w.windowStart
    windowEndNs := w.windowEnd
    kernelLaunchCount := w.kernelLaunchCount
    memAllocCount := w.memAllocCount
    memcpyCount := w.memcpyCount
    streamSyncCount := w.streamSyncCount
    avgThreadsPerKernel := w.avgThreadsPerKernel
    avgBlocksPerKernel := w.avgBlocksPerKernel
    maxThreadsPerKernel := w.maxThreadsPerKernel
    totalThreadsLaunched := w.totalThreadsLaunched
    totalMemAllocBytes := w.totalMemAllocBytes
    totalMemcpyBytes := w.totalMemcpyBytes
    htodBytes := w.htodBytes
    dtohBytes := w.dtohBytes
    htodRatio := w.htodRatio
    avgMemAllocBytes := w.avgMemAllocBytes
    avgMemcpyBytes := w.avgMemcpyBytes
    avgSyncTimeNs := w.avgSyncTimeNs
    maxSyncTimeNs := w.maxSyncTimeNs
    syncFraction := w.syncFraction
    launchRate := w.launchRate
    memcpyRate := w.memcpyRate
    allocRate := w.allocRate }

def totalEvents (w : GPUFingerprint F) : UInt64 :=
  w.kernelLaunchCount + w.memcpyCount + w.memAllocCount + w.streamSyncCount

def duration (w : GPUFingerprint F) : F := GoFloat.seconds (w.windowEnd - w.windowStart)

/-- The metrics that `Flush` computes, each of them under one of its guards. -/
inductive Metric where
  | htodRatio
  | syncFraction
  | launchRate
  | memcpyRate
  | allocRate
deriving DecidableEq

namespace Metric

def get (m : Metric) (w : GPUFingerprint F) : F :=
  match m with
  | .htodRatio => w.htodRatio
  | .syncFraction => w.syncFraction
  | .launchRate => w.launchRate
  | .memcpyRate => w.memcpyRate
  | .allocRate => w.allocRate

def set (m : Metric) (v : F) (w : GPUFingerprint F) : GPUFingerprint F :=
  match m with
  | .htodRatio => { w with htodRatio := v }
  | .syncFraction => { w with syncFraction := v }
  | .launchRate => { w with launchRate := v }
  | .memcpyRate => { w with memcpyRate := v }
  | .allocRate => { w with allocRate := v }

def Guard (m : Metric) (w : GPUFingerprint F) : Prop :=
  match m with
  | .htodRatio => w.totalMemcpyBytes > 0
  | .syncFraction => totalEvents w > 0
  | .launchRate | .memcpyRate | .allocRate => 0 < duration w

instance (m : Metric) (w : GPUFingerprint F) : Decidable (m.Guard w) :=
  match m with
  | .htodRatio => inferInstanceAs (Decidable (w.totalMemcpyBytes > 0))
  | .syncFraction => inferInstanceAs (Decidable (totalEvents w > 0))
  | .launchRate | .memcpyRate | .allocRate => inferInstanceAs (Decidable (0 < duration w))

def value (m : Metric) (w : GPUFingerprint F) : F :=
  match m with
  | .htodRatio => GoFloat.ofUInt64 w.htodBytes / GoFloat.ofUInt64 w.totalMemcpyBytes
  | .syncFraction => GoFloat.ofUInt64 w.streamSyncCount / GoFloat.ofUInt64 (totalEvents w)
  | .launchRate => GoFloat.ofUInt64 w.kernelLaunchCount / duration w
  | .memcpyRate => GoFloat.ofUInt64 w.memcpyCount / duration w
  | .allocRate => GoFloat.ofUInt64 w.memAllocCount / duration w

omit [GoFloat F] in
@[simp] theorem get_set (m : Metric) (v : F) (w : GPUFingerprint F) : m.get (m.set v w) = v := by
  cases m <;> rfl

@[simp] theorem guard_set (m : Metric) (v : F) (w : GPUFingerprint F) :
    m.Guard (m.set v w) ↔ m.Guard w := by
  cases m <;> exact Iff.rfl

@[simp] theorem value_set (m : Metric) (v : F) (w : GPUFingerprint F) :
    m.value (m.set v w) = m.value w := by
  cases m <;> rfl

theorem get_deriveMetrics (m : Metric) (w : GPUFingerprint F) :
    m.get (deriveMetrics w) = if m.Guard w then m.value w else m.get w := by
  by_cases hguard : m.Guard w
  · rw [if_pos hguard]
    cases m <;> simp only [Guard, totalEvents, duration] at hguard <;>
      simp only [deriveMetrics, hguard, if_true] <;> split_ifs <;> rfl
  · rw [if_neg hguard]
    cases m <;> simp only [Guard, totalEvents, duration] at hguard <;>
      simp only [deriveMetrics, hguard, if_false] <;> split_ifs <;> rfl

theorem get_newWindow (m : Metric) (windowDuration : Duration) (now : Time) (pid : UInt32)
    (comm : List UInt8) : m.get (newWindow (F := F) windowDuration now pid comm) = 0 := by
  cases m <;> rfl

theorem get_record (m : Metric) (w : GPUFingerprint F) (ev : Event) :
    m.get (record w ev) = m.get w := by
  cases ev with
  | memcpy e =>
    by_cases h : e.kind = UInt8.ofNat dirHtod <;> cases m <;> simp [get, record, recordMemcpy, h]
  | kernelLaunch e | memalloc e | stream e | other => cases m <;> rfl

def reported (m : Metric) (tw : GpuTimeWindow F) : F :=
  match m with
  | .htodRatio => tw.htodRatio
  | .syncFraction => tw.syncFraction
  | .launchRate => tw.launchRate
  | .memcpyRate => tw.memcpyRate
  | .allocRate => tw.allocRate

end Metric

theorem windowEvent_pid (w : GPUFingerprint F) : (windowEvent (deriveMetrics w)).pid = w.pid := by
  simp only [windowEvent, deriveMetrics]
  split_ifs <;> rfl

end InfraSightGpu.Fingerprint
