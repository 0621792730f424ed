import InfraSightGpu.Fingerprint
import InfraSightGpu.Lib.Maps

namespace InfraSightGpu.Aggregator

open InfraSightGpu.Events InfraSightGpu.Fingerprint InfraSightGpu.Lib.Maps

variable {F : Type} [GoFloat F]

structure GPUAggregator (F : Type) where
  windows : Map UInt32 (GPUFingerprint F)
  windowDuration : Duration
  lastFlush : Time

def newGPUAggregator (window : Duration) (now : Time) : GPUAggregator F where
  windows := ∅
  windowDuration := window
  lastFlush := now

/-- `now` is the reading of `time.Now`, taken only when a window is created. -/
def ensureWindow (ga : GPUAggregator F) (now : Time) (pid : UInt32) (comm : List UInt8) :
    GPUAggregator F × GPUFingerprint F :=
  match ga.windows.lookup pid with
  | some win => (ga, win)
  | none =>
    let win := newWindow ga.windowDuration now pid comm
    ({ ga with windows := ga.windows.insert pid win }, win)

/-- Writing through the pointer that `ensureWindow` returned. -/
def setWindow (ga : GPUAggregator F) (pid : UInt32) (w : GPUFingerprint F) : GPUAggregator F :=
  { ga with windows := ga.windows.insert pid w }

def update (ga : GPUAggregator F) (now : Time) : Event → GPUAggregator F
  | .kernelLaunch e =>
    let (ga, w) := ensureWindow ga now e.pid e.comm.toList
    setWindow ga e.pid (recordKernelLaunch w e)
  | .memalloc e =>
    let (ga, w) := ensureWindow ga now e.pid e.comm.toList
    setWindow ga e.pid (recordMemalloc w e)
  | .memcpy e =>
    let (ga, w) := ensureWindow ga now e.pid e.comm.toList
    setWindow ga e.pid (recordMemcpy w e)
  | .stream e =>
    let (ga, w) := ensureWindow ga now e.pid e.comm.toList
    setWindow ga e.pid (recordStream w e)
  | .other => ga

def flushWindow (now : Time) (st : Map UInt32 (GPUFingerprint F) × List (GpuEvent F))
    (pid : UInt32) : Map UInt32 (GPUFingerprint F) × List (GpuEvent F) :=
  match st.1.lookup pid with
  | none => st
  | some w =>
    if w.windowEnd < now then (st.1.erase pid, st.2 ++ [windowEvent (deriveMetrics w)])
    else st

/-- `now` is the reading of `time.Now` and `order` the order in which the
range loop visits the map. -/
def flush (ga : GPUAggregator F) (now : Time) (order : List UInt32) :
    GPUAggregator F × Option (GpuBatch F) :=
  let (windows, events) := order.foldl (flushWindow now) (ga.windows, [])
  if events.length = 0 then ({ ga with windows := windows }, none)
  else ({ ga with windows := windows, lastFlush := now },
    some { type := "gpu_time_window", batch := events })

def windowFor (ga : GPUAggregator F) (now : Time) (pid : UInt32) (comm : List UInt8) :
    GPUFingerprint F :=
  (ga.windows.lookup pid).getD (newWindow ga.windowDuration now pid comm)

theorem lookup_ensureWindow_set (ga : GPUAggregator F) (now : Time) (pid : UInt32)
    (comm : List UInt8) (f : GPUFingerprint F → GPUFingerprint F) (p : UInt32) :
    (setWindow (ensureWindow ga now pid comm).1 pid
        (f (ensureWindow ga now pid comm).2)).windows.lookup p =
      if p = pid then some (f (windowFor ga now pid comm)) else ga.windows.lookup p := by
  unfold ensureWindow windowFor setWindow
  cases ga.windows.lookup pid <;> simp [lookup_insert]

theorem lookup_update (ga : GPUAggregator F) (now : Time) (ev : Event) (p : UInt32) :
    (update ga now ev).windows.lookup p =
      match ev.source with
      | some (pid, comm) =>
        if p = pid then some (record (windowFor ga now pid comm.toList) ev)
        else ga.windows.lookup p
      | none => ga.windows.lookup p := by
  cases ev with
  | kernelLaunch e =>
    exact lookup_ensureWindow_set ga now e.pid e.comm.toList (recordKernelLaunch · e) p
  | memalloc e => exact lookup_ensureWindow_set ga now e.pid e.comm.toList (recordMemalloc · e) p
  | memcpy e => exact lookup_ensureWindow_set ga now e.pid e.comm.toList (recordMemcpy · e) p
  | stream e => exact lookup_ensureWindow_set ga now e.pid e.comm.toList (recordStream · e) p
  | other => rfl

theorem windowDuration_update (ga : GPUAggregator F) (now : Time) (ev : Event) :
    (update ga now ev).windowDuration = ga.windowDuration := by
  cases ev <;> simp only [update, setWindow, ensureWindow] <;> split <;> rfl

def report (now : Time) (w : GPUFingerprint F) : Option (GpuEvent F) :=
  if w.windowEnd < now then some (windowEvent (deriveMetrics w)) else none

theorem report_eq_some {now : Time} {w : GPUFingerprint F} {e : GpuEvent F} :
    report now w = some e ↔ w.windowEnd < now ∧ windowEvent (deriveMetrics w) = e := by
  rw [report, Option.ite_none_right_eq_some, Option.some.injEq]

theorem flushWindow_eq (now : Time) : flushWindow (F := F) now = drainStep (report now) := by
  funext st pid
  unfold flushWindow drainStep report
  cases st.1.lookup pid with
  | none => rfl
  | some w => by_cases h : w.windowEnd < now <;> simp [h]

theorem flush_fst (ga : GPUAggregator F) (now : Time) (order : List UInt32) :
    (flush ga now order).1.windows = (order.foldl (drainStep (report now)) (ga.windows, [])).1 ∧
      (flush ga now order).1.windowDuration = ga.windowDuration := by
  unfold flush
  rw [flushWindow_eq]
  dsimp only
  split <;> exact ⟨rfl, rfl⟩

theorem flush_snd (ga : GPUAggregator F) (now : Time) (order : List UInt32) :
    batchEvents (flush ga now order).2 =
      (order.foldl (drainStep (report now)) (ga.windows, [])).2 := by
  unfold flush
  rw [flushWindow_eq]
  dsimp only
  split
  · next h => simp [batchEvents, List.length_eq_zero_iff.mp h]
  · rfl

theorem flush_nonempty (ga : GPUAggregator F) (now : Time) (order : List UInt32) (b : GpuBatch F)
    (h : (flush ga now order).2 = some b) : b.batch ≠ [] := by
  unfold flush at h
  dsimp only at h
  split at h
  · cases h
  · next hne =>
    cases h
    exact fun he => hne (List.length_eq_zero_iff.mpr he)

theorem flush_type (ga : GPUAggregator F) (now : Time) (order : List UInt32) (b : GpuBatch F)
    (h : (flush ga now order).2 = some b) : b.type = "gpu_time_window" := by
  unfold flush at h
  dsimp only at h
  split at h <;> cases h
  rfl

theorem lookup_flush (ga : GPUAggregator F) (now : Time) {order : List UInt32}
    (h : Enumerates order ga.windows) (p : UInt32) :
    (flush ga now order).1.windows.lookup p =
      if ((ga.windows.lookup p).bind (report now)).isSome then none else ga.windows.lookup p := by
  rw [(flush_fst ga now order).1, (foldl_drainStep (report now) order h.nodup ga.windows []).2 p]
  by_cases hp : p ∈ ga.windows
  · simp [h.mem_iff, hp]
  · simp [h.mem_iff, hp, Finmap.lookup_eq_none.mpr hp]

def KeyedByPid (ga : GPUAggregator F) : Prop :=
  ∀ p w, ga.windows.lookup p = some w → w.pid = p

theorem flush_events_of {ga : GPUAggregator F} (hk : KeyedByPid ga) (now : Time)
    {order : List UInt32} (h : Enumerates order ga.windows) (p : UInt32) :
    (batchEvents (flush ga now order).2).filter (fun e => e.pid = p) =
      ((ga.windows.lookup p).bind (report now)).toList := by
  have hkey : ∀ k, ∀ e ∈ ((ga.windows.lookup k).bind (report now)).toList, e.pid = k := by
    intro k e he
    rw [Option.mem_toList] at he
    obtain ⟨w, hw, he⟩ := Option.bind_eq_some_iff.mp he
    obtain ⟨-, rfl⟩ := report_eq_some.mp he
    rw [windowEvent_pid, hk k w hw]
  rw [flush_snd, (foldl_drainStep (report now) order h.nodup ga.windows []).1, List.nil_append,
    List.filterMap_eq_flatMap_toList,
    filter_flatMap_key _ GpuEvent.pid hkey p order h.nodup]
  by_cases hp : p ∈ ga.windows
  · simp [h.mem_iff, hp]
  · simp [h.mem_iff, hp, Finmap.lookup_eq_none.mpr hp]

end InfraSightGpu.Aggregator
