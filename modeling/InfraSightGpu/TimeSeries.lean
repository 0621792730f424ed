import InfraSightGpu.Events
import InfraSightGpu.Lib.Maps

namespace InfraSightGpu.TimeSeries

open InfraSightGpu.Events InfraSightGpu.Lib.Maps

variable {F : Type}

/-- `now` is the reading of `time.Now().UnixNano()`. -/
def eventToToken [GoFloat F] (now : Time) : Event → Option (GpuEventToken F)
  | .kernelLaunch e => some
      { timestamp := now
        eventType := .eventKernelLaunch
        value := GoFloat.ofUInt64 e.totalThreads
        dir := 0 }
  | .memalloc e => some
      { timestamp := now
        eventType := .eventMemalloc
        value := GoFloat.ofUInt64 e.byteSize
        dir := 0 }
  | .memcpy e =>
      let dir := if e.kind = UInt8.ofNat dirHtod then dirHtod else dirDtoh
      some
        { timestamp := now
          eventType := .eventMemcpy
          value := GoFloat.ofUInt64 e.byteSize
          dir := dir }
  | .stream e => some
      { timestamp := now
        eventType := .eventStreamSync
        value := GoFloat.ofUInt64 e.deltaNs
        dir := 0 }
  | .other => none

structure TimeSeriesCollector (F : Type) where
  buffers : Map UInt32 (List (GpuEventToken F))
  comms : Map UInt32 GoString
  flushInterval : Duration

def newTimeSeriesCollector (t : Duration) : TimeSeriesCollector F where
  buffers := ∅
  comms := ∅
  flushInterval := t

structure Pending (F : Type) where
  pid : UInt32
  comm : GoString
  token : GpuEventToken F
deriving DecidableEq

/-- `Update` up to the mutex; it returns early on a nil token. -/
def prepare [GoFloat F] (now : Time) (ev : Event) : Option (Pending F) :=
  match eventToToken now ev with
  | none => none
  | some token =>
    match ev with
    | .kernelLaunch e => some ⟨e.pid, byteSliceToString e.comm.toList, token⟩
    | .memalloc e => some ⟨e.pid, byteSliceToString e.comm.toList, token⟩
    | .memcpy e => some ⟨e.pid, byteSliceToString e.comm.toList, token⟩
    | .stream e => some ⟨e.pid, byteSliceToString e.comm.toList, token⟩
    | .other => none

def commit (tc : TimeSeriesCollector F) (u : Pending F) : TimeSeriesCollector F :=
  { tc with
    buffers := tc.buffers.insert u.pid ((tc.buffers.lookup u.pid).getD [] ++ [u.token])
    comms := tc.comms.insert u.pid u.comm }

def update [GoFloat F] (tc : TimeSeriesCollector F) (now : Time) (ev : Event) :
    TimeSeriesCollector F :=
  match prepare now ev with
  | none => tc
  | some u => commit tc u

def tokenEvent (pid : UInt32) (comm : GoString) (tk : GpuEventToken F) : GpuEvent F where
  pid := pid
  comm := comm
  eventType := "timeserie"
  payload := .token tk

/-- `order` is the order in which the range loop visits the buffers. -/
def flush (tc : TimeSeriesCollector F) (order : List UInt32) :
    TimeSeriesCollector F × Option (GpuBatch F) :=
  let events := order.flatMap fun pid =>
    ((tc.buffers.lookup pid).getD []).map fun tk =>
      tokenEvent pid ((tc.comms.lookup pid).getD []) tk
  let tc := { tc with buffers := ∅, comms := ∅ }
  if events.length = 0 then (tc, none)
  else (tc, some { type := "gpu_time_series", batch := events })

def held (p : UInt32) (tc : TimeSeriesCollector F) : List (GpuEventToken F) :=
  (tc.buffers.lookup p).getD []

theorem prepare_eq_some [GoFloat F] {now : Time} {ev : Event} {u : Pending F} :
    prepare now ev = some u ↔ ∃ comm, ev.source = some (u.pid, comm) ∧
      u.comm = byteSliceToString comm.toList ∧ eventToToken now ev = some u.token := by
  obtain ⟨pid, comm, token⟩ := u
  cases ev with
  | kernelLaunch e | memalloc e | memcpy e | stream e =>
    simp only [prepare, eventToToken, Event.source, Option.some.injEq, Pending.mk.injEq,
      Prod.mk.injEq]
    constructor
    · rintro ⟨rfl, rfl, htok⟩
      exact ⟨e.comm, ⟨rfl, rfl⟩, rfl, htok⟩
    · rintro ⟨c, ⟨rfl, rfl⟩, rfl, htok⟩
      exact ⟨rfl, rfl, htok⟩
  | other => simp [prepare, eventToToken]

theorem held_commit (tc : TimeSeriesCollector F) (u : Pending F) (p : UInt32) :
    held p (commit tc u) = held p tc ++ if u.pid = p then [u.token] else [] := by
  by_cases h : u.pid = p
  · subst h; simp [held, commit]
  · simp [held, commit, h, Ne.symm h]

theorem held_flush (tc : TimeSeriesCollector F) (order : List UInt32) (p : UInt32) :
    held p (flush tc order).1 = [] := by
  unfold flush
  dsimp only
  split <;> rfl

theorem flush_nonempty (tc : TimeSeriesCollector F) (order : List UInt32) (b : GpuBatch F)
    (h : (flush tc order).2 = some b) : b.batch ≠ [] := by
  unfold flush at h
  dsimp only at h
  split at h
  · cases h
  · next hne =>
    cases h
    exact fun he => hne (List.length_eq_zero_iff.mpr he)

theorem flush_type (tc : TimeSeriesCollector F) (order : List UInt32) (b : GpuBatch F)
    (h : (flush tc order).2 = some b) : b.type = "gpu_time_series" := by
  unfold flush at h
  dsimp only at h
  split at h <;> cases h
  rfl

theorem flush_snd (tc : TimeSeriesCollector F) (order : List UInt32) :
    batchEvents (flush tc order).2 = order.flatMap fun pid =>
      (held pid tc).map fun tk => tokenEvent pid ((tc.comms.lookup pid).getD []) tk := by
  unfold flush held
  dsimp only
  split
  · next h => simpa [batchEvents] using (List.length_eq_zero_iff.mp h).symm
  · rfl

theorem flush_events_of (tc : TimeSeriesCollector F) {order : List UInt32}
    (h : Enumerates order tc.buffers) (p : UInt32) :
    (batchEvents (flush tc order).2).filter (fun e => e.pid = p) =
      (held p tc).map fun tk => tokenEvent p ((tc.comms.lookup p).getD []) tk := by
  have hkey : ∀ k, ∀ e ∈ (held k tc).map
      (fun tk => tokenEvent k ((tc.comms.lookup k).getD []) tk), e.pid = k := by
    intro k e he
    obtain ⟨tk, -, rfl⟩ := List.mem_map.mp he
    rfl
  rw [flush_snd, filter_flatMap_key _ GpuEvent.pid hkey p order h.nodup]
  by_cases hp : p ∈ tc.buffers
  · simp [h.mem_iff, hp]
  · simp [h.mem_iff, hp, held, Finmap.lookup_eq_none.mpr hp]

theorem flush_eq_none_iff (tc : TimeSeriesCollector F) {order : List UInt32}
    (h : Enumerates order tc.buffers) : (flush tc order).2 = none ↔ ∀ p, held p tc = [] := by
  have hnil : (flush tc order).2 = none ↔ batchEvents (flush tc order).2 = [] := by
    cases hb : (flush tc order).2 with
    | none => simp [batchEvents]
    | some b => simpa [batchEvents] using flush_nonempty tc order b hb
  rw [hnil]
  constructor
  · intro he p
    have hp := flush_events_of tc h p
    rw [he, List.filter_nil] at hp
    exact List.map_eq_nil_iff.mp hp.symm
  · intro hall
    rw [flush_snd]
    simp [hall]

end InfraSightGpu.TimeSeries
