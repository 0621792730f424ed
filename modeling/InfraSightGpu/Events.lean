import Mathlib.Data.Rat.Defs
import Mathlib.Algebra.Order.Ring.Unbundled.Rat
import Mathlib.Data.Rat.Cast.Defs

namespace InfraSightGpu.Events

/-- An instant in nanoseconds, and a difference of two of them. -/
abbrev Time := ℤ
abbrev Duration := ℤ

abbrev GoString := List UInt8

/-- What the collectors use of float64. Everything that does not depend on
rounding is stated over an arbitrary instance; exact rationals are one. -/
class GoFloat (F : Type) extends Zero F, Add F, Mul F, Div F, LT F where
  ofInt : ℤ → F
  decLT : DecidableLT F

instance GoFloat.decidableLT {F : Type} [GoFloat F] : DecidableLT F := GoFloat.decLT

instance : GoFloat ℚ where
  ofInt := Int.cast
  decLT := inferInstance

def GoFloat.ofUInt64 {F : Type} [GoFloat F] (x : UInt64) : F := GoFloat.ofInt x.toNat

theorem ofUInt64_rat (x : UInt64) : (GoFloat.ofUInt64 x : ℚ) = x.toNat := by
  simp [GoFloat.ofUInt64, GoFloat.ofInt]

/-- `Duration.Seconds`: whole seconds plus the nanosecond remainder over 1e9. -/
def GoFloat.seconds {F : Type} [GoFloat F] (d : Duration) : F :=
  GoFloat.ofInt (d.tdiv 1000000000) + GoFloat.ofInt (d.tmod 1000000000) / GoFloat.ofInt 1000000000

def byteSliceToString (s : List UInt8) : GoString := s.takeWhile (· ≠ 0)

def dirHtod : Nat := 0
def dirDtoh : Nat := 1
def eventGpuKernelLaunch : Nat := 1
def eventGpuMalloc : Nat := 2
def eventGpuMemcpy : Nat := 3
def eventGpuStreamSync : Nat := 4

structure GpuprintGpuKernelLaunchEventT where
  flag : UInt8
  pad : Vector UInt8 3
  pid : UInt32
  comm : Vector UInt8 150
  gridx : UInt32
  gridy : UInt32
  gridz : UInt32
  blockx : UInt32
  blocky : UInt32
  blockz : UInt32
  totalBlocks : UInt64
  threadsBlock : UInt64
  totalThreads : UInt64
deriving DecidableEq

structure GpuprintGpuMemallocEventT where
  flag : UInt8
  pad : Vector UInt8 3
  pid : UInt32
  comm : Vector UInt8 150
  byteSize : UInt64
deriving DecidableEq

structure GpuprintGpuMemcpyEventT where
  flag : UInt8
  pad : Vector UInt8 3
  pid : UInt32
  comm : Vector UInt8 150
  byteSize : UInt64
  kind : UInt8
deriving DecidableEq

structure GpuprintGpuStreamEventT where
  flag : UInt8
  pad : Vector UInt8 3
  pid : UInt32
  comm : Vector UInt8 150
  startTime : UInt64
  endTime : UInt64
  deltaNs : UInt64
deriving DecidableEq

/-- A value passed to `Update`. The method takes any type; values of every
type but the four event structs are `other`. -/
inductive Event where
  | kernelLaunch (e : GpuprintGpuKernelLaunchEventT)
  | memalloc (e : GpuprintGpuMemallocEventT)
  | memcpy (e : GpuprintGpuMemcpyEventT)
  | stream (e : GpuprintGpuStreamEventT)
  | other
deriving DecidableEq

def Event.source : Event → Option (UInt32 × Vector UInt8 150)
  | .kernelLaunch e => some (e.pid, e.comm)
  | .memalloc e => some (e.pid, e.comm)
  | .memcpy e => some (e.pid, e.comm)
  | .stream e => some (e.pid, e.comm)
  | .other => none

def Event.IsOf (pid : UInt32) (ev : Event) : Prop := ev.source.map Prod.fst = some pid

instance (pid : UInt32) (ev : Event) : Decidable (ev.IsOf pid) :=
  inferInstanceAs (Decidable (_ = _))

def sampleLaunch (pid : UInt32) (threads : UInt64) : Event :=
  .kernelLaunch ⟨1, Vector.replicate 3 0, pid, Vector.replicate 150 0, 1, 1, 1, 1, 1, 1, 1,
    threads, threads⟩

def sampleMemcpy (pid : UInt32) (bytes : UInt64) (kind : UInt8) : Event :=
  .memcpy ⟨3, Vector.replicate 3 0, pid, Vector.replicate 150 0, bytes, kind⟩

inductive GpuEventType where
  | eventUnknown | eventKernelLaunch | eventMemalloc | eventMemcpy | eventStreamSync
deriving DecidableEq

structure GpuEventToken (F : Type) where
  timestamp : Time
  eventType : GpuEventType
  value : F
  dir : ℤ
deriving DecidableEq

structure GpuTimeWindow (F : Type) where
  windowStartNs : Time
  windowEndNs : Time
  kernelLaunchCount : UInt64
  memAllocCount : UInt64
  memcpyCount : UInt64
  streamSyncCount : UInt64
  avgThreadsPerKernel : F
  maxThreadsPerKernel : UInt64
  avgBlocksPerKernel : F
  totalThreadsLaunched : UInt64
  totalMemAllocBytes : UInt64
  avgMemAllocBytes : F
  totalMemcpyBytes : UInt64
  avgMemcpyBytes : F
  htodBytes : UInt64
  dtohBytes : UInt64
  htodRatio : F
  avgSyncTimeNs : F
  maxSyncTimeNs : UInt64
  syncFraction : F
  launchRate : F
  memcpyRate : F
  allocRate : F
deriving DecidableEq

inductive Payload (F : Type) where
  | token (tk : GpuEventToken F)
  | tw (tw : GpuTimeWindow F)
deriving DecidableEq

structure GpuEvent (F : Type) where
  pid : UInt32
  comm : GoString
  eventType : String
  payload : Payload F
deriving DecidableEq

structure GpuBatch (F : Type) where
  type : String
  batch : List (GpuEvent F)
deriving DecidableEq

def batchEvents {F : Type} (batch : Option (GpuBatch F)) : List (GpuEvent F) :=
  (batch.map GpuBatch.batch).getD []

end InfraSightGpu.Events
