import InfraSightGpu.Events
import InfraSightGpu.Lib.Layout

namespace InfraSightGpu.Records

open InfraSightGpu.Events InfraSightGpu.Lib.Layout

/-! The structs of the eBPF programs, and the order of their members. -/

structure GpuKernelLaunchEvent where
  flag : UInt8
  pad : Vector UInt8 3
  pid : UInt32
  comm : Vector UInt8 150
  gridx : UInt32
  gridy : UInt32
  gridz : UInt32
  blockx : UInt32
  blocky : UInt32
  blockz : UInt32
  totalBlocks : UInt64
  threadsBlock : UInt64
  totalThreads : UInt64
deriving DecidableEq

structure GpuMemallocEvent where
  flag : UInt8
  pad : Vector UInt8 3
  pid : UInt32
  comm : Vector UInt8 150
  byteSize : UInt64
deriving DecidableEq

structure GpuMemcpyEvent where
  flag : UInt8
  pad : Vector UInt8 3
  pid : UInt32
  comm : Vector UInt8 150
  byteSize : UInt64
  kind : UInt8
deriving DecidableEq

structure GpuStreamEvent where
  flag : UInt8
  pad : Vector UInt8 3
  pid : UInt32
  comm : Vector UInt8 150
  startTime : UInt64
  endTime : UInt64
  deltaNs : UInt64
deriving DecidableEq

inductive GpuRecord where
  | kernelLaunch (e : GpuKernelLaunchEvent)
  | memalloc (e : GpuMemallocEvent)
  | memcpy (e : GpuMemcpyEvent)
  | stream (e : GpuStreamEvent)
deriving DecidableEq

namespace GpuRecord

def flag : GpuRecord → UInt8
  | kernelLaunch e => e.flag
  | memalloc e => e.flag
  | memcpy e => e.flag
  | stream e => e.flag

def pid : GpuRecord → UInt32
  | kernelLaunch e => e.pid
  | memalloc e => e.pid
  | memcpy e => e.pid
  | stream e => e.pid

def eventFlag : GpuRecord → UInt8
  | kernelLaunch _ => UInt8.ofNat eventGpuKernelLaunch
  | memalloc _ => UInt8.ofNat eventGpuMalloc
  | memcpy _ => UInt8.ofNat eventGpuMemcpy
  | stream _ => UInt8.ofNat eventGpuStreamSync

def members : GpuRecord → List Ty
  | kernelLaunch _ => [.u8, .bytes 3, .u32, .bytes 150, .u32, .u32, .u32, .u32, .u32, .u32, .u64,
      .u64, .u64]
  | memalloc _ => [.u8, .bytes 3, .u32, .bytes 150, .u64]
  | memcpy _ => [.u8, .bytes 3, .u32, .bytes 150, .u64, .u8]
  | stream _ => [.u8, .bytes 3, .u32, .bytes 150, .u64, .u64, .u64]

def values : (r : GpuRecord) → Vals r.members
  | kernelLaunch e => (e.flag, e.pad, e.pid, e.comm, e.gridx, e.gridy, e.gridz, e.blockx, e.blocky,
      e.blockz, e.totalBlocks, e.threadsBlock, e.totalThreads, ())
  | memalloc e => (e.flag, e.pad, e.pid, e.comm, e.byteSize, ())
  | memcpy e => (e.flag, e.pad, e.pid, e.comm, e.byteSize, e.kind, ())
  | stream e => (e.flag, e.pad, e.pid, e.comm, e.startTime, e.endTime, e.deltaNs, ())

/-- The bytes of a submitted record. The padding is never written. -/
def rawSample (garbage : Nat → UInt8) (r : GpuRecord) : List UInt8 :=
  layout garbage r.members r.values

def event : GpuRecord → Event
  | kernelLaunch e => .kernelLaunch
      { flag := e.flag, pad := e.pad, pid := e.pid, comm := e.comm, gridx := e.gridx
        gridy := e.gridy, gridz := e.gridz, blockx := e.blockx, blocky := e.blocky
        blockz := e.blockz, totalBlocks := e.totalBlocks, threadsBlock := e.threadsBlock
        totalThreads := e.totalThreads }
  | memalloc e => .memalloc
      { flag := e.flag, pad := e.pad, pid := e.pid, comm := e.comm, byteSize := e.byteSize }
  | memcpy e => .memcpy
      { flag := e.flag, pad := e.pad, pid := e.pid, comm := e.comm, byteSize := e.byteSize
        kind := e.kind }
  | stream e => .stream
      { flag := e.flag, pad := e.pad, pid := e.pid, comm := e.comm, startTime := e.startTime
        endTime := e.endTime, deltaNs := e.deltaNs }

theorem event_isOf (r : GpuRecord) (p : UInt32) : r.event.IsOf p ↔ r.pid = p := by
  cases r <;> simp [event, pid, Event.IsOf, Event.source]

end GpuRecord

/-! The Go structs, field by field. The first blank field is `structs.HostLayout`. -/

def kernelLaunchFields : Fields [.u8, .bytes 3, .u32, .bytes 150, .u32, .u32, .u32, .u32, .u32,
    .u32, .u64, .u64, .u64] :=
  .blank 0 <| .named .u8 <| .named (.bytes 3) <| .named .u32 <| .named (.bytes 150) <| .blank 2 <|
    .named .u32 <| .named .u32 <| .named .u32 <| .named .u32 <| .named .u32 <| .named .u32 <|
    .named .u64 <| .named .u64 <| .named .u64 .nil

def memallocFields : Fields [.u8, .bytes 3, .u32, .bytes 150, .u64] :=
  .blank 0 <| .named .u8 <| .named (.bytes 3) <| .named .u32 <| .named (.bytes 150) <| .blank 2 <|
    .named .u64 .nil

def memcpyFields : Fields [.u8, .bytes 3, .u32, .bytes 150, .u64, .u8] :=
  .blank 0 <| .named .u8 <| .named (.bytes 3) <| .named .u32 <| .named (.bytes 150) <| .blank 2 <|
    .named .u64 <| .named .u8 <| .blank 7 .nil

def streamFields : Fields [.u8, .bytes 3, .u32, .bytes 150, .u64, .u64, .u64] :=
  .blank 0 <| .named .u8 <| .named (.bytes 3) <| .named .u32 <| .named (.bytes 150) <| .blank 2 <|
    .named .u64 <| .named .u64 <| .named .u64 .nil

/-- `binary.Read` of a fixed-size struct: an error when the input is too
short, and bytes after the struct are not looked at. -/
def binaryRead {ts : List Ty} (fs : Fields ts) (raw : List UInt8) : Option (Vals ts) :=
  if raw.length < packedSize fs then none else some (readFields fs raw)

def readKernelLaunch (raw : List UInt8) : Option Event :=
  (binaryRead kernelLaunchFields raw).map
    fun (flag, pad, pid, comm, gridx, gridy, gridz, blockx, blocky, blockz, totalBlocks,
        threadsBlock, totalThreads, _) =>
      .kernelLaunch { flag, pad, pid, comm, gridx, gridy, gridz, blockx, blocky, blockz
                      totalBlocks, threadsBlock, totalThreads }

def readMemalloc (raw : List UInt8) : Option Event :=
  (binaryRead memallocFields raw).map
    fun (flag, pad, pid, comm, byteSize, _) => .memalloc { flag, pad, pid, comm, byteSize }

def readMemcpy (raw : List UInt8) : Option Event :=
  (binaryRead memcpyFields raw).map
    fun (flag, pad, pid, comm, byteSize, kind, _) =>
      .memcpy { flag, pad, pid, comm, byteSize, kind }

def readStream (raw : List UInt8) : Option Event :=
  (binaryRead streamFields raw).map
    fun (flag, pad, pid, comm, startTime, endTime, deltaNs, _) =>
      .stream { flag, pad, pid, comm, startTime, endTime, deltaNs }

/-- What `GpuprintLoader.Run` passes to the collectors for one record: nothing
when the record is empty, has an unknown flag or cannot be parsed. -/
def decodeRecord : List UInt8 → Option Event
  | [] => none
  | flag :: rest =>
    let raw := flag :: rest
    if flag = UInt8.ofNat eventGpuKernelLaunch then readKernelLaunch raw
    else if flag = UInt8.ofNat eventGpuMalloc then readMemalloc raw
    else if flag = UInt8.ofNat eventGpuMemcpy then readMemcpy raw
    else if flag = UInt8.ofNat eventGpuStreamSync then readStream raw
    else none

def decodedBytes : GpuRecord → Nat
  | .kernelLaunch _ => packedSize kernelLaunchFields
  | .memalloc _ => packedSize memallocFields
  | .memcpy _ => packedSize memcpyFields
  | .stream _ => packedSize streamFields

theorem packedSize_eq_sizeof {ts : List Ty} {fs : Fields ts} (hfs : fs = .blank 0 (explicit ts)) :
    packedSize fs = sizeof ts := by
  rw [hfs, packedSize, Nat.zero_add, packedSize_explicit]

/-- A Go struct whose blank fields spell out the padding of a C struct reads
its memory back. -/
theorem binaryRead_layout (garbage : Nat → UInt8) {ts : List Ty} {fs : Fields ts}
    (hfs : fs = .blank 0 (explicit ts)) (vs : Vals ts) :
    binaryRead fs (layout garbage ts vs) = some vs := by
  have hread := readFields_layout garbage ts vs []
  rw [List.append_nil] at hread
  rw [binaryRead, packedSize_eq_sizeof hfs, length_layout, if_neg (Nat.lt_irrefl _), hfs,
    readFields, List.drop_zero, hread]

theorem rawSample_head (garbage : Nat → UInt8) (r : GpuRecord) :
    ∃ rest, r.rawSample garbage = r.flag :: rest := by
  have hflag : ∀ x : UInt8, toLe 1 x.toNat = [x] := fun x => by simp [toLe]
  cases r <;> exact ⟨_, by
    simp only [GpuRecord.rawSample, layout, GpuRecord.members, GpuRecord.values, layoutFrom,
      Ty.encode, hflag]
    rfl⟩

theorem kernelLaunchFields_eq : kernelLaunchFields = .blank 0 (explicit _) := rfl
theorem memallocFields_eq : memallocFields = .blank 0 (explicit _) := rfl
theorem memcpyFields_eq : memcpyFields = .blank 0 (explicit _) := rfl
theorem streamFields_eq : streamFields = .blank 0 (explicit _) := rfl

theorem decodeRecord_rawSample {r : GpuRecord} (hflag : r.flag = r.eventFlag)
    (garbage : Nat → UInt8) : decodeRecord (r.rawSample garbage) = some r.event := by
  obtain ⟨rest, hhead⟩ := rawSample_head garbage r
  rw [hhead, decodeRecord, hflag]
  rw [hflag] at hhead
  rw [← hhead]
  cases r with
  | kernelLaunch e =>
    exact congrArg (Option.map _) (binaryRead_layout garbage kernelLaunchFields_eq _)
  | memalloc e => exact congrArg (Option.map _) (binaryRead_layout garbage memallocFields_eq _)
  | memcpy e => exact congrArg (Option.map _) (binaryRead_layout garbage memcpyFields_eq _)
  | stream e => exact congrArg (Option.map _) (binaryRead_layout garbage streamFields_eq _)

theorem decodedBytes_eq (r : GpuRecord) : decodedBytes r = sizeof r.members := by
  cases r with
  | kernelLaunch e => exact packedSize_eq_sizeof kernelLaunchFields_eq
  | memalloc e => exact packedSize_eq_sizeof memallocFields_eq
  | memcpy e => exact packedSize_eq_sizeof memcpyFields_eq
  | stream e => exact packedSize_eq_sizeof streamFields_eq

/-- Decoding a submitted record gives the event of the same type with the same
field values, and reads exactly the size of the C struct. -/
theorem decode_rawSample (r : GpuRecord) (hflag : r.flag = r.eventFlag) (garbage : Nat → UInt8) :
    decodeRecord (r.rawSample garbage) = some r.event ∧ decodedBytes r = sizeof r.members ∧
      (r.rawSample garbage).length = sizeof r.members :=
  ⟨decodeRecord_rawSample hflag garbage, decodedBytes_eq r, length_layout garbage _ r.values⟩

def sampleRecord : GpuRecord :=
  .memcpy
    { flag := 3, pad := Vector.replicate 3 255, pid := 4321, comm := Vector.replicate 150 65
      byteSize := 1099511627777, kind := 1 }

theorem decode_rawSample_sampleRecord :
    decodeRecord (sampleRecord.rawSample fun i => UInt8.ofNat i) = some sampleRecord.event ∧
      decodedBytes sampleRecord = sizeof sampleRecord.members ∧
      (sampleRecord.rawSample fun i => UInt8.ofNat i).length = sizeof sampleRecord.members :=
  decode_rawSample sampleRecord rfl fun i => UInt8.ofNat i

end InfraSightGpu.Records
