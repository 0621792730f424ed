import InfraSightGpu.Records
import InfraSightGpu.WatchdogMap

namespace InfraSightGpu.Handlers

open InfraSightGpu.Events InfraSightGpu.Records InfraSightGpu.WatchdogMap InfraSightGpu.Lib.Maps

variable {n : Nat}

def startEventsMaxEntries : Nat := 1024

/-- The maps and the ring buffer of the eBPF programs. The ring holds the
records that are submitted and not yet read, oldest first. -/
structure Kernel (n : Nat) where
  startEventsStream : Map UInt64 UInt64
  ioctlWatchdogMap : IoctlWatchdogMap n
  gpuRingbuf : List GpuRecord

def emptyKernel (n : Nat) : Kernel n where
  startEventsStream := ∅
  ioctlWatchdogMap := ∅
  gpuRingbuf := []

/-- What one execution of a program gets from the helpers: `ktime` is the
reading of the handler itself, `initKtime` that of `get_or_init_ioctl`, `pad`
what the reserved memory held in the bytes that no handler writes. -/
structure Ctx (n : Nat) where
  pidTgid : UInt64
  cpu : Fin n
  comm : Vector UInt8 150
  ktime : UInt64
  initKtime : UInt64
  reserved : Bool
  pad : Vector UInt8 3
deriving DecidableEq

def Ctx.pid (c : Ctx n) : UInt32 := (c.pidTgid >>> 32).toUInt32

def submitAndCount (k : Kernel n) (c : Ctx n) (r : GpuRecord) : Kernel n :=
  { k with
    gpuRingbuf := k.gpuRingbuf ++ [r]
    ioctlWatchdogMap := addToCounter k.ioctlWatchdogMap c.cpu c.initKtime c.pid uprobeHit }

/-- The arguments arrive in 64-bit registers. The last dimension is read from
the stack, and stays zero when the read fails. -/
def handleCuLaunchkernel (k : Kernel n) (c : Ctx n) (gridX gridY gridZ blockX blockY : UInt64)
    (stackSlot : Option UInt64) : Kernel n :=
  if c.reserved then
    let blockZ := stackSlot.getD 0
    let totalBlocks := gridX * gridY * gridZ
    let threadsBlock := blockX * blockY * blockZ
    submitAndCount k c (.kernelLaunch {
      flag := UInt8.ofNat eventGpuKernelLaunch
      pad := c.pad
      pid := c.pid
      comm := c.comm
      gridx := gridX.toUInt32
      gridy := gridY.toUInt32
      gridz := gridZ.toUInt32
      blockx := blockX.toUInt32
      blocky := blockY.toUInt32
      blockz := blockZ.toUInt32
      totalBlocks := totalBlocks
      threadsBlock := threadsBlock
      totalThreads := totalBlocks * threadsBlock })
  else k

def handleCuMemAlloc (k : Kernel n) (c : Ctx n) (bytesize : UInt64) : Kernel n :=
  if c.reserved then
    submitAndCount k c (.memalloc {
      flag := UInt8.ofNat eventGpuMalloc
      pad := c.pad
      pid := c.pid
      comm := c.comm
      byteSize := bytesize })
  else k

def handleCuMemcpy (kind : Nat) (k : Kernel n) (c : Ctx n) (bytesize : UInt64) : Kernel n :=
  if c.reserved then
    submitAndCount k c (.memcpy {
      flag := UInt8.ofNat eventGpuMemcpy
      pad := c.pad
      pid := c.pid
      comm := c.comm
      byteSize := bytesize
      kind := UInt8.ofNat kind })
  else k

def handleCuMemcpyHtod (k : Kernel n) (c : Ctx n) (bytesize : UInt64) : Kernel n :=
  handleCuMemcpy dirHtod k c bytesize

def handleCuMemcpyDtoh (k : Kernel n) (c : Ctx n) (bytesize : UInt64) : Kernel n :=
  handleCuMemcpy dirDtoh k c bytesize

def handleCuMemcpyHtodAsync (k : Kernel n) (c : Ctx n) (bytesize : UInt64) : Kernel n :=
  handleCuMemcpy dirHtod k c bytesize

def handleCuMemcpyDtohAsync (k : Kernel n) (c : Ctx n) (bytesize : UInt64) : Kernel n :=
  handleCuMemcpy dirDtoh k c bytesize

def handleSync (k : Kernel n) (c : Ctx n) : Kernel n :=
  { k with
    startEventsStream := updateAny startEventsMaxEntries k.startEventsStream c.pidTgid c.ktime }

def streamEvent (c : Ctx n) (startTime : UInt64) : GpuStreamEvent where
  flag := UInt8.ofNat eventGpuStreamSync
  pad := c.pad
  pid := c.pid
  comm := c.comm
  startTime := startTime
  endTime := c.ktime
  deltaNs := c.ktime - startTime

/-- The common body of the two synchronisation return handlers. A failed
reserve returns before the entry is deleted. -/
def handleSyncRet (k : Kernel n) (c : Ctx n) : Kernel n :=
  match k.startEventsStream.lookup c.pidTgid with
  | none => k
  | some ts =>
    if c.reserved then
      submitAndCount { k with startEventsStream := k.startEventsStream.erase c.pidTgid } c
        (.stream (streamEvent c ts))
    else k

def handleCuStreamSync (k : Kernel n) (c : Ctx n) : Kernel n := handleSync k c
def handleCuStreamSynchronizeRet (k : Kernel n) (c : Ctx n) : Kernel n := handleSyncRet k c
def handleCuCtxSync (k : Kernel n) (c : Ctx n) : Kernel n := handleSync k c
def handleCuCtxSyncRet (k : Kernel n) (c : Ctx n) : Kernel n := handleSyncRet k c

def nvidiaMajor : UInt32 := 195
def nvidiaUvmMajor : UInt32 := 511
def nvidiaModesetMinor : UInt32 := 254

def isNvidiaComputeDevice (major minor : UInt32) : Bool :=
  if major = nvidiaUvmMajor then true
  else if major = nvidiaMajor ∧ minor < nvidiaModesetMinor then true
  else false

/-- The kernel memory as `BPF_CORE_READ` shows it. A read that fails yields zero. -/
structure KernelMemory where
  /-- `task->files->fdt` -/
  filesFdt : UInt64
  /-- `fdt->fd` -/
  fd : UInt64 → UInt64
  /-- The pointer stored at an address. -/
  pointer : UInt64 → UInt64
  /-- `file->f_inode->i_rdev` -/
  inodeRdev : UInt64 → UInt32

/-- `fd` is the first argument of the system call, all 64 bits of it. -/
def watchdogIoctl (k : Kernel n) (c : Ctx n) (mem : KernelMemory) (fd : UInt64) : Kernel n :=
  let fdt := mem.filesFdt
  if fdt = 0 then k
  else
    let fdArray := mem.fd fdt
    if fdArray = 0 then k
    else
      let file := mem.pointer (fdArray + fd * 8)
      if file = 0 then k
      else
        let rdev := mem.inodeRdev file
        let major := rdev >>> 20
        let minor := rdev &&& 0xfffff
        if isNvidiaComputeDevice major minor then
          { k with
            ioctlWatchdogMap := addToCounter k.ioctlWatchdogMap c.cpu c.initKtime c.pid ioctlHit }
        else k

def processExit (k : Kernel n) (c : Ctx n) : Kernel n :=
  { k with ioctlWatchdogMap := handleProcessExit k.ioctlWatchdogMap c.pid }

inductive Program where
  | cuLaunchkernel (gridX gridY gridZ blockX blockY : UInt64) (stackSlot : Option UInt64)
  | cuMemAlloc (bytesize : UInt64)
  | cuMemcpyHtod (bytesize : UInt64)
  | cuMemcpyDtoh (bytesize : UInt64)
  | cuMemcpyHtodAsync (bytesize : UInt64)
  | cuMemcpyDtohAsync (bytesize : UInt64)
  | cuStreamSync
  | cuStreamSynchronizeRet
  | cuCtxSync
  | cuCtxSyncRet
  | watchdogIoctl (mem : KernelMemory) (fd : UInt64)
  | processExit

/-- One execution of a program, as one atomic step. -/
structure Call (n : Nat) where
  program : Program
  ctx : Ctx n

def handle (k : Kernel n) (call : Call n) : Kernel n :=
  match call.program with
  | .cuLaunchkernel gridX gridY gridZ blockX blockY stackSlot =>
    handleCuLaunchkernel k call.ctx gridX gridY gridZ blockX blockY stackSlot
  | .cuMemAlloc bytesize => handleCuMemAlloc k call.ctx bytesize
  | .cuMemcpyHtod bytesize => handleCuMemcpyHtod k call.ctx bytesize
  | .cuMemcpyDtoh bytesize => handleCuMemcpyDtoh k call.ctx bytesize
  | .cuMemcpyHtodAsync bytesize => handleCuMemcpyHtodAsync k call.ctx bytesize
  | .cuMemcpyDtohAsync bytesize => handleCuMemcpyDtohAsync k call.ctx bytesize
  | .cuStreamSync => handleCuStreamSync k call.ctx
  | .cuStreamSynchronizeRet => handleCuStreamSynchronizeRet k call.ctx
  | .cuCtxSync => handleCuCtxSync k call.ctx
  | .cuCtxSyncRet => handleCuCtxSyncRet k call.ctx
  | .watchdogIoctl mem fd => watchdogIoctl k call.ctx mem fd
  | .processExit => processExit k call.ctx

def sampleCall (program : Program) (tid ktime : UInt64) (reserved : Bool) : Call 1 where
  program := program
  ctx := {
    pidTgid := 0x700000000 + tid
    cpu := bootCpu
    comm := Vector.replicate 150 0
    ktime := ktime
    initKtime := ktime
    reserved := reserved
    pad := Vector.replicate 3 0 }

/-- Everything an execution can do to the ring and to the counters. -/
inductive Effect (k : Kernel n) (call : Call n) (k' : Kernel n) : Prop where
  | submitted (r : GpuRecord) (hpid : r.pid = call.ctx.pid) (hflag : r.flag = r.eventFlag)
    (hring : k'.gpuRingbuf = k.gpuRingbuf ++ [r])
    (hmap : k'.ioctlWatchdogMap =
      addToCounter k.ioctlWatchdogMap call.ctx.cpu call.ctx.initKtime call.ctx.pid uprobeHit)
  | ioctl (hring : k'.gpuRingbuf = k.gpuRingbuf)
    (hmap : k'.ioctlWatchdogMap =
      addToCounter k.ioctlWatchdogMap call.ctx.cpu call.ctx.initKtime call.ctx.pid ioctlHit)
  | exited (hcall : call.program = .processExit) (hring : k'.gpuRingbuf = k.gpuRingbuf)
    (hmap : k'.ioctlWatchdogMap = handleProcessExit k.ioctlWatchdogMap call.ctx.pid)
  | quiet (hring : k'.gpuRingbuf = k.gpuRingbuf) (hmap : k'.ioctlWatchdogMap = k.ioctlWatchdogMap)

theorem submitAndCount_effect (k : Kernel n) (call : Call n) (r : GpuRecord)
    (hpid : r.pid = call.ctx.pid) (hflag : r.flag = r.eventFlag) :
    Effect k call (if call.ctx.reserved then submitAndCount k call.ctx r else k) := by
  split
  · exact .submitted r hpid hflag rfl rfl
  · exact .quiet rfl rfl

theorem handleSyncRet_effect (k : Kernel n) (call : Call n) :
    Effect k call (handleSyncRet k call.ctx) := by
  unfold handleSyncRet
  split
  · exact .quiet rfl rfl
  · split
    · exact .submitted _ rfl rfl rfl rfl
    · exact .quiet rfl rfl

theorem watchdogIoctl_effect (k : Kernel n) (call : Call n) (mem : KernelMemory) (fd : UInt64) :
    Effect k call (watchdogIoctl k call.ctx mem fd) := by
  unfold watchdogIoctl
  dsimp only
  split_ifs
  · exact .quiet rfl rfl
  · exact .quiet rfl rfl
  · exact .quiet rfl rfl
  · exact .ioctl rfl rfl
  · exact .quiet rfl rfl

theorem handle_effect (k : Kernel n) (call : Call n) : Effect k call (handle k call) := by
  obtain ⟨program, c⟩ := call
  cases program with
  | cuLaunchkernel | cuMemAlloc | cuMemcpyHtod | cuMemcpyDtoh | cuMemcpyHtodAsync
  | cuMemcpyDtohAsync => exact submitAndCount_effect k ⟨_, c⟩ _ rfl rfl
  | cuStreamSync | cuCtxSync => exact .quiet rfl rfl
  | cuStreamSynchronizeRet | cuCtxSyncRet => exact handleSyncRet_effect k ⟨_, c⟩
  | watchdogIoctl mem fd => exact watchdogIoctl_effect k ⟨_, c⟩ mem fd
  | processExit => exact .exited rfl rfl rfl

end InfraSightGpu.Handlers
