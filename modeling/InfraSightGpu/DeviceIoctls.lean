import InfraSightGpu.Handlers

namespace InfraSightGpu.DeviceIoctls

open InfraSightGpu.WatchdogMap InfraSightGpu.Handlers InfraSightGpu.Lib.Maps

variable {n : Nat}

def HasTable (mem : KernelMemory) : Prop := mem.filesFdt ≠ 0 ∧ mem.fd mem.filesFdt ≠ 0

instance (mem : KernelMemory) : Decidable (HasTable mem) :=
  inferInstanceAs (Decidable (_ ∧ _))

def slotAddress (mem : KernelMemory) (index : UInt64) : UInt64 :=
  mem.fd mem.filesFdt + index * 8

def DeviceAt (mem : KernelMemory) (address : UInt64) : Prop :=
  mem.pointer address ≠ 0 ∧
    isNvidiaComputeDevice (mem.inodeRdev (mem.pointer address) >>> 20)
      (mem.inodeRdev (mem.pointer address) &&& 0xfffff)

instance (mem : KernelMemory) (address : UInt64) : Decidable (DeviceAt mem address) :=
  inferInstanceAs (Decidable (_ ∧ _))

/-- The descriptor that the system call uses: an unsigned int. -/
def descriptor (fd : UInt64) : UInt32 := fd.toUInt32

/-- The system call is on a compute device: the descriptor is in the table and
its slot holds an open file of such a device. -/
def OnDevice (mem : KernelMemory) (maxFds : UInt32) (fd : UInt64) : Prop :=
  HasTable mem ∧ descriptor fd < maxFds ∧ DeviceAt mem (slotAddress mem (descriptor fd).toUInt64)

instance (mem : KernelMemory) (maxFds : UInt32) (fd : UInt64) :
    Decidable (OnDevice mem maxFds fd) :=
  inferInstanceAs (Decidable (_ ∧ _))

def Counts (k : Kernel n) (c : Ctx n) (mem : KernelMemory) (fd : UInt64) : Prop :=
  ioctlTotal c.pid (watchdogIoctl k c mem fd).ioctlWatchdogMap =
    ioctlTotal c.pid k.ioctlWatchdogMap + 1

instance (k : Kernel n) (c : Ctx n) (mem : KernelMemory) (fd : UInt64) :
    Decidable (Counts k c mem fd) :=
  inferInstanceAs (Decidable (_ = _))

/-- The descriptor is beyond the table, and the word read there is taken for a
slot with a device. -/
def StrayDevice (mem : KernelMemory) (maxFds : UInt32) (fd : UInt64) : Prop :=
  maxFds ≤ descriptor fd ∧ DeviceAt mem (slotAddress mem fd)

/-- The descriptor is in the table, but the upper half of the register leads to
another word, and one of the two is a device and the other is not. -/
def WrongSlot (mem : KernelMemory) (maxFds : UInt32) (fd : UInt64) : Prop :=
  descriptor fd < maxFds ∧
    ¬ (DeviceAt mem (slotAddress mem fd) ↔ DeviceAt mem (slotAddress mem (descriptor fd).toUInt64))

theorem watchdogIoctl_map (k : Kernel n) (c : Ctx n) (mem : KernelMemory) (fd : UInt64) :
    (watchdogIoctl k c mem fd).ioctlWatchdogMap =
      if HasTable mem ∧ DeviceAt mem (slotAddress mem fd) then
        addToCounter k.ioctlWatchdogMap c.cpu c.initKtime c.pid ioctlHit
      else k.ioctlWatchdogMap := by
  unfold watchdogIoctl HasTable DeviceAt slotAddress
  dsimp only
  by_cases hfdt : mem.filesFdt = 0
  · simp [hfdt]
  · by_cases harray : mem.fd mem.filesFdt = 0
    · simp [hfdt, harray]
    · simp only [hfdt, harray, if_false, not_false_eq_true, and_self, true_and, ne_eq]
      split_ifs <;> simp_all

theorem counts_iff {k : Kernel n} {c : Ctx n}
    (hroom : c.pid ∈ k.ioctlWatchdogMap ∨ size k.ioctlWatchdogMap < ioctlWatchdogMaxEntries)
    (mem : KernelMemory) (fd : UInt64) :
    Counts k c mem fd ↔ HasTable mem ∧ DeviceAt mem (slotAddress mem fd) := by
  rw [Counts, watchdogIoctl_map]
  split
  · next h =>
    refine iff_of_true ?_ h
    have hmem := (mem_addToCounter_self k.ioctlWatchdogMap c.cpu c.initKtime c.pid ioctlHit).mpr
      hroom
    rw [ioctlTotal_addToCounter, if_pos ⟨rfl, hmem⟩]
    rfl
  · next h =>
    refine iff_of_false (fun he => ?_) h
    have hone : (1 : UInt64) = 0 := by
      have hsub := congrArg (· - ioctlTotal c.pid k.ioctlWatchdogMap) he
      simpa [UInt64.add_comm] using hsub.symm
    exact absurd hone (by decide)

/-- With a descriptor in the table and nothing in the upper half of the register
an ioctl is counted exactly when it is on a compute device. -/
theorem counts_iff_onDevice {k : Kernel n} {c : Ctx n}
    (hroom : c.pid ∈ k.ioctlWatchdogMap ∨ size k.ioctlWatchdogMap < ioctlWatchdogMaxEntries)
    (mem : KernelMemory) {maxFds : UInt32} {fd : UInt64} (hhigh : fd >>> 32 = 0)
    (hlt : descriptor fd < maxFds) : Counts k c mem fd ↔ OnDevice mem maxFds fd := by
  have hfd : (descriptor fd).toUInt64 = fd := by
    have hshift := congrArg UInt64.toNat hhigh
    rw [UInt64.toNat_shiftRight] at hshift
    change fd.toNat >>> 32 = 0 at hshift
    rw [Nat.shiftRight_eq_div_pow] at hshift
    rw [← UInt64.toNat_inj, UInt32.toNat_toUInt64, descriptor, UInt64.toNat_toUInt32]
    omega
  rw [counts_iff hroom, OnDevice, hfd]
  exact and_congr_right fun _ => (and_iff_right hlt).symm

/-- An ioctl is counted exactly when it is on a compute device, unless the
register leads to a word that is not the slot of the descriptor and that word
makes a difference. -/
theorem counts_onDevice_iff (k : Kernel n) (c : Ctx n)
    (hroom : c.pid ∈ k.ioctlWatchdogMap ∨ size k.ioctlWatchdogMap < ioctlWatchdogMaxEntries)
    (mem : KernelMemory) (maxFds : UInt32) (fd : UInt64) :
    (Counts k c mem fd ↔ OnDevice mem maxFds fd) ↔
      (HasTable mem → ¬ StrayDevice mem maxFds fd ∧ ¬ WrongSlot mem maxFds fd) := by
  rw [counts_iff hroom, OnDevice, and_congr_right_iff]
  refine imp_congr_right fun _ => ?_
  by_cases hlt : descriptor fd < maxFds
  · have hstray : ¬ StrayDevice mem maxFds fd := fun h => absurd hlt (UInt32.not_lt.mpr h.1)
    simp [hlt, hstray, WrongSlot]
  · have hle : maxFds ≤ descriptor fd := UInt32.not_lt.mp hlt
    simp [hlt, hle, StrayDevice, WrongSlot]

def sampleMemory : KernelMemory where
  filesFdt := 0x1000
  fd := fun _ => 0x2000
  pointer := fun address => if address = 0x2018 then 0x3000 else 0
  inodeRdev := fun _ => nvidiaMajor <<< 20

def sampleCtx : Ctx 1 := (sampleCall .processExit 1 1 true).ctx

theorem counts_onDevice_sample :
    (Counts (emptyKernel 1) sampleCtx sampleMemory 3 ↔ OnDevice sampleMemory 256 3) ↔
      (HasTable sampleMemory → ¬ StrayDevice sampleMemory 256 3 ∧ ¬ WrongSlot sampleMemory 256 3) :=
  counts_onDevice_iff (emptyKernel 1) sampleCtx (.inr (by decide)) sampleMemory 256 3

/-- With something in the upper half of the register the device is missed, and
past the end of a table of three slots it is found. -/
theorem counts_not_onDevice :
    (¬ Counts (emptyKernel 1) sampleCtx sampleMemory 0x100000003 ∧
        OnDevice sampleMemory 256 0x100000003) ∧
      Counts (emptyKernel 1) sampleCtx sampleMemory 3 ∧ ¬ OnDevice sampleMemory 3 3 := by
  decide +kernel

end InfraSightGpu.DeviceIoctls
