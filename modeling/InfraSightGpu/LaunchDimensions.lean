import InfraSightGpu.Handlers

namespace InfraSightGpu.LaunchDimensions

open InfraSightGpu.Records InfraSightGpu.WatchdogMap InfraSightGpu.Handlers
open InfraSightGpu.Lib.Words

variable {n : Nat}

/-- What `cuLaunchKernel` is called with: five argument registers and the slot
at SP+8. Each dimension is an unsigned int in the low half. -/
structure LaunchArgs where
  gridX : UInt64
  gridY : UInt64
  gridZ : UInt64
  blockX : UInt64
  blockY : UInt64
  stackSlot : UInt64
deriving DecidableEq

def LaunchArgs.program (a : LaunchArgs) : Program :=
  .cuLaunchkernel a.gridX a.gridY a.gridZ a.blockX a.blockY (some a.stackSlot)

structure HasDimensions (a : LaunchArgs) (e : GpuKernelLaunchEvent) : Prop where
  gridx : e.gridx = a.gridX.toUInt32
  gridy : e.gridy = a.gridY.toUInt32
  gridz : e.gridz = a.gridZ.toUInt32
  blockx : e.blockx = a.blockX.toUInt32
  blocky : e.blocky = a.blockY.toUInt32
  blockz : e.blockz = a.stackSlot.toUInt32

structure ConsistentTotals (e : GpuKernelLaunchEvent) : Prop where
  totalBlocks : e.totalBlocks = e.gridx.toUInt64 * e.gridy.toUInt64 * e.gridz.toUInt64
  threadsBlock : e.threadsBlock = e.blockx.toUInt64 * e.blocky.toUInt64 * e.blockz.toUInt64
  totalThreads : e.totalThreads = e.gridx.toUInt64 * e.gridy.toUInt64 * e.gridz.toUInt64 *
    (e.blockx.toUInt64 * e.blocky.toUInt64 * e.blockz.toUInt64)

theorem submitted_launch {k : Kernel n} {c : Ctx n} {a : LaunchArgs} {e : GpuKernelLaunchEvent}
    (h : (handle k ⟨a.program, c⟩).gpuRingbuf = k.gpuRingbuf ++ [.kernelLaunch e]) :
    HasDimensions a e ∧ e.totalBlocks = a.gridX * a.gridY * a.gridZ ∧
      e.threadsBlock = a.blockX * a.blockY * a.stackSlot ∧
      e.totalThreads = e.totalBlocks * e.threadsBlock := by
  simp only [handle, LaunchArgs.program, handleCuLaunchkernel] at h
  split at h
  · simp only [submitAndCount, List.append_cancel_left_eq, List.cons.injEq, and_true,
      GpuRecord.kernelLaunch.injEq] at h
    subst h
    exact ⟨⟨rfl, rfl, rfl, rfl, rfl, rfl⟩, rfl, rfl, rfl⟩
  · simp at h

/-- The record of a launch has the dimensions of the call, and its totals are
those of the dimensions exactly when the upper halves of the arguments leave no
trace in the two products. -/
theorem launch_consistent_iff (k : Kernel n) (c : Ctx n) (a : LaunchArgs)
    (e : GpuKernelLaunchEvent)
    (h : (handle k ⟨a.program, c⟩).gpuRingbuf = k.gpuRingbuf ++ [.kernelLaunch e]) :
    HasDimensions a e ∧ ConsistentTotals e ↔
      2 ^ 32 ∣ crossTerms a.gridX a.gridY a.gridZ ∧
        2 ^ 32 ∣ crossTerms a.blockX a.blockY a.stackSlot := by
  obtain ⟨hdim, hblocks, hthreads, htotal⟩ := submitted_launch h
  obtain ⟨h1, h2, h3, h4, h5, h6⟩ := hdim
  have hgrid := mul_truncate_iff a.gridX a.gridY a.gridZ
  have hblock := mul_truncate_iff a.blockX a.blockY a.stackSlot
  rw [← hblocks, ← h1, ← h2, ← h3] at hgrid
  rw [← hthreads, ← h4, ← h5, ← h6] at hblock
  rw [← hgrid, ← hblock]
  constructor
  · rintro ⟨-, htotals⟩
    exact ⟨htotals.totalBlocks, htotals.threadsBlock⟩
  · rintro ⟨hb, ht⟩
    exact ⟨⟨h1, h2, h3, h4, h5, h6⟩, hb, ht, by rw [htotal, hb, ht]⟩

/-- A launch of 8 blocks of 32 threads, with something left in the upper half
of the first register. -/
def launchArgs (upper : UInt64) : LaunchArgs := ⟨upper <<< 32 + 8, 1, 1, 32, 1, 1⟩

theorem launch_consistent_iff_clean : ∃ e,
    (handle (emptyKernel 1) (sampleCall (launchArgs 0).program 1 1 true)).gpuRingbuf =
        (emptyKernel 1).gpuRingbuf ++ [.kernelLaunch e] ∧
      (HasDimensions (launchArgs 0) e ∧ ConsistentTotals e ↔
        2 ^ 32 ∣ crossTerms 8 1 1 ∧ 2 ^ 32 ∣ crossTerms 32 1 1) :=
  ⟨_, rfl, launch_consistent_iff (emptyKernel 1)
    (sampleCall (launchArgs 0).program 1 1 true).ctx (launchArgs 0) _ rfl⟩

/-- With a 1 in bit 32 the record shows 8 blocks in its dimensions and 2^32 + 8 in its total. -/
theorem launchArgs_inconsistent : ∃ e,
    (handle (emptyKernel 1) (sampleCall (launchArgs 1).program 1 1 true)).gpuRingbuf =
        (emptyKernel 1).gpuRingbuf ++ [.kernelLaunch e] ∧
      ¬ (HasDimensions (launchArgs 1) e ∧ ConsistentTotals e) := by
  refine ⟨_, rfl, ?_⟩
  rintro ⟨-, hblocks, -, -⟩
  revert hblocks
  decide +kernel

end InfraSightGpu.LaunchDimensions
