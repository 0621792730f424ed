import InfraSightGpu.WatchdogLoop

namespace InfraSightGpu.WatchdogVerdicts

open InfraSightGpu.Records InfraSightGpu.WatchdogMap InfraSightGpu.Watchdog InfraSightGpu.Handlers
open InfraSightGpu.DeviceIoctls InfraSightGpu.WatchdogLoop
open InfraSightGpu.AlertSoundness (le_ofNat_iff)
open InfraSightGpu.Tracer (isProcessExit)
open InfraSightGpu.Lib.Maps InfraSightGpu.Lib.Runs InfraSightGpu.Lib.Quiescence

variable {n : Nat}

/-- At least 50 ioctls that `watchdog_ioctl` takes for ones on the device and no
call of libcuda, as far as 64-bit counters tell. -/
def Bypasses (a : Activity) : Prop := 50 ≤ a.ioctls % 2 ^ 64 ∧ 2 ^ 64 ∣ a.uprobes

instance (a : Activity) : Decidable (Bypasses a) := inferInstanceAs (Decidable (_ ∧ _))

def exits (p : UInt32) : WatchdogLoop.Action n → Bool
  | .program call => isProcessExit call.program && call.ctx.pid == p
  | _ => false

section Programs

theorem map_of_submit (k : Kernel n) (c : Ctx n) (r : GpuRecord) :
    (if c.reserved then submitAndCount k c r else k).ioctlWatchdogMap =
      if k.gpuRingbuf.length <
          (if c.reserved then submitAndCount k c r else k).gpuRingbuf.length then
        addToCounter k.ioctlWatchdogMap c.cpu c.initKtime c.pid uprobeHit
      else k.ioctlWatchdogMap := by
  by_cases h : c.reserved <;> simp [h, submitAndCount]

theorem map_of_syncRet (k : Kernel n) (c : Ctx n) :
    (handleSyncRet k c).ioctlWatchdogMap =
      if k.gpuRingbuf.length < (handleSyncRet k c).gpuRingbuf.length then
        addToCounter k.ioctlWatchdogMap c.cpu c.initKtime c.pid uprobeHit
      else k.ioctlWatchdogMap := by
  unfold handleSyncRet
  split
  · simp
  · by_cases h : c.reserved <;> simp [h, submitAndCount]

theorem handle_map (k : Kernel n) (call : Call n) :
    (handle k call).ioctlWatchdogMap =
      match hitOf k call with
      | some hitType =>
        addToCounter k.ioctlWatchdogMap call.ctx.cpu call.ctx.initKtime call.ctx.pid hitType
      | none =>
        if isProcessExit call.program then handleProcessExit k.ioctlWatchdogMap call.ctx.pid
        else k.ioctlWatchdogMap := by
  have hsubmit : ∀ k' : Kernel n, k'.ioctlWatchdogMap =
      (if k.gpuRingbuf.length < k'.gpuRingbuf.length then
        addToCounter k.ioctlWatchdogMap call.ctx.cpu call.ctx.initKtime call.ctx.pid uprobeHit
      else k.ioctlWatchdogMap) →
      k'.ioctlWatchdogMap =
        match (if k.gpuRingbuf.length < k'.gpuRingbuf.length then some uprobeHit else none) with
        | some hitType =>
          addToCounter k.ioctlWatchdogMap call.ctx.cpu call.ctx.initKtime call.ctx.pid hitType
        | none => k.ioctlWatchdogMap := by
    intro k' h
    rw [h]
    split <;> rfl
  obtain ⟨program, c⟩ := call
  cases program with
  | cuLaunchkernel | cuMemAlloc | cuMemcpyHtod | cuMemcpyDtoh | cuMemcpyHtodAsync
  | cuMemcpyDtohAsync => exact hsubmit _ (map_of_submit k c _)
  | cuStreamSync | cuCtxSync => exact hsubmit _ (by simp [handle, handleCuStreamSync,
      handleCuCtxSync, handleSync])
  | cuStreamSynchronizeRet | cuCtxSyncRet => exact hsubmit _ (map_of_syncRet k c)
  | watchdogIoctl mem fd =>
    simp only [handle, hitOf, watchdogIoctl_map, isProcessExit]
    split <;> simp
  | processExit => simp [handle, hitOf, processExit, isProcessExit]

end Programs

def CountsSince (p : UInt32) (s : State n) (prev : PidSnapshot) (a : Activity) : Prop :=
  ∃ slots, s.kernel.ioctlWatchdogMap.lookup p = some slots ∧
    ioctlSum slots = prev.ioctlCount + UInt64.ofNat a.ioctls ∧
    uprobeSum slots = prev.uprobeCount + UInt64.ofNat a.uprobes

/-- The collector has a snapshot of the process from its first qualifying visit
on, and has found an alert for each time it bypassed libcuda. -/
structure Watches (p : UInt32) (s : State n) : Prop where
  known : (s.watchdog.snapshots.lookup p).isSome = (s.current p).isSome
  counted : ∀ prev a, s.watchdog.snapshots.lookup p = some prev → s.current p = some a →
    CountsSince p s prev a
  verdicts : s.found.countP (fun alert => alert.pid = p) = (s.observed p).countP Bypasses

theorem watches_start (p : UInt32) : Watches p (start n) :=
  ⟨rfl, fun _ _ _ h => (by cases h), rfl⟩

section Steps

variable {p : UInt32} {s : State n} (hw : Watches p s)
include hw

theorem watches_hit {call : Call n} (hp : call.ctx.pid = p) {hitType : UInt32}
    (hhit : hitOf s.kernel call = some hitType) : Watches p (runProgram s call) := by
  have hcurrent : (runProgram s call).current p = (s.current p).map fun a => a.add hitType := by
    simp [runProgram, hhit, hp]
  refine ⟨?_, fun prev a' hprev ha' => ?_, hw.verdicts⟩
  · rw [hcurrent, Option.isSome_map]
    exact hw.known
  · rw [hcurrent] at ha'
    obtain ⟨a, ha, rfl⟩ := Option.map_eq_some_iff.mp ha'
    obtain ⟨slots, hslots, hio, hup⟩ := hw.counted prev a hprev ha
    refine ⟨Function.update slots call.ctx.cpu (addHit hitType (slots call.ctx.cpu)), ?_, ?_, ?_⟩
    · simp only [runProgram, handle_map, hhit, lookup_addToCounter, hp, if_true]
      rw [slotsFor_eq_some.mpr (.inl hslots), Option.map_some]
    · rw [ioctlSum_addHit, hio, Activity.add, UInt64.ofNat_add, UInt64.add_assoc]
    · rw [uprobeSum_addHit, hup, Activity.add, UInt64.ofNat_add, UInt64.add_assoc]

theorem watches_program {call : Call n} (hexit : exits p (.program call) = false) :
    Watches p (runProgram s call) := by
  have hkeep : (runProgram s call).current p = s.current p →
      (handle s.kernel call).ioctlWatchdogMap.lookup p = s.kernel.ioctlWatchdogMap.lookup p →
      Watches p (runProgram s call) := by
    intro hcurrent hmap
    refine ⟨?_, fun prev a hprev ha => ?_, hw.verdicts⟩
    · rw [hcurrent]
      exact hw.known
    · rw [hcurrent] at ha
      obtain ⟨slots, hslots, hsums⟩ := hw.counted prev a hprev ha
      exact ⟨slots, hmap.trans hslots, hsums⟩
  have hmap := handle_map s.kernel call
  cases hhit : hitOf s.kernel call with
  | some hitType =>
    by_cases hp : call.ctx.pid = p
    · exact watches_hit hw hp hhit
    · rw [hhit] at hmap
      refine hkeep ?_ ?_
      · simp [runProgram, hhit, Function.update_of_ne (Ne.symm hp)]
      · rw [hmap, lookup_addToCounter, if_neg (Ne.symm hp)]
  | none =>
    rw [hhit] at hmap
    refine hkeep (by simp [runProgram, hhit]) ?_
    rw [hmap]
    by_cases he : isProcessExit call.program
    · have hp : call.ctx.pid ≠ p := by simpa [exits, he] using hexit
      simp only [he, if_true, lookup_handleProcessExit, if_neg (Ne.symm hp)]
    · simp [he]

theorem watches_other {nowNs : UInt64} {pid : UInt32} (hp : pid ≠ p) (slots : Slots n) :
    Watches p (visitEntry s nowNs pid slots) := by
  have hentry := pollEntry_eq nowNs s.watchdog [] pid (List.ofFn slots)
  cases hq : qualify nowNs (List.ofFn slots) with
  | none =>
    rw [hq] at hentry
    have hsame : visitEntry s nowNs pid slots = { s with poller := .polling nowNs } := by
      simp [visitEntry, hentry, hq]
    rw [hsame]
    exact ⟨hw.known, hw.counted, hw.verdicts⟩
  | some cur =>
    rw [hq] at hentry
    have hlook : (visitEntry s nowNs pid slots).watchdog.snapshots.lookup p =
        s.watchdog.snapshots.lookup p := by
      simp [visitEntry, hentry, Ne.symm hp]
    have hcurrent : (visitEntry s nowNs pid slots).current p = s.current p := by
      simp [visitEntry, hq, Ne.symm hp]
    have hobserved : (visitEntry s nowNs pid slots).observed p = s.observed p := by
      simp [visitEntry, hq, Ne.symm hp]
    refine ⟨by rw [hlook, hcurrent]; exact hw.known, ?_, ?_⟩
    · rw [hlook, hcurrent]
      exact hw.counted
    · rw [hobserved, ← hw.verdicts]
      obtain ⟨-, hfound⟩ | ⟨-, hfound⟩ := visitEntry_cases s nowNs pid slots
      · rw [hfound]
      · simp [hfound, hp]

end Steps

theorem ofNat_eq_zero_iff (m : Nat) : UInt64.ofNat m = 0 ↔ 2 ^ 64 ∣ m := by
  rw [← UInt64.toNat_inj, UInt64.toNat_ofNat']
  exact Nat.dvd_iff_mod_eq_zero.symm

theorem add_sub_self_left (a b : UInt64) : a + b - a = b := by
  rw [UInt64.add_comm, UInt64.add_sub_cancel]

/-- The two snapshots give away what the process did between them. -/
theorem suspicious_iff_bypasses {prev cur : PidSnapshot} {a : Activity}
    (hio : cur.ioctlCount = prev.ioctlCount + UInt64.ofNat a.ioctls)
    (hup : cur.uprobeCount = prev.uprobeCount + UInt64.ofNat a.uprobes) :
    Suspicious prev cur ↔ Bypasses a := by
  have hzero : prev.uprobeCount + UInt64.ofNat a.uprobes = prev.uprobeCount ↔
      2 ^ 64 ∣ a.uprobes := by
    rw [← ofNat_eq_zero_iff]
    constructor
    · intro h
      have hsub := add_sub_self_left prev.uprobeCount (UInt64.ofNat a.uprobes)
      rw [h, UInt64.sub_self] at hsub
      exact hsub.symm
    · intro h
      rw [h, UInt64.add_zero]
  rw [Suspicious, Bypasses, hio, hup, add_sub_self_left, le_ofNat_iff, hzero]

/-- The visit of the process itself closes what it did since the last one. -/
theorem watches_own {p : UInt32} {s : State n} (hw : Watches p s) {nowNs : UInt64}
    {slots : Slots n} (hm : s.kernel.ioctlWatchdogMap.lookup p = some slots) :
    Watches p (visitEntry s nowNs p slots) := by
  have hentry := pollEntry_eq nowNs s.watchdog [] p (List.ofFn slots)
  cases hq : qualify nowNs (List.ofFn slots) with
  | none =>
    rw [hq] at hentry
    have hsame : visitEntry s nowNs p slots = { s with poller := .polling nowNs } := by
      simp [visitEntry, hentry, hq]
    rw [hsame]
    exact ⟨hw.known, hw.counted, hw.verdicts⟩
  | some cur =>
    rw [hq] at hentry
    have hsums : cur.ioctlCount = ioctlSum slots ∧ cur.uprobeCount = uprobeSum slots := by
      simp only [qualify, Option.ite_none_right_eq_some, Option.some.injEq] at hq
      obtain ⟨-, rfl⟩ := hq
      exact ⟨rfl, rfl⟩
    have hlook : (visitEntry s nowNs p slots).watchdog.snapshots.lookup p = some cur := by
      simp [visitEntry, hentry]
    have hcurrent : (visitEntry s nowNs p slots).current p = some ⟨0, 0⟩ := by
      simp [visitEntry, hq]
    have hobserved : (visitEntry s nowNs p slots).observed p =
        s.observed p ++ (s.current p).toList := by
      simp [visitEntry, hq]
    have hfound : (visitEntry s nowNs p slots).found =
        s.found ++ alertsFor p (s.watchdog.snapshots.lookup p) cur := by
      simp [visitEntry, hentry]
    refine ⟨by rw [hlook, hcurrent]; rfl, fun prev a hprev ha => ?_, ?_⟩
    · rw [hlook, Option.some.injEq] at hprev
      rw [hcurrent, Option.some.injEq] at ha
      subst hprev ha
      exact ⟨slots, hm, by simp [hsums.1], by simp [hsums.2]⟩
    · rw [hobserved, hfound, List.countP_append, List.countP_append, hw.verdicts]
      congr 1
      have hknown := hw.known
      cases hprev : s.watchdog.snapshots.lookup p with
      | none =>
        rw [hprev] at hknown
        rw [Option.isSome_eq_false_iff.mp hknown.symm |> Option.isNone_iff_eq_none.mp]
        rfl
      | some prev =>
        rw [hprev] at hknown
        obtain ⟨a, ha⟩ := Option.isSome_iff_exists.mp hknown.symm
        obtain ⟨sl, hsl, hio, hup⟩ := hw.counted prev a hprev ha
        have heq : sl = slots := Option.some.inj (hsl.symm.trans hm)
        subst heq
        have hiff := suspicious_iff_bypasses (hsums.1.trans hio) (hsums.2.trans hup)
        by_cases hb : Bypasses a
        · simp [ha, alertsFor, hiff.mpr hb, hb]
        · simp [ha, alertsFor, mt hiff.mp hb, hb]

theorem watches_step {p : UInt32} {s u : State n} {a : WatchdogLoop.Action n} (hw : Watches p s)
    (ha : exits p a = false) (h : step s a = some u) : Watches p u := by
  cases steps_of_eq_some h with
  | program => exact watches_program hw ha
  | @visit pid nowNs slots hp hm =>
    by_cases hpid : pid = p
    · subst hpid
      exact watches_own hw hm
    · exact watches_other hw hpid slots
  | tick | endPoll | send | stop | receive | log | finish | cancel =>
    exact ⟨hw.known, hw.counted, hw.verdicts⟩

theorem watches_run {p : UInt32} {acts : List (WatchdogLoop.Action n)} {s : State n}
    (h : exec step (start n) acts = some s) (hp : ∀ a ∈ acts, exits p a = false) : Watches p s := by
  refine exec_induction (I := fun as s => (∀ a ∈ as, exits p a = false) → Watches p s)
    (fun _ => watches_start p) (fun as t a u _ ih hs hall => ?_) h hp
  rw [List.forall_mem_append, List.forall_mem_singleton] at hall
  exact watches_step (ih hall.1) hall.2 hs

/-- While a process does not exit, it is reported once for each time that it
bypassed libcuda between two visits at which it qualified, and for nothing
else, whatever other processes do and however the polls interleave with them. -/
theorem bypasses_reported (acts : List (WatchdogLoop.Action n)) (s : State n)
    (h : exec step (start n) acts = some s) (p : UInt32)
    (hp : ∀ a ∈ acts, exits p a = false) :
    (s.logged ++ pendingAlerts s).countP (fun alert => alert.pid = p) =
      (s.observed p).countP Bypasses := by
  rw [← (inv_run h).order]
  exact (watches_run h hp).verdicts

theorem bypasses_reported_bypassRun : ∃ s, exec step (start 1) bypassRun = some s ∧
    s.observed 7 = [⟨50, 0⟩, ⟨50, 1⟩] ∧
    (s.logged ++ pendingAlerts s).countP (fun alert => alert.pid = 7) =
      (s.observed 7).countP Bypasses := by
  obtain ⟨s, hs, hobserved⟩ : ∃ s, exec step (start 1) bypassRun = some s ∧
      s.observed 7 = [⟨50, 0⟩, ⟨50, 1⟩] := by
    decide +kernel
  exact ⟨s, hs, hobserved, bypasses_reported bypassRun s hs 7 (by decide +kernel)⟩

end InfraSightGpu.WatchdogVerdicts
