import InfraSightGpu.Tracer
import InfraSightGpu.AlertSoundness
import InfraSightGpu.DeviceIoctls

namespace InfraSightGpu.HookedCalls

open InfraSightGpu.WatchdogMap InfraSightGpu.Watchdog InfraSightGpu.PollHistory
open InfraSightGpu.Records InfraSightGpu.Handlers InfraSightGpu.Tracer
open InfraSightGpu.AlertSoundness (readMap qualifying_readMap)
open InfraSightGpu.Lib.Maps InfraSightGpu.Lib.Runs

variable {n : Nat}

/-- The execution is a hooked libcuda call: a launch, an allocation, a copy, or
the return of a synchronisation whose entry was recorded. -/
def Hooked (k : Kernel n) (call : Call n) : Prop :=
  match call.program with
  | .cuLaunchkernel _ _ _ _ _ _ | .cuMemAlloc _ | .cuMemcpyHtod _ | .cuMemcpyDtoh _
  | .cuMemcpyHtodAsync _ | .cuMemcpyDtohAsync _ => True
  | .cuStreamSynchronizeRet | .cuCtxSyncRet => call.ctx.pidTgid ∈ k.startEventsStream
  | .cuStreamSync | .cuCtxSync | .watchdogIoctl _ _ | .processExit => False

instance (k : Kernel n) (call : Call n) : Decidable (Hooked k call) := by
  unfold Hooked
  split <;> infer_instance

def CanEnter (p : UInt32) (m : IoctlWatchdogMap n) : Prop :=
  p ∈ m ∨ size m < ioctlWatchdogMaxEntries

instance (p : UInt32) (m : IoctlWatchdogMap n) : Decidable (CanEnter p m) :=
  inferInstanceAs (Decidable (_ ∨ _))

theorem uprobeTotal_hit (k : Kernel n) (c : Ctx n) (p : UInt32) :
    uprobeTotal p (addToCounter k.ioctlWatchdogMap c.cpu c.initKtime c.pid uprobeHit) =
      uprobeTotal p k.ioctlWatchdogMap +
        if c.pid = p ∧ CanEnter p k.ioctlWatchdogMap then 1 else 0 := by
  rw [uprobeTotal_addToCounter]
  congr 1
  by_cases hp : c.pid = p
  · subst hp
    simp only [mem_addToCounter_self, CanEnter, true_and]
    rfl
  · rw [if_neg fun h => hp h.1.symm, if_neg fun h => hp h.1]

theorem uprobeTotal_submit (k : Kernel n) (c : Ctx n) (r : GpuRecord) (p : UInt32) :
    uprobeTotal p (if c.reserved then submitAndCount k c r else k).ioctlWatchdogMap =
      uprobeTotal p k.ioctlWatchdogMap +
        if c.pid = p ∧ True ∧ c.reserved ∧ CanEnter p k.ioctlWatchdogMap then 1 else 0 := by
  by_cases hr : c.reserved
  · simp [hr, submitAndCount, uprobeTotal_hit]
  · simp [hr]

theorem uprobeTotal_syncRet (k : Kernel n) (c : Ctx n) (p : UInt32) :
    uprobeTotal p (handleSyncRet k c).ioctlWatchdogMap = uprobeTotal p k.ioctlWatchdogMap +
      if c.pid = p ∧ c.pidTgid ∈ k.startEventsStream ∧ c.reserved ∧
        CanEnter p k.ioctlWatchdogMap then 1 else 0 := by
  simp only [← lookup_isSome_iff, handleSyncRet]
  cases hts : k.startEventsStream.lookup c.pidTgid with
  | none => simp
  | some ts =>
    by_cases hr : c.reserved
    · have hhit := uprobeTotal_hit { k with
        startEventsStream := k.startEventsStream.erase c.pidTgid } c p
      simp only [hr, if_true, submitAndCount, hhit]
      simp
    · simp [hr]

theorem uprobeTotal_handle {k : Kernel n} {call : Call n} {p : UInt32}
    (hexit : ¬ (isProcessExit call.program ∧ call.ctx.pid = p)) :
    uprobeTotal p (handle k call).ioctlWatchdogMap = uprobeTotal p k.ioctlWatchdogMap +
      if call.ctx.pid = p ∧ Hooked k call ∧ call.ctx.reserved ∧ CanEnter p k.ioctlWatchdogMap
        then 1 else 0 := by
  obtain ⟨program, c⟩ := call
  cases program with
  | cuLaunchkernel | cuMemAlloc | cuMemcpyHtod | cuMemcpyDtoh | cuMemcpyHtodAsync
  | cuMemcpyDtohAsync => exact uprobeTotal_submit k c _ p
  | cuStreamSynchronizeRet | cuCtxSyncRet => exact uprobeTotal_syncRet k c p
  | cuStreamSync | cuCtxSync => simp [handle, handleCuStreamSync, handleCuCtxSync, handleSync,
      Hooked]
  | watchdogIoctl mem fd =>
    have hzero : hits uprobeHit ioctlHit = 0 := rfl
    rw [handle, DeviceIoctls.watchdogIoctl_map]
    simp only [Hooked, false_and, and_false, if_false]
    split <;> simp [uprobeTotal_addToCounter, hzero]
  | processExit =>
    have hp : p ≠ c.pid := fun he => hexit ⟨rfl, he.symm⟩
    simp [handle, processExit, uprobeTotal, lookup_handleProcessExit, hp, Hooked]

/-- The eBPF programs and the collector that polls their map. The number of
hooked calls of one process, in all and since the last poll, is ghost state. -/
structure State (n : Nat) where
  kernel : Kernel n
  watchdog : WatchdogCollector
  hooked : Nat
  sincePoll : Nat

def start (n : Nat) : State n where
  kernel := emptyKernel n
  watchdog := newWatchdogCollector
  hooked := 0
  sincePoll := 0

inductive Action (n : Nat) where
  | program (call : Call n)
  | poll (nowNs : UInt64) (order : List UInt32)

/-- The process does not exit, and whenever it makes a hooked call its entry
exists or can be created. -/
def Admitted (p : UInt32) (k : Kernel n) (call : Call n) : Prop :=
  ¬ (isProcessExit call.program ∧ call.ctx.pid = p) ∧
    (call.ctx.pid = p → Hooked k call → CanEnter p k.ioctlWatchdogMap)

instance (p : UInt32) (k : Kernel n) (call : Call n) : Decidable (Admitted p k call) :=
  inferInstanceAs (Decidable (_ ∧ _))

def hookedBy (p : UInt32) (k : Kernel n) (call : Call n) : Nat :=
  if call.ctx.pid = p ∧ Hooked k call then 1 else 0

/-- Executions of any programs by any processes, with the process watched being
one that stays admitted, and polls at any time. -/
def step (p : UInt32) (s : State n) : Action n → Option (State n)
  | .program call =>
    if Admitted p s.kernel call then some { s with
      kernel := handle s.kernel call
      hooked := s.hooked + hookedBy p s.kernel call
      sincePoll := s.sincePoll + hookedBy p s.kernel call }
    else none
  | .poll nowNs order =>
    if h : Enumerates order s.kernel.ioctlWatchdogMap then
      let q := readMap s.kernel.ioctlWatchdogMap nowNs order h
      some { s with watchdog := (poll s.watchdog q.nowNs q.entries).1, sincePoll := 0 }
    else none

def alerted (s : State n) : Action n → List UInt32
  | .program _ => []
  | .poll nowNs order =>
    if h : Enumerates order s.kernel.ioctlWatchdogMap then
      let q := readMap s.kernel.ioctlWatchdogMap nowNs order h
      (poll s.watchdog q.nowNs q.entries).2.map WatchdogAlert.pid
    else []

def Counted (p : UInt32) (s : State n) : Prop :=
  (uprobeTotal p s.kernel.ioctlWatchdogMap).toNat = s.hooked

instance (p : UInt32) (s : State n) : Decidable (Counted p s) :=
  inferInstanceAs (Decidable (_ = _))

/-- An alert for the process comes only when it made no hooked call since the last poll. -/
def NoFalseAlarm (p : UInt32) (s : State n) (a : Action n) : Prop :=
  p ∈ alerted s a → s.sincePoll = 0

instance (p : UInt32) (s : State n) (a : Action n) : Decidable (NoFalseAlarm p s a) :=
  inferInstanceAs (Decidable (_ → _))

/-- A hooked call of the process gets its reservation, and the calls so far can
be counted in 64 bits. -/
def Recorded (p : UInt32) (s : State n) : Action n → Prop
  | .program call => call.ctx.pid = p → Hooked s.kernel call →
      call.ctx.reserved ∧ s.hooked + 1 < 2 ^ 64
  | .poll _ _ => True

def SnapshotBehind (p : UInt32) (s : State n) : Prop :=
  ∀ prev, s.watchdog.snapshots.lookup p = some prev →
    prev.uprobeCount.toNat + s.sincePoll ≤ s.hooked

theorem counted_step {p : UInt32} {s u : State n} {a : Action n} (hp : Counted p s)
    (hs : step p s a = some u) : Counted p u ↔ Recorded p s a := by
  cases a with
  | program call =>
    rw [step, Option.ite_none_right_eq_some, Option.some.injEq] at hs
    obtain ⟨⟨hexit, henter⟩, rfl⟩ := hs
    simp only [Counted, Recorded, uprobeTotal_handle hexit, hookedBy]
    by_cases hhook : call.ctx.pid = p ∧ Hooked s.kernel call
    · obtain ⟨hpid, hh⟩ := hhook
      have hroom := henter hpid hh
      by_cases hr : call.ctx.reserved
      · have hsum : (uprobeTotal p s.kernel.ioctlWatchdogMap + 1).toNat =
            (s.hooked + 1) % 2 ^ 64 := by
          rw [UInt64.toNat_add, hp]
          rfl
        simp only [hpid, hh, hr, hroom, and_self, if_true, hsum, true_and, forall_const]
        exact Nat.mod_eq_iff_lt (by norm_num)
      · have hne : (uprobeTotal p s.kernel.ioctlWatchdogMap).toNat ≠ s.hooked + 1 := by
          rw [hp]
          omega
        simp [hpid, hh, hr, hne]
    · have hvac : call.ctx.pid = p → ¬ Hooked s.kernel call := fun h1 h2 => hhook ⟨h1, h2⟩
      have hno : ¬ (call.ctx.pid = p ∧ Hooked s.kernel call ∧ call.ctx.reserved ∧
          CanEnter p s.kernel.ioctlWatchdogMap) := fun h => hvac h.1 h.2.1
      rw [if_neg hno, if_neg hhook, UInt64.add_zero, Nat.add_zero]
      exact iff_of_true hp fun h1 h2 => absurd h2 (hvac h1)
  | poll nowNs order =>
    simp only [step] at hs
    split at hs
    · cases hs
      exact iff_of_true hp trivial
    · cases hs

theorem qualifying_count {p : UInt32} {s : State n} (hp : Counted p s) {nowNs : UInt64}
    {order : List UInt32} (h : Enumerates order s.kernel.ioctlWatchdogMap) {cur : PidSnapshot}
    (hq : qualifying p (readMap s.kernel.ioctlWatchdogMap nowNs order h) = some cur) :
    cur.uprobeCount.toNat = s.hooked := by
  obtain ⟨slots, hslots, -, -, rfl⟩ := (qualifying_readMap h).mp hq
  rw [← hp, uprobeTotal, hslots]
  rfl

theorem snapshotBehind_step {p : UInt32} {s u : State n} {a : Action n} (hi : SnapshotBehind p s)
    (hp : Counted p s) (hs : step p s a = some u) : SnapshotBehind p u := by
  cases a with
  | program call =>
    rw [step, Option.ite_none_right_eq_some, Option.some.injEq] at hs
    obtain ⟨-, rfl⟩ := hs
    intro prev hprev
    have hle := hi prev hprev
    dsimp only
    omega
  | poll nowNs order =>
    simp only [step] at hs
    split at hs
    · next h =>
      cases hs
      intro prev hprev
      dsimp only at hprev ⊢
      rw [lookup_poll] at hprev
      cases hq : qualifying p (readMap s.kernel.ioctlWatchdogMap nowNs order h) with
      | some cur =>
        rw [hq] at hprev
        cases hprev
        exact (qualifying_count hp h hq).le
      | none =>
        rw [hq] at hprev
        exact (Nat.le_add_right _ _).trans (hi prev hprev)
    · cases hs

theorem noFalseAlarm_of {p : UInt32} {s : State n} (hi : SnapshotBehind p s) (hp : Counted p s)
    (a : Action n) : NoFalseAlarm p s a := by
  cases a with
  | program call => exact fun h => absurd h List.not_mem_nil
  | poll nowNs order =>
    intro halert
    simp only [alerted] at halert
    split at halert
    · next h =>
      obtain ⟨cur, prev, hq, hprev, -, hup⟩ := (mem_poll_alerts _ _ p).mp halert
      have hcur := qualifying_count hp h hq
      have hle := hi prev hprev
      rw [← hup] at hle
      omega
    · exact absurd halert List.not_mem_nil

/-- The counter of a process that stays counts its hooked calls at every moment,
and no poll takes it for a bypass after a hooked call, exactly when each of
these calls gets its reservation. -/
theorem hooked_calls_counted_iff (n : Nat) (p : UInt32) (acts : List (Action n)) (s : State n)
    (h : exec (step p) (start n) acts = some s) :
    Always (step p) (Counted p) (start n) acts ∧
        Along (step p) (NoFalseAlarm p) (start n) acts ↔
      Along (step p) (Recorded p) (start n) acts := by
  have hrule : ∀ as t, exec (step p) (start n) as = some t →
      (Always (step p) (Counted p) (start n) as ↔ Along (step p) (Recorded p) (start n) as) ∧
        (Along (step p) (Recorded p) (start n) as → SnapshotBehind p t ∧ Counted p t) := by
    intro as t ht
    refine always_iff_along ?_ ?_ (fun t a u _ hp hs => counted_step hp hs)
      (fun t a u hi hp _ hs => snapshotBehind_step hi hp hs) ht
    · rfl
    · intro prev hprev
      simp [start, newWatchdogCollector] at hprev
  rw [(hrule acts s h).1]
  refine ⟨And.left, fun hrec => ⟨hrec, along_imp (fun as t a ht hal => ?_) hrec⟩⟩
  obtain ⟨hi, hp⟩ := (hrule as t ht).2 hal
  exact noFalseAlarm_of hi hp a

def allocateAndSync : List (Action 1) :=
  [.program (sampleCall (.cuMemAlloc 64) 1 1 true), .program (sampleCall .cuCtxSync 1 2 true),
    .poll 3 [7], .program (sampleCall .cuCtxSyncRet 1 4 true)]

theorem hooked_calls_counted_allocateAndSync :
    ∃ s, exec (step 7) (start 1) allocateAndSync = some s ∧
      (Always (step 7) (Counted 7) (start 1) allocateAndSync ∧
          Along (step 7) (NoFalseAlarm 7) (start 1) allocateAndSync ↔
        Along (step 7) (Recorded 7) (start 1) allocateAndSync) := by
  have h : (exec (step 7) (start 1) allocateAndSync).isSome := by decide +kernel
  have hs := (Option.some_get h).symm
  exact ⟨_, hs, hooked_calls_counted_iff 1 7 allocateAndSync _ hs⟩

/-- 50 ioctls, a poll, 50 ioctls more, and an allocation while the ring is full. -/
def fullRingRun : List (Action 1) :=
  let ioctl : Action 1 :=
    .program (sampleCall (.watchdogIoctl DeviceIoctls.sampleMemory 3) 1 1 true)
  List.replicate 50 ioctl ++ [.poll 10000000000 [7]] ++ List.replicate 50 ioctl ++
    [.program (sampleCall (.cuMemAlloc 64) 1 2 false)]

theorem fullRingRun_false_alarm : ∃ s, exec (step 7) (start 1) fullRingRun = some s ∧
    ¬ Counted 7 s ∧ ¬ NoFalseAlarm 7 s (.poll 15000000000 [7]) := by
  decide +kernel

end InfraSightGpu.HookedCalls
