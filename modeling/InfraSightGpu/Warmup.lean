import InfraSightGpu.AlertSoundness

namespace InfraSightGpu.Warmup

open InfraSightGpu.WatchdogMap InfraSightGpu.Watchdog InfraSightGpu.PollHistory
open InfraSightGpu.AlertSoundness (readMap)
open InfraSightGpu.Lib.Maps InfraSightGpu.Lib.Runs

variable {n : Nat}

/-- The map and the monotonic clock of the kernel, in nanoseconds since boot.
When the current entry of a process was created is ghost state. -/
structure State (n : Nat) where
  map : IoctlWatchdogMap n
  clock : UInt64
  created : UInt32 → UInt64

def start (n : Nat) : State n where
  map := ∅
  clock := 0
  created := fun _ => 0

inductive Action (n : Nat) where
  | hit (cpu : Fin n) (ktime : UInt64) (pid hitType : UInt32)
  | exit (ktime : UInt64) (pid : UInt32)
deriving DecidableEq

def step (s : State n) : Action n → Option (State n)
  | .hit cpu ktime pid hitType =>
    if s.clock ≤ ktime then some {
      map := addToCounter s.map cpu ktime pid hitType
      clock := ktime
      created := if pid ∈ s.map then s.created else Function.update s.created pid ktime }
    else none
  | .exit ktime pid =>
    if s.clock ≤ ktime then some { s with map := handleProcessExit s.map pid, clock := ktime }
    else none

/-- `uint64(time.Now().UnixNano())` on a host that booted at the epoch time `boot`. -/
def wallClock (boot : Nat) (ktime : UInt64) : UInt64 := UInt64.ofNat (ktime.toNat + boot)

def age (s : State n) (ktime : UInt64) (pid : UInt32) : Nat :=
  ktime.toNat - (s.created pid).toNat

def WarmedUp (nowNs : UInt64) (vs : List IoctlWatchdogEvent) : Prop :=
  ¬ nowNs - (sumCpus vs).firstSeen < warmupSeconds * 1000000000

def Ignores (q : Reading) (pid : UInt32) : Prop :=
  ∀ w, (poll w q.nowNs q.entries).1.snapshots.lookup pid = w.snapshots.lookup pid ∧
    pid ∉ (poll w q.nowNs q.entries).2.map WatchdogAlert.pid

/-- A poll ignores an entry younger than the warm-up period and lets an older one through. -/
def Honoured (q : Reading) (pid : UInt32) (age : Nat) : Prop :=
  (age < 3000000000 → Ignores q pid) ∧ (3000000000 ≤ age → WarmedUp q.nowNs (q.values pid))

/-- What the two clocks and the counters have to be for that: the boot time
moves the age around the circle of 2^64 nanoseconds. -/
def AgeSurvives (boot age : Nat) (ioctl : UInt64) : Prop :=
  if age < 3000000000 then ioctl < 50 ∨ (age + boot) % 2 ^ 64 < 3000000000
  else 3000000000 ≤ (age + boot) % 2 ^ 64

structure CreatedAt (s : State n) (pid : UInt32) (slots : Slots n) : Prop where
  time : ∃ cpu, ∀ i, (slots i).firstSeenTime = if i = cpu then s.created pid else 0
  le_clock : s.created pid ≤ s.clock

def Inv (s : State n) : Prop := ∀ pid slots, s.map.lookup pid = some slots → CreatedAt s pid slots

theorem inv_hit {s : State n} (hi : Inv s) (cpu : Fin n) {ktime : UInt64} (hk : s.clock ≤ ktime)
    (pid hitType : UInt32) :
    Inv { map := addToCounter s.map cpu ktime pid hitType
          clock := ktime
          created := if pid ∈ s.map then s.created
            else Function.update s.created pid ktime } := by
  intro p slots hp
  rw [lookup_addToCounter] at hp
  by_cases hpid : p = pid
  · subst hpid
    rw [if_pos rfl] at hp
    obtain ⟨old, hold, rfl⟩ := Option.map_eq_some_iff.mp hp
    obtain hm | ⟨habs, -, rfl⟩ := slotsFor_eq_some.mp hold
    · obtain ⟨⟨c, hc⟩, hle⟩ := hi p old hm
      have hmem : p ∈ s.map := Finmap.mem_iff.mpr ⟨old, hm⟩
      refine ⟨⟨c, fun i => ?_⟩, ?_⟩
      · rw [firstSeenTime_addHit, hc]
        simp [hmem]
      · simpa [hmem] using UInt64.le_trans hle hk
    · refine ⟨⟨cpu, fun i => ?_⟩, ?_⟩
      · rw [firstSeenTime_addHit]
        by_cases hcpu : i = cpu
        · subst hcpu; simp [habs, initEvent]
        · simp [hcpu, zeroEvent]
      · simp [habs]
  · rw [if_neg hpid] at hp
    obtain ⟨⟨c, hc⟩, hle⟩ := hi p slots hp
    have hsame : (if pid ∈ s.map then s.created else Function.update s.created pid ktime) p =
        s.created p := by
      split
      · rfl
      · rw [Function.update_of_ne hpid]
    refine ⟨⟨c, fun i => ?_⟩, ?_⟩
    · rw [hc]
      dsimp only
      rw [hsame]
    · dsimp only
      rw [hsame]
      exact UInt64.le_trans hle hk

theorem inv_exit {s : State n} (hi : Inv s) {ktime : UInt64} (hk : s.clock ≤ ktime)
    (pid : UInt32) : Inv { s with map := handleProcessExit s.map pid, clock := ktime } := by
  intro p slots hp
  dsimp only at hp
  rw [lookup_handleProcessExit] at hp
  split at hp
  · cases hp
  · obtain ⟨htime, hle⟩ := hi p slots hp
    exact ⟨htime, UInt64.le_trans hle hk⟩

theorem inv_run {acts : List (Action n)} {s : State n} (h : exec step (start n) acts = some s) :
    Inv s := by
  refine exec_induction (I := fun _ s => Inv s) ?_ ?_ h
  · intro pid slots hp
    simp [start] at hp
  · intro as t a u _ hi hs
    cases a with
    | hit cpu ktime pid hitType =>
      rw [step, Option.ite_none_right_eq_some, Option.some.injEq] at hs
      obtain ⟨hk, rfl⟩ := hs
      exact inv_hit hi cpu hk pid hitType
    | exit ktime pid =>
      rw [step, Option.ite_none_right_eq_some, Option.some.injEq] at hs
      obtain ⟨hk, rfl⟩ := hs
      exact inv_exit hi hk pid

theorem toNat_ageNs {boot : Nat} {ktime created : UInt64} (h : created ≤ ktime) :
    (wallClock boot ktime - created).toNat = (ktime.toNat - created.toNat + boot) % 2 ^ 64 := by
  have hle : created.toNat ≤ ktime.toNat := UInt64.le_iff_toNat_le.mp h
  have hlt : created.toNat < 2 ^ 64 := created.toNat_lt
  rw [UInt64.toNat_sub, wallClock, UInt64.toNat_ofNat']
  omega

theorem le_ageNs_iff {boot : Nat} {ktime created : UInt64} (h : created ≤ ktime) :
    3000000000 ≤ wallClock boot ktime - created ↔
      3000000000 ≤ (ktime.toNat - created.toNat + boot) % 2 ^ 64 := by
  rw [UInt64.le_iff_toNat_le, toNat_ageNs h]
  rfl

theorem warmedUp_iff (nowNs : UInt64) (vs : List IoctlWatchdogEvent) :
    WarmedUp nowNs vs ↔ 3000000000 ≤ nowNs - minFirstSeen vs := by
  rw [WarmedUp, sumCpus_eq, UInt64.not_lt]
  rfl

theorem ignores_iff (q : Reading) (pid : UInt32) : Ignores q pid ↔ qualifying pid q = none := by
  constructor
  · intro h
    have hnew := (h newWatchdogCollector).1
    rw [lookup_poll] at hnew
    simpa [newWatchdogCollector] using hnew
  · intro h w
    rw [lookup_poll, mem_poll_alerts, h]
    simp

section Entry

variable {s : State n} {pid : UInt32} {slots : Slots n} (hp : s.map.lookup pid = some slots)
  {nowNs : UInt64} {order : List UInt32} (ho : Enumerates order s.map)
include hp

theorem values_readMap : (readMap s.map nowNs order ho).values pid = List.ofFn slots := by
  simp [readMap, hp]

theorem qualifying_eq_none_iff :
    qualifying pid (readMap s.map nowNs order ho) = none ↔
      ioctlSum slots < 50 ∨ ¬ WarmedUp nowNs (List.ofFn slots) := by
  have hk : pid ∈ (readMap s.map nowNs order ho).keys :=
    (ho.mem_iff pid).mpr (Finmap.mem_iff.mpr ⟨slots, hp⟩)
  rw [qualifying, if_pos hk, values_readMap hp, warmedUp_iff, ← UInt64.not_le]
  simp only [qualify, ite_eq_right_iff, reduceCtorEq, imp_false, not_and_or]
  rfl

theorem honoured_iff (hi : Inv s) (boot : Nat) {ktime : UInt64} (ht : s.clock ≤ ktime) :
    Honoured (readMap s.map (wallClock boot ktime) order ho) pid (age s ktime pid) ↔
      AgeSurvives boot (age s ktime pid) (ioctlSum slots) := by
  obtain ⟨⟨cpu, htime⟩, hle⟩ := hi pid slots hp
  have hwarm : WarmedUp (wallClock boot ktime) (List.ofFn slots) ↔
      3000000000 ≤ (age s ktime pid + boot) % 2 ^ 64 := by
    rw [warmedUp_iff, minFirstSeen_single htime, le_ageNs_iff (UInt64.le_trans hle ht)]
    rfl
  rw [Honoured, AgeSurvives, ignores_iff, qualifying_eq_none_iff hp ho, values_readMap hp]
  change _ ∧ (_ → WarmedUp (wallClock boot ktime) _) ↔ _
  rw [hwarm, not_le]
  by_cases hage : age s ktime pid < 3000000000
  · simp [hage]
  · simp [hage, not_lt.mp hage]

end Entry

/-- The warm-up period of an entry is honoured at a poll exactly when its age
survives the difference between the clocks. -/
theorem warmup_honoured_iff (n : Nat) (acts : List (Action n)) (s : State n)
    (h : exec step (start n) acts = some s) (boot : Nat) (ktime : UInt64) (ht : s.clock ≤ ktime)
    (order : List UInt32) (ho : Enumerates order s.map) (pid : UInt32) (slots : Slots n)
    (hp : s.map.lookup pid = some slots) :
    Honoured (readMap s.map (wallClock boot ktime) order ho) pid (age s ktime pid) ↔
      AgeSurvives boot (age s ktime pid) (ioctlSum slots) :=
  honoured_iff hp ho (inv_run h) boot ht

def busyRun : List (Action 1) := List.replicate 50 (.hit bootCpu 0 7 ioctlHit)

theorem busyRun_run : ∃ (s : State 1) (slots : Slots 1), exec step (start 1) busyRun = some s ∧
    s.clock = 0 ∧ s.created 7 = 0 ∧ Enumerates [7] s.map ∧ s.map.lookup 7 = some slots ∧
    ioctlSum slots = 50 := by
  obtain ⟨s, hs, hclock, hcreated, ho, slots, hslots, hsum⟩ : ∃ s, exec step (start 1) busyRun =
      some s ∧ s.clock = 0 ∧ s.created 7 = 0 ∧ Enumerates [7] s.map ∧
        ∃ slots, s.map.lookup 7 = some slots ∧ ioctlSum slots = 50 := by
    decide +kernel
  exact ⟨s, slots, hs, hclock, hcreated, ho, hslots, hsum⟩

theorem warmup_honoured_busyRun : ∃ (s : State 1) (slots : Slots 1),
    ∃ ho : Enumerates [7] s.map, exec step (start 1) busyRun = some s ∧
    (Honoured (readMap s.map (wallClock 0 3000000000) [7] ho) 7 (age s 3000000000 7) ↔
      AgeSurvives 0 (age s 3000000000 7) (ioctlSum slots)) := by
  obtain ⟨s, slots, hs, hclock, -, ho, hp, -⟩ := busyRun_run
  have ht : s.clock ≤ 3000000000 := by simp [hclock]
  exact ⟨s, slots, ho, hs,
    warmup_honoured_iff 1 busyRun s hs 0 3000000000 ht [7] ho 7 slots hp⟩

/-- On a host that booted in November 2023, an entry is taken up at its birth. -/
theorem busyRun_not_honoured : ∃ (s : State 1) (ho : Enumerates [7] s.map),
    exec step (start 1) busyRun = some s ∧ age s 0 7 = 0 ∧
    ¬ Honoured (readMap s.map (wallClock 1700000000000000000 0) [7] ho) 7 (age s 0 7) := by
  obtain ⟨s, slots, hs, hclock, hcreated, ho, hp, hsum⟩ := busyRun_run
  have hage : age s 0 7 = 0 := by rw [age, hcreated]; rfl
  refine ⟨s, ho, hs, hage, ?_⟩
  rw [honoured_iff hp ho (inv_run hs) _ (hclock ▸ UInt64.le_refl _), hage, hsum]
  simp [AgeSurvives]

/-- The warm-up is honoured on every host with this boot time exactly when the
two clocks show the same. -/
theorem always_honoured_iff (boot : Nat) :
    (∀ n acts (s : State n), exec step (start n) acts = some s → ∀ ktime, s.clock ≤ ktime →
      ∀ order (ho : Enumerates order s.map), ∀ pid ∈ s.map,
        Honoured (readMap s.map (wallClock boot ktime) order ho) pid (age s ktime pid)) ↔
      2 ^ 64 ∣ boot := by
  constructor
  · intro hall
    obtain ⟨s, slots, hs, hclock, hcreated, ho, hp, hsum⟩ := busyRun_run
    have hage : ∀ ktime, age s ktime 7 = ktime.toNat := by
      intro ktime
      rw [age, hcreated]
      rfl
    have hsurvives : ∀ ktime : UInt64, AgeSurvives boot ktime.toNat 50 := by
      intro ktime
      have ht : s.clock ≤ ktime := by simp [hclock]
      have hon := hall 1 _ s hs ktime ht [7] ho 7 (Finmap.mem_iff.mpr ⟨slots, hp⟩)
      rwa [honoured_iff hp ho (inv_run hs) boot ht, hage, hsum] at hon
    -- at birth the shown age is the remainder, later it passes three seconds too early
    have hbirth : boot % 2 ^ 64 < 3000000000 := by simpa [AgeSurvives] using hsurvives 0
    have hlate : (2999999999 + boot) % 2 ^ 64 < 3000000000 := by
      simpa [AgeSurvives] using hsurvives 2999999999
    omega
  · intro hdvd n acts s hs ktime ht order ho pid hpid
    obtain ⟨slots, hp⟩ := Finmap.mem_iff.mp hpid
    rw [honoured_iff hp ho (inv_run hs) boot ht]
    have hlt : ktime.toNat < 2 ^ 64 := ktime.toNat_lt
    have hage : (age s ktime pid + boot) % 2 ^ 64 = age s ktime pid := by
      rw [age]
      omega
    rw [AgeSurvives, hage]
    split
    · next hyoung => exact .inr hyoung
    · next hold => exact not_lt.mp hold

end InfraSightGpu.Warmup
