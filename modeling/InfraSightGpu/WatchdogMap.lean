import InfraSightGpu.Lib.Maps
import InfraSightGpu.Lib.Words

namespace InfraSightGpu.WatchdogMap

open InfraSightGpu.Lib.Maps InfraSightGpu.Lib.Words

variable {n : Nat}

structure IoctlWatchdogEvent where
  ioctlHitCount : UInt64
  uprobeHitCount : UInt64
  firstSeenTime : UInt64
deriving DecidableEq

def ioctlHit : UInt32 := 20
def uprobeHit : UInt32 := 10

def ioctlWatchdogMaxEntries : Nat := 1024

/-- The value of a key: one slot for each of the `n` CPUs. -/
abbrev Slots (n : Nat) := Fin n → IoctlWatchdogEvent

abbrev IoctlWatchdogMap (n : Nat) := Map UInt32 (Slots n)

def zeroEvent : IoctlWatchdogEvent := ⟨0, 0, 0⟩

def bootCpu : Fin (n + 1) := ⟨0, Nat.succ_pos n⟩

/-- A `BPF_NOEXIST` update of a per-CPU map: the value goes to the slot of the
current CPU and the slots of the others are zeroed. -/
def updatePerCpu (m : IoctlWatchdogMap n) (cpu : Fin n) (pid : UInt32) (e : IoctlWatchdogEvent) :
    IoctlWatchdogMap n :=
  updateNoExist ioctlWatchdogMaxEntries m pid (Function.update (fun _ => zeroEvent) cpu e)

def initEvent (ktime : UInt64) : IoctlWatchdogEvent where
  ioctlHitCount := 0
  uprobeHitCount := 0
  firstSeenTime := ktime

/-- The second component is the value behind the returned pointer, if any. -/
def getOrInitIoctl (m : IoctlWatchdogMap n) (cpu : Fin n) (ktime : UInt64) (pid : UInt32) :
    IoctlWatchdogMap n × Option (Slots n) :=
  match m.lookup pid with
  | some e => (m, some e)
  | none =>
    let m := updatePerCpu m cpu pid (initEvent ktime)
    (m, m.lookup pid)

def addHit (hitType : UInt32) (e : IoctlWatchdogEvent) : IoctlWatchdogEvent :=
  if hitType = uprobeHit then { e with uprobeHitCount := e.uprobeHitCount + 1 }
  else if hitType = ioctlHit then { e with ioctlHitCount := e.ioctlHitCount + 1 }
  else e

def storeHit (m : IoctlWatchdogMap n) (cpu : Fin n) (pid hitType : UInt32) (slots : Slots n) :
    IoctlWatchdogMap n :=
  m.insert pid (Function.update slots cpu (addHit hitType (slots cpu)))

def addToCounter (m : IoctlWatchdogMap n) (cpu : Fin n) (ktime : UInt64) (pid hitType : UInt32) :
    IoctlWatchdogMap n :=
  let (m, hit) := getOrInitIoctl m cpu ktime pid
  match hit with
  | some slots => storeHit m cpu pid hitType slots
  | none => m

def handleProcessExit (m : IoctlWatchdogMap n) (pid : UInt32) : IoctlWatchdogMap n :=
  m.erase pid

def ioctlSum (s : Slots n) : UInt64 := sumBy IoctlWatchdogEvent.ioctlHitCount (List.ofFn s)

def uprobeSum (s : Slots n) : UInt64 := sumBy IoctlWatchdogEvent.uprobeHitCount (List.ofFn s)

def hits (kind hitType : UInt32) : Nat := if hitType = kind then 1 else 0

theorem uprobeSum_addHit (s : Slots n) (cpu : Fin n) (hitType : UInt32) :
    uprobeSum (Function.update s cpu (addHit hitType (s cpu))) =
      uprobeSum s + UInt64.ofNat (hits uprobeHit hitType) := by
  refine sumBy_update _ s cpu _ _ ?_
  unfold addHit hits
  split_ifs <;> simp

theorem ioctlSum_addHit (s : Slots n) (cpu : Fin n) (hitType : UInt32) :
    ioctlSum (Function.update s cpu (addHit hitType (s cpu))) =
      ioctlSum s + UInt64.ofNat (hits ioctlHit hitType) := by
  refine sumBy_update _ s cpu _ _ ?_
  unfold addHit hits
  split_ifs with h1 h2 h2
  · exact absurd (h1.symm.trans h2) (by decide)
  all_goals simp

theorem firstSeenTime_addHit (s : Slots n) (cpu : Fin n) (hitType : UInt32) (i : Fin n) :
    (Function.update s cpu (addHit hitType (s cpu)) i).firstSeenTime = (s i).firstSeenTime := by
  by_cases hi : i = cpu
  · subst hi
    rw [Function.update_self, addHit]
    split_ifs <;> rfl
  · rw [Function.update_of_ne hi]

theorem mem_storeHit {m : IoctlWatchdogMap n} {pid : UInt32} {slots : Slots n}
    (h : m.lookup pid = some slots) (cpu : Fin n) (hitType p : UInt32) :
    p ∈ storeHit m cpu pid hitType slots ↔ p ∈ m := by
  rw [storeHit, Finmap.mem_insert, or_iff_right_of_imp]
  rintro rfl
  exact Finmap.mem_iff.mpr ⟨slots, h⟩

theorem sums_init (cpu : Fin n) (ktime : UInt64) :
    ioctlSum (Function.update (fun _ => zeroEvent) cpu (initEvent ktime)) = 0 ∧
      uprobeSum (Function.update (fun _ => zeroEvent) cpu (initEvent ktime)) = 0 := by
  constructor
  all_goals
    refine sumBy_const_zero _ _ fun v hv => ?_
    obtain ⟨i, rfl⟩ := List.mem_ofFn.mp hv
    by_cases hi : i = cpu
    · subst hi; simp [initEvent]
    · simp [hi, zeroEvent]

/-- The slots that a hit of the process finds: those in the map, or fresh ones
when the key is absent and there is room. -/
def slotsFor (m : IoctlWatchdogMap n) (cpu : Fin n) (ktime : UInt64) (pid : UInt32) :
    Option (Slots n) :=
  match m.lookup pid with
  | some s => some s
  | none =>
    if size m < ioctlWatchdogMaxEntries then
      some (Function.update (fun _ => zeroEvent) cpu (initEvent ktime))
    else none

theorem slotsFor_eq_some {m : IoctlWatchdogMap n} {cpu : Fin n} {ktime : UInt64} {pid : UInt32}
    {slots : Slots n} : slotsFor m cpu ktime pid = some slots ↔
      m.lookup pid = some slots ∨ pid ∉ m ∧ size m < ioctlWatchdogMaxEntries ∧
        Function.update (fun _ => zeroEvent) cpu (initEvent ktime) = slots := by
  rw [slotsFor, ← Finmap.lookup_eq_none]
  cases hm : m.lookup pid <;> simp

theorem lookup_addToCounter (m : IoctlWatchdogMap n) (cpu : Fin n) (ktime : UInt64)
    (pid hitType p : UInt32) :
    (addToCounter m cpu ktime pid hitType).lookup p =
      if p = pid then (slotsFor m cpu ktime pid).map
        fun s => Function.update s cpu (addHit hitType (s cpu))
      else m.lookup p := by
  unfold addToCounter getOrInitIoctl slotsFor updatePerCpu storeHit
  cases hm : m.lookup pid with
  | some s => simp [lookup_insert]
  | none =>
    have habs : pid ∉ m := Finmap.lookup_eq_none.mp hm
    by_cases hroom : size m < ioctlWatchdogMaxEntries
    · simp only [lookup_updateNoExist, habs, hroom, not_false_eq_true, and_self, if_true,
        lookup_insert, Option.map_some]
      by_cases hp : p = pid <;> simp [hp]
    · simp only [lookup_updateNoExist, hroom, and_false, if_false, hm, Option.map_none]
      by_cases hp : p = pid
      · subst hp; simp [hm]
      · simp [hp]

theorem sum_addToCounter {f : Slots n → UInt64} {kind : UInt32}
    (hadd : ∀ s cpu hitType, f (Function.update s cpu (addHit hitType (s cpu))) =
      f s + UInt64.ofNat (hits kind hitType))
    (hinit : ∀ cpu ktime, f (Function.update (fun _ => zeroEvent) cpu (initEvent ktime)) = 0)
    (m : IoctlWatchdogMap n) (cpu : Fin n) (ktime : UInt64) (pid hitType p : UInt32) :
    (((addToCounter m cpu ktime pid hitType).lookup p).map f).getD 0 =
      ((m.lookup p).map f).getD 0 +
        if p = pid ∧ p ∈ addToCounter m cpu ktime pid hitType then
          UInt64.ofNat (hits kind hitType)
        else 0 := by
  simp only [← lookup_isSome_iff, lookup_addToCounter]
  by_cases hp : p = pid
  · subst hp
    rw [slotsFor]
    cases hm : m.lookup p with
    | some slots => simp [hadd]
    | none =>
      by_cases hroom : size m < ioctlWatchdogMaxEntries
      · have hfirst := hadd (Function.update (fun _ => zeroEvent) cpu (initEvent ktime)) cpu hitType
        rw [hinit, UInt64.zero_add] at hfirst
        simp only [hroom, if_true, Option.map_some, Option.getD_some, hfirst]
        simp
      · simp [hroom]
  · simp [hp]

def uprobeTotal (pid : UInt32) (m : IoctlWatchdogMap n) : UInt64 :=
  ((m.lookup pid).map uprobeSum).getD 0

def ioctlTotal (pid : UInt32) (m : IoctlWatchdogMap n) : UInt64 :=
  ((m.lookup pid).map ioctlSum).getD 0

theorem uprobeTotal_addToCounter (m : IoctlWatchdogMap n) (cpu : Fin n) (ktime : UInt64)
    (pid hitType p : UInt32) :
    uprobeTotal p (addToCounter m cpu ktime pid hitType) = uprobeTotal p m +
      if p = pid ∧ p ∈ addToCounter m cpu ktime pid hitType then
        UInt64.ofNat (hits uprobeHit hitType)
      else 0 :=
  sum_addToCounter uprobeSum_addHit (fun cpu ktime => (sums_init cpu ktime).2) m cpu ktime pid
    hitType p

theorem ioctlTotal_addToCounter (m : IoctlWatchdogMap n) (cpu : Fin n) (ktime : UInt64)
    (pid hitType p : UInt32) :
    ioctlTotal p (addToCounter m cpu ktime pid hitType) = ioctlTotal p m +
      if p = pid ∧ p ∈ addToCounter m cpu ktime pid hitType then
        UInt64.ofNat (hits ioctlHit hitType)
      else 0 :=
  sum_addToCounter ioctlSum_addHit (fun cpu ktime => (sums_init cpu ktime).1) m cpu ktime pid
    hitType p

theorem mem_addToCounter_self (m : IoctlWatchdogMap n) (cpu : Fin n) (ktime : UInt64)
    (pid hitType : UInt32) : pid ∈ addToCounter m cpu ktime pid hitType ↔
      pid ∈ m ∨ size m < ioctlWatchdogMaxEntries := by
  rw [← lookup_isSome_iff, ← lookup_isSome_iff, lookup_addToCounter, if_pos rfl, slotsFor]
  cases m.lookup pid with
  | some s => simp
  | none => by_cases hroom : size m < ioctlWatchdogMaxEntries <;> simp [hroom]

theorem lookup_handleProcessExit (m : IoctlWatchdogMap n) (pid p : UInt32) :
    (handleProcessExit m pid).lookup p = if p = pid then none else m.lookup p :=
  lookup_erase m pid p

end InfraSightGpu.WatchdogMap
