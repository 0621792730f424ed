import InfraSightGpu.WatchdogMap
import InfraSightGpu.Events

namespace InfraSightGpu.Watchdog

open InfraSightGpu.Events InfraSightGpu.WatchdogMap InfraSightGpu.Lib.Maps InfraSightGpu.Lib.Words

def warmupSeconds : UInt64 := 3
def ioctlMinThreshold : UInt64 := 50

structure WatchdogAlert where
  pid : UInt32
  comm : GoString
deriving DecidableEq

structure PidSnapshot where
  ioctlCount : UInt64
  uprobeCount : UInt64
  firstSeenNs : UInt64
deriving DecidableEq

structure WatchdogCollector where
  snapshots : Map UInt32 PidSnapshot

def newWatchdogCollector : WatchdogCollector where
  snapshots := ∅

structure CpuTotals where
  totalIoctl : UInt64
  totalUprobe : UInt64
  firstSeen : UInt64
deriving DecidableEq

def earlier (firstSeen time : UInt64) : UInt64 :=
  if time > 0 then
    if firstSeen = 0 ∨ time < firstSeen then time else firstSeen
  else firstSeen

def addCpu (acc : CpuTotals) (v : IoctlWatchdogEvent) : CpuTotals where
  totalIoctl := acc.totalIoctl + v.ioctlHitCount
  totalUprobe := acc.totalUprobe + v.uprobeHitCount
  firstSeen := earlier acc.firstSeen v.firstSeenTime

def sumCpus (perCpuValues : List IoctlWatchdogEvent) : CpuTotals :=
  perCpuValues.foldl addCpu ⟨0, 0, 0⟩

def pollEntry (nowNs : UInt64) (st : WatchdogCollector × List WatchdogAlert)
    (entry : UInt32 × List IoctlWatchdogEvent) : WatchdogCollector × List WatchdogAlert :=
  let (w, alerts) := st
  let (pid, perCpuValues) := entry
  let tot := sumCpus perCpuValues
  -- skip if below minimum activity
  if tot.totalIoctl < ioctlMinThreshold then st
  else
    -- warmup check
    let ageNs := nowNs - tot.firstSeen
    if ageNs < warmupSeconds * 1000000000 then st
    else
      let snapshot : PidSnapshot := ⟨tot.totalIoctl, tot.totalUprobe, tot.firstSeen⟩
      let w' : WatchdogCollector := { snapshots := w.snapshots.insert pid snapshot }
      match w.snapshots.lookup pid with
      | none => (w', alerts)
      | some prev =>
        let deltaIoctl := tot.totalIoctl - prev.ioctlCount
        let deltaUprobe := tot.totalUprobe - prev.uprobeCount
        -- skip idle windows
        if deltaIoctl < ioctlMinThreshold then (w', alerts)
        -- the detection condition
        else if deltaUprobe = 0 then (w', alerts ++ [{ pid := pid, comm := [] }])
        else (w', alerts)

/-- `entries` are the entries of the map in the order of the iteration; the
second component is what is sent to the alert channel. -/
def poll (w : WatchdogCollector) (nowNs : UInt64)
    (entries : List (UInt32 × List IoctlWatchdogEvent)) : WatchdogCollector × List WatchdogAlert :=
  entries.foldl (pollEntry nowNs) (w, [])

def minFirstSeen (vs : List IoctlWatchdogEvent) : UInt64 :=
  ((vs.map IoctlWatchdogEvent.firstSeenTime).filter (· ≠ 0)).min?.getD 0

theorem earlier_eq_min {acc t : UInt64} (hacc : acc ≠ 0) (ht : t ≠ 0) :
    earlier acc t = min acc t := by
  rw [Std.min_eq_if, earlier, if_pos (UInt64.pos_iff_ne_zero.mpr ht)]
  by_cases h : t < acc
  · simp [h, UInt64.not_le.mpr h]
  · simp [h, hacc, UInt64.not_lt.mp h]

theorem foldl_earlier (acc : UInt64) (ts : List UInt64) :
    ts.foldl earlier acc = ((acc :: ts).filter (· ≠ 0)).min?.getD 0 := by
  induction ts generalizing acc with
  | nil => by_cases h : acc = 0 <;> simp [h]
  | cons t ts ih =>
    rw [List.foldl_cons, ih]
    by_cases ht : t = 0
    · have hskip : earlier acc t = acc := by simp [earlier, ht]
      rw [hskip, ht, List.filter_cons, List.filter_cons, List.filter_cons_of_neg (by simp)]
    · by_cases hacc : acc = 0
      · simp [earlier, UInt64.pos_iff_ne_zero.mpr ht, hacc]
      · have hne : min acc t ≠ 0 := by
          rw [Std.min_eq_if]
          split <;> assumption
        rw [earlier_eq_min hacc ht, List.filter_cons_of_pos (by simpa using hne),
          List.filter_cons_of_pos (by simpa using hacc),
          List.filter_cons_of_pos (by simpa using ht), List.min?_cons', List.min?_cons',
          List.foldl_cons]

theorem sumCpus_eq (vs : List IoctlWatchdogEvent) :
    sumCpus vs = ⟨sumBy IoctlWatchdogEvent.ioctlHitCount vs,
      sumBy IoctlWatchdogEvent.uprobeHitCount vs, minFirstSeen vs⟩ := by
  have hsplit : ∀ acc : CpuTotals, vs.foldl addCpu acc =
      ⟨vs.foldl (fun a v => a + v.ioctlHitCount) acc.totalIoctl,
        vs.foldl (fun a v => a + v.uprobeHitCount) acc.totalUprobe,
        (vs.map IoctlWatchdogEvent.firstSeenTime).foldl earlier acc.firstSeen⟩ := by
    induction vs with
    | nil => exact fun acc => rfl
    | cons v vs ih => exact fun acc => ih (addCpu acc v)
  rw [sumCpus, hsplit, foldl_earlier]
  simp [sumBy, minFirstSeen]

theorem minFirstSeen_single {n : Nat} {slots : Slots n} {cpu : Fin n} {t : UInt64}
    (h : ∀ i, (slots i).firstSeenTime = if i = cpu then t else 0) :
    minFirstSeen (List.ofFn slots) = t := by
  have hmem : ∀ b, b ∈ ((List.ofFn slots).map IoctlWatchdogEvent.firstSeenTime).filter (· ≠ 0) ↔
      b = t ∧ t ≠ 0 := by
    intro b
    simp only [List.mem_filter, List.mem_map, List.mem_ofFn, decide_eq_true_iff]
    constructor
    · rintro ⟨⟨-, ⟨i, rfl⟩, rfl⟩, hb⟩
      rw [h] at hb ⊢
      by_cases hi : i = cpu
      · simpa [hi] using hb
      · simp [hi] at hb
    · rintro ⟨rfl, ht⟩
      exact ⟨⟨slots cpu, ⟨cpu, rfl⟩, by simp [h]⟩, ht⟩
  by_cases ht : t = 0
  · have hnil := List.eq_nil_iff_forall_not_mem.mpr fun b hb => ((hmem b).mp hb).2 ht
    rw [minFirstSeen, hnil, ht]
    rfl
  · have hmin := List.min?_eq_some_iff.mpr ⟨(hmem t).mpr ⟨rfl, ht⟩,
      fun b hb => ((hmem b).mp hb).1 ▸ UInt64.le_refl t⟩
    rw [minFirstSeen, hmin, Option.getD_some]

def qualify (nowNs : UInt64) (vs : List IoctlWatchdogEvent) : Option PidSnapshot :=
  let ioctl := sumBy IoctlWatchdogEvent.ioctlHitCount vs
  let firstSeen := minFirstSeen vs
  if ioctlMinThreshold ≤ ioctl ∧ 3000000000 ≤ nowNs - firstSeen then
    some ⟨ioctl, sumBy IoctlWatchdogEvent.uprobeHitCount vs, firstSeen⟩
  else none

def Suspicious (prev cur : PidSnapshot) : Prop :=
  ioctlMinThreshold ≤ cur.ioctlCount - prev.ioctlCount ∧ cur.uprobeCount = prev.uprobeCount

instance (prev cur : PidSnapshot) : Decidable (Suspicious prev cur) :=
  inferInstanceAs (Decidable (_ ∧ _))

def alertsFor (pid : UInt32) (prev : Option PidSnapshot) (cur : PidSnapshot) :
    List WatchdogAlert :=
  match prev with
  | none => []
  | some prev => if Suspicious prev cur then [{ pid := pid, comm := [] }] else []

theorem sub_eq_zero_iff (a b : UInt64) : a - b = 0 ↔ a = b := by
  constructor
  · intro h
    have hab : a - b + b = 0 + b := by rw [h]
    simpa using hab
  · rintro rfl
    exact UInt64.sub_self a

theorem pollEntry_eq (nowNs : UInt64) (w : WatchdogCollector) (alerts : List WatchdogAlert)
    (pid : UInt32) (vs : List IoctlWatchdogEvent) :
    pollEntry nowNs (w, alerts) (pid, vs) =
      match qualify nowNs vs with
      | none => (w, alerts)
      | some cur => ({ snapshots := w.snapshots.insert pid cur },
          alerts ++ alertsFor pid (w.snapshots.lookup pid) cur) := by
  have hwarm : warmupSeconds * 1000000000 = 3000000000 := rfl
  simp only [pollEntry, sumCpus_eq, qualify, hwarm, ← UInt64.not_lt]
  by_cases h1 : sumBy IoctlWatchdogEvent.ioctlHitCount vs < ioctlMinThreshold
  · simp [h1]
  · by_cases h2 : nowNs - minFirstSeen vs < 3000000000
    · simp [h1, h2]
    · simp only [h1, h2, if_false, not_false_eq_true, and_self, if_true]
      cases w.snapshots.lookup pid with
      | none => simp [alertsFor]
      | some prev =>
        simp only [alertsFor, Suspicious, ← UInt64.not_lt, sub_eq_zero_iff]
        split_ifs <;> simp_all

end InfraSightGpu.Watchdog
