import InfraSightGpu.Lib.Runs
import InfraSightGpu.Watchdog

namespace InfraSightGpu.CounterRace

open InfraSightGpu.WatchdogMap InfraSightGpu.Watchdog
open InfraSightGpu.Lib.Maps InfraSightGpu.Lib.Runs InfraSightGpu.Lib.Words

variable {n : Nat}

/-- Where an invocation of `add_to_counter` stands: before the first lookup,
the update, the second lookup, or the atomic add. -/
inductive Pc where
  | lookup | update | relookup | add
deriving DecidableEq

structure Invocation (n : Nat) where
  cpu : Fin n
  pid : UInt32
  hitType : UInt32
  pc : Pc
deriving DecidableEq

def Invocation.next (m : IoctlWatchdogMap n) (ktime : UInt64) (inv : Invocation n) :
    IoctlWatchdogMap n × Option (Invocation n) :=
  match inv.pc with
  | .lookup => (m, some { inv with pc := if inv.pid ∈ m then .add else .update })
  | .update =>
    (updatePerCpu m inv.cpu inv.pid (initEvent ktime), some { inv with pc := .relookup })
  | .relookup => (m, if inv.pid ∈ m then some { inv with pc := .add } else none)
  | .add =>
    match m.lookup inv.pid with
    | some slots => (storeHit m inv.cpu inv.pid inv.hitType slots, none)
    | none => (m, none)

structure Creation (n : Nat) where
  pid : UInt32
  cpu : Fin n
  ktime : UInt64
deriving DecidableEq

/-- The map and the invocations in progress, on any CPUs. The successful
updates so far are ghost state. -/
structure Race (n : Nat) where
  map : IoctlWatchdogMap n
  active : Multiset (Invocation n)
  created : List (Creation n)

def start (n : Nat) : Race n where
  map := ∅
  active := 0
  created := []

inductive Action (n : Nat) where
  | call (cpu : Fin n) (pid hitType : UInt32)
  | advance (inv : Invocation n) (ktime : UInt64)
deriving DecidableEq

def step (s : Race n) : Action n → Option (Race n)
  | .call cpu pid hitType => some { s with active := ⟨cpu, pid, hitType, .lookup⟩ ::ₘ s.active }
  | .advance inv ktime =>
    if inv ∈ s.active then
      let (m, rest) := inv.next s.map ktime
      some {
        map := m
        active := rest.toList + s.active.erase inv
        created := if inv.pid ∉ s.map ∧ inv.pid ∈ m then s.created ++ [⟨inv.pid, inv.cpu, ktime⟩]
          else s.created }
    else none

/-- The clock reads positive and an insertion finds room. -/
def Admissible (s : Race n) : Action n → Prop
  | .call _ _ _ => True
  | .advance inv ktime => 0 < ktime ∧
    (inv.pc = .update → inv.pid ∉ s.map → size s.map < ioctlWatchdogMaxEntries)

instance (s : Race n) (a : Action n) : Decidable (Admissible s a) := by
  cases a <;> unfold Admissible <;> infer_instance

def calls (pid hitType : UInt32) (acts : List (Action n)) : Nat :=
  acts.countP fun
    | .call _ p h => p = pid ∧ h = hitType
    | .advance _ _ => false

def inProgress (pid hitType : UInt32) (s : Race n) : Nat :=
  s.active.countP fun inv => inv.pid = pid ∧ inv.hitType = hitType

theorem calls_snoc_call (pid hitType : UInt32) (acts : List (Action n)) (cpu : Fin n)
    (p h : UInt32) :
    calls pid hitType (acts ++ [.call cpu p h]) =
      calls pid hitType acts + if p = pid ∧ h = hitType then 1 else 0 := by
  simp [calls, List.countP_append, List.countP_cons]

theorem calls_snoc_advance (pid hitType : UInt32) (acts : List (Action n)) (inv : Invocation n)
    (ktime : UInt64) :
    calls pid hitType (acts ++ [.advance inv ktime]) = calls pid hitType acts := by
  simp [calls, List.countP_append]

/-- What one step of an invocation does, when the entry it has seen is still
there and an insertion finds room. -/
inductive Outcome (m : IoctlWatchdogMap n) (ktime : UInt64) (inv : Invocation n)
    (m' : IoctlWatchdogMap n) (rest : Option (Invocation n)) : Prop where
  | moved (pc : Pc) (h : pc = .relookup ∨ pc = .add → inv.pid ∈ m) (hm : m' = m)
    (hrest : rest = some { inv with pc := pc })
  | inserted (habs : inv.pid ∉ m)
    (hm : m' = m.insert inv.pid (Function.update (fun _ => zeroEvent) inv.cpu (initEvent ktime)))
    (hrest : rest = some { inv with pc := .relookup })
  | added (slots : Slots n) (hlook : m.lookup inv.pid = some slots)
    (hm : m' = storeHit m inv.cpu inv.pid inv.hitType slots) (hrest : rest = none)

theorem next_outcome (m : IoctlWatchdogMap n) (ktime : UInt64) (inv : Invocation n)
    (hseen : inv.pc = .relookup ∨ inv.pc = .add → inv.pid ∈ m)
    (hroom : inv.pc = .update → inv.pid ∉ m → size m < ioctlWatchdogMaxEntries) :
    Outcome m ktime inv (inv.next m ktime).1 (inv.next m ktime).2 := by
  unfold Invocation.next
  cases hpc : inv.pc with
  | lookup =>
    refine .moved _ (fun h => ?_) rfl rfl
    by_contra habs
    simp [habs] at h
  | update =>
    by_cases hm : inv.pid ∈ m
    · exact .moved .relookup (fun _ => hm) (by simp [updatePerCpu, updateNoExist, hm]) rfl
    · exact .inserted hm (by simp [updatePerCpu, updateNoExist, hm, hroom hpc hm]) rfl
  | relookup =>
    have hm := hseen (.inl hpc)
    exact .moved .add (fun _ => hm) rfl (if_pos hm)
  | add =>
    obtain ⟨slots, hlook⟩ := Finmap.mem_iff.mp (hseen (.inr hpc))
    refine .added slots hlook ?_ ?_ <;> simp only [hlook]

def Invocation.alone (ktime : UInt64) : Nat → IoctlWatchdogMap n × Option (Invocation n) →
    IoctlWatchdogMap n × Option (Invocation n)
  | steps + 1, (m, some inv) => Invocation.alone ktime steps (inv.next m ktime)
  | _, r => r

/-- Four steps complete an invocation, and do what the sequential function does. -/
theorem alone_eq_addToCounter (m : IoctlWatchdogMap n) (cpu : Fin n) (ktime : UInt64)
    (pid hitType : UInt32) :
    Invocation.alone ktime 4 (m, some ⟨cpu, pid, hitType, .lookup⟩) =
      (addToCounter m cpu ktime pid hitType, none) := by
  by_cases hm : pid ∈ m
  · obtain ⟨slots, hlook⟩ := Finmap.mem_iff.mp hm
    simp [Invocation.alone, Invocation.next, addToCounter, getOrInitIoctl, hm, hlook]
  · have hnone : m.lookup pid = none := Finmap.lookup_eq_none.mpr hm
    cases hnew : (updatePerCpu m cpu pid (initEvent ktime)).lookup pid with
    | none =>
      have hmem : pid ∉ updatePerCpu m cpu pid (initEvent ktime) := Finmap.lookup_eq_none.mp hnew
      simp [Invocation.alone, Invocation.next, addToCounter, getOrInitIoctl, hm, hnone, hnew, hmem]
    | some slots =>
      have hmem : pid ∈ updatePerCpu m cpu pid (initEvent ktime) :=
        Finmap.mem_iff.mpr ⟨slots, hnew⟩
      simp [Invocation.alone, Invocation.next, addToCounter, getOrInitIoctl, hm, hnone, hnew, hmem]

/-- An entry counts the invocations that are no longer in progress, and its
time is that of the one update that created it. -/
structure Accounts (acts : List (Action n)) (s : Race n) (pid : UInt32) (slots : Slots n) :
    Prop where
  ioctl : ioctlSum slots + UInt64.ofNat (inProgress pid ioctlHit s) =
    UInt64.ofNat (calls pid ioctlHit acts)
  uprobe : uprobeSum slots + UInt64.ofNat (inProgress pid uprobeHit s) =
    UInt64.ofNat (calls pid uprobeHit acts)
  created : ∃ c : Creation n, s.created.filter (fun c => c.pid = pid) = [c] ∧ 0 < c.ktime ∧
    ∀ i, (slots i).firstSeenTime = if i = c.cpu then c.ktime else 0

structure Inv (acts : List (Action n)) (s : Race n) : Prop where
  seen : ∀ inv ∈ s.active, inv.pc = .relookup ∨ inv.pc = .add → inv.pid ∈ s.map
  absent : ∀ pid, pid ∉ s.map → s.created.filter (fun c => c.pid = pid) = [] ∧
    ∀ hitType, inProgress pid hitType s = calls pid hitType acts
  entry : ∀ pid slots, s.map.lookup pid = some slots → Accounts acts s pid slots

theorem Accounts.frame {acts acts' : List (Action n)} {s u : Race n} {pid : UInt32}
    {slots : Slots n} (h : Accounts acts s pid slots)
    (hcreated : u.created.filter (fun c => c.pid = pid) = s.created.filter (fun c => c.pid = pid))
    (hcount : ∀ k, ∃ d, inProgress pid k u = inProgress pid k s + d ∧
      calls pid k acts' = calls pid k acts + d) : Accounts acts' u pid slots := by
  refine ⟨?_, ?_, hcreated ▸ h.created⟩
  · obtain ⟨d, hp, hc⟩ := hcount ioctlHit
    rw [hp, hc, UInt64.ofNat_add, UInt64.ofNat_add, ← UInt64.add_assoc, h.ioctl]
  · obtain ⟨d, hp, hc⟩ := hcount uprobeHit
    rw [hp, hc, UInt64.ofNat_add, UInt64.ofNat_add, ← UInt64.add_assoc, h.uprobe]

theorem inv_call {acts : List (Action n)} {s u : Race n} (hi : Inv acts s) (cpu : Fin n)
    (p h : UInt32) (hs : step s (.call cpu p h) = some u) :
    Inv (acts ++ [.call cpu p h]) u := by
  cases hs
  have hcount : ∀ pid k, inProgress pid k
      { s with active := (⟨cpu, p, h, .lookup⟩ : Invocation n) ::ₘ s.active } =
        inProgress pid k s + if p = pid ∧ h = k then 1 else 0 := by
    intro pid k
    simp [inProgress, Multiset.countP_cons]
  constructor
  · intro inv hinv hpc
    obtain rfl | hinv := Multiset.mem_cons.mp hinv
    · obtain hpc | hpc := hpc <;> cases hpc
    · exact hi.seen inv hinv hpc
  · intro pid habs
    refine ⟨(hi.absent pid habs).1, fun k => ?_⟩
    rw [hcount, calls_snoc_call, (hi.absent pid habs).2 k]
  · intro pid slots hlook
    exact (hi.entry pid slots hlook).frame rfl fun k =>
      ⟨_, hcount pid k, calls_snoc_call pid k acts cpu p h⟩

theorem inProgress_erase {s : Race n} {inv : Invocation n} (hinv : inv ∈ s.active)
    (pid k : UInt32) :
    inProgress pid k s =
      (s.active.erase inv).countP (fun inv => inv.pid = pid ∧ inv.hitType = k) +
        if inv.pid = pid ∧ inv.hitType = k then 1 else 0 := by
  rw [← Multiset.countP_cons, Multiset.cons_erase hinv, inProgress]

theorem inProgress_replace {s : Race n} {inv : Invocation n} (hinv : inv ∈ s.active) (pc : Pc)
    (pid k : UInt32) :
    ({ inv with pc := pc } ::ₘ s.active.erase inv).countP
      (fun inv => inv.pid = pid ∧ inv.hitType = k) = inProgress pid k s := by
  rw [inProgress_erase hinv pid k, Multiset.countP_cons]

theorem seen_erase {acts : List (Action n)} {s : Race n} (hi : Inv acts s) {inv i : Invocation n}
    (h : i ∈ s.active.erase inv) (hpc : i.pc = .relookup ∨ i.pc = .add) : i.pid ∈ s.map :=
  hi.seen i (Multiset.mem_of_mem_erase h) hpc

theorem inv_moved {acts : List (Action n)} {s : Race n} (hi : Inv acts s) {inv : Invocation n}
    (hinv : inv ∈ s.active) (ktime : UInt64) (pc : Pc)
    (hpc : pc = .relookup ∨ pc = .add → inv.pid ∈ s.map) :
    Inv (acts ++ [.advance inv ktime])
      { s with active := { inv with pc := pc } ::ₘ s.active.erase inv } := by
  have hcount : ∀ pid k, inProgress pid k
      { s with active := { inv with pc := pc } ::ₘ s.active.erase inv } = inProgress pid k s :=
    inProgress_replace hinv pc
  constructor
  · intro i hmem hipc
    obtain rfl | hmem := Multiset.mem_cons.mp hmem
    · exact hpc hipc
    · exact seen_erase hi hmem hipc
  · intro pid habs
    refine ⟨(hi.absent pid habs).1, fun k => ?_⟩
    rw [hcount, calls_snoc_advance, (hi.absent pid habs).2 k]
  · intro pid slots hlook
    exact (hi.entry pid slots hlook).frame rfl fun k =>
      ⟨0, hcount pid k, calls_snoc_advance pid k acts inv ktime⟩

theorem inv_inserted {acts : List (Action n)} {s : Race n} (hi : Inv acts s)
    {inv : Invocation n} (hinv : inv ∈ s.active) {ktime : UInt64} (hk : 0 < ktime)
    (habs : inv.pid ∉ s.map) :
    Inv (acts ++ [.advance inv ktime])
      { map := s.map.insert inv.pid
          (Function.update (fun _ => zeroEvent) inv.cpu (initEvent ktime))
        active := { inv with pc := .relookup } ::ₘ s.active.erase inv
        created := s.created ++ [⟨inv.pid, inv.cpu, ktime⟩] } := by
  have hcount : ∀ pid k, inProgress pid k
      { map := s.map.insert inv.pid
          (Function.update (fun _ => zeroEvent) inv.cpu (initEvent ktime))
        active := { inv with pc := .relookup } ::ₘ s.active.erase inv
        created := s.created ++ [⟨inv.pid, inv.cpu, ktime⟩] } = inProgress pid k s :=
    inProgress_replace hinv .relookup
  constructor
  · intro i hmem hipc
    rw [Finmap.mem_insert]
    obtain rfl | hmem := Multiset.mem_cons.mp hmem
    · exact .inl rfl
    · exact .inr (seen_erase hi hmem hipc)
  · intro pid hpid
    obtain ⟨hne, hold⟩ := not_or.mp (mt Finmap.mem_insert.mpr hpid)
    refine ⟨?_, fun k => ?_⟩
    · rw [List.filter_append, (hi.absent pid hold).1]
      simp [Ne.symm hne]
    · rw [hcount, calls_snoc_advance, (hi.absent pid hold).2 k]
  · intro pid slots hlook
    rw [lookup_insert] at hlook
    by_cases hpid : pid = inv.pid
    · subst hpid
      rw [if_pos rfl] at hlook
      cases hlook
      obtain ⟨hnone, hall⟩ := hi.absent inv.pid habs
      obtain ⟨hio, hup⟩ := sums_init inv.cpu ktime
      refine ⟨?_, ?_, ⟨⟨inv.pid, inv.cpu, ktime⟩, ?_, hk, fun i => ?_⟩⟩
      · rw [hio, hcount, calls_snoc_advance, hall, UInt64.zero_add]
      · rw [hup, hcount, calls_snoc_advance, hall, UInt64.zero_add]
      · rw [List.filter_append, hnone]
        simp
      · by_cases hcpu : i = inv.cpu
        · subst hcpu; simp [initEvent]
        · simp [hcpu, zeroEvent]
    · rw [if_neg hpid] at hlook
      refine (hi.entry pid slots hlook).frame ?_ fun k =>
        ⟨0, hcount pid k, calls_snoc_advance pid k acts inv ktime⟩
      rw [List.filter_append]
      simp [Ne.symm hpid]

/-- The atomic add moves one invocation from those in progress to the count. -/
theorem inv_added {acts : List (Action n)} {s : Race n} (hi : Inv acts s) {inv : Invocation n}
    (hinv : inv ∈ s.active) (ktime : UInt64) {old : Slots n}
    (hold : s.map.lookup inv.pid = some old) :
    Inv (acts ++ [.advance inv ktime])
      { s with
        map := storeHit s.map inv.cpu inv.pid inv.hitType old
        active := s.active.erase inv } := by
  have hmem : ∀ pid, pid ∈ storeHit s.map inv.cpu inv.pid inv.hitType old ↔ pid ∈ s.map :=
    mem_storeHit hold inv.cpu inv.hitType
  have hcount : ∀ pid k, inProgress pid k s =
      (s.active.erase inv).countP (fun inv => inv.pid = pid ∧ inv.hitType = k) +
        if inv.pid = pid ∧ inv.hitType = k then 1 else 0 := inProgress_erase hinv
  constructor
  · intro i h hpc
    exact (hmem i.pid).mpr (seen_erase hi h hpc)
  · intro pid habs
    have hpid := mt (hmem pid).mpr habs
    have hne : inv.pid ≠ pid := fun h => hpid (h ▸ Finmap.mem_iff.mpr ⟨old, hold⟩)
    refine ⟨(hi.absent pid hpid).1, fun k => ?_⟩
    rw [calls_snoc_advance, ← (hi.absent pid hpid).2 k, hcount]
    simp [inProgress, hne]
  · intro pid slots hlook
    rw [storeHit, lookup_insert] at hlook
    by_cases hpid : pid = inv.pid
    · subst hpid
      rw [if_pos rfl] at hlook
      cases hlook
      obtain ⟨hio, hup, c, hc, hpos, htimes⟩ := hi.entry inv.pid old hold
      have hown : ∀ k, UInt64.ofNat (hits k inv.hitType) + UInt64.ofNat (inProgress inv.pid k
          { s with
            map := storeHit s.map inv.cpu inv.pid inv.hitType old
            active := s.active.erase inv }) = UInt64.ofNat (inProgress inv.pid k s) := by
        intro k
        rw [hcount, ← UInt64.ofNat_add, Nat.add_comm]
        simp [inProgress, hits]
      refine ⟨?_, ?_, c, hc, hpos, fun i => ?_⟩
      · rw [ioctlSum_addHit, calls_snoc_advance, UInt64.add_assoc, hown, hio]
      · rw [uprobeSum_addHit, calls_snoc_advance, UInt64.add_assoc, hown, hup]
      · rw [firstSeenTime_addHit, htimes]
    · rw [if_neg hpid] at hlook
      refine (hi.entry pid slots hlook).frame rfl fun k =>
        ⟨0, ?_, calls_snoc_advance pid k acts inv ktime⟩
      rw [hcount]
      simp [inProgress, Ne.symm hpid]

theorem inv_advance {acts : List (Action n)} {s u : Race n} (hi : Inv acts s)
    (inv : Invocation n) (ktime : UInt64) (ha : Admissible s (.advance inv ktime))
    (hs : step s (.advance inv ktime) = some u) : Inv (acts ++ [.advance inv ktime]) u := by
  simp only [step] at hs
  split at hs
  case isFalse => cases hs
  case isTrue hinv =>
    obtain rfl := Option.some.inj hs
    cases next_outcome s.map ktime inv (hi.seen inv hinv) ha.2 with
    | moved pc hpc hm hrest =>
      rw [hm, hrest]
      simpa using inv_moved hi hinv ktime pc hpc
    | inserted habs hm hrest =>
      rw [hm, hrest]
      simpa [habs] using inv_inserted hi hinv ha.1 habs
    | added slots hlook hm hrest =>
      have hmem : inv.pid ∈ s.map := Finmap.mem_iff.mpr ⟨slots, hlook⟩
      rw [hm, hrest]
      simpa [hmem] using inv_added hi hinv ktime hlook

theorem inv_run {acts : List (Action n)} {s : Race n} (h : exec step (start n) acts = some s)
    (ha : Along step Admissible (start n) acts) : Inv acts s := by
  induction acts using List.reverseRecOn generalizing s with
  | nil =>
    cases h
    refine ⟨fun inv hinv => ?_, fun pid _ => ⟨rfl, fun k => rfl⟩, fun pid slots hlook => ?_⟩
    · simp [start] at hinv
    · simp [start] at hlook
  | append_singleton acts a ih =>
    obtain ⟨t, ht, hs⟩ := exec_snoc_eq_some.mp h
    obtain ⟨hbefore, hlast⟩ := along_snoc.mp ha
    cases a with
    | call cpu pid hitType => exact inv_call (ih ht hbefore) cpu pid hitType hs
    | advance inv ktime => exact inv_advance (ih ht hbefore) inv ktime (hlast t ht) hs

/-- Once no invocation for a process is in progress, its entry counts them all,
and a poll sees the time of the one update that created the entry. -/
theorem idle_counts_all {acts : List (Action n)} {s : Race n}
    (h : exec step (start n) acts = some s) (ha : Along step Admissible (start n) acts)
    (pid : UInt32) (hidle : ∀ inv ∈ s.active, inv.pid ≠ pid)
    (hcalled : ∃ cpu hitType, Action.call cpu pid hitType ∈ acts) :
    ∃ slots c, s.map.lookup pid = some slots ∧ s.created.filter (fun c => c.pid = pid) = [c] ∧
      ioctlSum slots = UInt64.ofNat (calls pid ioctlHit acts) ∧
      uprobeSum slots = UInt64.ofNat (calls pid uprobeHit acts) ∧
      (∀ i, (slots i).firstSeenTime ≠ 0 ↔ i = c.cpu) ∧
      (slots c.cpu).firstSeenTime = c.ktime ∧ (sumCpus (List.ofFn slots)).firstSeen = c.ktime := by
  have hi := inv_run h ha
  have hzero : ∀ k, inProgress pid k s = 0 := fun k =>
    Multiset.countP_eq_zero.mpr fun inv hinv hp => hidle inv hinv hp.1
  have hmem : pid ∈ s.map := by
    by_contra habs
    obtain ⟨cpu, k, hcall⟩ := hcalled
    have hpos : 0 < calls pid k acts := List.countP_pos_iff.mpr ⟨_, hcall, by simp⟩
    rw [← (hi.absent pid habs).2 k, hzero] at hpos
    exact absurd hpos (lt_irrefl 0)
  obtain ⟨slots, hlook⟩ := Finmap.mem_iff.mp hmem
  obtain ⟨hio, hup, c, hc, hpos, htimes⟩ := hi.entry pid slots hlook
  rw [hzero] at hio hup
  refine ⟨slots, c, hlook, hc, by simpa using hio, by simpa using hup, fun i => ?_, ?_, ?_⟩
  · rw [htimes i]
    by_cases hcpu : i = c.cpu
    · simpa [hcpu] using UInt64.pos_iff_ne_zero.mp hpos
    · simp [hcpu]
  · rw [htimes, if_pos rfl]
  · rw [sumCpus_eq]
    exact minFirstSeen_single htimes

def racingRun : List (Action 2) :=
  let uprobe : Pc → Invocation 2 := Invocation.mk bootCpu 7 uprobeHit
  let ioctl : Pc → Invocation 2 := Invocation.mk (Fin.last 1) 7 ioctlHit
  [.call bootCpu 7 uprobeHit, .call (Fin.last 1) 7 ioctlHit, .advance (uprobe .lookup) 1,
    .advance (ioctl .lookup) 1, .advance (ioctl .update) 5, .advance (ioctl .relookup) 1,
    .advance (ioctl .add) 1, .advance (uprobe .update) 4, .call bootCpu 9 uprobeHit,
    .advance (uprobe .relookup) 1, .advance (uprobe .add) 1]

theorem idle_counts_all_racingRun : ∃ s, exec step (start 2) racingRun = some s ∧
    ∃ slots c, s.map.lookup 7 = some slots ∧ s.created.filter (fun c => c.pid = 7) = [c] ∧
      ioctlSum slots = UInt64.ofNat (calls 7 ioctlHit racingRun) ∧
      uprobeSum slots = UInt64.ofNat (calls 7 uprobeHit racingRun) ∧
      (∀ i, (slots i).firstSeenTime ≠ 0 ↔ i = c.cpu) ∧
      (slots c.cpu).firstSeenTime = c.ktime ∧ (sumCpus (List.ofFn slots)).firstSeen = c.ktime := by
  obtain ⟨s, hs, hidle⟩ : ∃ s, exec step (start 2) racingRun = some s ∧
      ∀ inv ∈ s.active, inv.pid ≠ 7 := by
    decide +kernel
  have ha : Along step Admissible (start 2) racingRun := by decide +kernel
  exact ⟨s, hs, idle_counts_all hs ha 7 hidle ⟨bootCpu, uprobeHit, by decide⟩⟩

end InfraSightGpu.CounterRace
