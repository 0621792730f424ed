import InfraSightGpu.PollHistory
import InfraSightGpu.Lib.Runs

namespace InfraSightGpu.AlertSoundness

open InfraSightGpu.WatchdogMap InfraSightGpu.Watchdog InfraSightGpu.PollHistory
open InfraSightGpu.Lib.Maps InfraSightGpu.Lib.Runs

variable {n : Nat}

inductive Action (n : Nat) where
  | hit (cpu : Fin n) (ktime : UInt64) (pid hitType : UInt32)
  | exit (pid : UInt32)
  | poll (nowNs : UInt64) (order : List UInt32)
deriving DecidableEq

structure Tally where
  ioctl : Nat
  uprobe : Nat
deriving DecidableEq

def Tally.count (t : Tally) (hitType : UInt32) : Tally where
  ioctl := t.ioctl + hits ioctlHit hitType
  uprobe := t.uprobe + hits uprobeHit hitType

/-- The last snapshot of a process: of its current entry or of an earlier one,
with the hits that this entry had received by then. -/
inductive LastSnapshot where
  | none
  | own (t : Tally)
  | earlier (t : Tally)
deriving DecidableEq

def LastSnapshot.tally : LastSnapshot → Option Tally
  | .none => .none
  | .own t => some t
  | .earlier t => some t

/-- What has happened to a PID. The hits are those that the current entry has
received since the later of its creation and the last snapshot of the PID. -/
structure History where
  last : LastSnapshot
  since : Tally
deriving DecidableEq

def History.received (h : History) : Tally :=
  match h.last with
  | .own t => ⟨t.ioctl + h.since.ioctl, t.uprobe + h.since.uprobe⟩
  | _ => h.since

def History.created (h : History) : History where
  last :=
    match h.last with
    | .own t => .earlier t
    | last => last
  since := ⟨0, 0⟩

def History.counted (h : History) (hitType : UInt32) : History :=
  { h with since := h.since.count hitType }

def History.polled (h : History) : History where
  last := .own h.received
  since := ⟨0, 0⟩

/-- The kernel map and the collector. The histories are ghost state. -/
structure State (n : Nat) where
  map : IoctlWatchdogMap n
  watchdog : WatchdogCollector
  history : UInt32 → History

def start (n : Nat) : State n where
  map := ∅
  watchdog := newWatchdogCollector
  history := fun _ => ⟨.none, ⟨0, 0⟩⟩

def readMap (m : IoctlWatchdogMap n) (nowNs : UInt64) (order : List UInt32)
    (h : Enumerates order m) : Reading where
  nowNs := nowNs
  keys := order
  values := fun pid => ((m.lookup pid).map List.ofFn).getD []
  distinct := h.nodup

def historyHit (s : State n) (m' : IoctlWatchdogMap n) (pid hitType : UInt32) : History :=
  if pid ∈ s.map then (s.history pid).counted hitType
  else if pid ∈ m' then (s.history pid).created.counted hitType
  else s.history pid

def historyPoll (s : State n) (q : Reading) (pid : UInt32) : History :=
  if (qualifying pid q).isSome then (s.history pid).polled else s.history pid

def step (s : State n) : Action n → Option (State n)
  | .hit cpu ktime pid hitType =>
    let m := addToCounter s.map cpu ktime pid hitType
    some { s with map := m, history := Function.update s.history pid (historyHit s m pid hitType) }
  | .exit pid => some { s with map := handleProcessExit s.map pid }
  | .poll nowNs order =>
    if h : Enumerates order s.map then
      let q := readMap s.map nowNs order h
      some { s with
        watchdog := (poll s.watchdog q.nowNs q.entries).1
        history := historyPoll s q }
    else none

def alerted (s : State n) : Action n → List UInt32
  | .hit _ _ _ _ => []
  | .exit _ => []
  | .poll nowNs order =>
    if h : Enumerates order s.map then
      let q := readMap s.map nowNs order h
      (poll s.watchdog q.nowNs q.entries).2.map WatchdogAlert.pid
    else []

/-- Every alerted process was active on the device and never in libcuda. -/
def Sound (s : State n) (a : Action n) : Prop :=
  ∀ pid ∈ alerted s a, 50 ≤ (s.history pid).since.ioctl ∧ (s.history pid).since.uprobe = 0

instance (s : State n) (a : Action n) : Decidable (Sound s a) :=
  List.decidableBAll _ (alerted s a)

section Conditions

def TakenUp (s : State n) (nowNs : UInt64) (pid : UInt32) : Prop :=
  ∃ slots, s.map.lookup pid = some slots ∧ 50 ≤ (s.history pid).received.ioctl % 2 ^ 64 ∧
    3000000000 ≤ nowNs - minFirstSeen (List.ofFn slots)

/-- The first kind of history: the PID was reused after a snapshot of an entry
with libcuda calls, and its new entry has received as many of them. The ioctls
are not those of the earlier entry and at most 49 more. -/
def LooksLikeEarlier (h : History) : Prop :=
  ∃ t, h.last = .earlier t ∧ t.uprobe % 2 ^ 64 ≠ 0 ∧
    h.since.uprobe % 2 ^ 64 = t.uprobe % 2 ^ 64 ∧
    ∀ d < 50, h.since.ioctl % 2 ^ 64 ≠ (t.ioctl + d) % 2 ^ 64

/-- The second: an entry has received so many libcuda calls that their counter
is back where it was at the snapshot. -/
def FullCircle (h : History) : Prop :=
  2 ^ 64 ≤ h.since.uprobe ∧ 2 ^ 64 ∣ h.since.uprobe ∧
    match h.last with
    | .none => False
    | .own _ => 50 ≤ h.since.ioctl % 2 ^ 64
    | .earlier t => 2 ^ 64 ∣ t.uprobe ∧
        ∀ d < 50, h.since.ioctl % 2 ^ 64 ≠ (t.ioctl + d) % 2 ^ 64

def Misled (s : State n) : Action n → Prop
  | .hit _ _ _ _ => False
  | .exit _ => False
  | .poll nowNs order => Enumerates order s.map ∧ ∃ pid, TakenUp s nowNs pid ∧
      (LooksLikeEarlier (s.history pid) ∨ FullCircle (s.history pid))

/-- A poll takes up an entry that is newer than the last snapshot of its PID. -/
def Reused (s : State n) : Action n → Prop
  | .hit _ _ _ _ => False
  | .exit _ => False
  | .poll nowNs _ => ∃ pid, TakenUp s nowNs pid ∧ ∃ t, (s.history pid).last = .earlier t

/-- A poll takes up an entry with 2^64 libcuda calls or more since its snapshot. -/
def Flooded (s : State n) : Action n → Prop
  | .hit _ _ _ _ => False
  | .exit _ => False
  | .poll nowNs _ => ∃ pid, TakenUp s nowNs pid ∧ 2 ^ 64 ≤ (s.history pid).since.uprobe

end Conditions

section Histories

def Tally.words (t : Tally) : UInt64 × UInt64 := (UInt64.ofNat t.ioctl, UInt64.ofNat t.uprobe)

def snapshotWords (p : PidSnapshot) : UInt64 × UInt64 := (p.ioctlCount, p.uprobeCount)

def sums (slots : Slots n) : UInt64 × UInt64 := (ioctlSum slots, uprobeSum slots)

@[simp] theorem received_created (h : History) : h.created.received = ⟨0, 0⟩ := by
  obtain ⟨last, since⟩ := h
  cases last <;> rfl

@[simp] theorem received_counted (h : History) (hitType : UInt32) :
    (h.counted hitType).received = h.received.count hitType := by
  obtain ⟨last, since⟩ := h
  cases last <;> simp [History.counted, History.received, Tally.count, Nat.add_assoc]

@[simp] theorem tally_created (h : History) : h.created.last.tally = h.last.tally := by
  obtain ⟨last, since⟩ := h
  cases last <;> rfl

theorem sums_addHit {slots : Slots n} {t : Tally} (h : sums slots = t.words) (cpu : Fin n)
    (hitType : UInt32) :
    sums (Function.update slots cpu (addHit hitType (slots cpu))) = (t.count hitType).words := by
  simp only [sums, Tally.words, Prod.mk.injEq] at h
  obtain ⟨hio, hup⟩ := h
  rw [sums, ioctlSum_addHit, uprobeSum_addHit, hio, hup, Tally.words, Tally.count,
    UInt64.ofNat_add, UInt64.ofNat_add]

end Histories

theorem qualifying_readMap {m : IoctlWatchdogMap n} {nowNs : UInt64} {order : List UInt32}
    (h : Enumerates order m) {pid : UInt32} {cur : PidSnapshot} :
    qualifying pid (readMap m nowNs order h) = some cur ↔ ∃ slots, m.lookup pid = some slots ∧
      ioctlMinThreshold ≤ ioctlSum slots ∧ 3000000000 ≤ nowNs - minFirstSeen (List.ofFn slots) ∧
      ⟨ioctlSum slots, uprobeSum slots, minFirstSeen (List.ofFn slots)⟩ = cur := by
  have hk : pid ∈ (readMap m nowNs order h).keys ↔ ∃ slots, m.lookup pid = some slots :=
    (h.mem_iff pid).trans Finmap.mem_iff
  rw [qualifying, Option.ite_none_right_eq_some, hk]
  constructor
  · rintro ⟨⟨slots, hs⟩, hq⟩
    simp only [readMap, hs, Option.map_some, Option.getD_some, qualify,
      Option.ite_none_right_eq_some, Option.some.injEq] at hq
    obtain ⟨⟨hthr, hwarm⟩, hcur⟩ := hq
    exact ⟨slots, hs, hthr, hwarm, hcur⟩
  · rintro ⟨slots, hs, hthr, hwarm, hcur⟩
    refine ⟨⟨slots, hs⟩, ?_⟩
    simp only [readMap, hs, Option.map_some, Option.getD_some, qualify,
      Option.ite_none_right_eq_some, Option.some.injEq]
    exact ⟨⟨hthr, hwarm⟩, hcur⟩

/-- The counters and the snapshots hold, in 64 bits, what the histories tell. -/
structure Inv (s : State n) : Prop where
  entries : ∀ pid slots, s.map.lookup pid = some slots →
    sums slots = (s.history pid).received.words
  snapshots : ∀ pid, (s.watchdog.snapshots.lookup pid).map snapshotWords =
    (s.history pid).last.tally.map Tally.words

theorem words_of_qualifying {s : State n} (hi : Inv s) {nowNs : UInt64} {order : List UInt32}
    (h : Enumerates order s.map) {pid : UInt32} {cur : PidSnapshot}
    (hq : qualifying pid (readMap s.map nowNs order h) = some cur) :
    snapshotWords cur = (s.history pid).received.words := by
  obtain ⟨slots, hslots, -, -, rfl⟩ := (qualifying_readMap h).mp hq
  exact hi.entries pid slots hslots

theorem inv_start : Inv (start n) := by
  constructor
  · intro pid slots hp
    simp [start] at hp
  · intro pid
    rfl

theorem inv_hit {s u : State n} (hi : Inv s) {cpu : Fin n} {ktime : UInt64} {pid hitType : UInt32}
    (hs : step s (.hit cpu ktime pid hitType) = some u) : Inv u := by
  cases hs
  constructor
  · intro p slots hp
    dsimp only at hp ⊢
    have hlook := lookup_addToCounter s.map cpu ktime pid hitType p
    rw [hlook] at hp
    by_cases hpid : p = pid
    · subst hpid
      rw [if_pos rfl] at hp hlook
      have hmem : p ∈ addToCounter s.map cpu ktime p hitType :=
        Finmap.mem_iff.mpr ⟨slots, hlook.trans hp⟩
      obtain ⟨old, hold, rfl⟩ := Option.map_eq_some_iff.mp hp
      rw [Function.update_self, historyHit]
      obtain hm | ⟨habs, -, rfl⟩ := slotsFor_eq_some.mp hold
      · rw [if_pos (Finmap.mem_iff.mpr ⟨old, hm⟩), received_counted]
        exact sums_addHit (hi.entries p old hm) cpu hitType
      · rw [if_neg habs, if_pos hmem, received_counted, received_created]
        apply sums_addHit
        obtain ⟨hio, hup⟩ := sums_init cpu ktime
        rw [sums, hio, hup]
        rfl
    · rw [if_neg hpid] at hp
      rw [Function.update_of_ne hpid]
      exact hi.entries p slots hp
  · intro p
    dsimp only
    rw [hi.snapshots p]
    by_cases hpid : p = pid
    · subst hpid
      rw [Function.update_self, historyHit]
      split_ifs <;> simp [History.counted]
    · rw [Function.update_of_ne hpid]

theorem inv_exit {s u : State n} (hi : Inv s) {pid : UInt32} (hs : step s (.exit pid) = some u) :
    Inv u := by
  cases hs
  constructor
  · intro p slots hp
    dsimp only at hp
    rw [lookup_handleProcessExit] at hp
    split at hp
    · cases hp
    · exact hi.entries p slots hp
  · exact hi.snapshots

theorem inv_poll {s u : State n} (hi : Inv s) {nowNs : UInt64} {order : List UInt32}
    (hs : step s (.poll nowNs order) = some u) : Inv u := by
  simp only [step] at hs
  split at hs
  · next h =>
    cases hs
    constructor
    · intro p slots hp
      have hsame : (historyPoll s (readMap s.map nowNs order h) p).received =
          (s.history p).received := by
        rw [historyPoll]
        split_ifs <;> rfl
      rw [hsame]
      exact hi.entries p slots hp
    · intro p
      dsimp only
      rw [lookup_poll s.watchdog (readMap s.map nowNs order h) p, historyPoll]
      cases hq : qualifying p (readMap s.map nowNs order h) with
      | none => simpa using hi.snapshots p
      | some cur => exact congrArg some (words_of_qualifying hi h hq)
  · cases hs

theorem inv_run {acts : List (Action n)} {s : State n} (h : exec step (start n) acts = some s) :
    Inv s := by
  refine exec_induction (I := fun _ s => Inv s) inv_start ?_ h
  intro as t a u _ hi hs
  cases a with
  | hit cpu ktime pid hitType => exact inv_hit hi hs
  | exit pid => exact inv_exit hi hs
  | poll nowNs order => exact inv_poll hi hs

theorem le_sub_iff (a b : Nat) : 50 ≤ UInt64.ofNat a - UInt64.ofNat b ↔
    ∀ d < 50, a % 2 ^ 64 ≠ (b + d) % 2 ^ 64 := by
  rw [UInt64.le_iff_toNat_le, UInt64.toNat_sub, UInt64.toNat_ofNat', UInt64.toNat_ofNat']
  change 50 ≤ _ ↔ _
  constructor
  · intro hle d hd he
    omega
  · intro hall
    by_contra hlt
    exact hall ((2 ^ 64 - b % 2 ^ 64 + a % 2 ^ 64) % 2 ^ 64) (by omega) (by omega)

theorem le_ofNat_iff (a : Nat) : ioctlMinThreshold ≤ UInt64.ofNat a ↔ 50 ≤ a % 2 ^ 64 := by
  rw [UInt64.le_iff_toNat_le, UInt64.toNat_ofNat']
  rfl

theorem ofNat_inj_iff (a b : Nat) : UInt64.ofNat a = UInt64.ofNat b ↔
    a % 2 ^ 64 = b % 2 ^ 64 := by
  rw [← UInt64.toNat_inj, UInt64.toNat_ofNat', UInt64.toNat_ofNat']

def SeemsToBypass (h : History) : Prop :=
  ∃ t, h.last.tally = some t ∧
    (∀ d < 50, h.received.ioctl % 2 ^ 64 ≠ (t.ioctl + d) % 2 ^ 64) ∧
    h.received.uprobe % 2 ^ 64 = t.uprobe % 2 ^ 64

theorem seemsToBypass_own {h : History} {t : Tally} (hl : h.last = .own t) :
    SeemsToBypass h ↔ 50 ≤ h.since.ioctl % 2 ^ 64 ∧ 2 ^ 64 ∣ h.since.uprobe := by
  have hreceived : h.received = ⟨t.ioctl + h.since.ioctl, t.uprobe + h.since.uprobe⟩ := by
    rw [History.received, hl]
  rw [SeemsToBypass, hl, hreceived]
  simp only [LastSnapshot.tally, Option.some.injEq, exists_eq_left']
  refine and_congr ⟨fun hall => ?_, fun hle d hd he => ?_⟩ (by omega)
  · by_contra hlt
    exact hall (h.since.ioctl % 2 ^ 64) (by omega) (by omega)
  · omega

theorem seemsToBypass_earlier {h : History} {t : Tally} (hl : h.last = .earlier t) :
    SeemsToBypass h ↔ (∀ d < 50, h.since.ioctl % 2 ^ 64 ≠ (t.ioctl + d) % 2 ^ 64) ∧
      h.since.uprobe % 2 ^ 64 = t.uprobe % 2 ^ 64 := by
  have hreceived : h.received = h.since := by
    rw [History.received, hl]
  rw [SeemsToBypass, hl, hreceived]
  simp only [LastSnapshot.tally, Option.some.injEq, exists_eq_left']

/-- A poll is wrong about a process with libcuda calls for one of two reasons. -/
theorem misleads_iff (h : History) :
    SeemsToBypass h ∧ 0 < h.since.uprobe ↔ LooksLikeEarlier h ∨ FullCircle h := by
  cases hl : h.last with
  | none => simp [SeemsToBypass, LooksLikeEarlier, FullCircle, hl, LastSnapshot.tally]
  | own t =>
    rw [seemsToBypass_own hl, LooksLikeEarlier, FullCircle, hl]
    simp only [reduceCtorEq, false_and, exists_false, false_or]
    omega
  | earlier t =>
    rw [seemsToBypass_earlier hl, LooksLikeEarlier, FullCircle, hl]
    simp only [LastSnapshot.earlier.injEq, exists_eq_left']
    constructor
    · rintro ⟨⟨hio, hup⟩, hpos⟩
      by_cases hzero : t.uprobe % 2 ^ 64 = 0
      · exact .inr ⟨by omega, by omega, by omega, hio⟩
      · exact .inl ⟨hzero, hup, hio⟩
    · rintro (⟨hne, hup, hio⟩ | ⟨hle, hdvd, ht, hio⟩)
      · exact ⟨⟨hio, hup⟩, by omega⟩
      · exact ⟨⟨hio, by omega⟩, by omega⟩

theorem ioctl_of_seemsToBypass {h : History} (hs : SeemsToBypass h)
    (hthr : 50 ≤ h.received.ioctl % 2 ^ 64) : 50 ≤ h.since.ioctl := by
  cases hl : h.last with
  | none => simp [SeemsToBypass, hl, LastSnapshot.tally] at hs
  | own t => exact ((seemsToBypass_own hl).mp hs).1.trans (Nat.mod_le _ _)
  | earlier t =>
    rw [History.received, hl] at hthr
    exact hthr.trans (Nat.mod_le _ _)

theorem suspicious_iff {h : History} {cur prev : PidSnapshot} {t : Tally}
    (hcur : snapshotWords cur = h.received.words) (hprev : snapshotWords prev = t.words) :
    Suspicious prev cur ↔
      (∀ d < 50, h.received.ioctl % 2 ^ 64 ≠ (t.ioctl + d) % 2 ^ 64) ∧
        h.received.uprobe % 2 ^ 64 = t.uprobe % 2 ^ 64 := by
  obtain ⟨hio, hup⟩ := Prod.mk.inj hcur
  obtain ⟨hio', hup'⟩ := Prod.mk.inj hprev
  rw [Suspicious, hio, hup, hio', hup', ofNat_inj_iff, ← le_sub_iff]
  rfl

theorem mem_alerted {s : State n} (hi : Inv s) {nowNs : UInt64} {order : List UInt32}
    (h : Enumerates order s.map) (pid : UInt32) : pid ∈ alerted s (.poll nowNs order) ↔
      TakenUp s nowNs pid ∧ SeemsToBypass (s.history pid) := by
  simp only [alerted, h, dif_pos]
  rw [mem_poll_alerts]
  constructor
  · rintro ⟨cur, prev, hq, hprev, hsus⟩
    have hcur := words_of_qualifying hi h hq
    obtain ⟨slots, hslots, hthr, hwarm, rfl⟩ := (qualifying_readMap h).mp hq
    have hstored := hi.snapshots pid
    rw [hprev, Option.map_some] at hstored
    obtain ⟨t, ht, hwords⟩ := Option.map_eq_some_iff.mp hstored.symm
    refine ⟨⟨slots, hslots, ?_, hwarm⟩, t, ht, (suspicious_iff hcur hwords.symm).mp hsus⟩
    rwa [(Prod.mk.inj (hi.entries pid slots hslots)).1, le_ofNat_iff] at hthr
  · rintro ⟨⟨slots, hslots, hthr, hwarm⟩, t, ht, hsus⟩
    have hstored := hi.snapshots pid
    rw [ht, Option.map_some] at hstored
    obtain ⟨prev, hprev, hwords⟩ := Option.map_eq_some_iff.mp hstored
    rw [← le_ofNat_iff, ← (Prod.mk.inj (hi.entries pid slots hslots)).1] at hthr
    have hq := (qualifying_readMap h).mpr ⟨slots, hslots, hthr, hwarm, rfl⟩
    have hcur := words_of_qualifying hi h hq
    exact ⟨_, prev, hq, hprev, (suspicious_iff hcur hwords).mpr hsus⟩

theorem sound_iff_not_misled {s : State n} (hi : Inv s) (a : Action n) :
    Sound s a ↔ ¬ Misled s a := by
  cases a with
  | hit cpu ktime pid hitType => simp [Sound, alerted, Misled]
  | exit pid => simp [Sound, alerted, Misled]
  | poll nowNs order =>
    by_cases h : Enumerates order s.map
    · constructor
      · rintro hsound ⟨-, pid, hup, hwrong⟩
        obtain ⟨hseems, hpos⟩ := (misleads_iff _).mpr hwrong
        have hzero := (hsound pid ((mem_alerted hi h pid).mpr ⟨hup, hseems⟩)).2
        omega
      · intro hno pid hpid
        obtain ⟨hup, hseems⟩ := (mem_alerted hi h pid).mp hpid
        have hthr : 50 ≤ (s.history pid).received.ioctl % 2 ^ 64 := by
          obtain ⟨slots, -, hthr, -⟩ := hup
          exact hthr
        refine ⟨ioctl_of_seemsToBypass hseems hthr, ?_⟩
        by_contra hne
        exact hno ⟨h, pid, hup, (misleads_iff _).mp ⟨hseems, Nat.pos_of_ne_zero hne⟩⟩
    · simp [Sound, alerted, Misled, h]

theorem not_misled {s : State n} {a : Action n} (h : ¬ Reused s a ∧ ¬ Flooded s a) :
    ¬ Misled s a := by
  cases a with
  | hit cpu ktime pid hitType => exact not_false
  | exit pid => exact not_false
  | poll nowNs order =>
    rintro ⟨-, pid, hup, ⟨t, hl, -⟩ | ⟨hle, -⟩⟩
    · exact h.1 ⟨pid, hup, t, hl⟩
    · exact h.2 ⟨pid, hup, hle⟩

/-- Every alert of a run is sound exactly when no poll of the run meets one of
the two misleading histories. So it is when no PID is reused after a snapshot
and no entry receives 2^64 libcuda calls between two of its snapshots. -/
theorem alerts_sound_iff (n : Nat) (acts : List (Action n)) :
    (Along step Sound (start n) acts ↔ Along step (fun s a => ¬ Misled s a) (start n) acts) ∧
    (Along step (fun s a => ¬ Reused s a ∧ ¬ Flooded s a) (start n) acts →
      Along step Sound (start n) acts) := by
  have hiff : Along step Sound (start n) acts ↔
      Along step (fun s a => ¬ Misled s a) (start n) acts :=
    along_congr fun _ _ a h => sound_iff_not_misled (inv_run h) a
  refine ⟨hiff, fun h => hiff.mpr fun pre a post he t ht => ?_⟩
  exact not_misled (h pre a post he t ht)

/-- A process with 51 ioctl hits and one libcuda call is polled and exits, and
a new process with the same PID makes 50 ioctls and one libcuda call. -/
def reuseRun : List (Action 1) :=
  List.replicate 51 (.hit bootCpu 1 7 ioctlHit) ++
    [.hit bootCpu 1 7 uprobeHit, .poll 10000000000 [7], .exit 7] ++
    List.replicate 50 (.hit bootCpu 2 7 ioctlHit) ++ [.hit bootCpu 2 7 uprobeHit]

theorem reuseRun_alert_unsound : ∃ s, exec step (start 1) reuseRun = some s ∧
    ¬ Sound s (.poll 15000000000 [7]) := by
  decide +kernel

end InfraSightGpu.AlertSoundness
