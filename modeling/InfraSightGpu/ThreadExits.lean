import InfraSightGpu.Watchdog
import InfraSightGpu.Lib.Runs

namespace InfraSightGpu.ThreadExits

open InfraSightGpu.WatchdogMap InfraSightGpu.Watchdog InfraSightGpu.Lib.Maps
open InfraSightGpu.Lib.Runs

variable {n : Nat}

def tgid (pidTgid : UInt64) : UInt32 := (pidTgid >>> 32).toUInt32

/-- The map and the threads that are alive. What the last poll read of a process
and the hits stored in its entry since are ghost state. -/
structure State (n : Nat) where
  map : IoctlWatchdogMap n
  threads : Finset UInt64
  lastRead : UInt32 → Option CpuTotals
  ioctlSince : UInt32 → Nat
  uprobeSince : UInt32 → Nat

def start (n : Nat) : State n where
  map := ∅
  threads := ∅
  lastRead := fun _ => none
  ioctlSince := fun _ => 0
  uprobeSince := fun _ => 0

def Running (threads : Finset UInt64) (pid : UInt32) : Prop := ∃ id ∈ threads, tgid id = pid

instance (threads : Finset UInt64) (pid : UInt32) : Decidable (Running threads pid) :=
  inferInstanceAs (Decidable (∃ id ∈ threads, _))

def readEntry (m : IoctlWatchdogMap n) (pid : UInt32) : Option CpuTotals :=
  (m.lookup pid).map fun slots => sumCpus (List.ofFn slots)

inductive Action (n : Nat) where
  | spawn (id : UInt64)
  | exit (id : UInt64)
  | hit (cpu : Fin n) (ktime : UInt64) (id : UInt64) (hitType : UInt32)
  | poll
deriving DecidableEq

/-- `handle_process_exit` runs in the context of every thread that exits. When it
was the last thread of its process, what was read of the process is forgotten. -/
def step (s : State n) : Action n → Option (State n)
  | .spawn id =>
    if id ∉ s.threads then some { s with threads := insert id s.threads } else none
  | .exit id =>
    if id ∈ s.threads then some { s with
      map := handleProcessExit s.map (tgid id)
      threads := s.threads.erase id
      lastRead := if Running (s.threads.erase id) (tgid id) then s.lastRead
        else Function.update s.lastRead (tgid id) none }
    else none
  | .hit cpu ktime id hitType =>
    if id ∈ s.threads then some { s with
      map := addToCounter s.map cpu ktime (tgid id) hitType
      ioctlSince := Function.update s.ioctlSince (tgid id)
        (s.ioctlSince (tgid id) + hits ioctlHit hitType)
      uprobeSince := Function.update s.uprobeSince (tgid id)
        (s.uprobeSince (tgid id) + hits uprobeHit hitType) }
    else none
  | .poll => some { s with
      lastRead := fun pid => (readEntry s.map pid).or (s.lastRead pid)
      ioctlSince := fun pid => if pid ∈ s.map then 0 else s.ioctlSince pid
      uprobeSince := fun pid => if pid ∈ s.map then 0 else s.uprobeSince pid }

def KeepsEntries (s : State n) (a : Action n) : Prop :=
  ∀ u, step s a = some u → ∀ pid, Running u.threads pid → pid ∈ s.map → pid ∈ u.map

def ReadsNoLess (s : State n) : Action n → Prop
  | .poll => ∀ pid prev tot, s.lastRead pid = some prev → readEntry s.map pid = some tot →
      prev.totalIoctl ≤ tot.totalIoctl ∧ prev.totalUprobe ≤ tot.totalUprobe
  | _ => True

/-- The first condition: a thread exits whose process has an entry and lives on. -/
def LeavesOthers (s : State n) : Action n → Prop
  | .exit id => id ∈ s.threads ∧ Running (s.threads.erase id) (tgid id) ∧ tgid id ∈ s.map
  | _ => False

instance (s : State n) (a : Action n) : Decidable (LeavesOthers s a) := by
  cases a <;> unfold LeavesOthers <;> infer_instance

/-- The second: a sum over the CPUs wraps between two polls. -/
def Wraps (s : State n) : Action n → Prop
  | .poll => ∃ pid prev, s.lastRead pid = some prev ∧
      (2 ^ 64 ≤ prev.totalIoctl.toNat + s.ioctlSince pid % 2 ^ 64 ∨
        2 ^ 64 ≤ prev.totalUprobe.toNat + s.uprobeSince pid % 2 ^ 64)
  | _ => False

def Accounts (s : State n) : Prop :=
  ∀ pid prev, s.lastRead pid = some prev → ∃ slots, s.map.lookup pid = some slots ∧
    ioctlSum slots = prev.totalIoctl + UInt64.ofNat (s.ioctlSince pid) ∧
    uprobeSum slots = prev.totalUprobe + UInt64.ofNat (s.uprobeSince pid)

theorem step_spawn {s u : State n} {id : UInt64} : step s (.spawn id) = some u ↔
    id ∉ s.threads ∧ { s with threads := insert id s.threads } = u := by
  rw [step, Option.ite_none_right_eq_some, Option.some.injEq]

theorem step_exit {s u : State n} {id : UInt64} : step s (.exit id) = some u ↔
    id ∈ s.threads ∧ { s with
      map := handleProcessExit s.map (tgid id)
      threads := s.threads.erase id
      lastRead := if Running (s.threads.erase id) (tgid id) then s.lastRead
        else Function.update s.lastRead (tgid id) none } = u := by
  rw [step, Option.ite_none_right_eq_some, Option.some.injEq]

theorem step_hit {s u : State n} {cpu : Fin n} {ktime id : UInt64} {hitType : UInt32} :
    step s (.hit cpu ktime id hitType) = some u ↔ id ∈ s.threads ∧ { s with
      map := addToCounter s.map cpu ktime (tgid id) hitType
      ioctlSince := Function.update s.ioctlSince (tgid id)
        (s.ioctlSince (tgid id) + hits ioctlHit hitType)
      uprobeSince := Function.update s.uprobeSince (tgid id)
        (s.uprobeSince (tgid id) + hits uprobeHit hitType) } = u := by
  rw [step, Option.ite_none_right_eq_some, Option.some.injEq]

theorem readEntry_eq_some {m : IoctlWatchdogMap n} {pid : UInt32} {tot : CpuTotals} :
    readEntry m pid = some tot ↔ ∃ slots, m.lookup pid = some slots ∧
      sumCpus (List.ofFn slots) = tot := by
  rw [readEntry, Option.map_eq_some_iff]

theorem totals_sumCpus (slots : Slots n) :
    (sumCpus (List.ofFn slots)).totalIoctl = ioctlSum slots ∧
      (sumCpus (List.ofFn slots)).totalUprobe = uprobeSum slots := by
  rw [sumCpus_eq]
  exact ⟨rfl, rfl⟩

theorem keepsEntries_iff (s : State n) (a : Action n) : KeepsEntries s a ↔ ¬ LeavesOthers s a := by
  cases a with
  | spawn id =>
    refine iff_of_true (fun u hs pid _ hm => ?_) not_false
    obtain ⟨-, rfl⟩ := step_spawn.mp hs
    exact hm
  | exit id =>
    constructor
    · rintro hkeep ⟨hid, hrun, hmem⟩
      have hm := hkeep _ (step_exit.mpr ⟨hid, rfl⟩) (tgid id) hrun hmem
      rw [← lookup_isSome_iff, lookup_handleProcessExit] at hm
      simp at hm
    · intro hno u hs pid hrun hmem
      obtain ⟨hid, rfl⟩ := step_exit.mp hs
      rw [← lookup_isSome_iff] at hmem ⊢
      rw [lookup_handleProcessExit]
      split
      · next he =>
        subst he
        exact absurd ⟨hid, hrun, lookup_isSome_iff.mp hmem⟩ hno
      · exact hmem
  | hit cpu ktime id hitType =>
    refine iff_of_true (fun u hs pid _ hm => ?_) not_false
    obtain ⟨-, rfl⟩ := step_hit.mp hs
    by_cases hp : pid = tgid id
    · rw [hp] at hm ⊢
      exact (mem_addToCounter_self _ _ _ _ _).mpr (.inl hm)
    · rw [← lookup_isSome_iff] at hm ⊢
      rwa [lookup_addToCounter, if_neg hp]
  | poll =>
    refine iff_of_true (fun u hs pid _ hm => ?_) not_false
    cases hs
    exact hm

theorem le_add_iff (a : UInt64) (m : Nat) :
    a ≤ a + UInt64.ofNat m ↔ a.toNat + m % 2 ^ 64 < 2 ^ 64 := by
  have ha : a.toNat < 2 ^ 64 := a.toNat_lt
  have hm : m % 2 ^ 64 < 2 ^ 64 := Nat.mod_lt _ (by norm_num)
  rw [UInt64.le_iff_toNat_le, UInt64.toNat_add, UInt64.toNat_ofNat']
  omega

theorem readsNoLess_iff {s : State n} (hi : Accounts s) (a : Action n) :
    ReadsNoLess s a ↔ ¬ Wraps s a := by
  cases a with
  | spawn id | exit id | hit cpu ktime id hitType => exact iff_of_true trivial not_false
  | poll =>
    constructor
    · rintro hle ⟨pid, prev, hprev, hwrap⟩
      obtain ⟨slots, hslots, hio, hup⟩ := hi pid prev hprev
      obtain ⟨h1, h2⟩ := hle pid prev _ hprev (readEntry_eq_some.mpr ⟨slots, hslots, rfl⟩)
      rw [(totals_sumCpus slots).1, hio, le_add_iff] at h1
      rw [(totals_sumCpus slots).2, hup, le_add_iff] at h2
      omega
    · intro hno pid prev tot hprev hread
      obtain ⟨slots, hslots, rfl⟩ := readEntry_eq_some.mp hread
      obtain ⟨sl, hsl, hio, hup⟩ := hi pid prev hprev
      obtain rfl : sl = slots := Option.some.inj (hsl.symm.trans hslots)
      rw [(totals_sumCpus sl).1, (totals_sumCpus sl).2, hio, hup, le_add_iff, le_add_iff]
      constructor
      · by_contra hge
        exact hno ⟨pid, prev, hprev, .inl (not_lt.mp hge)⟩
      · by_contra hge
        exact hno ⟨pid, prev, hprev, .inr (not_lt.mp hge)⟩

theorem accounts_exit {s : State n} (hi : Accounts s) {id : UInt64} (hid : id ∈ s.threads)
    (hno : ¬ LeavesOthers s (.exit id)) {u : State n} (hs : step s (.exit id) = some u) :
    Accounts u := by
  obtain ⟨-, rfl⟩ := step_exit.mp hs
  intro pid prev hprev
  dsimp only at hprev ⊢
  have hold : s.lastRead pid = some prev ∧ pid ≠ tgid id := by
    split at hprev
    · next hrun =>
      refine ⟨hprev, ?_⟩
      rintro rfl
      obtain ⟨slots, hslots, -⟩ := hi _ prev hprev
      exact hno ⟨hid, hrun, Finmap.mem_iff.mpr ⟨slots, hslots⟩⟩
    · by_cases hp : pid = tgid id
      · rw [hp, Function.update_self] at hprev
        cases hprev
      · rw [Function.update_of_ne hp] at hprev
        exact ⟨hprev, hp⟩
  obtain ⟨slots, hslots, hsums⟩ := hi pid prev hold.1
  exact ⟨slots, by rw [lookup_handleProcessExit, if_neg hold.2, hslots], hsums⟩

theorem accounts_hit {s : State n} (hi : Accounts s) {cpu : Fin n} {ktime id : UInt64}
    {hitType : UInt32} {u : State n} (hs : step s (.hit cpu ktime id hitType) = some u) :
    Accounts u := by
  obtain ⟨-, rfl⟩ := step_hit.mp hs
  intro pid prev hprev
  dsimp only at hprev ⊢
  obtain ⟨slots, hslots, hio, hup⟩ := hi pid prev hprev
  by_cases hp : pid = tgid id
  · subst hp
    refine ⟨Function.update slots cpu (addHit hitType (slots cpu)), ?_, ?_, ?_⟩
    · rw [lookup_addToCounter, if_pos rfl, slotsFor, hslots]
      rfl
    · rw [ioctlSum_addHit, hio, Function.update_self, UInt64.ofNat_add, UInt64.add_assoc]
    · rw [uprobeSum_addHit, hup, Function.update_self, UInt64.ofNat_add, UInt64.add_assoc]
  · refine ⟨slots, by rw [lookup_addToCounter, if_neg hp, hslots], ?_⟩
    rw [Function.update_of_ne hp, Function.update_of_ne hp]
    exact ⟨hio, hup⟩

theorem accounts_poll {s : State n} (hi : Accounts s) {u : State n} (hs : step s .poll = some u) :
    Accounts u := by
  cases hs
  intro pid prev hprev
  dsimp only at hprev ⊢
  cases hread : readEntry s.map pid with
  | some tot =>
    obtain ⟨slots, hslots, rfl⟩ := readEntry_eq_some.mp hread
    rw [hread] at hprev
    cases hprev
    have hmem : pid ∈ s.map := Finmap.mem_iff.mpr ⟨slots, hslots⟩
    obtain ⟨hio, hup⟩ := totals_sumCpus slots
    exact ⟨slots, hslots, by simp [hmem, hio], by simp [hmem, hup]⟩
  | none =>
    rw [hread, Option.none_or] at hprev
    obtain ⟨slots, hslots, -⟩ := hi pid prev hprev
    simp [readEntry, hslots] at hread

theorem accounts_step {s u : State n} {a : Action n} (hi : Accounts s) (hno : ¬ LeavesOthers s a)
    (hs : step s a = some u) : Accounts u := by
  cases a with
  | spawn id =>
    obtain ⟨-, rfl⟩ := step_spawn.mp hs
    exact hi
  | exit id => exact accounts_exit hi (step_exit.mp hs).1 hno hs
  | hit cpu ktime id hitType => exact accounts_hit hi hs
  | poll => exact accounts_poll hi hs

/-- The entries of living processes stay and what the polls read of them does
not go down, exactly when no thread leaves others of a counted process behind
and no sum wraps between two polls. -/
theorem counters_grow_iff (n : Nat) (acts : List (Action n)) :
    Along step (fun s a => KeepsEntries s a ∧ ReadsNoLess s a) (start n) acts ↔
      Along step (fun s a => ¬ LeavesOthers s a ∧ ¬ Wraps s a) (start n) acts := by
  refine along_iff_along (I := Accounts) ?_ (fun t a hi => ?_) (fun t a u hi hc hs => ?_)
  · intro pid prev hprev
    cases hprev
  · rw [keepsEntries_iff, readsNoLess_iff hi]
  · exact accounts_step hi hc.1 hs

/-- Process 7 has two threads, one of which makes two ioctls before a poll. -/
def twoThreadsRun : List (Action 1) :=
  [.spawn 0x700000001, .spawn 0x700000002, .hit bootCpu 1 0x700000001 ioctlHit,
    .hit bootCpu 2 0x700000001 ioctlHit, .poll]

def otherExitsRun : List (Action 1) :=
  twoThreadsRun ++ [.exit 0x700000002, .hit bootCpu 3 0x700000001 ioctlHit]

/-- The exit deletes the entry, and the next poll reads one ioctl instead of three. -/
theorem otherExitsRun_shrinks : ∃ s u, exec step (start 1) twoThreadsRun = some s ∧
    exec step (start 1) otherExitsRun = some u ∧
    ¬ KeepsEntries s (.exit 0x700000002) ∧ ¬ ReadsNoLess u .poll := by
  obtain ⟨s, hs, hleaves⟩ : ∃ s, exec step (start 1) twoThreadsRun = some s ∧
      LeavesOthers s (.exit 0x700000002) := by
    decide +kernel
  obtain ⟨u, hu, hprev, htot⟩ : ∃ u, exec step (start 1) otherExitsRun = some u ∧
      u.lastRead 7 = some ⟨2, 0, 1⟩ ∧ readEntry u.map 7 = some ⟨1, 0, 3⟩ := by
    decide +kernel
  refine ⟨s, u, hs, hu, ?_, fun hle => ?_⟩
  · rw [keepsEntries_iff]
    exact not_not.mpr hleaves
  · exact absurd (hle 7 _ _ hprev htot).1 (by decide)

end InfraSightGpu.ThreadExits
