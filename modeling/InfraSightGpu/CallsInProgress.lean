import InfraSightGpu.SyncTimings
import InfraSightGpu.Tracer

namespace InfraSightGpu.CallsInProgress

open InfraSightGpu.Handlers InfraSightGpu.SyncTimings InfraSightGpu.Lib.Maps
open InfraSightGpu.Lib.Runs
open InfraSightGpu.Tracer (isProcessExit)

variable {n : Nat}

/-- The eBPF programs and the threads that are alive. How many traced
synchronisation calls a thread is in is ghost state; one may call the other. -/
structure State (n : Nat) where
  kernel : Kernel n
  threads : Finset UInt64
  depth : UInt64 → Nat

def start (n : Nat) : State n where
  kernel := emptyKernel n
  threads := ∅
  depth := fun _ => 0

inductive Action (n : Nat) where
  | spawn (id : UInt64)
  | program (call : Call n)

def depthAfter (program : Program) (depth : Nat) : Nat :=
  if isSync program then depth + 1
  else if isSyncRet program then depth - 1
  else if isProcessExit program then 0
  else depth

/-- Programs run on live threads, and the exit handler on a thread that is
alive no more afterwards. -/
def step (s : State n) : Action n → Option (State n)
  | .spawn id =>
    if id ∉ s.threads then some { s with threads := insert id s.threads } else none
  | .program call =>
    let id := call.ctx.pidTgid
    if id ∈ s.threads then some {
      kernel := handle s.kernel call
      threads := if isProcessExit call.program then s.threads.erase id else s.threads
      depth := Function.update s.depth id (depthAfter call.program (s.depth id)) }
    else none

def InProgress (s : State n) (id : UInt64) : Prop := id ∈ s.threads ∧ 0 < s.depth id

instance (s : State n) (id : UInt64) : Decidable (InProgress s id) :=
  inferInstanceAs (Decidable (_ ∧ _))

/-- The map holds calls in progress only, so that no more of its slots are
taken than there are threads in such calls. -/
structure OnlyInProgress (s : State n) : Prop where
  only : ∀ id ∈ s.kernel.startEventsStream, InProgress s id
  slots : size s.kernel.startEventsStream ≤ (s.threads.filter (InProgress s)).card

/-- The outermost call of a thread returns without a reservation, or the thread
exits, while the map has an entry of it. -/
def Leaks (s : State n) : Action n → Prop
  | .spawn _ => False
  | .program call => call.ctx.pidTgid ∈ s.kernel.startEventsStream ∧
      (isSyncRet call.program ∧ ¬ call.ctx.reserved ∧ s.depth call.ctx.pidTgid ≤ 1 ∨
        isProcessExit call.program)

theorem isProcessExit_of_sync {program : Program} (h : isSync program ∨ isSyncRet program) :
    isProcessExit program = false := by
  cases program with
  | processExit => simp [isSync, isSyncRet] at h
  | _ => rfl

theorem onlyInProgress_iff {s : State n} :
    OnlyInProgress s ↔ ∀ id ∈ s.kernel.startEventsStream, InProgress s id := by
  refine ⟨OnlyInProgress.only, fun honly => ⟨honly, Finset.card_le_card fun id hid => ?_⟩⟩
  have hp := honly id (Finmap.mem_keys.mp hid)
  exact Finset.mem_filter.mpr ⟨hp.1, hp⟩

theorem step_program {s u : State n} {call : Call n} : step s (.program call) = some u ↔
    call.ctx.pidTgid ∈ s.threads ∧ {
      kernel := handle s.kernel call
      threads := if isProcessExit call.program then s.threads.erase call.ctx.pidTgid
        else s.threads
      depth := Function.update s.depth call.ctx.pidTgid
        (depthAfter call.program (s.depth call.ctx.pidTgid)) } = u := by
  simp only [step, Option.ite_none_right_eq_some, Option.some.injEq]

theorem mem_handle_of_ne {k : Kernel n} {call : Call n} {id : UInt64}
    (hne : id ≠ call.ctx.pidTgid) :
    id ∈ (handle k call).startEventsStream ↔ id ∈ k.startEventsStream := by
  rw [← lookup_isSome_iff, ← lookup_isSome_iff, handle_startEvents, lookup_updateAny]
  simp [hne]

theorem mem_handle_self {k : Kernel n} {call : Call n} (hsync : ¬ isSync call.program) :
    call.ctx.pidTgid ∈ (handle k call).startEventsStream ↔
      call.ctx.pidTgid ∈ k.startEventsStream ∧ ¬ (isSyncRet call.program ∧ call.ctx.reserved) := by
  rw [← lookup_isSome_iff, ← lookup_isSome_iff, handle_startEvents, submittedStream]
  by_cases hret : isSyncRet call.program ∧ call.ctx.reserved
  · cases hts : k.startEventsStream.lookup call.ctx.pidTgid <;> simp [hsync, hret]
  · simp [hsync, hret]

theorem inProgress_of_ne {s u : State n} {call : Call n}
    (hs : step s (.program call) = some u) {id : UInt64} (hne : id ≠ call.ctx.pidTgid) :
    InProgress u id ↔ InProgress s id := by
  obtain ⟨-, rfl⟩ := step_program.mp hs
  simp only [InProgress, Function.update_of_ne hne]
  split
  · rw [Finset.mem_erase, and_iff_right hne]
  · rfl

/-- The thread that ran a program has an entry without a call in progress
exactly when the program leaked it. -/
theorem self_iff {s u : State n} {call : Call n}
    (hi : ∀ id ∈ s.kernel.startEventsStream, InProgress s id)
    (hs : step s (.program call) = some u) :
    (call.ctx.pidTgid ∈ u.kernel.startEventsStream → InProgress u call.ctx.pidTgid) ↔
      ¬ Leaks s (.program call) := by
  obtain ⟨hid, rfl⟩ := step_program.mp hs
  simp only [InProgress, Leaks, Function.update_self, depthAfter]
  by_cases hsync : isSync call.program
  · have hret := isSyncRet_of_isSync hsync
    have hexit := isProcessExit_of_sync (.inl hsync)
    simp [hsync, hret, hexit, hid]
  · rw [mem_handle_self hsync]
    by_cases hmem : call.ctx.pidTgid ∈ s.kernel.startEventsStream
    · have hdepth : 0 < s.depth call.ctx.pidTgid := (hi _ hmem).2
      by_cases hret : isSyncRet call.program
      · have hexit := isProcessExit_of_sync (.inr hret)
        by_cases hr : call.ctx.reserved
        · simp [hret, hr, hexit]
        · simp [hsync, hmem, hret, hr, hexit, hid]
      · by_cases hexit : isProcessExit call.program
        · simp [hmem, hret, hexit]
        · simp [hsync, hmem, hret, hexit, hid, hdepth]
    · simp [hmem]

theorem onlyInProgress_step {s u : State n} {a : Action n} (hi : OnlyInProgress s)
    (hs : step s a = some u) : OnlyInProgress u ↔ ¬ Leaks s a := by
  have honly := hi.only
  rw [onlyInProgress_iff]
  cases a with
  | spawn id =>
    rw [step, Option.ite_none_right_eq_some, Option.some.injEq] at hs
    obtain ⟨-, rfl⟩ := hs
    refine iff_of_true (fun i hm => ?_) not_false
    obtain ⟨halive, hdepth⟩ := honly i hm
    exact ⟨Finset.mem_insert_of_mem halive, hdepth⟩
  | program call =>
    rw [← self_iff honly hs]
    refine ⟨fun h => h _, fun hself id hm => ?_⟩
    by_cases hid : id = call.ctx.pidTgid
    · rw [hid] at hm ⊢
      exact hself hm
    · rw [inProgress_of_ne hs hid]
      obtain ⟨-, rfl⟩ := step_program.mp hs
      exact honly id ((mem_handle_of_ne hid).mp hm)

/-- The map holds only calls in progress in every state of a run exactly when no
step of the run leaks an entry. -/
theorem only_in_progress_iff (n : Nat) (acts : List (Action n)) (s : State n)
    (h : exec step (start n) acts = some s) :
    Always step OnlyInProgress (start n) acts ↔
      Along step (fun s a => ¬ Leaks s a) (start n) acts := by
  refine (always_iff_along (I := fun _ => True) ?_ trivial
    (fun t a u _ hi hs => onlyInProgress_step hi hs) (fun _ _ _ _ _ _ _ => trivial) h).1
  rw [onlyInProgress_iff]
  intro id hid
  exact absurd hid (Finmap.notMem_empty (a := id))

def failedReturnRun : List (Action 1) :=
  [.spawn 0x700000001, .spawn 0x700000002, .program (sampleCall .cuStreamSync 1 1 true),
    .program (sampleCall .cuCtxSync 2 2 true),
    .program (sampleCall .cuStreamSynchronizeRet 1 3 false)]

theorem only_in_progress_failedReturnRun : ∃ s, exec step (start 1) failedReturnRun = some s ∧
    (Always step OnlyInProgress (start 1) failedReturnRun ↔
      Along step (fun s a => ¬ Leaks s a) (start 1) failedReturnRun) := by
  have h : (exec step (start 1) failedReturnRun).isSome := by decide +kernel
  have hs := (Option.some_get h).symm
  exact ⟨_, hs, only_in_progress_iff 1 failedReturnRun _ hs⟩

/-- Thread 1 has returned and keeps its slot, and so does thread 2 when it exits. -/
theorem failedReturnRun_leaks : ∃ s u, exec step (start 1) failedReturnRun = some s ∧
    step s (.program (sampleCall .processExit 2 4 true)) = some u ∧
    ¬ OnlyInProgress s ∧ 0x700000002 ∈ u.kernel.startEventsStream ∧
    ¬ InProgress u 0x700000002 := by
  obtain ⟨s, hs, hone, hout, u, hu, htwo⟩ : ∃ s, exec step (start 1) failedReturnRun = some s ∧
      0x700000001 ∈ s.kernel.startEventsStream ∧ ¬ InProgress s 0x700000001 ∧
      ∃ u, step s (.program (sampleCall .processExit 2 4 true)) = some u ∧
        0x700000002 ∈ u.kernel.startEventsStream ∧ ¬ InProgress u 0x700000002 := by
    decide +kernel
  exact ⟨s, u, hs, hu, fun hi => hout (hi.only _ hone), htwo⟩

end InfraSightGpu.CallsInProgress
