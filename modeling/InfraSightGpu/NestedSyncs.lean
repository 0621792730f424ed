import InfraSightGpu.SyncTimings
import InfraSightGpu.Lib.Runs

namespace InfraSightGpu.NestedSyncs

open InfraSightGpu.Events InfraSightGpu.Records InfraSightGpu.Handlers InfraSightGpu.SyncTimings
open InfraSightGpu.Lib.Maps InfraSightGpu.Lib.Runs

variable {n : ℕ}

inductive SyncFunction where
  | cuStreamSynchronize
  | cuCtxSynchronize
deriving DecidableEq

def entered : Program → Option SyncFunction
  | .cuStreamSync => some .cuStreamSynchronize
  | .cuCtxSync => some .cuCtxSynchronize
  | _ => none

def returned : Program → Option SyncFunction
  | .cuStreamSynchronizeRet => some .cuStreamSynchronize
  | .cuCtxSyncRet => some .cuCtxSynchronize
  | _ => none

/-- A call that has not returned, the instant of its entry, and whether another
synchronisation call was made inside it. -/
structure OpenCall where
  function : SyncFunction
  entry : UInt64
  nested : Bool
deriving DecidableEq

/-- The calls open on each thread, the innermost first, are ghost state. -/
structure State (n : ℕ) where
  kernel : Kernel n
  openCalls : UInt64 → List OpenCall

def start (n : ℕ) : State n where
  kernel := emptyKernel n
  openCalls := fun _ => []

def Room (k : Kernel n) (id : UInt64) : Prop :=
  id ∈ k.startEventsStream ∨ size k.startEventsStream < startEventsMaxEntries

instance (k : Kernel n) (id : UInt64) : Decidable (Room k id) :=
  inferInstanceAs (Decidable (_ ∨ _))

def markNested : List OpenCall → List OpenCall
  | [] => []
  | x :: xs => { x with nested := true } :: xs

/-- The returns are those of the innermost calls, and neither the map nor the
ring buffer fails a synchronisation call. -/
def step (s : State n) (call : Call n) : Option (State n) :=
  let id := call.ctx.pidTgid
  let k := handle s.kernel call
  match entered call.program, returned call.program with
  | some f, _ =>
    if Room s.kernel id then some
      { kernel := k
        openCalls := Function.update s.openCalls id
          (⟨f, call.ctx.ktime, false⟩ :: markNested (s.openCalls id)) }
    else none
  | none, some f =>
    match s.openCalls id with
    | x :: xs =>
      if x.function = f ∧ call.ctx.reserved then some
        { kernel := k, openCalls := Function.update s.openCalls id xs }
      else none
    | [] => none
  | none, none => some { s with kernel := k }

def ReturnOf (s : State n) (call : Call n) (x : OpenCall) : Prop :=
  returned call.program = some x.function ∧
    (s.openCalls call.ctx.pidTgid).head? = some x ∧ call.ctx.reserved = true

def OwnTiming (s : State n) (call : Call n) : Prop :=
  ∀ x, ReturnOf s call x → ∃ e, (handle s.kernel call).gpuRingbuf =
    s.kernel.gpuRingbuf ++ [.stream e] ∧ e.startTime = x.entry

/-- A return is that of a call with no other inside it. -/
def NotNested (s : State n) (call : Call n) : Prop :=
  ∀ x, ReturnOf s call x → x.nested = false

def slot (xs : List OpenCall) : Option UInt64 :=
  xs.head?.bind fun x => if x.nested then none else some x.entry

/-- The map holds the entry of the innermost call of each thread until another
one is made inside it. -/
structure Inv (s : State n) : Prop where
  slots : ∀ id, s.kernel.startEventsStream.lookup id = slot (s.openCalls id)
  outer : ∀ id, ∀ x ∈ (s.openCalls id).tail, x.nested = true

theorem inv_start : Inv (start n) :=
  ⟨fun _ => rfl, fun _ x hx => by simp [start] at hx⟩

theorem isSync_iff (p : Program) : isSync p = (entered p).isSome := by
  cases p <;> rfl

theorem isSyncRet_iff (p : Program) : isSyncRet p = (returned p).isSome := by
  cases p <;> rfl

theorem submittedStream_of_returnOf {s : State n} (hi : Inv s) {call : Call n} {x : OpenCall}
    (h : ReturnOf s call x) : submittedStream s.kernel call =
      if x.nested then none else some (streamEvent call.ctx x.entry) := by
  obtain ⟨hret, hhead, hres⟩ := h
  have hprog : isSyncRet call.program := by rw [isSyncRet_iff, hret]; rfl
  rw [submittedStream, if_pos ⟨hprog, hres⟩, hi.slots, slot, hhead, Option.bind_some]
  split <;> rfl

theorem slot_markNested (xs : List OpenCall) (h : ∀ x ∈ xs.tail, x.nested = true) :
    slot (markNested xs) = none ∧ ∀ x ∈ markNested xs, x.nested = true := by
  cases xs with
  | nil => simp [markNested, slot]
  | cons x xs =>
    refine ⟨rfl, fun y hy => ?_⟩
    obtain rfl | hy := List.mem_cons.mp hy
    · rfl
    · exact h y hy

theorem inv_update {s : State n} (hi : Inv s) {call : Call n} {k : Kernel n} {xs : List OpenCall}
    (hslot : ∀ id, k.startEventsStream.lookup id =
      if id = call.ctx.pidTgid then slot xs else s.kernel.startEventsStream.lookup id)
    (houter : ∀ x ∈ xs.tail, x.nested = true) :
    Inv { kernel := k, openCalls := Function.update s.openCalls call.ctx.pidTgid xs } := by
  refine ⟨fun id => ?_, fun id x hx => ?_⟩
  · dsimp only
    rw [hslot]
    by_cases hid : id = call.ctx.pidTgid
    · subst hid
      rw [if_pos rfl, Function.update_self]
    · rw [if_neg hid, Function.update_of_ne hid, hi.slots]
  · dsimp only at hx
    by_cases hid : id = call.ctx.pidTgid
    · subst hid
      rw [Function.update_self] at hx
      exact houter x hx
    · rw [Function.update_of_ne hid] at hx
      exact hi.outer id x hx

theorem inv_enter {s : State n} (hi : Inv s) {call : Call n} {f : SyncFunction}
    (hf : entered call.program = some f) (hroom : Room s.kernel call.ctx.pidTgid) :
    Inv { kernel := handle s.kernel call
          openCalls := Function.update s.openCalls call.ctx.pidTgid
            (⟨f, call.ctx.ktime, false⟩ :: markNested (s.openCalls call.ctx.pidTgid)) } := by
  have hsync : isSync call.program := by rw [isSync_iff, hf]; rfl
  refine inv_update hi (fun id => ?_) (slot_markNested _ (hi.outer _)).2
  rw [handle_startEvents, if_pos hsync, lookup_updateAny]
  by_cases hid : id = call.ctx.pidTgid
  · rw [if_pos ⟨hid, hroom⟩, if_pos hid]
    rfl
  · rw [if_neg fun h => hid h.1, if_neg hid]

theorem inv_leave {s : State n} (hi : Inv s) {call : Call n} {x : OpenCall} {xs : List OpenCall}
    (hret : ReturnOf s call x) (hopen : s.openCalls call.ctx.pidTgid = x :: xs) :
    Inv { kernel := handle s.kernel call
          openCalls := Function.update s.openCalls call.ctx.pidTgid xs } := by
  have hsync : ¬ isSync call.program := by
    intro h
    have hno := isSyncRet_of_isSync h
    rw [isSyncRet_iff, hret.1] at hno
    cases hno
  have houter : ∀ y ∈ xs, y.nested = true := by
    have h := hi.outer call.ctx.pidTgid
    rwa [hopen] at h
  have hempty : slot xs = none := by
    cases xs with
    | nil => rfl
    | cons y ys =>
      rw [slot, List.head?_cons, Option.bind_some, if_pos (houter y List.mem_cons_self)]
  refine inv_update hi (fun id => ?_) fun y hy => houter y (List.mem_of_mem_tail hy)
  have hold := hi.slots call.ctx.pidTgid
  rw [hopen, slot, List.head?_cons, Option.bind_some] at hold
  rw [handle_startEvents, if_neg hsync, submittedStream_of_returnOf hi hret, hempty]
  by_cases hid : id = call.ctx.pidTgid
  · subst hid
    cases hn : x.nested <;> simp_all
  · simp [hid]

theorem inv_other {s : State n} (hi : Inv s) {call : Call n} (hent : entered call.program = none)
    (hret : returned call.program = none) : Inv { s with kernel := handle s.kernel call } := by
  have hsync : ¬ isSync call.program := by simp [isSync_iff, hent]
  have hquiet : submittedStream s.kernel call = none := by
    rw [submittedStream, if_neg (by simp [isSyncRet_iff, hret])]
  refine ⟨fun id => ?_, hi.outer⟩
  rw [handle_startEvents, if_neg hsync, hquiet, if_neg (by simp), hi.slots]

theorem inv_step {s u : State n} (hi : Inv s) {call : Call n} (hs : step s call = some u) :
    Inv u := by
  simp only [step] at hs
  split at hs
  · next f _ hf =>
    split at hs <;> cases hs
    next hroom => exact inv_enter hi hf hroom
  · next f hent hret =>
    split at hs
    · next x xs hopen =>
      split at hs <;> cases hs
      next h => exact inv_leave hi ⟨h.1 ▸ hret, by rw [hopen]; rfl, h.2⟩ hopen
    · cases hs
  · next hent hret =>
    cases hs
    exact inv_other hi hent hret

theorem inv_run {calls : List (Call n)} {s : State n} (h : exec step (start n) calls = some s) :
    Inv s :=
  exec_induction (I := fun _ s => Inv s) inv_start (fun _ _ _ _ _ hi hs => inv_step hi hs) h

theorem ownTiming_iff {s : State n} (hi : Inv s) (call : Call n) :
    OwnTiming s call ↔ NotNested s call := by
  refine forall_congr' fun x => forall_congr' fun hret => ?_
  simp only [handle_submits, submittedStream_of_returnOf hi hret]
  cases x.nested <;> simp [streamEvent]

/-- The returns of a run submit one event each, with their own start, exactly
when no call of the run has another one inside it. -/
theorem own_timing_iff (calls : List (Call n)) :
    Along step OwnTiming (start n) calls ↔ Along step NotNested (start n) calls :=
  along_congr fun _ _ call h => ownTiming_iff (inv_run h) call

def nestedRun : List (Call 1) :=
  [sampleCall .cuStreamSync 1 10 true, sampleCall .cuCtxSync 1 20 true,
    sampleCall .cuCtxSyncRet 1 30 true]

/-- The return of the outer call submits nothing. -/
theorem outer_return_lost : ∃ s u, exec step (start 1) nestedRun = some s ∧
    step s (sampleCall .cuStreamSynchronizeRet 1 40 true) = some u ∧
    u.kernel.gpuRingbuf.length = s.kernel.gpuRingbuf.length ∧
    ¬ OwnTiming s (sampleCall .cuStreamSynchronizeRet 1 40 true) := by
  obtain ⟨s, hs, u, hu, hring, hhead⟩ : ∃ s, exec step (start 1) nestedRun = some s ∧
      ∃ u, step s (sampleCall .cuStreamSynchronizeRet 1 40 true) = some u ∧
        u.kernel.gpuRingbuf.length = s.kernel.gpuRingbuf.length ∧
        (s.openCalls 0x700000001).head? = some ⟨.cuStreamSynchronize, 10, true⟩ := by
    decide +kernel
  refine ⟨s, u, hs, hu, hring, fun hown => ?_⟩
  have hnested := (ownTiming_iff (inv_run hs) _).mp hown _ ⟨rfl, hhead, rfl⟩
  cases hnested

end InfraSightGpu.NestedSyncs
