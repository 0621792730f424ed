import InfraSightGpu.NestedSyncs

namespace InfraSightGpu.Attachment

open InfraSightGpu.Events InfraSightGpu.Records InfraSightGpu.Handlers InfraSightGpu.SyncTimings
open InfraSightGpu.Lib.Maps InfraSightGpu.Lib.Runs
open InfraSightGpu.NestedSyncs (Room)

variable {n : ℕ}

inductive UprobeProgram where
  | handleCuCtxSync
  | handleCuCtxSyncRet
  | handleCuLaunchkernel
  | handleCuMemAlloc
  | handleCuMemcpyDtoh
  | handleCuMemcpyDtohAsync
  | handleCuMemcpyHtod
  | handleCuMemcpyHtodAsync
  | handleCuStreamSync
  | handleCuStreamSynchronizeRet
deriving DecidableEq

/-- What a program reads of the thread: the registers of the arguments, and the
word above the return address when it can be read. -/
structure Registers where
  parm : Fin 6 → UInt64
  stackSlot : Option UInt64

/-- The arguments as the `BPF_KPROBE` signatures name them. -/
def UprobeProgram.program (regs : Registers) : UprobeProgram → Program
  | .handleCuCtxSync => .cuCtxSync
  | .handleCuCtxSyncRet => .cuCtxSyncRet
  | .handleCuLaunchkernel =>
    .cuLaunchkernel (regs.parm 1) (regs.parm 2) (regs.parm 3) (regs.parm 4) (regs.parm 5)
      regs.stackSlot
  | .handleCuMemAlloc => .cuMemAlloc (regs.parm 1)
  | .handleCuMemcpyDtoh => .cuMemcpyDtoh (regs.parm 2)
  | .handleCuMemcpyDtohAsync => .cuMemcpyDtohAsync (regs.parm 2)
  | .handleCuMemcpyHtod => .cuMemcpyHtod (regs.parm 2)
  | .handleCuMemcpyHtodAsync => .cuMemcpyHtodAsync (regs.parm 2)
  | .handleCuStreamSync => .cuStreamSync
  | .handleCuStreamSynchronizeRet => .cuStreamSynchronizeRet

def functionsEntry : List (String × UprobeProgram) :=
  [("cuLaunchKernel", .handleCuLaunchkernel),
    ("cuLaunchKernel_ptsz", .handleCuLaunchkernel),
    ("cuMemAlloc_v2", .handleCuMemAlloc),
    ("cuMemAlloc", .handleCuMemAlloc),
    ("cuMemcpyHtoD_v2", .handleCuMemcpyHtod),
    ("cuMemcpyHtoDAsync_v2", .handleCuMemcpyHtodAsync),
    ("cuMemcpyHtoD", .handleCuMemcpyHtod),
    ("cuMemcpyHtoDAsync", .handleCuMemcpyHtodAsync),
    ("cuMemcpyHtoDAsync_v2_ptsz", .handleCuMemcpyHtod),
    ("cuMemcpyHtoD_v2_ptds", .handleCuMemcpyHtodAsync),
    ("cuMemcpyDtoH_v2", .handleCuMemcpyDtoh),
    ("cuMemcpyDtoHAsync_v2", .handleCuMemcpyDtohAsync),
    ("cuMemcpyDtoH", .handleCuMemcpyDtoh),
    ("cuMemcpyDtoHAsync", .handleCuMemcpyDtohAsync),
    ("cuMemcpyDtoHAsync_v2_ptsz", .handleCuMemcpyDtoh),
    ("cuMemcpyDtoH_v2_ptds", .handleCuMemcpyDtohAsync),
    ("cuStreamSynchronize", .handleCuStreamSync),
    ("cuStreamSynchronize_ptsz", .handleCuStreamSync),
    ("cuCtxSynchronize", .handleCuCtxSync),
    ("cuCtxSynchronize_v2", .handleCuCtxSync)]

def functionsExit : List (String × UprobeProgram) :=
  [("cuStreamSynchronize", .handleCuStreamSynchronizeRet),
    ("cuStreamSynchronize_ptsz", .handleCuStreamSynchronizeRet),
    ("cuCtxSynchronize", .handleCuCtxSyncRet),
    ("cuCtxSynchronize_v2", .handleCuCtxSyncRet)]

abbrev Offset := UInt64

inductive Link where
  | uprobe (offset : Offset) (prog : UprobeProgram)
  | uretprobe (offset : Offset) (prog : UprobeProgram)
  | tracepoint (group name : String)
deriving DecidableEq

/-- What the library and the kernel answer: where in the library a symbol is
when a program could be attached to it, and whether a tracepoint could be. -/
structure Host where
  uprobe : String → UprobeProgram → Option Offset
  uretprobe : String → UprobeProgram → Option Offset
  tracepoint : String → String → Bool

/-- A loop over a table; a function that cannot be attached is skipped. -/
def attachAll (attach : String → UprobeProgram → Option Offset)
    (link : Offset → UprobeProgram → Link) (up : List Link) :
    List (String × UprobeProgram) → List Link
  | [] => up
  | fn :: functions =>
    match attach fn.1 fn.2 with
    | none => attachAll attach link up functions
    | some offset => attachAll attach link (up ++ [link offset fn.2]) functions

def attachTracepoint (host : Host) (up : List Link) (group name : String) : List Link :=
  if host.tracepoint group name then up ++ [.tracepoint group name] else up

def attachments (host : Host) : List Link :=
  let up := attachAll host.uprobe .uprobe [] functionsEntry
  let up := attachAll host.uretprobe .uretprobe up functionsExit
  let up := attachTracepoint host up "syscalls" "sys_enter_ioctl"
  attachTracepoint host up "sched" "sched_process_exit"

def onEntry (offset : Offset) : Link → Option UprobeProgram
  | .uprobe o prog => if o = offset then some prog else none
  | _ => none

def onReturn (offset : Offset) : Link → Option UprobeProgram
  | .uretprobe o prog => if o = offset then some prog else none
  | _ => none

def entryPrograms (host : Host) (offset : Offset) : List UprobeProgram :=
  (attachments host).filterMap (onEntry offset)

def returnPrograms (host : Host) (offset : Offset) : List UprobeProgram :=
  (attachments host).filterMap (onReturn offset)

def isTiming : UprobeProgram → Bool
  | .handleCuStreamSync | .handleCuCtxSync => true
  | _ => false

def Enters (host : Host) (offset : Offset) : Prop :=
  ∃ prog ∈ entryPrograms host offset, isTiming prog

def Exits (host : Host) (offset : Offset) : Prop := returnPrograms host offset ≠ []

instance (host : Host) (offset : Offset) : Decidable (Enters host offset) :=
  inferInstanceAs (Decidable (∃ _ ∈ _, _))

instance (host : Host) (offset : Offset) : Decidable (Exits host offset) :=
  inferInstanceAs (Decidable (_ ≠ _))

section Tables

theorem attachAll_eq (attach : String → UprobeProgram → Option Offset)
    (link : Offset → UprobeProgram → Link) (up : List Link)
    (functions : List (String × UprobeProgram)) :
    attachAll attach link up functions =
      up ++ functions.filterMap fun fn => (attach fn.1 fn.2).map fun o => link o fn.2 := by
  induction functions generalizing up with
  | nil => simp [attachAll]
  | cons fn functions ih =>
    rw [attachAll]
    cases h : attach fn.1 fn.2 with
    | none => simp [ih, h]
    | some offset => simp [ih, h]

theorem filterMap_tracepoint {f : Link → Option UprobeProgram}
    (hf : ∀ group name, f (.tracepoint group name) = none) (host : Host) (up : List Link)
    (group name : String) :
    (attachTracepoint host up group name).filterMap f = up.filterMap f := by
  unfold attachTracepoint
  split
  · simp [hf]
  · rfl

theorem filterMap_links (offset : Offset) {f : Link → Option UprobeProgram}
    {link : Offset → UprobeProgram → Link}
    (hf : ∀ o prog, f (link o prog) = if o = offset then some prog else none)
    (attach : String → UprobeProgram → Option Offset) (functions : List (String × UprobeProgram)) :
    (functions.filterMap fun fn => (attach fn.1 fn.2).map fun o => link o fn.2).filterMap f =
      (functions.filter fun fn => attach fn.1 fn.2 = some offset).map Prod.snd := by
  induction functions with
  | nil => rfl
  | cons fn functions ih =>
    cases h : attach fn.1 fn.2 with
    | none => simp [h, ih]
    | some o => by_cases ho : o = offset <;> simp [h, ho, hf, ih]

theorem filterMap_other_links {f : Link → Option UprobeProgram}
    {link : Offset → UprobeProgram → Link} (hf : ∀ o prog, f (link o prog) = none)
    (attach : String → UprobeProgram → Option Offset) (functions : List (String × UprobeProgram)) :
    (functions.filterMap fun fn => (attach fn.1 fn.2).map fun o => link o fn.2).filterMap f =
      [] := by
  rw [List.filterMap_filterMap, List.filterMap_eq_nil_iff]
  intro fn _
  cases attach fn.1 fn.2 with
  | none => rfl
  | some o => exact hf o fn.2

theorem entryPrograms_eq (host : Host) (offset : Offset) : entryPrograms host offset =
    (functionsEntry.filter fun fn => host.uprobe fn.1 fn.2 = some offset).map Prod.snd := by
  rw [entryPrograms, attachments, filterMap_tracepoint fun _ _ => rfl,
    filterMap_tracepoint fun _ _ => rfl, attachAll_eq, attachAll_eq, List.filterMap_append,
    List.nil_append, filterMap_links offset fun _ _ => rfl, filterMap_other_links fun _ _ => rfl,
    List.append_nil]

theorem returnPrograms_eq (host : Host) (offset : Offset) : returnPrograms host offset =
    (functionsExit.filter fun fn => host.uretprobe fn.1 fn.2 = some offset).map Prod.snd := by
  rw [returnPrograms, attachments, filterMap_tracepoint fun _ _ => rfl,
    filterMap_tracepoint fun _ _ => rfl, attachAll_eq, attachAll_eq, List.filterMap_append,
    List.nil_append, filterMap_other_links fun _ _ => rfl,
    filterMap_links offset fun _ _ => rfl, List.nil_append]

theorem isTiming_iff (prog : UprobeProgram) (regs : Registers) :
    isSync (prog.program regs) = isTiming prog := by
  cases prog <;> rfl

theorem entry_not_ret {host : Host} {offset : Offset} {prog : UprobeProgram}
    (h : prog ∈ entryPrograms host offset) (regs : Registers) :
    isSyncRet (prog.program regs) = false := by
  have htable : ∀ fn ∈ functionsEntry, isSyncRet (fn.2.program regs) = false := by
    simp [functionsEntry, UprobeProgram.program, isSyncRet]
  rw [entryPrograms_eq] at h
  obtain ⟨fn, hfn, rfl⟩ := List.mem_map.mp h
  exact htable fn (List.mem_of_mem_filter hfn)

theorem return_isSyncRet {host : Host} {offset : Offset} {prog : UprobeProgram}
    (h : prog ∈ returnPrograms host offset) (regs : Registers) :
    isSyncRet (prog.program regs) = true := by
  have htable : ∀ fn ∈ functionsExit, isSyncRet (fn.2.program regs) = true := by
    simp [functionsExit, UprobeProgram.program, isSyncRet]
  rw [returnPrograms_eq] at h
  obtain ⟨fn, hfn, rfl⟩ := List.mem_map.mp h
  exact htable fn (List.mem_of_mem_filter hfn)

end Tables

abbrev Execution (n : ℕ) := UprobeProgram × Ctx n

def runAll (regs : Registers) (k : Kernel n) (executions : List (Execution n)) : Kernel n :=
  executions.foldl (fun k x => handle k ⟨x.1.program regs, x.2⟩) k

def entryTime (executions : List (Execution n)) : Option UInt64 :=
  (executions.filter fun x => isTiming x.1).getLast?.map fun x => x.2.ktime

structure Frame where
  offset : Offset
  entry : Option UInt64
deriving DecidableEq

/-- The calls open on each thread, the innermost first, are ghost state. -/
structure State (n : ℕ) where
  kernel : Kernel n
  frames : UInt64 → List Frame

def start (n : ℕ) : State n where
  kernel := emptyKernel n
  frames := fun _ => []

def isTracepoint : Program → Bool
  | .watchdogIoctl _ _ | .processExit => true
  | _ => false

/-- A thread calls a function of the library or returns from one, and the
programs of that place run in any order; or a tracepoint is hit. -/
inductive Action (n : ℕ) where
  | enter (id : UInt64) (offset : Offset) (regs : Registers) (executions : List (Execution n))
  | leave (id : UInt64) (offset : Offset) (regs : Registers) (executions : List (Execution n))
  | tracepoint (call : Call n)

def Watched (host : Host) (offset : Offset) : Prop := Enters host offset ∨ Exits host offset

instance (host : Host) (offset : Offset) : Decidable (Watched host offset) :=
  inferInstanceAs (Decidable (_ ∨ _))

def RunsOn (id : UInt64) (progs : List UprobeProgram) (executions : List (Execution n)) : Prop :=
  (executions.map Prod.fst).Perm progs ∧ ∀ x ∈ executions, x.2.pidTgid = id

instance (id : UInt64) (progs : List UprobeProgram) (executions : List (Execution n)) :
    Decidable (RunsOn id progs executions) :=
  inferInstanceAs (Decidable (_ ∧ _))

/-- The map has room for the start time, and no synchronisation is inside another. -/
def MayEnter (host : Host) (s : State n) (id : UInt64) (offset : Offset) : Prop :=
  (Enters host offset → Room s.kernel id) ∧
    (Watched host offset → ∀ f ∈ s.frames id, ¬ Watched host f.offset)

instance (host : Host) (s : State n) (id : UInt64) (offset : Offset) :
    Decidable (MayEnter host s id offset) :=
  inferInstanceAs (Decidable ((_ → _) ∧ (_ → _)))

/-- A return is that of the innermost call and gets its reservation. The programs
of one place run without programs of other threads in between. -/
def step (host : Host) (s : State n) : Action n → Option (State n)
  | .enter id offset regs executions =>
    if RunsOn id (entryPrograms host offset) executions ∧ MayEnter host s id offset then some
      { kernel := runAll regs s.kernel executions
        frames := Function.update s.frames id
          (⟨offset, entryTime executions⟩ :: s.frames id) }
    else none
  | .leave id offset regs executions =>
    match s.frames id with
    | [] => none
    | f :: fs =>
      if f.offset = offset ∧ RunsOn id (returnPrograms host offset) executions ∧
          ∀ x ∈ executions, x.2.reserved then
        some
          { kernel := runAll regs s.kernel executions
            frames := Function.update s.frames id fs }
      else none
  | .tracepoint call =>
    if isTracepoint call.program then some { s with kernel := handle s.kernel call } else none

/-- A return submits one stream event with the instant of its own entry when
both are probed, and nothing otherwise. -/
def OwnTiming (host : Host) (s : State n) : Action n → Prop
  | .leave id offset regs executions =>
    ∀ f ∈ (s.frames id).head?, ∀ u ∈ step host s (.leave id offset regs executions),
      if Enters host offset ∧ Exits host offset then
        ∃ e, u.kernel.gpuRingbuf = s.kernel.gpuRingbuf ++ [.stream e] ∧
          f.entry = some e.startTime ∧ e.pid = (id >>> 32).toUInt32
      else u.kernel.gpuRingbuf = s.kernel.gpuRingbuf
  | _ => True

section Entry

theorem startEvents_entry {host : Host} {offset : Offset} {prog : UprobeProgram}
    (hprog : prog ∈ entryPrograms host offset) (regs : Registers) (k : Kernel n) (c : Ctx n)
    (hroom : isTiming prog → Room k c.pidTgid) :
    (handle k ⟨prog.program regs, c⟩).startEventsStream =
      if isTiming prog then k.startEventsStream.insert c.pidTgid c.ktime
      else k.startEventsStream := by
  have hnone : submittedStream k ⟨prog.program regs, c⟩ = none := by
    simp [submittedStream, entry_not_ret hprog regs]
  apply Finmap.ext_lookup
  intro i
  rw [handle_startEvents, isTiming_iff, hnone]
  by_cases ht : isTiming prog
  · have hinsert : updateAny startEventsMaxEntries k.startEventsStream c.pidTgid c.ktime =
        k.startEventsStream.insert c.pidTgid c.ktime := if_pos (hroom ht)
    rw [if_pos ht, if_pos ht, hinsert]
  · simp [ht]

theorem entryTime_cons (x : Execution n) (xs : List (Execution n)) :
    entryTime (x :: xs) =
      (entryTime xs).or (if isTiming x.1 then some x.2.ktime else none) := by
  by_cases ht : isTiming x.1
  · cases hxs : xs.filter fun x => isTiming x.1 with
    | nil => simp [entryTime, ht, hxs]
    | cons y ys =>
      obtain ⟨z, hz⟩ : ∃ z, (y :: ys).getLast? = some z :=
        ⟨_, List.getLast?_eq_some_getLast (List.cons_ne_nil y ys)⟩
      have hcons : (x :: xs).filter (fun x => isTiming x.1) = x :: y :: ys := by simp [ht, hxs]
      rw [entryTime, entryTime, hcons, hxs, List.getLast?_cons_cons, hz]
      rfl
  · simp [entryTime, ht]

theorem isSome_entryTime (xs : List (Execution n)) :
    (entryTime xs).isSome ↔ ∃ x ∈ xs, isTiming x.1 := by
  simp [entryTime]

/-- The entry programs of a place leave the instant of the last of them. -/
theorem lookup_entry {host : Host} {offset : Offset} {id : UInt64} (regs : Registers)
    {executions : List (Execution n)}
    (hprogs : ∀ x ∈ executions, x.1 ∈ entryPrograms host offset)
    (hid : ∀ x ∈ executions, x.2.pidTgid = id) {k : Kernel n}
    (hroom : (∃ x ∈ executions, isTiming x.1) → Room k id) (i : UInt64) :
    (runAll regs k executions).startEventsStream.lookup i =
      if i = id then (entryTime executions).or (k.startEventsStream.lookup i)
      else k.startEventsStream.lookup i := by
  induction executions generalizing k with
  | nil => simp [runAll, entryTime]
  | cons x xs ih =>
    rw [List.forall_mem_cons] at hprogs hid
    have hmap := startEvents_entry hprogs.1 regs k x.2
      fun ht => hid.1 ▸ hroom ⟨x, List.mem_cons_self, ht⟩
    rw [hid.1] at hmap
    have hrest : runAll regs k (x :: xs) = runAll regs (handle k ⟨x.1.program regs, x.2⟩) xs := rfl
    rw [hrest, ih hprogs.2 hid.2, entryTime_cons, hmap]
    · by_cases ht : isTiming x.1
      · by_cases hi : i = id
        · subst hi
          simp [ht]
        · simp [ht, hi]
      · simp [ht]
    · rintro ⟨y, hy, ht⟩
      have hroom := hroom ⟨y, List.mem_cons_of_mem _ hy, ht⟩
      unfold Room
      rw [hmap]
      by_cases htx : isTiming x.1
      · left
        simp [htx]
      · rw [if_neg htx]
        exact hroom

end Entry

section Return

theorem handle_return {prog : UprobeProgram} {regs : Registers}
    (hprog : isSyncRet (prog.program regs)) (k : Kernel n) (c : Ctx n) :
    handle k ⟨prog.program regs, c⟩ = handleSyncRet k c := by
  cases prog <;> first | rfl | cases hprog

theorem runAll_return_none {host : Host} {offset : Offset} {id : UInt64} {regs : Registers}
    {executions : List (Execution n)}
    (hprogs : ∀ x ∈ executions, x.1 ∈ returnPrograms host offset)
    (hid : ∀ x ∈ executions, x.2.pidTgid = id) {k : Kernel n}
    (hnone : k.startEventsStream.lookup id = none) : runAll regs k executions = k := by
  induction executions with
  | nil => rfl
  | cons x xs ih =>
    rw [List.forall_mem_cons] at hprogs hid
    have hrest : runAll regs k (x :: xs) = runAll regs (handle k ⟨x.1.program regs, x.2⟩) xs := rfl
    have hsame : handle k ⟨x.1.program regs, x.2⟩ = k := by
      rw [handle_return (return_isSyncRet hprogs.1 regs), handleSyncRet, hid.1, hnone]
    rw [hrest, hsame, ih hprogs.2 hid.2]

/-- The first return program submits the event and removes the start, so that
the others of the place find nothing. -/
theorem runAll_return_some {host : Host} {offset : Offset} {id : UInt64} {regs : Registers}
    {x : Execution n} {xs : List (Execution n)}
    (hprogs : ∀ y ∈ x :: xs, y.1 ∈ returnPrograms host offset)
    (hid : ∀ y ∈ x :: xs, y.2.pidTgid = id) (hres : x.2.reserved) {k : Kernel n} {ts : UInt64}
    (hts : k.startEventsStream.lookup id = some ts) :
    runAll regs k (x :: xs) = submitAndCount
      { k with startEventsStream := k.startEventsStream.erase id } x.2
      (.stream (streamEvent x.2 ts)) := by
  rw [List.forall_mem_cons] at hprogs hid
  have hrest : runAll regs k (x :: xs) = runAll regs (handle k ⟨x.1.program regs, x.2⟩) xs := rfl
  have hfirst : handle k ⟨x.1.program regs, x.2⟩ = submitAndCount
      { k with startEventsStream := k.startEventsStream.erase id } x.2
      (.stream (streamEvent x.2 ts)) := by
    rw [handle_return (return_isSyncRet hprogs.1 regs), handleSyncRet, hid.1, hts]
    simp [hres]
  rw [hrest, hfirst]
  apply runAll_return_none hprogs.2 hid.2
  simp [submitAndCount]

end Return

section Threads

/-- Somewhere a synchronisation is probed on entry and not on return, or on
return and not on entry. -/
def Strands (host : Host) : Prop := ∃ offset, Enters host offset ∧ ¬ Exits host offset

def Intrudes (host : Host) : Prop := ∃ offset, Exits host offset ∧ ¬ Enters host offset

theorem missing_iff {host : Host} : (¬ Strands host ∨ ¬ Intrudes host) ↔
    (∀ offset, Exits host offset → Enters host offset) ∨
      ∀ offset, Enters host offset → Exits host offset := by
  rw [Strands, Intrudes, or_comm]
  push Not
  rfl

/-- What a thread has stored is the entry of its open synchronisation, or that
of an earlier one which had no probe on return. -/
structure Thread (host : Host) (fs : List Frame) (slot : Option UInt64) : Prop where
  single : fs.Pairwise fun f g => ¬ (Watched host f.offset ∧ Watched host g.offset)
  timed : ∀ f ∈ fs, f.entry.isSome ↔ Enters host f.offset
  stored : ∀ f ∈ fs, f.entry.isSome → slot = f.entry
  stale : (∀ f ∈ fs, f.entry = none) → slot ≠ none → Strands host

theorem thread_start (host : Host) : Thread host [] none where
  single := List.Pairwise.nil
  timed := fun f hf => by cases hf
  stored := fun f hf => by cases hf
  stale := fun _ hne => absurd rfl hne

theorem thread_enter {host : Host} {fs : List Frame} {slot : Option UInt64}
    (h : Thread host fs slot) {offset : Offset} {entry : Option UInt64}
    (halone : Watched host offset → ∀ f ∈ fs, ¬ Watched host f.offset)
    (hentry : entry.isSome ↔ Enters host offset) :
    Thread host (⟨offset, entry⟩ :: fs) (entry.or slot) := by
  constructor
  · rw [List.pairwise_cons]
    constructor
    · intro f hf hboth
      exact halone hboth.1 f hf hboth.2
    · exact h.single
  · rw [List.forall_mem_cons]
    exact ⟨hentry, h.timed⟩
  · rw [List.forall_mem_cons]
    constructor
    · intro hsome
      exact Option.or_of_isSome hsome
    · intro f hf hsome
      have hwatched : Watched host f.offset := .inl ((h.timed f hf).mp hsome)
      have hnone : entry = none := by
        by_contra hne
        have henters := hentry.mp (Option.isSome_iff_ne_none.mpr hne)
        exact halone (.inl henters) f hf hwatched
      rw [hnone, Option.none_or]
      exact h.stored f hf hsome
  · intro hall hne
    rw [List.forall_mem_cons] at hall
    obtain ⟨hnone, hall⟩ := hall
    dsimp only at hnone
    rw [hnone, Option.none_or] at hne
    exact h.stale hall hne

theorem thread_leave_unprobed {host : Host} {f : Frame} {fs : List Frame} {slot : Option UInt64}
    (h : Thread host (f :: fs) slot) (hno : ¬ Exits host f.offset) : Thread host fs slot := by
  obtain ⟨hsingle, htimed, hstored, hstale⟩ := h
  rw [List.forall_mem_cons] at htimed hstored
  refine ⟨(List.pairwise_cons.mp hsingle).2, htimed.2, hstored.2, fun hall hne => ?_⟩
  by_cases hf : f.entry = none
  · apply hstale _ hne
    rw [List.forall_mem_cons]
    exact ⟨hf, hall⟩
  · have henters := htimed.1.mp (Option.isSome_iff_ne_none.mpr hf)
    exact ⟨f.offset, henters, hno⟩

theorem thread_leave_probed {host : Host} {f : Frame} {fs : List Frame} {slot : Option UInt64}
    (h : Thread host (f :: fs) slot) (hyes : Exits host f.offset) : Thread host fs none := by
  obtain ⟨hsingle, htimed, -, -⟩ := h
  rw [List.forall_mem_cons] at htimed
  obtain ⟨halone, hsingle⟩ := List.pairwise_cons.mp hsingle
  refine ⟨hsingle, htimed.2, fun g hg hsome => ?_, fun _ hne => absurd rfl hne⟩
  have henters := (htimed.2 g hg).mp hsome
  exact absurd ⟨.inr hyes, .inl henters⟩ (halone g hg)

end Threads

section Runs

def Inv (host : Host) (s : State n) : Prop :=
  ∀ id, Thread host (s.frames id) (s.kernel.startEventsStream.lookup id)

theorem inv_start (host : Host) : Inv host (start n) := fun _ => thread_start host

theorem inv_update {host : Host} {s : State n} (hi : Inv host s) {id : UInt64} {k : Kernel n}
    {fs : List Frame} (hother : ∀ i, i ≠ id →
      k.startEventsStream.lookup i = s.kernel.startEventsStream.lookup i)
    (hown : Thread host fs (k.startEventsStream.lookup id)) :
    Inv host { kernel := k, frames := Function.update s.frames id fs } := by
  intro i
  by_cases hid : i = id
  · subst hid
    dsimp only
    rw [Function.update_self]
    exact hown
  · dsimp only
    rw [Function.update_of_ne hid, hother i hid]
    exact hi i

theorem RunsOn.mem {id : UInt64} {progs : List UprobeProgram} {executions : List (Execution n)}
    (h : RunsOn id progs executions) : ∀ x ∈ executions, x.1 ∈ progs :=
  fun _ hx => h.1.mem_iff.mp (List.mem_map_of_mem hx)

theorem RunsOn.isSome_entryTime {host : Host} {offset : Offset} {id : UInt64}
    {executions : List (Execution n)} (h : RunsOn id (entryPrograms host offset) executions) :
    (entryTime executions).isSome ↔ Enters host offset := by
  rw [Attachment.isSome_entryTime, Enters]
  constructor
  · rintro ⟨x, hx, ht⟩
    exact ⟨x.1, h.mem x hx, ht⟩
  · rintro ⟨prog, hprog, ht⟩
    obtain ⟨x, hx, rfl⟩ := List.mem_map.mp (h.1.mem_iff.mpr hprog)
    exact ⟨x, hx, ht⟩

theorem inv_enter {host : Host} {s : State n} (hi : Inv host s) {id : UInt64} {offset : Offset}
    (regs : Registers) {executions : List (Execution n)}
    (hruns : RunsOn id (entryPrograms host offset) executions)
    (hmay : MayEnter host s id offset) :
    Inv host { kernel := runAll regs s.kernel executions
               frames := Function.update s.frames id
                (⟨offset, entryTime executions⟩ :: s.frames id) } := by
  have hlookup := fun i => lookup_entry regs hruns.mem hruns.2
    (fun hex => hmay.1 (hruns.isSome_entryTime.mp ((Attachment.isSome_entryTime _).mpr hex))) i
  apply inv_update hi
  · intro i hne
    rw [hlookup, if_neg hne]
  · rw [hlookup, if_pos rfl]
    exact thread_enter (hi id) hmay.2 hruns.isSome_entryTime

inductive Returns (host : Host) (k : Kernel n) (id : UInt64) (offset : Offset) :
    Kernel n → Prop where
  | unprobed (hno : ¬ Exits host offset) : Returns host k id offset k
  | nothing (hyes : Exits host offset) (hnone : k.startEventsStream.lookup id = none) :
    Returns host k id offset k
  | submits {ts c} (hyes : Exits host offset) (hts : k.startEventsStream.lookup id = some ts)
    (hid : c.pidTgid = id) :
    Returns host k id offset (submitAndCount
      { k with startEventsStream := k.startEventsStream.erase id } c
      (.stream (streamEvent c ts)))

theorem returns_runAll {host : Host} {id : UInt64} {offset : Offset} {regs : Registers}
    {executions : List (Execution n)}
    (hruns : RunsOn id (returnPrograms host offset) executions)
    (hres : ∀ x ∈ executions, x.2.reserved) (k : Kernel n) :
    Returns host k id offset (runAll regs k executions) := by
  cases executions with
  | nil =>
    have hno : ¬ Exits host offset := not_not.mpr hruns.1.nil_eq.symm
    exact .unprobed hno
  | cons x xs =>
    have hyes : Exits host offset := List.ne_nil_of_mem (hruns.mem x List.mem_cons_self)
    cases hts : k.startEventsStream.lookup id with
    | none =>
      rw [runAll_return_none hruns.mem hruns.2 hts]
      exact .nothing hyes hts
    | some ts =>
      rw [runAll_return_some hruns.mem hruns.2 (hres x List.mem_cons_self) hts]
      exact .submits hyes hts (hruns.2 x List.mem_cons_self)

theorem step_leave {host : Host} {s u : State n} {id : UInt64} {offset : Offset}
    {regs : Registers} {executions : List (Execution n)}
    (h : step host s (.leave id offset regs executions) = some u) :
    ∃ entry fs k, s.frames id = ⟨offset, entry⟩ :: fs ∧ Returns host s.kernel id offset k ∧
      u = { kernel := k, frames := Function.update s.frames id fs } := by
  rw [step] at h
  split at h
  · cases h
  · next f fs hframes =>
    rw [Option.ite_none_right_eq_some, Option.some.injEq] at h
    obtain ⟨⟨rfl, hruns, hres⟩, rfl⟩ := h
    exact ⟨f.entry, fs, _, hframes, returns_runAll hruns hres s.kernel, rfl⟩

theorem inv_leave {host : Host} {s u : State n} (hi : Inv host s) {id : UInt64}
    {offset : Offset} {regs : Registers} {executions : List (Execution n)}
    (h : step host s (.leave id offset regs executions) = some u) : Inv host u := by
  obtain ⟨entry, fs, k, hframes, hret, rfl⟩ := step_leave h
  have hown := hi id
  rw [hframes] at hown
  apply inv_update hi
  · intro i hne
    cases hret with
    | unprobed | nothing => rfl
    | submits => simp [submitAndCount, hne]
  · cases hret with
    | unprobed hno => exact thread_leave_unprobed hown hno
    | nothing hyes hnone =>
      rw [hnone]
      exact thread_leave_probed hown hyes
    | submits hyes =>
      have hgone := thread_leave_probed hown hyes
      simpa [submitAndCount] using hgone

theorem inv_step {host : Host} {s u : State n} {a : Action n} (hi : Inv host s)
    (h : step host s a = some u) : Inv host u := by
  cases a with
  | enter id offset regs executions =>
    rw [step, Option.ite_none_right_eq_some, Option.some.injEq] at h
    obtain ⟨⟨hruns, hmay⟩, rfl⟩ := h
    exact inv_enter hi regs hruns hmay
  | leave id offset regs executions => exact inv_leave hi h
  | tracepoint call =>
    rw [step, Option.ite_none_right_eq_some, Option.some.injEq] at h
    obtain ⟨htp, rfl⟩ := h
    have hsame : (handle s.kernel call).startEventsStream = s.kernel.startEventsStream := by
      obtain ⟨program, c⟩ := call
      cases program with
      | watchdogIoctl mem fd =>
        simp only [handle, watchdogIoctl]
        split_ifs <;> rfl
      | processExit => rfl
      | _ => cases htp
    intro id
    have hold := hi id
    rw [← hsame] at hold
    exact hold

theorem inv_run {host : Host} {acts : List (Action n)} {s : State n}
    (h : exec (step host) (start n) acts = some s) : Inv host s :=
  exec_induction (I := fun _ s => Inv host s) (inv_start host)
    (fun _ _ _ _ _ hi hs => inv_step hi hs) h

theorem ownTiming_of {host : Host} (hsafe : ¬ Strands host ∨ ¬ Intrudes host) {s : State n}
    (hi : Inv host s) (a : Action n) : OwnTiming host s a := by
  cases a with
  | enter | tracepoint => trivial
  | leave id offset regs executions =>
    intro f hf u hu
    obtain ⟨entry, fs, k, hframes, hret, rfl⟩ := step_leave hu
    obtain rfl : ⟨offset, entry⟩ = f := by simpa [hframes] using hf
    have hown := hi id
    rw [hframes] at hown
    have htimed := hown.timed _ List.mem_cons_self
    have hstored := hown.stored _ List.mem_cons_self
    dsimp only at htimed hstored
    cases hret with
    | unprobed hno =>
      rw [if_neg fun h => hno h.2]
    | nothing hyes hnone =>
      have hno : ¬ Enters host offset := by
        intro henters
        have hsome := htimed.mpr henters
        rw [← hstored hsome, hnone] at hsome
        cases hsome
      rw [if_neg fun h => hno h.1]
    | @submits ts c hyes hts hid =>
      have henters : Enters host offset := by
        by_contra hno
        have halone := (List.pairwise_cons.mp hown.single).1
        have hnone : ∀ g ∈ (⟨offset, entry⟩ : Frame) :: fs, g.entry = none := by
          intro g hg
          by_contra hne
          have hg' := (hown.timed g hg).mp (Option.isSome_iff_ne_none.mpr hne)
          rcases List.mem_cons.mp hg with rfl | hg
          · exact hno hg'
          · exact halone g hg ⟨.inr hyes, .inl hg'⟩
        have hstrands := hown.stale hnone (by rw [hts]; exact Option.some_ne_none ts)
        cases hsafe with
        | inl hs => exact hs hstrands
        | inr hx => exact hx ⟨offset, hyes, hno⟩
      have hsome := htimed.mpr henters
      rw [if_pos ⟨henters, hyes⟩]
      refine ⟨streamEvent c ts, rfl, ?_, ?_⟩
      · dsimp only
        rw [← hstored hsome, hts]
        rfl
      · rw [← hid]
        rfl

def runWith (c : Ctx n) (progs : List UprobeProgram) : List (Execution n) :=
  progs.map fun p => (p, c)

theorem runsOn_runWith (c : Ctx n) (progs : List UprobeProgram) :
    RunsOn c.pidTgid progs (runWith c progs) := by
  constructor
  · simp [runWith, Function.comp_def]
  · intro x hx
    obtain ⟨p, -, rfl⟩ := List.mem_map.mp hx
    rfl

/-- A call of a function that is probed on entry only, and then of one that is
probed on return only. -/
def strandedRun (host : Host) (regs : Registers) (c : Ctx n) (first second : Offset) :
    List (Action n) :=
  [.enter c.pidTgid first regs (runWith c (entryPrograms host first)),
    .leave c.pidTgid first regs (runWith c (returnPrograms host first)),
    .enter c.pidTgid second regs (runWith c (entryPrograms host second))]

theorem enter_alone (host : Host) {s : State n} {c : Ctx n} (hopen : s.frames c.pidTgid = [])
    (offset : Offset) (regs : Registers) (hroom : Enters host offset → Room s.kernel c.pidTgid) :
    ∃ u t, step host s (.enter c.pidTgid offset regs (runWith c (entryPrograms host offset))) =
        some u ∧ u.frames c.pidTgid = [⟨offset, t⟩] ∧ (t.isSome ↔ Enters host offset) ∧
      u.kernel.startEventsStream.lookup c.pidTgid =
        t.or (s.kernel.startEventsStream.lookup c.pidTgid) := by
  have hruns := runsOn_runWith c (entryPrograms host offset)
  have hmay : MayEnter host s c.pidTgid offset := by
    refine ⟨hroom, fun _ f hf => ?_⟩
    rw [hopen] at hf
    cases hf
  have hlookup := lookup_entry regs hruns.mem hruns.2
    (fun hex => hroom (hruns.isSome_entryTime.mp ((Attachment.isSome_entryTime _).mpr hex)))
    c.pidTgid
  rw [if_pos rfl] at hlookup
  refine ⟨_, _, if_pos ⟨hruns, hmay⟩, ?_, hruns.isSome_entryTime, hlookup⟩
  dsimp only
  rw [Function.update_self, hopen]

theorem leave_alone (host : Host) {s : State n} {c : Ctx n} {f : Frame}
    (hopen : s.frames c.pidTgid = [f]) (hres : c.reserved) (regs : Registers) :
    ∃ u, step host s
        (.leave c.pidTgid f.offset regs (runWith c (returnPrograms host f.offset))) = some u ∧
      u.frames c.pidTgid = [] ∧ Returns host s.kernel c.pidTgid f.offset u.kernel := by
  have hruns := runsOn_runWith c (returnPrograms host f.offset)
  have hall : ∀ x ∈ runWith c (returnPrograms host f.offset), x.2.reserved := by
    intro x hx
    obtain ⟨p, -, rfl⟩ := List.mem_map.mp hx
    exact hres
  have hstep : step host s
      (.leave c.pidTgid f.offset regs (runWith c (returnPrograms host f.offset))) = some
        { kernel := runAll regs s.kernel (runWith c (returnPrograms host f.offset))
          frames := Function.update s.frames c.pidTgid [] } := by
    rw [step, hopen]
    exact if_pos ⟨rfl, hruns, hall⟩
  exact ⟨_, hstep, Function.update_self _ _ _, returns_runAll hruns hall s.kernel⟩

theorem strandedRun_not_own {host : Host} {first second : Offset}
    (hfirst : Enters host first ∧ ¬ Exits host first)
    (hsecond : Exits host second ∧ ¬ Enters host second) (regs : Registers) {c : Ctx n}
    (hres : c.reserved) : ∃ s, exec (step host) (start n) (strandedRun host regs c first second) =
      some s ∧
    ¬ OwnTiming host s (.leave c.pidTgid second regs (runWith c (returnPrograms host second))) := by
  have hempty : Room (start n).kernel c.pidTgid :=
    .inr (by decide : size (∅ : Map UInt64 UInt64) < startEventsMaxEntries)
  obtain ⟨s1, t1, h1, hopen1, ht1, hslot1⟩ :=
    enter_alone host (s := start n) (c := c) rfl first regs fun _ => hempty
  obtain ⟨s2, h2, hopen2, hret2⟩ := leave_alone host hopen1 hres regs
  obtain ⟨s3, t3, h3, hopen3, ht3, hslot3⟩ :=
    enter_alone host hopen2 second regs fun h => absurd h hsecond.2
  obtain ⟨u, h4, -, hret4⟩ := leave_alone host hopen3 hres regs
  have hnone : t3 = none := by
    by_contra hne
    exact hsecond.2 (ht3.mp (Option.isSome_iff_ne_none.mpr hne))
  have hslot2 : s2.kernel.startEventsStream.lookup c.pidTgid ≠ none := by
    generalize hk : s2.kernel = k at hret2
    cases hret2 with
    | unprobed =>
      rw [hslot1, Option.or_of_isSome (ht1.mpr hfirst.1)]
      exact Option.isSome_iff_ne_none.mp (ht1.mpr hfirst.1)
    | nothing hyes | submits hyes => exact absurd hyes hfirst.2
  refine ⟨s3, ?_, fun hown => ?_⟩
  · rw [strandedRun, exec_cons, h1, Option.bind_some, exec_cons, h2, Option.bind_some, exec_cons,
      h3, Option.bind_some, exec_nil]
  · have hsame := hown _ (by rw [hopen3]; rfl) u h4
    rw [if_neg fun h => hsecond.2 h.1] at hsame
    generalize hk : u.kernel = k at hret4 hsame
    cases hret4 with
    | unprobed hno => exact hno hsecond.1
    | nothing hyes hgone =>
      rw [hslot3, hnone, Option.none_or] at hgone
      exact hslot2 hgone
    | submits => simp [submitAndCount] at hsame

/-- Whichever probes could not be attached: every return of every run submits
one event with the start of its own call, or none when the call is not probed at
both ends, exactly when the missing probes are of one kind. -/
theorem timings_own_iff (host : Host) (n : ℕ) :
    (∀ acts, Along (step host) (OwnTiming host) (start (n + 1)) acts) ↔
      (∀ offset, Exits host offset → Enters host offset) ∨
        ∀ offset, Enters host offset → Exits host offset := by
  rw [← missing_iff]
  constructor
  · intro hall
    by_contra hboth
    push Not at hboth
    obtain ⟨⟨first, hfirst⟩, second, hsecond⟩ := hboth
    let c : Ctx (n + 1) := {
      pidTgid := 0
      cpu := 0
      comm := Vector.replicate 150 0
      ktime := 0
      initKtime := 0
      reserved := true
      pad := Vector.replicate 3 0 }
    let regs : Registers := ⟨fun _ => 0, none⟩
    obtain ⟨s, hs, hnot⟩ := strandedRun_not_own hfirst hsecond regs (c := c) rfl
    exact hnot (hall (strandedRun host regs c first second ++ [_]) _ _ [] rfl s hs)
  · rintro hsafe acts pre a post - s hs
    exact ownTiming_of hsafe (inv_run hs) a

end Runs

theorem enters_iff_exits (host : Host) (address : String → Option Offset)
    (hentry : ∀ name prog, host.uprobe name prog = address name)
    (hreturn : ∀ name prog, host.uretprobe name prog = address name) (offset : Offset) :
    Enters host offset ↔ Exits host offset := by
  have htables : (functionsEntry.filter fun fn => isTiming fn.2).map Prod.fst =
      functionsExit.map Prod.fst := rfl
  have henters : Enters host offset ↔
      ∃ name ∈ (functionsEntry.filter fun fn => isTiming fn.2).map Prod.fst,
        address name = some offset := by
    rw [Enters, entryPrograms_eq]
    simp only [hentry, List.mem_map, List.mem_filter, decide_eq_true_eq]
    constructor
    · rintro ⟨_, ⟨fn, ⟨hfn, ha⟩, rfl⟩, ht⟩
      exact ⟨fn.1, ⟨fn, ⟨hfn, ht⟩, rfl⟩, ha⟩
    · rintro ⟨_, ⟨fn, ⟨hfn, ht⟩, rfl⟩, ha⟩
      exact ⟨fn.2, ⟨fn, ⟨hfn, ha⟩, rfl⟩, ht⟩
  have hexits : Exits host offset ↔
      ∃ name ∈ functionsExit.map Prod.fst, address name = some offset := by
    rw [Exits, returnPrograms_eq, Ne, List.map_eq_nil_iff, List.filter_eq_nil_iff]
    simp only [hreturn, decide_eq_true_eq]
    push Not
    constructor
    · rintro ⟨fn, hfn, ha⟩
      exact ⟨fn.1, List.mem_map_of_mem hfn, ha⟩
    · rintro ⟨_, hname, ha⟩
      obtain ⟨fn, hfn, rfl⟩ := List.mem_map.mp hname
      exact ⟨fn, hfn, ha⟩
  rw [henters, hexits, htables]

end InfraSightGpu.Attachment
