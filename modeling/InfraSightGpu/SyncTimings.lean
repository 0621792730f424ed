import InfraSightGpu.Handlers

namespace InfraSightGpu.SyncTimings

open InfraSightGpu.Events InfraSightGpu.Records InfraSightGpu.Handlers InfraSightGpu.Lib.Maps

variable {n : Nat}

def isSync : Program → Bool
  | .cuStreamSync | .cuCtxSync => true
  | _ => false

def isSyncRet : Program → Bool
  | .cuStreamSynchronizeRet | .cuCtxSyncRet => true
  | _ => false

theorem isSyncRet_of_isSync {program : Program} (h : isSync program) :
    isSyncRet program = false := by
  cases program <;> first | rfl | cases h

def after (calls : List (Call n)) : Kernel n := calls.foldl handle (emptyKernel n)

def Submits (calls : List (Call n)) (i : Nat) (e : GpuStreamEvent) : Prop :=
  ∃ call, calls[i]? = some call ∧ (handle (after (calls.take i)) call).gpuRingbuf =
    (after (calls.take i)).gpuRingbuf ++ [.stream e]

def LastSync (calls : List (Call n)) (id : UInt64) (j : Nat) : Prop :=
  (∃ call, calls[j]? = some call ∧ isSync call.program ∧ call.ctx.pidTgid = id) ∧
    ∀ k call, j < k → calls[k]? = some call → isSync call.program → call.ctx.pidTgid ≠ id

def EntryOf (calls : List (Call n)) (i j : Nat) : Prop :=
  ∃ call, calls[i]? = some call ∧ LastSync (calls.take i) call.ctx.pidTgid j

/-- The stream record that an execution submits, if any: only a return handler
that finds an entry of its thread submits one. -/
def submittedStream (k : Kernel n) (call : Call n) : Option GpuStreamEvent :=
  if isSyncRet call.program ∧ call.ctx.reserved then
    (k.startEventsStream.lookup call.ctx.pidTgid).map (streamEvent call.ctx)
  else none

theorem handleSyncRet_submits (k : Kernel n) (call : Call n) (hret : isSyncRet call.program)
    (e : GpuStreamEvent) :
    (handleSyncRet k call.ctx).gpuRingbuf = k.gpuRingbuf ++ [.stream e] ↔
      submittedStream k call = some e := by
  unfold handleSyncRet submittedStream
  cases k.startEventsStream.lookup call.ctx.pidTgid with
  | none => simp
  | some ts => by_cases hr : call.ctx.reserved <;> simp [hr, hret, submitAndCount]

theorem submitAndCount_submits (k : Kernel n) (c : Ctx n) (r : GpuRecord) (e : GpuStreamEvent) :
    (if c.reserved then submitAndCount k c r else k).gpuRingbuf = k.gpuRingbuf ++ [.stream e] ↔
      c.reserved ∧ r = .stream e := by
  by_cases hr : c.reserved <;> simp [hr, submitAndCount]

theorem handle_submits (k : Kernel n) (call : Call n) (e : GpuStreamEvent) :
    (handle k call).gpuRingbuf = k.gpuRingbuf ++ [.stream e] ↔
      submittedStream k call = some e := by
  obtain ⟨program, c⟩ := call
  cases program with
  | cuLaunchkernel | cuMemAlloc | cuMemcpyHtod | cuMemcpyDtoh | cuMemcpyHtodAsync
  | cuMemcpyDtohAsync =>
    exact (submitAndCount_submits k c _ e).trans (by simp [submittedStream, isSyncRet])
  | cuStreamSync | cuCtxSync => simp [handle, handleCuStreamSync, handleCuCtxSync, handleSync,
      submittedStream, isSyncRet]
  | cuStreamSynchronizeRet | cuCtxSyncRet => exact handleSyncRet_submits k ⟨_, c⟩ rfl e
  | watchdogIoctl mem fd =>
    simp only [handle, watchdogIoctl, submittedStream, isSyncRet]
    split_ifs <;> simp_all
  | processExit => simp [handle, processExit, submittedStream, isSyncRet]

theorem handle_startEvents (k : Kernel n) (call : Call n) (id : UInt64) :
    (handle k call).startEventsStream.lookup id =
      if isSync call.program then
        (updateAny startEventsMaxEntries k.startEventsStream call.ctx.pidTgid
          call.ctx.ktime).lookup id
      else if (submittedStream k call).isSome ∧ id = call.ctx.pidTgid then none
      else k.startEventsStream.lookup id := by
  obtain ⟨program, c⟩ := call
  cases program with
  | cuLaunchkernel | cuMemAlloc | cuMemcpyHtod | cuMemcpyDtoh | cuMemcpyHtodAsync
  | cuMemcpyDtohAsync =>
    simp only [handle, handleCuLaunchkernel, handleCuMemAlloc, handleCuMemcpyHtod,
      handleCuMemcpyDtoh, handleCuMemcpyHtodAsync, handleCuMemcpyDtohAsync, handleCuMemcpy,
      submittedStream, isSync, isSyncRet]
    split_ifs <;> simp_all [submitAndCount]
  | cuStreamSync | cuCtxSync => rfl
  | cuStreamSynchronizeRet | cuCtxSyncRet =>
    simp only [handle, handleCuStreamSynchronizeRet, handleCuCtxSyncRet, handleSyncRet,
      submittedStream, isSync, isSyncRet]
    cases hts : k.startEventsStream.lookup c.pidTgid with
    | none => simp
    | some ts => by_cases hr : c.reserved <;> simp [hr, submitAndCount, lookup_erase]
  | watchdogIoctl mem fd =>
    simp only [handle, watchdogIoctl, submittedStream, isSync, isSyncRet]
    split_ifs <;> simp_all
  | processExit => simp [handle, processExit, submittedStream, isSync, isSyncRet]

theorem after_snoc (calls : List (Call n)) (call : Call n) :
    after (calls ++ [call]) = handle (after calls) call := by
  simp [after]

theorem submits_iff {calls : List (Call n)} {i : Nat} {e : GpuStreamEvent} :
    Submits calls i e ↔
      ∃ call, calls[i]? = some call ∧ submittedStream (after (calls.take i)) call = some e := by
  simp only [Submits, handle_submits]

theorem getElem?_snoc {calls : List (Call n)} {call c : Call n} {i : Nat} :
    (calls ++ [call])[i]? = some c ↔ calls[i]? = some c ∨ i = calls.length ∧ call = c := by
  rw [List.getElem?_append]
  split
  · next h => simp [h.ne]
  · next h =>
    rw [List.getElem?_eq_none (not_lt.mp h), List.getElem?_singleton]
    have : i - calls.length = 0 ↔ i = calls.length := by omega
    simp [this]

theorem take_snoc {calls : List (Call n)} {call : Call n} {i : Nat} (h : i ≤ calls.length) :
    (calls ++ [call]).take i = calls.take i := List.take_append_of_le_length h

theorem submits_snoc {calls : List (Call n)} {call : Call n} {i : Nat} {e : GpuStreamEvent} :
    Submits (calls ++ [call]) i e ↔
      Submits calls i e ∨ i = calls.length ∧ submittedStream (after calls) call = some e := by
  simp only [submits_iff, getElem?_snoc]
  constructor
  · rintro ⟨c, hc | ⟨rfl, rfl⟩, hs⟩
    · have hi := (List.getElem?_eq_some_iff.mp hc).1
      rw [take_snoc hi.le] at hs
      exact .inl ⟨c, hc, hs⟩
    · rw [take_snoc le_rfl, List.take_length] at hs
      exact .inr ⟨rfl, hs⟩
  · rintro (⟨c, hc, hs⟩ | ⟨rfl, hs⟩)
    · have hi := (List.getElem?_eq_some_iff.mp hc).1
      exact ⟨c, .inl hc, by rwa [take_snoc hi.le]⟩
    · exact ⟨call, .inr ⟨rfl, rfl⟩, by rwa [take_snoc le_rfl, List.take_length]⟩

theorem lastSync_self {calls : List (Call n)} {call : Call n} (h : isSync call.program) :
    LastSync (calls ++ [call]) call.ctx.pidTgid calls.length := by
  refine ⟨⟨call, getElem?_snoc.mpr (.inr ⟨rfl, rfl⟩), h, rfl⟩, fun k c hk hc _ => ?_⟩
  obtain hc | ⟨rfl, -⟩ := getElem?_snoc.mp hc
  · exact absurd (List.getElem?_eq_some_iff.mp hc).1 (by omega)
  · exact absurd hk (lt_irrefl _)

theorem LastSync.snoc {calls : List (Call n)} {id : UInt64} {j : Nat} (h : LastSync calls id j)
    {call : Call n} (hne : isSync call.program → call.ctx.pidTgid ≠ id) :
    LastSync (calls ++ [call]) id j := by
  obtain ⟨⟨c, hc, hsync, hid⟩, hlast⟩ := h
  refine ⟨⟨c, getElem?_snoc.mpr (.inl hc), hsync, hid⟩, fun k c' hk hc' hs => ?_⟩
  obtain hc' | ⟨-, rfl⟩ := getElem?_snoc.mp hc'
  · exact hlast k c' hk hc' hs
  · exact hne hs

theorem LastSync.unique {calls : List (Call n)} {id : UInt64} {j j' : Nat}
    (h : LastSync calls id j) (h' : LastSync calls id j') : j = j' := by
  obtain ⟨⟨c, hc, hs, hid⟩, hlast⟩ := h
  obtain ⟨⟨c', hc', hs', hid'⟩, hlast'⟩ := h'
  obtain hlt | heq | hgt := lt_trichotomy j j'
  · exact absurd hid' (hlast j' c' hlt hc' hs')
  · exact heq
  · exact absurd hid (hlast' j c hgt hc hs)

/-- A start time is that of the last entry of a thread, and the thread has
submitted nothing since. -/
def Fresh (calls : List (Call n)) (id ts : UInt64) : Prop :=
  ∃ j entry, LastSync calls id j ∧ calls[j]? = some entry ∧ entry.ctx.ktime = ts ∧
    ∀ i e ret, Submits calls i e → calls[i]? = some ret → ret.ctx.pidTgid = id → i < j

theorem lt_of_submits {calls : List (Call n)} {i : Nat} {e : GpuStreamEvent}
    (h : Submits calls i e) : i < calls.length := by
  obtain ⟨c, hc, -⟩ := h
  exact (List.getElem?_eq_some_iff.mp hc).1

theorem Fresh.snoc {calls : List (Call n)} {id ts : UInt64} (h : Fresh calls id ts)
    {call : Call n} (hsync : isSync call.program → call.ctx.pidTgid ≠ id)
    (hret : submittedStream (after calls) call ≠ none → call.ctx.pidTgid ≠ id) :
    Fresh (calls ++ [call]) id ts := by
  obtain ⟨j, entry, hlast, hentry, hts, hold⟩ := h
  refine ⟨j, entry, hlast.snoc hsync, getElem?_snoc.mpr (.inl hentry), hts, ?_⟩
  intro i e ret hsub hi hid
  obtain hsub | ⟨rfl, hnew⟩ := submits_snoc.mp hsub
  · obtain hi | ⟨rfl, -⟩ := getElem?_snoc.mp hi
    · exact hold i e ret hsub hi hid
    · exact absurd (lt_of_submits hsub) (lt_irrefl _)
  · obtain hi | ⟨-, rfl⟩ := getElem?_snoc.mp hi
    · exact absurd (List.getElem?_eq_some_iff.mp hi).1 (lt_irrefl _)
    · exact absurd hid (hret (by rw [hnew]; exact Option.some_ne_none e))

theorem fresh_self {calls : List (Call n)} {call : Call n} (h : isSync call.program) :
    Fresh (calls ++ [call]) call.ctx.pidTgid call.ctx.ktime := by
  refine ⟨calls.length, call, lastSync_self h, getElem?_snoc.mpr (.inr ⟨rfl, rfl⟩), rfl, ?_⟩
  intro i e ret hsub _ _
  obtain hsub | ⟨-, hsub⟩ := submits_snoc.mp hsub
  · exact lt_of_submits hsub
  · rw [submittedStream, isSyncRet_of_isSync h] at hsub
    simp at hsub

/-- Every start time in the map is fresh, also one that a failed reserve has
left there. -/
theorem fresh_of_lookup (calls : List (Call n)) (id ts : UInt64)
    (hlook : (after calls).startEventsStream.lookup id = some ts) : Fresh calls id ts := by
  induction calls using List.reverseRecOn generalizing id ts with
  | nil => simp [after, emptyKernel] at hlook
  | append_singleton calls call ih =>
    rw [after_snoc, handle_startEvents] at hlook
    by_cases hsync : isSync call.program
    · rw [if_pos hsync, lookup_updateAny] at hlook
      by_cases hid : id = call.ctx.pidTgid
      · subst hid
        split at hlook
        · cases hlook
          exact fresh_self hsync
        · next hfull =>
          have hmem : call.ctx.pidTgid ∈ (after calls).startEventsStream :=
            Finmap.mem_iff.mpr ⟨ts, hlook⟩
          exact absurd ⟨rfl, .inl hmem⟩ hfull
      · rw [if_neg (fun h => hid h.1)] at hlook
        exact (ih id ts hlook).snoc (fun _ => Ne.symm hid) (fun _ => Ne.symm hid)
    · rw [if_neg hsync] at hlook
      split at hlook
      · cases hlook
      · next hno =>
        refine (ih id ts hlook).snoc (fun h => absurd h hsync) fun hsub hid => hno ⟨?_, hid.symm⟩
        exact Option.isSome_iff_ne_none.mpr hsub

theorem submits_fresh {calls : List (Call n)} {i : Nat} {e : GpuStreamEvent}
    (h : Submits calls i e) : ∃ ret ts, calls[i]? = some ret ∧ isSyncRet ret.program ∧
      Fresh (calls.take i) ret.ctx.pidTgid ts ∧ e = streamEvent ret.ctx ts := by
  obtain ⟨ret, hret, hsub⟩ := submits_iff.mp h
  unfold submittedStream at hsub
  split at hsub
  · next hprog =>
    obtain ⟨ts, hlook, rfl⟩ := Option.map_eq_some_iff.mp hsub
    exact ⟨ret, ts, hret, hprog.1, fresh_of_lookup _ _ _ hlook, rfl⟩
  · cases hsub

theorem submits_take {calls : List (Call n)} {i k : Nat} (hik : i < k) {e : GpuStreamEvent}
    (h : Submits calls i e) : Submits (calls.take k) i e := by
  obtain ⟨c, hc, hs⟩ := h
  refine ⟨c, by rw [List.getElem?_take_of_lt hik, hc], ?_⟩
  rwa [List.take_take, min_eq_left hik.le]

/-- The entry of a submission is later than every earlier submission of the
thread, so no later submission has the same entry. -/
theorem entry_not_reused {calls : List (Call n)} {i i' j : Nat} {e e' : GpuStreamEvent}
    (h : Submits calls i e) (h' : Submits calls i' e') (hj : EntryOf calls i j)
    (hj' : EntryOf calls i' j) : i' ≤ i := by
  by_contra hlt
  have hlt : i < i' := not_le.mp hlt
  obtain ⟨ret, hret, ⟨entry, hentry, -, hid⟩, -⟩ := hj
  obtain ⟨ret', hret', hlast⟩ := hj'
  obtain ⟨c, ts, hc, -, ⟨k, -, hk, -, -, hold⟩, -⟩ := submits_fresh h'
  obtain rfl : c = ret' := Option.some.inj (hc.symm.trans hret')
  obtain rfl : k = j := hk.unique hlast
  obtain ⟨⟨entry', hentry', -, hid'⟩, -⟩ := hlast
  have hki : k < i := (List.getElem?_eq_some_iff.mp hentry).1.trans_le (List.length_take_le _ _)
  rw [List.getElem?_take_of_lt hki] at hentry
  rw [List.getElem?_take_of_lt (hki.trans hlt)] at hentry'
  obtain rfl : entry = entry' := Option.some.inj (hentry.symm.trans hentry')
  have hik : i < k := hold i e ret (submits_take hlt h)
    (by rw [List.getElem?_take_of_lt hlt, hret]) (hid.symm.trans hid')
  exact absurd hik hki.not_gt

theorem submits_of_mem_ring {calls : List (Call n)} {e : GpuStreamEvent}
    (h : .stream e ∈ (after calls).gpuRingbuf) : ∃ i, Submits calls i e := by
  induction calls using List.reverseRecOn with
  | nil => simp [after, emptyKernel] at h
  | append_singleton calls call ih =>
    have hnew : GpuRecord.stream e ∈ (after calls).gpuRingbuf ∨
        submittedStream (after calls) call = some e := by
      rw [after_snoc] at h
      rw [← handle_submits]
      cases handle_effect (after calls) call with
      | submitted r _ _ hring =>
        rw [hring] at h ⊢
        obtain h | h := List.mem_append.mp h
        · exact .inl h
        · exact .inr (by rw [List.mem_singleton.mp h])
      | ioctl hring => exact .inl (hring ▸ h)
      | exited _ hring => exact .inl (hring ▸ h)
      | quiet hring => exact .inl (hring ▸ h)
    obtain h | h := hnew
    · obtain ⟨i, hi⟩ := ih h
      exact ⟨i, submits_snoc.mpr (.inl hi)⟩
    · exact ⟨calls.length, submits_snoc.mpr (.inr ⟨rfl, h⟩)⟩

def ClockMonotone (calls : List (Call n)) : Prop :=
  calls.Pairwise fun a b => a.ctx.ktime ≤ b.ctx.ktime

instance (calls : List (Call n)) : Decidable (ClockMonotone calls) :=
  inferInstanceAs (Decidable (calls.Pairwise _))

/-- Every stream record is submitted by a return handler, carries the process of
its thread and the time of the last entry on that thread, and measures the
exact time since; and no two records come from the same entry. -/
theorem sync_timings (calls : List (Call n)) (hclock : ClockMonotone calls) :
    (∀ e, .stream e ∈ (after calls).gpuRingbuf → ∃ i, Submits calls i e) ∧
      (∀ i e, Submits calls i e → ∃ ret j entry, calls[i]? = some ret ∧
        isSyncRet ret.program ∧ EntryOf calls i j ∧ calls[j]? = some entry ∧
        e.pid = ret.ctx.pid ∧ e.startTime = entry.ctx.ktime ∧ e.startTime ≤ e.endTime ∧
        e.startTime.toNat + e.deltaNs.toNat = e.endTime.toNat) ∧
      ∀ i i' j e e', Submits calls i e → Submits calls i' e' → EntryOf calls i j →
        EntryOf calls i' j → i = i' := by
  refine ⟨fun e => submits_of_mem_ring, fun i e h => ?_, fun i i' j e e' h h' hj hj' =>
    le_antisymm (entry_not_reused h' h hj' hj) (entry_not_reused h h' hj hj')⟩
  obtain ⟨ret, ts, hret, hprog, ⟨j, entry, hlast, hentry, rfl, -⟩, rfl⟩ := submits_fresh h
  have hji : j < i := (List.getElem?_eq_some_iff.mp hentry).1.trans_le (List.length_take_le _ _)
  rw [List.getElem?_take_of_lt hji] at hentry
  have hle : entry.ctx.ktime ≤ ret.ctx.ktime := by
    obtain ⟨hi, rfl⟩ := List.getElem?_eq_some_iff.mp hret
    obtain ⟨hj, rfl⟩ := List.getElem?_eq_some_iff.mp hentry
    exact List.pairwise_iff_getElem.mp hclock j i hj hi hji
  refine ⟨ret, j, entry, hret, hprog, ⟨ret, hret, hlast⟩, hentry, rfl, rfl, hle, ?_⟩
  have hsub : (ret.ctx.ktime - entry.ctx.ktime).toNat =
      ret.ctx.ktime.toNat - entry.ctx.ktime.toNat := UInt64.toNat_sub_of_le _ _ hle
  have hnat : entry.ctx.ktime.toNat ≤ ret.ctx.ktime.toNat := UInt64.le_iff_toNat_le.mp hle
  simp only [streamEvent, hsub]
  omega

/-- The first return on thread 1 cannot reserve and leaves its entry behind. -/
def staleRun : List (Call 1) :=
  [sampleCall .cuStreamSync 1 10 true, sampleCall .cuStreamSynchronizeRet 1 20 false,
    sampleCall .cuCtxSync 2 25 true, sampleCall .cuCtxSync 1 30 true,
    sampleCall .cuCtxSyncRet 1 40 true, sampleCall .cuStreamSynchronizeRet 1 45 true,
    sampleCall .cuCtxSyncRet 2 50 true]

theorem sync_timings_staleRun : (after staleRun).gpuRingbuf.length = 2 ∧
    (∀ e, .stream e ∈ (after staleRun).gpuRingbuf → ∃ i, Submits staleRun i e) ∧
      (∀ i e, Submits staleRun i e → ∃ ret j entry, staleRun[i]? = some ret ∧
        isSyncRet ret.program ∧ EntryOf staleRun i j ∧ staleRun[j]? = some entry ∧
        e.pid = ret.ctx.pid ∧ e.startTime = entry.ctx.ktime ∧ e.startTime ≤ e.endTime ∧
        e.startTime.toNat + e.deltaNs.toNat = e.endTime.toNat) ∧
      ∀ i i' j e e', Submits staleRun i e → Submits staleRun i' e' → EntryOf staleRun i j →
        EntryOf staleRun i' j → i = i' :=
  ⟨by decide +kernel, sync_timings staleRun (by decide +kernel)⟩

end InfraSightGpu.SyncTimings
