import InfraSightGpu.Tracer
import Mathlib.Data.Nat.ModEq

namespace InfraSightGpu.CallAccounting

open InfraSightGpu.Events InfraSightGpu.Records InfraSightGpu.WatchdogMap InfraSightGpu.Handlers
open InfraSightGpu.Tracer InfraSightGpu.WindowTotals InfraSightGpu.Lib.Runs
open InfraSightGpu.Lib.Segments

variable {F : Type} [GoFloat F] {n : Nat}

def windowCalls (p : UInt32) (t : WindowHistory.Trace F) : Nat :=
  ((windowsOf p t).map fun s => (s.map fun s => totalCalls s.totals).getD 0).sum

theorem calls_of {p : UInt32} (evs : List Event) (h : ∀ ev ∈ evs, ev.IsOf p) :
    totalCalls (Totals.of evs) ≡ evs.length [MOD 2 ^ 64] := by
  rw [← length_kinds evs h]
  exact (((Nat.mod_modEq _ _).add (Nat.mod_modEq _ _)).add (Nat.mod_modEq _ _)).add
    (Nat.mod_modEq _ _)

theorem windowCalls_modEq {D : Duration} {t : WindowHistory.Trace F}
    (h : WindowHistory.Refines D t) (p : UInt32) :
    windowCalls p t ≡ (t.segments p).flat.length [MOD 2 ^ 64] := by
  rw [windowCalls, windowsOf_eq h, List.map_map, ← History.flatten_all, List.length_flatten]
  have hown : ∀ seg ∈ (t.segments p).all, ∀ ev ∈ seg.map Prod.snd, ev.IsOf p := by
    intro seg hseg ev hev
    obtain ⟨x, hx, rfl⟩ := List.mem_map.mp hev
    exact h.own p x (History.mem_flat_of_mem hseg hx)
  generalize (t.segments p).all = segs at hown ⊢
  induction segs with
  | nil => rfl
  | cons seg segs ih =>
    have hseg := calls_of (seg.map Prod.snd) (hown seg (by simp))
    rw [List.length_map] at hseg
    exact hseg.add (ih fun s hs => hown s (by simp [hs]))

omit [GoFloat F] in
theorem uprobeTotal_runProgram {p : UInt32} {s : State F n} {call : Call n}
    (hspares : Spares p s (.program call))
    (hcount : uprobeTotal p s.kernel.ioctlWatchdogMap = UInt64.ofNat (recordsOf p s.submitted)) :
    uprobeTotal p (runProgram s call).kernel.ioctlWatchdogMap =
      UInt64.ofNat (recordsOf p (runProgram s call).submitted) := by
  obtain ⟨hexit, hins⟩ := hspares
  cases handle_effect s.kernel call with
  | submitted r hpid hflag hring hmap =>
    have hsub : (runProgram s call).submitted = s.submitted ++ [r] := by simp [runProgram, hring]
    have hone : hits uprobeHit uprobeHit = 1 := rfl
    rw [hsub, recordsOf_append, UInt64.ofNat_add, ← hcount]
    simp only [runProgram, hmap, uprobeTotal_addToCounter, hone]
    congr 1
    by_cases hp : call.ctx.pid = p
    · have hmem : p ∈ (handle s.kernel call).ioctlWatchdogMap := by
        by_contra habs
        exact hins ⟨hp, by simp [hring], habs⟩
      rw [hmap] at hmem
      rw [if_pos ⟨hp.symm, hmem⟩]
      simp [recordsOf, hpid, hp]
    · rw [if_neg fun h => hp h.1.symm]
      simp [recordsOf, hpid, hp]
  | ioctl hring hmap =>
    have hzero : hits uprobeHit ioctlHit = 0 := rfl
    simp only [runProgram, hmap, hring, uprobeTotal_addToCounter, hzero]
    simpa using hcount
  | exited hcall hring hmap =>
    have hp : p ≠ call.ctx.pid := fun h => hexit ⟨by simp [hcall, isProcessExit], h.symm⟩
    simp only [runProgram, hmap, hring, uprobeTotal, lookup_handleProcessExit, hp, if_false]
    simpa [uprobeTotal] using hcount
  | quiet hring hmap =>
    simp only [runProgram, hmap, hring]
    simpa using hcount

theorem uprobeTotal_run {D interval : Duration} {now : Time} {acts : List (Action n)}
    {s : State F n} (h : exec step (start n D interval now) acts = some s) (p : UInt32)
    (hp : Along step (Spares p) (start (F := F) n D interval now) acts) :
    uprobeTotal p s.kernel.ioctlWatchdogMap = UInt64.ofNat (recordsOf p s.submitted) := by
  induction acts using List.reverseRecOn generalizing s with
  | nil =>
    cases h
    rfl
  | append_singleton acts a ih =>
    obtain ⟨t, ht, hs⟩ := exec_snoc_eq_some.mp h
    obtain ⟨hbefore, hlast⟩ := along_snoc.mp hp
    have hprev := ih ht hbefore
    obtain ⟨call, rfl, rfl⟩ | ⟨hmap, hsub⟩ := step_counters hs
    · exact uprobeTotal_runProgram (hlast t ht) hprev
    · rw [hmap, hsub]
      exact hprev

/-- The counter of the watchdog, the ring and the two collectors account for
the same calls, whenever the reader is between two records. -/
theorem calls_accounted (D interval : Duration) (now : Time) (acts : List (Action n))
    (s : State F n) (h : exec step (start n D interval now) acts = some s) (p : UInt32)
    (hp : Along step (Spares p) (start (F := F) n D interval now) acts)
    (hidle : s.reader = .idle) :
    uprobeTotal p s.kernel.ioctlWatchdogMap = UInt64.ofNat (recordsOf p s.submitted) ∧
      recordsOf p s.submitted ≡
        recordsOf p s.kernel.gpuRingbuf + windowCalls p s.windows [MOD 2 ^ 64] ∧
      recordsOf p s.submitted = recordsOf p s.kernel.gpuRingbuf +
        (TokenHistory.flushedTokens p s.series ++ TimeSeries.held p s.series.tc).length := by
  have hi := consistent_run h
  obtain ⟨hw, ht⟩ := hi.delivered p
  have hnone : s.series.pending = none := hi.pending (by simp [hidle])
  refine ⟨uprobeTotal_run h p hp, ?_, ?_⟩
  · rw [hw, hidle]
    exact (windowCalls_modEq hi.refines p).symm.add_left _
  · rw [ht, hidle, TokenHistory.tokensOf, TokenHistory.pendingTokens, hnone]
    simp [beforeSeries]

/-- Two submissions and a failed reserve of one process, one record delivered
around flushes and the other still in the ring. -/
def deliveringRun : List (Action 1) :=
  [.program (sampleCall (.cuMemAlloc 64) 1 1 true), .program (sampleCall .cuCtxSync 1 2 true),
    .program (sampleCall (.cuMemAlloc 32) 1 3 false), .read fun _ => 0, .updateWindows 4,
    .flushWindows 5 [7], .flushSeries [], .stampToken 6,
    .program (sampleCall .cuCtxSyncRet 1 7 true), .commitToken, .flushSeries [7]]

theorem calls_accounted_deliveringRun :
    ∃ s, exec step (start (F := ℚ) 1 10 5 0) deliveringRun = some s ∧
      uprobeTotal 7 s.kernel.ioctlWatchdogMap = UInt64.ofNat (recordsOf 7 s.submitted) ∧
      recordsOf 7 s.submitted ≡
        recordsOf 7 s.kernel.gpuRingbuf + windowCalls 7 s.windows [MOD 2 ^ 64] ∧
      recordsOf 7 s.submitted = recordsOf 7 s.kernel.gpuRingbuf +
        (TokenHistory.flushedTokens 7 s.series ++ TimeSeries.held 7 s.series.tc).length := by
  obtain ⟨s, hs, hidle⟩ : ∃ s, exec step (start (F := ℚ) 1 10 5 0) deliveringRun = some s ∧
      s.reader = .idle := by
    decide +kernel
  have hp : Along step (Spares 7) (start (F := ℚ) 1 10 5 0) deliveringRun := by decide +kernel
  exact ⟨s, hs, calls_accounted 10 5 0 deliveringRun s hs 7 hp hidle⟩

end InfraSightGpu.CallAccounting
