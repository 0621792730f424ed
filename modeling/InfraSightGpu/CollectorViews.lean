import InfraSightGpu.WindowTotals
import InfraSightGpu.TokenHistory
import InfraSightGpu.Lib.Words
import Mathlib.Data.Nat.Cast.Order.Ring
import Mathlib.Algebra.Order.Ring.Rat

namespace InfraSightGpu.CollectorViews

open InfraSightGpu.Events InfraSightGpu.TimeSeries InfraSightGpu.WindowTotals
open InfraSightGpu.Lib.Maps InfraSightGpu.Lib.Runs InfraSightGpu.Lib.Segments
open InfraSightGpu.Lib.Words

variable {F : Type} [GoFloat F]

/-- The two collectors of the reader. `sendToCollectors` updates the aggregator
first; an event that the time series has yet to get is owed. -/
structure State (F : Type) where
  windows : WindowHistory.Trace F
  series : TokenHistory.Trace F
  owed : Option Event

def start (windowDuration flushInterval : Duration) (now : Time) : State F where
  windows := WindowHistory.start windowDuration now
  series := TokenHistory.start flushInterval
  owed := none

inductive Action where
  | windows (a : WindowHistory.Action)
  | series (a : TokenHistory.Action)
deriving DecidableEq

/-- The reader gives the next event only when both collectors are done with the
one before, and gives both the same. Flushes happen at any time. -/
def step (s : State F) : Action → Option (State F)
  | .windows (.update now ev) =>
    match s.owed, s.series.pending with
    | none, none => (WindowHistory.step s.windows (.update now ev)).map
        fun windows => { s with windows := windows, owed := some ev }
    | _, _ => none
  | .windows (.flush now order) => (WindowHistory.step s.windows (.flush now order)).map
      fun windows => { s with windows := windows }
  | .series (.stamp now ev) =>
    if s.owed = some ev then (TokenHistory.step s.series (.stamp now ev)).map
      fun series => { s with series := series, owed := none }
    else none
  | .series a => (TokenHistory.step s.series a).map fun series => { s with series := series }

def windowActions (acts : List Action) : List WindowHistory.Action :=
  acts.filterMap fun | .windows a => some a | .series _ => none

def seriesActions (acts : List Action) : List TokenHistory.Action :=
  acts.filterMap fun | .windows _ => none | .series a => some a

def windowEvents (acts : List Action) : List Event :=
  (windowActions acts).filterMap fun | .update _ ev => some ev | .flush _ _ => none

def seriesEvents (acts : List Action) : List Event :=
  (TokenHistory.calls (seriesActions acts)).map Prod.snd

inductive Moves (s u : State F) : Action → Prop where
  | update {now : Time} {ev : Event} (howed : s.owed = none) (hidle : s.series.pending = none)
    (hw : WindowHistory.step s.windows (.update now ev) = some u.windows)
    (hs : u.series = s.series) (ho : u.owed = some ev) : Moves s u (.windows (.update now ev))
  | flushWindows {now : Time} {order : List UInt32}
    (hw : WindowHistory.step s.windows (.flush now order) = some u.windows)
    (hs : u.series = s.series) (ho : u.owed = s.owed) : Moves s u (.windows (.flush now order))
  | stamp {now : Time} {ev : Event} (howed : s.owed = some ev)
    (hs : TokenHistory.step s.series (.stamp now ev) = some u.series)
    (hw : u.windows = s.windows) (ho : u.owed = none) : Moves s u (.series (.stamp now ev))
  | series {a : TokenHistory.Action} (ha : TokenHistory.calls [a] = [])
    (hs : TokenHistory.step s.series a = some u.series)
    (hw : u.windows = s.windows) (ho : u.owed = s.owed) : Moves s u (.series a)

theorem step_moves {s u : State F} {a : Action} (hs : step s a = some u) : Moves s u a := by
  cases a with
  | windows a =>
    cases a with
    | update now ev =>
      simp only [step] at hs
      split at hs
      · next howed hidle =>
        obtain ⟨windows, hw, rfl⟩ := Option.map_eq_some_iff.mp hs
        exact .update howed hidle hw rfl rfl
      · cases hs
    | flush now order =>
      obtain ⟨windows, hw, rfl⟩ := Option.map_eq_some_iff.mp hs
      exact .flushWindows hw rfl rfl
  | series a =>
    cases a with
    | stamp now ev =>
      simp only [step] at hs
      split at hs
      · next howed =>
        obtain ⟨series, hw, rfl⟩ := Option.map_eq_some_iff.mp hs
        exact .stamp howed hw rfl rfl
      · cases hs
    | commit | flush order =>
      obtain ⟨series, hw, rfl⟩ := Option.map_eq_some_iff.mp hs
      exact .series rfl hw rfl rfl

theorem windows_run {D interval : Duration} {now : Time} {acts : List Action} {s : State F}
    (h : exec step (start D interval now) acts = some s) :
    exec WindowHistory.step (WindowHistory.start D now) (windowActions acts) = some s.windows := by
  refine exec_project (g := State.windows) (I := fun _ => True) (fun _ _ _ _ _ => trivial) ?_
    trivial h
  intro s a u _ hs
  cases step_moves hs with
  | update _ _ hw => simpa using hw
  | flushWindows hw => simpa using hw
  | stamp _ _ hw => simp [hw]
  | series _ _ hw => simp [hw]

theorem series_run {D interval : Duration} {now : Time} {acts : List Action} {s : State F}
    (h : exec step (start D interval now) acts = some s) :
    exec TokenHistory.step (TokenHistory.start interval) (seriesActions acts) = some s.series := by
  refine exec_project (g := State.series) (I := fun _ => True) (fun _ _ _ _ _ => trivial) ?_
    trivial h
  intro s a u _ hstep
  cases step_moves hstep with
  | update _ _ _ hs => simp [hs]
  | flushWindows _ hs => simp [hs]
  | stamp _ hs => simpa using hs
  | series _ hs => simpa using hs

theorem events_run {D interval : Duration} {now : Time} {acts : List Action} {s : State F}
    (h : exec step (start D interval now) acts = some s) :
    windowEvents acts = seriesEvents acts ++ s.owed.toList := by
  refine exec_induction (I := fun acts (s : State F) =>
    windowEvents acts = seriesEvents acts ++ s.owed.toList) rfl ?_ h
  intro as t a u _ ih hs
  have hsplit : windowEvents (as ++ [a]) = windowEvents as ++ windowEvents [a] ∧
      seriesEvents (as ++ [a]) = seriesEvents as ++ seriesEvents [a] := by
    simp [windowEvents, seriesEvents, windowActions, seriesActions, TokenHistory.calls]
  rw [hsplit.1, hsplit.2, ih]
  cases step_moves hs with
  | update howed _ _ _ ho =>
    rw [howed, ho]
    simp [windowEvents, seriesEvents, windowActions, seriesActions, TokenHistory.calls]
  | flushWindows _ _ ho =>
    rw [ho]
    simp [windowEvents, seriesEvents, windowActions, seriesActions, TokenHistory.calls]
  | stamp howed _ _ ho =>
    rw [howed, ho]
    simp [windowEvents, seriesEvents, windowActions, seriesActions, TokenHistory.calls]
  | series ha _ _ ho =>
    rw [ho]
    simp [windowEvents, seriesEvents, windowActions, seriesActions, ha]

theorem gpuEvents_eq (p : UInt32) (acts : List Action) :
    gpuEvents p (windowActions acts) = (windowEvents acts).filter fun ev => ev.IsOf p := by
  rw [gpuEvents, WindowHistory.timedEvents, windowEvents]
  induction windowActions acts with
  | nil => rfl
  | cons a as ih =>
    cases a with
    | update now ev => by_cases hp : ev.IsOf p <;> simp [hp, ih]
    | flush now order => simpa using ih

theorem callsOf_eq (p : UInt32) (acts : List Action) :
    (TokenHistory.callsOf p (seriesActions acts)).map Prod.snd =
      (seriesEvents acts).filter fun ev => ev.IsOf p := by
  rw [TokenHistory.callsOf, seriesEvents, List.filter_map]
  rfl

def tokensOf (p : UInt32) (t : TokenHistory.Trace F) : List (GpuEventToken F) :=
  TokenHistory.flushedTokens p t ++ held p t.tc

def totalsOf (p : UInt32) (t : WindowHistory.Trace F) : List Totals :=
  (windowsOf p t).filterMap fun s => s.map Summary.totals

def tokenValues (k : GpuEventType) (tks : List (GpuEventToken ℚ)) : List ℚ :=
  (tks.filter fun tk => tk.eventType = k).map GpuEventToken.value

def copyValues (dir : ℤ) (tks : List (GpuEventToken ℚ)) : List ℚ :=
  (tks.filter fun tk => tk.eventType = .eventMemcpy ∧ tk.dir = dir).map GpuEventToken.value

def eventType : Event → Option GpuEventType
  | .kernelLaunch _ => some .eventKernelLaunch
  | .memalloc _ => some .eventMemalloc
  | .memcpy _ => some .eventMemcpy
  | .stream _ => some .eventStreamSync
  | .other => none

def typeCount (k : GpuEventType) (evs : List Event) : Nat :=
  evs.countP fun ev => eventType ev = some k

def countOf (k : GpuEventType) (t : Totals) : Nat :=
  match k with
  | .eventUnknown => 0
  | .eventKernelLaunch => t.kernelLaunchCount
  | .eventMemalloc => t.memAllocCount
  | .eventMemcpy => t.memcpyCount
  | .eventStreamSync => t.streamSyncCount

theorem countOf_of (k : GpuEventType) (evs : List Event) :
    countOf k (Totals.of evs) = typeCount k evs % 2 ^ 64 := by
  have hcount : ∀ {E : Type} (g : Event → Option E),
      (∀ ev, (g ev).isSome ↔ eventType ev = some k) →
      (evs.filterMap g).length = typeCount k evs := by
    intro E g hg
    rw [List.length_filterMap_eq_countP, typeCount]
    apply List.countP_congr
    intro ev _
    simpa using hg ev
  cases k with
  | eventUnknown =>
    have hzero : typeCount .eventUnknown evs = 0 := by
      apply List.countP_eq_zero.mpr
      intro ev _
      cases ev <;> simp [eventType]
    rw [hzero]
    rfl
  | eventKernelLaunch | eventMemalloc | eventMemcpy | eventStreamSync =>
    refine congrArg (· % 2 ^ 64) (hcount _ fun ev => ?_)
    cases ev <;> simp [eventType]

section Values

def launchValue : Event → Option UInt64
  | .kernelLaunch e => some e.totalThreads
  | _ => none

def allocValue : Event → Option UInt64
  | .memalloc e => some e.byteSize
  | _ => none

def htodValue : Event → Option UInt64
  | .memcpy e => if e.kind = 0 then some e.byteSize else none
  | _ => none

def dtohValue : Event → Option UInt64
  | .memcpy e => if e.kind = 0 then none else some e.byteSize
  | _ => none

def syncValue : Event → Option UInt64
  | .stream e => some e.deltaNs
  | _ => none

theorem launches_values (evs : List Event) :
    (launches evs).map (·.totalThreads) = evs.filterMap launchValue := by
  rw [launches, List.map_filterMap]
  congr 1
  funext ev
  cases ev <;> rfl

theorem allocs_values (evs : List Event) :
    (allocs evs).map (·.byteSize) = evs.filterMap allocValue := by
  rw [allocs, List.map_filterMap]
  congr 1
  funext ev
  cases ev <;> rfl

theorem htodCopies_values (evs : List Event) :
    (htodCopies evs).map (·.byteSize) = evs.filterMap htodValue := by
  rw [htodCopies, copies, List.filter_filterMap, List.map_filterMap]
  congr 1
  funext ev
  cases ev with
  | memcpy e => by_cases hk : e.kind = 0 <;> simp [htodValue, hk]
  | kernelLaunch e | memalloc e | stream e | other => rfl

theorem dtohCopies_values (evs : List Event) :
    (dtohCopies evs).map (·.byteSize) = evs.filterMap dtohValue := by
  rw [dtohCopies, copies, List.filter_filterMap, List.map_filterMap]
  congr 1
  funext ev
  cases ev with
  | memcpy e => by_cases hk : e.kind = 0 <;> simp [dtohValue, hk]
  | kernelLaunch e | memalloc e | stream e | other => rfl

theorem syncs_values (evs : List Event) :
    (syncs evs).map (·.deltaNs) = evs.filterMap syncValue := by
  rw [syncs, List.map_filterMap]
  congr 1
  funext ev
  cases ev <;> rfl

end Values

section Tokens

variable (xs : List (Time × Event))

def tokensFrom : List (GpuEventToken ℚ) := xs.filterMap fun x => eventToToken x.1 x.2

theorem countP_tokensFrom (k : GpuEventType) :
    (tokensFrom xs).countP (fun tk => tk.eventType = k) = typeCount k (xs.map Prod.snd) := by
  rw [tokensFrom, List.countP_filterMap, typeCount, List.countP_map]
  apply List.countP_congr
  rintro ⟨now, ev⟩ _
  cases ev <;> simp [eventToToken, eventType]

theorem values_tokensFrom {q : GpuEventToken ℚ → Bool} {g : Event → Option UInt64}
    (hqg : ∀ now ev, ((eventToToken now ev).filter q).map GpuEventToken.value =
      (g ev).map fun v => (v.toNat : ℚ)) :
    ((tokensFrom xs).filter q).map GpuEventToken.value =
      ((xs.map Prod.snd).filterMap g).map fun v => (v.toNat : ℚ) := by
  rw [tokensFrom, List.filter_filterMap, List.map_filterMap, List.filterMap_map,
    List.map_filterMap]
  congr 1
  funext x
  exact hqg x.1 x.2

theorem launch_values : tokenValues .eventKernelLaunch (tokensFrom xs) =
    ((xs.map Prod.snd).filterMap launchValue).map fun v => (v.toNat : ℚ) := by
  apply values_tokensFrom
  intro now ev
  cases ev <;> simp [eventToToken, launchValue, ofUInt64_rat]

theorem alloc_values : tokenValues .eventMemalloc (tokensFrom xs) =
    ((xs.map Prod.snd).filterMap allocValue).map fun v => (v.toNat : ℚ) := by
  apply values_tokensFrom
  intro now ev
  cases ev <;> simp [eventToToken, allocValue, ofUInt64_rat]

theorem sync_values : tokenValues .eventStreamSync (tokensFrom xs) =
    ((xs.map Prod.snd).filterMap syncValue).map fun v => (v.toNat : ℚ) := by
  apply values_tokensFrom
  intro now ev
  cases ev <;> simp [eventToToken, syncValue, ofUInt64_rat]

theorem htod_values : copyValues dirHtod (tokensFrom xs) =
    ((xs.map Prod.snd).filterMap htodValue).map fun v => (v.toNat : ℚ) := by
  apply values_tokensFrom
  intro now ev
  cases ev with
  | memcpy e =>
    by_cases hk : e.kind = 0 <;>
      simp [eventToToken, htodValue, ofUInt64_rat, dirHtod, dirDtoh, hk]
  | kernelLaunch e | memalloc e | stream e | other => simp [eventToToken, htodValue]

theorem dtoh_values : copyValues dirDtoh (tokensFrom xs) =
    ((xs.map Prod.snd).filterMap dtohValue).map fun v => (v.toNat : ℚ) := by
  apply values_tokensFrom
  intro now ev
  cases ev with
  | memcpy e =>
    by_cases hk : e.kind = 0 <;>
      simp [eventToToken, dtohValue, ofUInt64_rat, dirHtod, dirDtoh, hk]
  | kernelLaunch e | memalloc e | stream e | other => simp [eventToToken, dtohValue]

end Tokens

/-- A sum of exact values is congruent mod 2^64 to a sum of uint64 totals. -/
def SumModEq (vs : List ℚ) (ns : List Nat) : Prop :=
  ∃ n : Nat, vs.sum = n ∧ n ≡ ns.sum [MOD 2 ^ 64]

def LargestEq (vs : List ℚ) (ns : List Nat) : Prop :=
  vs.foldl max 0 = (ns.foldl Nat.max 0 : Nat)

/-- What the tokens and the windows of a process must have in common. -/
structure Agree (tks : List (GpuEventToken ℚ)) (ws : List Totals) : Prop where
  counts : ∀ k, tks.countP (fun tk => tk.eventType = k) ≡ (ws.map (countOf k)).sum [MOD 2 ^ 64]
  threads : SumModEq (tokenValues .eventKernelLaunch tks) (ws.map (·.totalThreadsLaunched))
  allocBytes : SumModEq (tokenValues .eventMemalloc tks) (ws.map (·.totalMemAllocBytes))
  htodBytes : SumModEq (copyValues dirHtod tks) (ws.map (·.htodBytes))
  dtohBytes : SumModEq (copyValues dirDtoh tks) (ws.map (·.dtohBytes))
  maxThreads : LargestEq (tokenValues .eventKernelLaunch tks) (ws.map (·.maxThreadsPerKernel))
  maxSync : LargestEq (tokenValues .eventStreamSync tks) (ws.map (·.maxSyncTimeNs))

theorem foldl_max_cast (ns : List Nat) (a : Nat) :
    (ns.map (Nat.cast : Nat → ℚ)).foldl max (a : ℚ) = (ns.foldl Nat.max a : Nat) := by
  induction ns generalizing a with
  | nil => rfl
  | cons n ns ih =>
    rw [List.map_cons, List.foldl_cons, List.foldl_cons, ← ih]
    congr 1
    exact (Nat.cast_max a n).symm

section Views

variable {xs : List (Time × Event)} {segs : List (List Event)}
  (hflat : segs.flatten = xs.map Prod.snd)
include hflat

theorem sumModEq_segments {vs : List ℚ} {g : Event → Option UInt64} {field : Totals → Nat}
    (hvs : vs = ((xs.map Prod.snd).filterMap g).map fun v => (v.toNat : ℚ))
    (hfield : ∀ evs, field (Totals.of evs) = sum64 (evs.filterMap g)) :
    SumModEq vs ((segs.map Totals.of).map field) := by
  rw [hvs, ← hflat, List.map_map]
  refine ⟨((segs.flatten.filterMap g).map UInt64.toNat).sum, ?_, ?_⟩
  · rw [Nat.cast_list_sum, List.map_map]
    rfl
  · have hpieces := sum_pieces_modEq (f := fun seg => ((seg.filterMap g).map UInt64.toNat).sum) rfl
      (fun a b => by simp) (2 ^ 64) segs
    simp only [Function.comp_def, hfield]
    exact hpieces.symm

theorem largestEq_segments {vs : List ℚ} {g : Event → Option UInt64} {field : Totals → Nat}
    (hvs : vs = ((xs.map Prod.snd).filterMap g).map fun v => (v.toNat : ℚ))
    (hfield : ∀ evs, field (Totals.of evs) = max64 (evs.filterMap g)) :
    LargestEq vs ((segs.map Totals.of).map field) := by
  have hpieces := foldl_max_pieces (fun seg => (seg.filterMap g).map UInt64.toNat) rfl
    (fun a b => by simp) segs
  have hcast := foldl_max_cast ((segs.flatten.filterMap g).map UInt64.toNat) 0
  rw [List.map_map, Nat.cast_zero] at hcast
  rw [hvs, ← hflat, List.map_map, LargestEq]
  simp only [Function.comp_def, hfield, max64, hpieces]
  exact hcast

theorem counts_of_segments (k : GpuEventType) :
    (tokensFrom xs).countP (fun tk => tk.eventType = k) = typeCount k segs.flatten ∧
      ((segs.map Totals.of).map (countOf k)).sum =
        (segs.map fun seg => typeCount k seg % 2 ^ 64).sum := by
  refine ⟨by rw [countP_tokensFrom, hflat], ?_⟩
  rw [List.map_map]
  exact congrArg List.sum (List.map_congr_left fun seg _ => countOf_of k seg)

/-- The tokens of some events agree with the totals of any cut of them into segments. -/
theorem agree_segments : Agree (tokensFrom xs) (segs.map Totals.of) where
  counts k := by
    obtain ⟨htok, hwin⟩ := counts_of_segments hflat k
    rw [htok, hwin]
    exact (sum_pieces_modEq rfl (fun _ _ => List.countP_append) _ segs).symm
  threads := sumModEq_segments hflat (launch_values xs) fun evs =>
    congrArg sum64 (launches_values evs)
  allocBytes := sumModEq_segments hflat (alloc_values xs) fun evs =>
    congrArg sum64 (allocs_values evs)
  htodBytes := sumModEq_segments hflat (htod_values xs) fun evs =>
    congrArg sum64 (htodCopies_values evs)
  dtohBytes := sumModEq_segments hflat (dtoh_values xs) fun evs =>
    congrArg sum64 (dtohCopies_values evs)
  maxThreads := largestEq_segments hflat (launch_values xs) fun evs =>
    congrArg max64 (launches_values evs)
  maxSync := largestEq_segments hflat (sync_values xs) fun evs =>
    congrArg max64 (syncs_values evs)

theorem counts_eq_iff (k : GpuEventType) :
    (tokensFrom xs).countP (fun tk => tk.eventType = k) =
        ((segs.map Totals.of).map (countOf k)).sum ↔
      ∀ seg ∈ segs, typeCount k seg < 2 ^ 64 := by
  obtain ⟨htok, hwin⟩ := counts_of_segments hflat k
  rw [htok, hwin, eq_comm]
  exact sum_pieces_eq_iff rfl (fun _ _ => List.countP_append) (by norm_num) segs

end Views

/-- With no call in progress, the tokens are those of the events that the
windows cut into segments. -/
theorem views_run {D interval : Duration} {now : Time} {acts : List Action} {s : State ℚ}
    (h : exec step (start D interval now) acts = some s) (howed : s.owed = none)
    (hidle : s.series.pending = none) (p : UInt32) :
    ∃ (xs : List (Time × Event)) (segs : List (List Event)),
      segs.flatten = xs.map Prod.snd ∧
      segs = (s.windows.segments p).all.map (List.map Prod.snd) ∧
      xs.map Prod.snd = (windowEvents acts).filter (fun ev => ev.IsOf p) ∧
      tokensOf p s.series = tokensFrom xs ∧
      windowsOf p s.windows = segs.map (fun seg => some (Summary.of p seg)) ∧
      totalsOf p s.windows = segs.map Totals.of := by
  have hw := windows_run h
  have hevents : windowEvents acts = seriesEvents acts := by
    simpa [howed] using events_run h
  have hxs : (TokenHistory.callsOf p (seriesActions acts)).map Prod.snd =
      (windowEvents acts).filter fun ev => ev.IsOf p := by
    rw [callsOf_eq, hevents]
  have hwin : windowsOf p s.windows = ((s.windows.segments p).all.map (List.map Prod.snd)).map
      fun seg => some (Summary.of p seg) := by
    rw [windowsOf_eq (WindowHistory.refines_run hw) p, List.map_map]
    rfl
  refine ⟨TokenHistory.callsOf p (seriesActions acts),
    (s.windows.segments p).all.map (List.map Prod.snd), ?_, rfl, hxs, ?_, hwin, ?_⟩
  · rw [← List.map_flatten, History.flatten_all, WindowHistory.flat_run hw p, hxs, ← gpuEvents_eq]
    rfl
  · have htok := TokenHistory.tokensOf_run (series_run h) p
    rw [TokenHistory.tokensOf, TokenHistory.pendingTokens, hidle] at htok
    simpa [tokensOf, tokensFrom] using htok
  · rw [totalsOf, hwin, List.filterMap_map]
    simp [Function.comp_def, Summary.of, List.filterMap_eq_map']

/-- The two views of a process agree under every two schedules of flushes.
Counts agree as numbers exactly when no window has counted 2^64 events of the
type. -/
theorem views_agree (D interval : Duration) (now : Time) (acts : List Action) (s : State ℚ)
    (h : exec step (start D interval now) acts = some s) (howed : s.owed = none)
    (hidle : s.series.pending = none) (p : UInt32) :
    Agree (tokensOf p s.series) (totalsOf p s.windows) ∧
      ∃ segs : List (List Event),
        segs.flatten = (windowEvents acts).filter (fun ev => ev.IsOf p) ∧
        windowsOf p s.windows = segs.map (fun seg => some (Summary.of p seg)) ∧
        ∀ k, (tokensOf p s.series).countP (fun tk => tk.eventType = k) =
            ((totalsOf p s.windows).map (countOf k)).sum ↔
          ∀ seg ∈ segs, typeCount k seg < 2 ^ 64 := by
  obtain ⟨xs, segs, hflat, -, hxs, htok, hwin, htot⟩ := views_run h howed hidle p
  rw [htok, htot]
  exact ⟨agree_segments hflat, segs, hflat.trans hxs, hwin, counts_eq_iff hflat⟩

def interleavedRun : List Action :=
  [.windows (.update 1 (sampleLaunch 7 32)), .series (.flush []),
    .series (.stamp 1 (sampleLaunch 7 32)), .windows (.flush 4 [7]), .series .commit,
    .windows (.update 5 (sampleMemcpy 8 100 0)), .series (.stamp 6 (sampleMemcpy 8 100 0)),
    .series (.flush [7]), .series .commit]

theorem views_agree_interleavedRun :
    ∃ s, exec step (start (F := ℚ) 2 5 0) interleavedRun = some s ∧
      Agree (tokensOf 7 s.series) (totalsOf 7 s.windows) ∧
      ∃ segs : List (List Event),
        segs.flatten = (windowEvents interleavedRun).filter (fun ev => ev.IsOf 7) ∧
        windowsOf 7 s.windows = segs.map (fun seg => some (Summary.of 7 seg)) ∧
        ∀ k, (tokensOf 7 s.series).countP (fun tk => tk.eventType = k) =
            ((totalsOf 7 s.windows).map (countOf k)).sum ↔
          ∀ seg ∈ segs, typeCount k seg < 2 ^ 64 := by
  obtain ⟨s, hs, howed, hpending⟩ : ∃ s, exec step (start (F := ℚ) 2 5 0) interleavedRun = some s ∧
      s.owed = none ∧ s.series.pending = none := by
    decide +kernel
  exact ⟨s, hs, views_agree 2 5 0 interleavedRun s hs howed hpending 7⟩

/-- Launches in one window, with a flush of the time series after each of them. -/
def floodRun : Nat → List Action
  | 0 => []
  | m + 1 => floodRun m ++ [.windows (.update 1 (sampleLaunch 7 32)),
      .series (.stamp 1 (sampleLaunch 7 32)), .series .commit, .series (.flush [7])]

theorem floodRun_events (m : Nat) :
    windowEvents (floodRun m) = List.replicate m (sampleLaunch 7 32) := by
  induction m with
  | zero => rfl
  | succ m ih =>
    rw [List.replicate_succ', ← ih]
    simp [floodRun, windowEvents, windowActions]

theorem floodRun_exec (m : Nat) : ∃ s, exec step (start (F := ℚ) 2 5 0) (floodRun m) = some s ∧
    s.owed = none ∧ s.series.pending = none ∧ s.series.tc.buffers = ∅ ∧
    (s.windows.segments 7).closed = [] := by
  induction m with
  | zero => exact ⟨_, rfl, rfl, rfl, rfl, rfl⟩
  | succ m ih =>
    obtain ⟨s, hs, howed, hidle, hempty, hclosed⟩ := ih
    obtain ⟨e, he, hpid⟩ : ∃ e, sampleLaunch 7 32 = .kernelLaunch e ∧ e.pid = 7 := ⟨_, rfl, rfl⟩
    have ho : ∀ u : Pending ℚ, u.pid = 7 → Enumerates [7] (commit s.series.tc u).buffers := by
      intro u hu
      apply enumerates_singleton
      simp [commit, hu, hempty, Finmap.notMem_empty]
    have hflush : ∀ tc : TimeSeriesCollector ℚ, (flush tc [7]).1.buffers = ∅ := by
      intro tc
      unfold flush
      dsimp only
      split <;> rfl
    rw [floodRun, exec_append, hs, he]
    simp only [step, howed, hidle, WindowHistory.step, WindowHistory.traceUpdate, TokenHistory.step,
      prepare, eventToToken, exec_cons, exec_nil, Option.map_some, Option.bind_some, if_true]
    rw [if_pos (ho _ hpid)]
    refine ⟨_, rfl, rfl, rfl, hflush _, ?_⟩
    dsimp only
    split <;> exact hclosed

theorem floodRun_counts {m : Nat} (hm : 2 ^ 64 ≤ m) {s : State ℚ}
    (hs : exec step (start (F := ℚ) 2 5 0) (floodRun m) = some s) (howed : s.owed = none)
    (hidle : s.series.pending = none) (hclosed : (s.windows.segments 7).closed = []) :
    (tokensOf 7 s.series).countP (fun tk => tk.eventType = .eventKernelLaunch) ≠
      ((totalsOf 7 s.windows).map (countOf .eventKernelLaunch)).sum := by
  obtain ⟨xs, segs, hflat, hsegs, hxs, htok, -, htot⟩ := views_run hs howed hidle 7
  intro heq
  rw [htok, htot, counts_eq_iff hflat] at heq
  have hp : (sampleLaunch 7 32).IsOf 7 := rfl
  have hall : segs.flatten = List.replicate m (sampleLaunch 7 32) := by
    rw [hflat, hxs, floodRun_events, List.filter_replicate, if_pos (decide_eq_true hp)]
  have hone : segs = [segs.flatten] := by
    have hcur : segs = if (s.windows.segments 7).current = [] then []
        else [(s.windows.segments 7).current.map Prod.snd] := by
      rw [hsegs, History.all, hclosed]
      split <;> rfl
    split at hcur
    · have hlen := congrArg List.length hall
      rw [hcur, List.flatten_nil, List.length_nil, List.length_replicate] at hlen
      omega
    · rw [hcur, List.flatten_singleton]
  have hmem : segs.flatten ∈ segs := by
    rw [hone, List.flatten_singleton]
    exact List.mem_singleton_self _
  have hlt := heq segs.flatten hmem
  rw [hall, typeCount, List.countP_replicate, if_pos (by simp [eventType, sampleLaunch])] at hlt
  omega

/-- 2^64 launches in one window: the tokens count them all, the window none. -/
theorem floodRun_counts_differ : ∃ acts s, exec step (start (F := ℚ) 2 5 0) acts = some s ∧
    s.owed = none ∧ s.series.pending = none ∧
    (tokensOf 7 s.series).countP (fun tk => tk.eventType = .eventKernelLaunch) ≠
      ((totalsOf 7 s.windows).map (countOf .eventKernelLaunch)).sum := by
  obtain ⟨s, hs, howed, hidle, -, hclosed⟩ := floodRun_exec (2 ^ 64)
  exact ⟨_, s, hs, howed, hidle, floodRun_counts le_rfl hs howed hidle hclosed⟩

end InfraSightGpu.CollectorViews
