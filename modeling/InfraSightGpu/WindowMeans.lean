import InfraSightGpu.WindowTimes
import InfraSightGpu.Lib.Words

namespace InfraSightGpu.WindowMeans

open InfraSightGpu.Events InfraSightGpu.Fingerprint InfraSightGpu.Aggregator
open InfraSightGpu.Lib.Maps InfraSightGpu.Lib.Runs InfraSightGpu.Lib.Segments
open InfraSightGpu.Lib.Words
open InfraSightGpu.WindowHistory InfraSightGpu.WindowTotals InfraSightGpu.WindowTimes

def exactSum (xs : List UInt64) : Nat := (xs.map UInt64.toNat).sum

def mean (xs : List UInt64) : ℚ := exactSum xs / xs.length

@[simp] theorem exactSum_snoc (xs : List UInt64) (x : UInt64) :
    exactSum (xs ++ [x]) = exactSum xs + x.toNat := by
  simp [exactSum]

theorem mean_nil : mean [] = 0 := by
  simp [mean, exactSum]

theorem mean_mul_length (xs : List UInt64) : mean xs * xs.length = exactSum xs := by
  cases xs with
  | nil => simp [mean_nil, exactSum]
  | cons x xs =>
    have hne : ((x :: xs).length : ℚ) ≠ 0 := Nat.cast_ne_zero.mpr (Nat.succ_ne_zero _)
    rw [mean, div_mul_cancel₀ _ hne]

theorem exactSum_le (xs : List UInt64) : exactSum xs ≤ max64 xs * xs.length := by
  induction xs using List.reverseRecOn with
  | nil => simp [exactSum]
  | append_singleton xs x ih =>
    have hold : max64 xs ≤ max64 (xs ++ [x]) := by
      rw [max64_snoc]
      exact Nat.le_max_left _ _
    have hnew : x.toNat ≤ max64 (xs ++ [x]) := by
      rw [max64_snoc]
      exact Nat.le_max_right _ _
    rw [exactSum_snoc, List.length_append, List.length_singleton, Nat.mul_add, Nat.mul_one]
    exact Nat.add_le_add (ih.trans (Nat.mul_le_mul_right _ hold)) hnew

theorem mean_le (xs : List UInt64) : mean xs ≤ max64 xs := by
  cases xs with
  | nil => simp [mean_nil]
  | cons x xs =>
    have hpos : (0 : ℚ) < (x :: xs).length := Nat.cast_pos.mpr (Nat.succ_pos _)
    rw [mean, div_le_iff₀ hpos]
    exact_mod_cast exactSum_le (x :: xs)

/-- One more value in a running average keeps it a mean, as long as the count
of the values has not wrapped. -/
theorem runningAvg_mean {E : Type} {g : E → UInt64} {es : List E} {e : E} {avg : ℚ} {count : UInt64}
    (hcount : count.toNat = es.length % 2 ^ 64)
    (havg : es.length < 2 ^ 64 → avg = mean (es.map g)) (hlt : (es ++ [e]).length < 2 ^ 64) :
    runningAvg avg (count + 1) (g e) = mean ((es ++ [e]).map g) := by
  rw [List.length_append, List.length_singleton] at hlt
  have hold : es.length < 2 ^ 64 := Nat.lt_of_succ_lt hlt
  rw [Nat.mod_eq_of_lt hold] at hcount
  have hsucc : (count + 1).toNat = es.length + 1 := by
    rw [UInt64.toNat_add, hcount]
    exact Nat.mod_eq_of_lt hlt
  have hpred : (count + 1 - 1).toNat = es.length := by
    rw [UInt64.add_sub_cancel, hcount]
  have hmul := mean_mul_length (es.map g)
  rw [List.length_map] at hmul
  simp only [havg hold, runningAvg, GoFloat.ofUInt64, GoFloat.ofInt, hsucc, hpred]
  push_cast
  rw [hmul, mean, List.map_append, List.map_singleton, exactSum_snoc, List.length_append,
    List.length_map, List.length_singleton]
  push_cast
  rfl

/-- The number of blocks of a launch as `Update` computes it, in 32 bits. -/
def blocks (e : GpuprintGpuKernelLaunchEventT) : UInt64 := (e.gridx * e.gridy * e.gridz).toUInt64

/-- The averages of a window are the means over its events, each as long as the
count behind it has not wrapped. -/
structure MeansOf (w : GPUFingerprint ℚ) (evs : List Event) : Prop where
  threads : (launches evs).length < 2 ^ 64 →
    w.avgThreadsPerKernel = mean ((launches evs).map (·.totalThreads))
  blocks : (launches evs).length < 2 ^ 64 →
    w.avgBlocksPerKernel = mean ((launches evs).map blocks)
  allocBytes : (allocs evs).length < 2 ^ 64 →
    w.avgMemAllocBytes = mean ((allocs evs).map (·.byteSize))
  copyBytes : (copies evs).length < 2 ^ 64 →
    w.avgMemcpyBytes = mean ((copies evs).map (·.byteSize))
  syncTime : (syncs evs).length < 2 ^ 64 → w.avgSyncTimeNs = mean ((syncs evs).map (·.deltaNs))

theorem average_record {E : Type} {g : Event → Option E} {val : E → UInt64} {evs : List Event}
    {ev : Event} {avg avg' : ℚ} {count : UInt64}
    (hcount : count.toNat = (evs.filterMap g).length % 2 ^ 64)
    (havg : (evs.filterMap g).length < 2 ^ 64 → avg = mean ((evs.filterMap g).map val))
    (hrec : avg' = (g ev).elim avg fun e => runningAvg avg (count + 1) (val e))
    (hlt : ((evs ++ [ev]).filterMap g).length < 2 ^ 64) :
    avg' = mean (((evs ++ [ev]).filterMap g).map val) := by
  have hsnoc : (evs ++ [ev]).filterMap g = evs.filterMap g ++ (g ev).toList := by
    rw [List.filterMap_append]
    cases hg : g ev <;> simp [hg]
  rw [hsnoc] at hlt ⊢
  rw [hrec]
  cases hg : g ev with
  | none =>
    rw [hg, Option.toList_none, List.append_nil] at hlt
    simpa using havg hlt
  | some e =>
    rw [hg] at hlt
    exact runningAvg_mean hcount havg hlt

theorem meansOf_record {w : GPUFingerprint ℚ} {evs : List Event}
    (htot : fingerprintTotals w = Totals.of evs) (h : MeansOf w evs) (ev : Event) :
    MeansOf (record w ev) (evs ++ [ev]) := by
  have hlaunch := congrArg Totals.kernelLaunchCount htot
  have halloc := congrArg Totals.memAllocCount htot
  have hcopy := congrArg Totals.memcpyCount htot
  have hsync := congrArg Totals.streamSyncCount htot
  cases ev with
  | memcpy e =>
    have hframe : (record w (.memcpy e)).avgThreadsPerKernel = w.avgThreadsPerKernel ∧
        (record w (.memcpy e)).avgBlocksPerKernel = w.avgBlocksPerKernel ∧
        (record w (.memcpy e)).avgMemAllocBytes = w.avgMemAllocBytes ∧
        (record w (.memcpy e)).avgMemcpyBytes =
          runningAvg w.avgMemcpyBytes (w.memcpyCount + 1) e.byteSize ∧
        (record w (.memcpy e)).avgSyncTimeNs = w.avgSyncTimeNs := by
      by_cases hk : e.kind = UInt8.ofNat dirHtod <;> simp [record, recordMemcpy, hk]
    obtain ⟨f1, f2, f3, f4, f5⟩ := hframe
    exact ⟨average_record hlaunch h.threads f1, average_record hlaunch h.blocks f2,
      average_record halloc h.allocBytes f3, average_record hcopy h.copyBytes f4,
      average_record hsync h.syncTime f5⟩
  | kernelLaunch e | memalloc e | stream e | other =>
    exact ⟨average_record hlaunch h.threads rfl, average_record hlaunch h.blocks rfl,
      average_record halloc h.allocBytes rfl, average_record hcopy h.copyBytes rfl,
      average_record hsync h.syncTime rfl⟩

theorem meansOf_foldl (D : Duration) (now : Time) (pid : UInt32) (comm : List UInt8)
    (seg : List Timed) :
    MeansOf (seg.foldl (fun w x => record w x.2) (newWindow D now pid comm))
      (seg.map Prod.snd) := by
  induction seg using List.reverseRecOn with
  | nil =>
    exact ⟨fun _ => mean_nil.symm, fun _ => mean_nil.symm, fun _ => mean_nil.symm,
      fun _ => mean_nil.symm, fun _ => mean_nil.symm⟩
  | append_singleton seg x ih =>
    rw [List.foldl_append, List.map_append]
    exact meansOf_record (fingerprintTotals_foldl D now pid comm seg) ih x.2

structure Averages where
  threadsPerKernel : ℚ
  blocksPerKernel : ℚ
  memAllocBytes : ℚ
  memcpyBytes : ℚ
  syncTimeNs : ℚ
deriving DecidableEq

structure Figures where
  totals : Totals
  averages : Averages
deriving DecidableEq

def fingerprintFigures (w : GPUFingerprint ℚ) : Figures where
  totals := fingerprintTotals w
  averages := {
    threadsPerKernel := w.avgThreadsPerKernel
    blocksPerKernel := w.avgBlocksPerKernel
    memAllocBytes := w.avgMemAllocBytes
    memcpyBytes := w.avgMemcpyBytes
    syncTimeNs := w.avgSyncTimeNs }

def windowFigures (tw : GpuTimeWindow ℚ) : Figures where
  totals := windowTotals tw
  averages := {
    threadsPerKernel := tw.avgThreadsPerKernel
    blocksPerKernel := tw.avgBlocksPerKernel
    memAllocBytes := tw.avgMemAllocBytes
    memcpyBytes := tw.avgMemcpyBytes
    syncTimeNs := tw.avgSyncTimeNs }

def eventFigures (e : GpuEvent ℚ) : Option Figures :=
  match e.payload with
  | .tw tw => some (windowFigures tw)
  | .token _ => none

theorem eventFigures_report (w : GPUFingerprint ℚ) :
    eventFigures (windowEvent (deriveMetrics w)) = some (fingerprintFigures w) := by
  simp only [eventFigures, windowEvent, windowFigures, windowTotals, deriveMetrics,
    fingerprintFigures, fingerprintTotals]
  split_ifs <;> rfl

def figuresOf (p : UInt32) (t : Trace ℚ) : List (Option Figures) :=
  (emitted p t).map eventFigures ++
    ((t.ga.windows.lookup p).map fun w => some (fingerprintFigures w)).toList

theorem figuresOf_forall₂ {R : Option Figures → List Timed → Prop} {D : Duration} {t : Trace ℚ}
    (h : Refines D t) (p : UInt32)
    (hR : ∀ seg ∈ (t.segments p).all, ∀ w, fingerprintTotals w = Totals.of (seg.map Prod.snd) →
      MeansOf w (seg.map Prod.snd) → R (some (fingerprintFigures w)) seg) :
    List.Forall₂ R (figuresOf p t) (t.segments p).all := by
  rw [figuresOf, windows_eq eventFigures_report h p, List.forall₂_map_left_iff, List.forall₂_same]
  intro seg hm
  have hown : ∀ x ∈ seg, x.2.IsOf p := fun x hx => h.own p x (History.mem_flat_of_mem hm hx)
  cases seg with
  | nil => exact absurd rfl ((t.segments p).all_ne _ hm)
  | cons f xs =>
    obtain ⟨comm, -, hw⟩ := windowOf_cons (F := ℚ) D xs (hown f (by simp))
    rw [hw]
    exact hR _ hm _ (fingerprintTotals_foldl D f.1 p comm.toList (f :: xs))
      (meansOf_foldl D f.1 p comm.toList (f :: xs))

/-- The averages are the exact means and at most the maxima, also when the
uint64 totals have wrapped. -/
structure MeanLaws (x : Figures) (evs : List Event) : Prop where
  threads : x.averages.threadsPerKernel * x.totals.kernelLaunchCount =
    exactSum ((launches evs).map (·.totalThreads))
  allocBytes : x.averages.memAllocBytes * x.totals.memAllocCount =
    exactSum ((allocs evs).map (·.byteSize))
  copyBytes : x.averages.memcpyBytes * x.totals.memcpyCount =
    exactSum ((copies evs).map (·.byteSize))
  syncTime : x.averages.syncTimeNs * x.totals.streamSyncCount =
    exactSum ((syncs evs).map (·.deltaNs))
  threads_le : x.averages.threadsPerKernel ≤ x.totals.maxThreadsPerKernel
  syncTime_le : x.averages.syncTimeNs ≤ x.totals.maxSyncTimeNs
  totalThreads : x.totals.totalThreadsLaunched =
    exactSum ((launches evs).map (·.totalThreads)) % 2 ^ 64
  totalAllocBytes : x.totals.totalMemAllocBytes =
    exactSum ((allocs evs).map (·.byteSize)) % 2 ^ 64
  totalCopyBytes : x.totals.totalMemcpyBytes =
    exactSum ((copies evs).map (·.byteSize)) % 2 ^ 64

theorem mean_mul_count {E : Type} (g : E → UInt64) (es : List E) (h : es.length < 2 ^ 64) :
    mean (es.map g) * (es.length % 2 ^ 64 : Nat) = exactSum (es.map g) := by
  have hmul := mean_mul_length (es.map g)
  rw [List.length_map] at hmul
  rw [Nat.mod_eq_of_lt h, hmul]

theorem meanLaws_of {w : GPUFingerprint ℚ} {evs : List Event}
    (htot : fingerprintTotals w = Totals.of evs) (h : MeansOf w evs) (hlen : evs.length < 2 ^ 64) :
    MeanLaws (fingerprintFigures w) evs := by
  have hle : ∀ {E : Type} (g : Event → Option E), (evs.filterMap g).length < 2 ^ 64 :=
    fun g => (List.length_filterMap_le g evs).trans_lt hlen
  constructor
  all_goals simp only [fingerprintFigures, htot]
  · rw [h.threads (hle _)]
    exact mean_mul_count _ _ (hle _)
  · rw [h.allocBytes (hle _)]
    exact mean_mul_count _ _ (hle _)
  · rw [h.copyBytes (hle _)]
    exact mean_mul_count _ _ (hle _)
  · rw [h.syncTime (hle _)]
    exact mean_mul_count _ _ (hle _)
  · rw [h.threads (hle _)]
    exact mean_le _
  · rw [h.syncTime (hle _)]
    exact mean_le _
  · rfl
  · rfl
  · rfl

def divisor (w : GPUFingerprint ℚ) : Event → Option ℚ
  | .kernelLaunch e => some (GoFloat.ofUInt64 (recordKernelLaunch w e).kernelLaunchCount)
  | .memalloc e => some (GoFloat.ofUInt64 (recordMemalloc w e).memAllocCount)
  | .memcpy e => some (GoFloat.ofUInt64 (recordMemcpy w e).memcpyCount)
  | .stream e => some (GoFloat.ofUInt64 (recordStream w e).streamSyncCount)
  | .other => none

theorem ofUInt64_ne_zero {count : UInt64} {n : Nat} (hcount : count.toNat = (n + 1) % 2 ^ 64)
    (hn : n + 1 < 2 ^ 64) : (GoFloat.ofUInt64 count : ℚ) ≠ 0 := by
  rw [Nat.mod_eq_of_lt hn] at hcount
  simp only [GoFloat.ofUInt64, GoFloat.ofInt, hcount]
  exact_mod_cast Nat.succ_ne_zero n

theorem divisor_ne_zero {w : GPUFingerprint ℚ} {evs : List Event}
    (htot : fingerprintTotals w = Totals.of evs) (hlen : evs.length + 1 < 2 ^ 64) (ev : Event) :
    ∀ d ∈ divisor w ev, d ≠ 0 := by
  have hrec : fingerprintTotals (record w ev) = (Totals.of evs).add ev := by
    rw [fingerprintTotals_record, htot]
  have hle : ∀ {E : Type} (g : Event → Option E), (evs.filterMap g).length + 1 < 2 ^ 64 :=
    fun g => (Nat.succ_le_succ (List.length_filterMap_le g evs)).trans_lt hlen
  intro d hd
  cases ev with
  | kernelLaunch e =>
    cases hd
    have hcount := congrArg Totals.kernelLaunchCount hrec
    exact ofUInt64_ne_zero (hcount.trans (Nat.mod_add_mod _ _ _)) (hle _)
  | memalloc e =>
    cases hd
    have hcount := congrArg Totals.memAllocCount hrec
    exact ofUInt64_ne_zero (hcount.trans (Nat.mod_add_mod _ _ _)) (hle _)
  | memcpy e =>
    cases hd
    have hcount := congrArg Totals.memcpyCount hrec
    exact ofUInt64_ne_zero (hcount.trans (Nat.mod_add_mod _ _ _)) (hle _)
  | stream e =>
    cases hd
    have hcount := congrArg Totals.streamSyncCount hrec
    exact ofUInt64_ne_zero (hcount.trans (Nat.mod_add_mod _ _ _)) (hle _)
  | other => cases hd

theorem totals_windowFor {D : Duration} {t : Trace ℚ} (h : Refines D t) (now : Time) (p : UInt32)
    (comm : List UInt8) :
    fingerprintTotals (windowFor t.ga now p comm) =
      Totals.of ((t.segments p).current.map Prod.snd) := by
  have hown := h.own_current p
  rw [windowFor, h.live p]
  cases hc : (t.segments p).current with
  | nil => rfl
  | cons f xs =>
    rw [hc] at hown
    obtain ⟨c, -, hw⟩ := windowOf_cons (F := ℚ) D xs (hown f (by simp))
    rw [hw]
    exact fingerprintTotals_foldl D f.1 p c.toList (f :: xs)

/-- In every window of a run, reported or open, the averages are the exact
means over its events, and no event divides by zero. -/
theorem averages_are_means (D : Duration) (now : Time) (acts : List Action) (t : Trace ℚ)
    (h : exec step (start D now) acts = some t) (p : UInt32) :
    (t.segments p).all.flatten.map Prod.snd = gpuEvents p acts ∧
      List.Forall₂ (fun x seg => ∃ fig, x = some fig ∧
          (seg.length < 2 ^ 64 → MeanLaws fig (seg.map Prod.snd)))
        (figuresOf p t) (t.segments p).all ∧
      ∀ now' ev comm, ev.source = some (p, comm) → (t.segments p).current.length + 1 < 2 ^ 64 →
        ∀ d ∈ divisor (windowFor t.ga now' p comm.toList) ev, d ≠ 0 := by
  have hr := refines_run h
  refine ⟨?_, ?_, ?_⟩
  · rw [History.flatten_all, flat_run h p, gpuEvents]
  · refine figuresOf_forall₂ hr p fun seg _ w htot hmeans => ⟨_, rfl, fun hlen => ?_⟩
    exact meanLaws_of htot hmeans (by simpa using hlen)
  · intro now' ev comm _ hlen
    exact divisor_ne_zero (totals_windowFor hr now' p comm.toList) (by simpa using hlen) ev

theorem averages_are_means_mixedRun : ∃ t, exec step (start (F := ℚ) 2 0) mixedRun = some t ∧
    (t.segments 7).all.flatten.map Prod.snd = gpuEvents 7 mixedRun ∧
      List.Forall₂ (fun x seg => ∃ fig, x = some fig ∧
          (seg.length < 2 ^ 64 → MeanLaws fig (seg.map Prod.snd)))
        (figuresOf 7 t) (t.segments 7).all ∧
      ∀ now' ev comm, ev.source = some (7, comm) → (t.segments 7).current.length + 1 < 2 ^ 64 →
        ∀ d ∈ divisor (windowFor t.ga now' 7 comm.toList) ev, d ≠ 0 := by
  have h : (exec step (start (F := ℚ) 2 0) mixedRun).isSome := by decide +kernel
  have ht := (Option.some_get h).symm
  exact ⟨_, ht, averages_are_means 2 0 mixedRun _ ht 7⟩

/-- The number of blocks of a launch in 64 bits, as the kernel side computes it
from arguments without garbage. -/
def kernelBlocks (e : GpuprintGpuKernelLaunchEventT) : UInt64 :=
  e.gridx.toUInt64 * e.gridy.toUInt64 * e.gridz.toUInt64

theorem blocks_toNat (e : GpuprintGpuKernelLaunchEventT) :
    (blocks e).toNat = (kernelBlocks e).toNat % 2 ^ 32 := by
  simp [blocks, kernelBlocks, UInt64.toNat_mul, Nat.mod_mod_of_dvd, Nat.mod_mul_mod]

theorem exactSum_blocks_iff {es : List GpuprintGpuKernelLaunchEventT}
    (hprod : ∀ e ∈ es, e.totalBlocks = kernelBlocks e) :
    exactSum (es.map blocks) = exactSum (es.map (·.totalBlocks)) ↔
      ∀ e ∈ es, e.totalBlocks.toNat < 2 ^ 32 := by
  have hblocks : es.map (fun e => (blocks e).toNat) =
      (es.map fun e => e.totalBlocks.toNat).map (· % 2 ^ 32) := by
    rw [List.map_map]
    apply List.map_congr_left
    intro e he
    rw [blocks_toNat, ← hprod e he]
    rfl
  simp only [exactSum, List.map_map, Function.comp_def]
  rw [hblocks, sum_mod_eq_iff _ (by norm_num), List.forall_mem_map]

def BlocksAgree (x : Option Figures) (seg : List Timed) : Prop :=
  ∃ fig, x = some fig ∧ fig.averages.blocksPerKernel * fig.totals.kernelLaunchCount =
    exactSum ((launches (seg.map Prod.snd)).map (·.totalBlocks))

instance (x : Option Figures) (seg : List Timed) : Decidable (BlocksAgree x seg) :=
  match x with
  | some fig => decidable_of_iff (fig.averages.blocksPerKernel * fig.totals.kernelLaunchCount =
      exactSum ((launches (seg.map Prod.snd)).map (·.totalBlocks))) (by simp [BlocksAgree])
  | none => isFalse (by simp [BlocksAgree])

theorem mem_launches {evs : List Event} {e : GpuprintGpuKernelLaunchEventT} :
    e ∈ launches evs ↔ .kernelLaunch e ∈ evs := by
  rw [launches, List.mem_filterMap]
  constructor
  · rintro ⟨ev, hev, he⟩
    cases ev <;> cases he
    exact hev
  · exact fun h => ⟨_, h, rfl⟩

/-- As long as the launches of a window can be counted, its average number of
blocks is right exactly when the blocks of every launch can be counted in 32 bits. -/
theorem average_blocks_iff (D : Duration) (now : Time) (acts : List Action) (t : Trace ℚ)
    (h : exec step (start D now) acts = some t) (p : UInt32)
    (hprod : ∀ e ∈ launches (gpuEvents p acts), e.totalBlocks = kernelBlocks e) :
    List.Forall₂ (fun x seg => (launches (seg.map Prod.snd)).length < 2 ^ 64 →
        (BlocksAgree x seg ↔ ∀ e ∈ launches (seg.map Prod.snd), e.totalBlocks.toNat < 2 ^ 32))
      (figuresOf p t) (t.segments p).all := by
  refine figuresOf_forall₂ (refines_run h) p fun seg hm w htot hmeans hlen => ?_
  have hown : ∀ e ∈ launches (seg.map Prod.snd), e.totalBlocks = kernelBlocks e := by
    intro e he
    apply hprod
    rw [gpuEvents, ← flat_run h p]
    obtain ⟨x, hx, hxe⟩ := List.mem_map.mp (mem_launches.mp he)
    exact mem_launches.mpr (List.mem_map.mpr ⟨x, History.mem_flat_of_mem hm hx, hxe⟩)
  have hmean := mean_mul_count blocks (launches (seg.map Prod.snd)) hlen
  rw [← exactSum_blocks_iff hown, ← Nat.cast_inj (R := ℚ), ← hmean, ← hmeans.blocks hlen]
  simp only [BlocksAgree, fingerprintFigures, htot, Option.some.injEq, exists_eq_left']
  rfl

theorem average_blocks_iff_mixedRun : ∃ t, exec step (start (F := ℚ) 2 0) mixedRun = some t ∧
    List.Forall₂ (fun x seg => (launches (seg.map Prod.snd)).length < 2 ^ 64 →
        (BlocksAgree x seg ↔ ∀ e ∈ launches (seg.map Prod.snd), e.totalBlocks.toNat < 2 ^ 32))
      (figuresOf 7 t) (t.segments 7).all := by
  have h : (exec step (start (F := ℚ) 2 0) mixedRun).isSome := by decide +kernel
  have ht := (Option.some_get h).symm
  have hprod : ∀ e ∈ launches (gpuEvents 7 mixedRun), e.totalBlocks = kernelBlocks e := by
    decide +kernel
  exact ⟨_, ht, average_blocks_iff 2 0 mixedRun _ ht 7 hprod⟩

def wideLaunch : GpuprintGpuKernelLaunchEventT :=
  ⟨1, Vector.replicate 3 0, 7, Vector.replicate 150 0, 131072, 65535, 1, 1, 1, 1, 8589803520, 1,
    8589803520⟩

theorem wideLaunch_blocks_disagree : wideLaunch.totalBlocks = kernelBlocks wideLaunch ∧
    ∃ t, exec step (start (F := ℚ) 2 0) [.update 1 (.kernelLaunch wideLaunch)] = some t ∧
      ¬ List.Forall₂ BlocksAgree (figuresOf 7 t) (t.segments 7).all := by
  decide +kernel

end InfraSightGpu.WindowMeans
