import InfraSightGpu.WindowTimes
import Mathlib.Algebra.Order.Field.Basic

namespace InfraSightGpu.DerivedMetrics

open InfraSightGpu.Events InfraSightGpu.Fingerprint InfraSightGpu.Aggregator
open InfraSightGpu.Lib.Runs InfraSightGpu.Lib.Segments
open InfraSightGpu.WindowHistory InfraSightGpu.WindowTotals InfraSightGpu.WindowTimes

def updates (acts : List Action) : List Event :=
  acts.filterMap fun
    | .update _ ev => some ev
    | .flush _ _ => none

/-- `Flush` does not compute the metric: it keeps whatever value it has. -/
def Kept (m : Metric) (w : GPUFingerprint ℚ) : Prop :=
  ∀ v, m.get (deriveMetrics (m.set v w)) = v

theorem kept_iff {m : Metric} {w : GPUFingerprint ℚ} : Kept m w ↔ ¬ m.Guard w := by
  have hget : ∀ v, m.get (deriveMetrics (m.set v w)) = if m.Guard w then m.value w else v := by
    intro v
    simp [m.get_deriveMetrics]
  constructor
  · intro hkept hguard
    have hother := hkept (m.value w + 1)
    rw [hget, if_pos hguard] at hother
    linarith
  · intro hguard v
    rw [hget, if_neg hguard]

/-- A window of which `Flush` can compute the metrics. It has counted events
and their sum has not wrapped, so that the guards on the number of events and
on the duration hold. The metrics are still zero, and none stays so, except
the ratio of a window that shows no bytes to take a ratio of. -/
structure WellDefined (w : GPUFingerprint ℚ) : Prop where
  counts : 0 < totalCalls (fingerprintTotals w)
  sum : (totalEvents w).toNat = totalCalls (fingerprintTotals w)
  events : totalEvents w > 0
  lasts : duration w > 0
  zero : ∀ m : Metric, m.get w = 0
  computed : ∀ m : Metric, Kept m w → m = .htodRatio ∧ w.totalMemcpyBytes = 0

structure Consistent (D : Duration) (tw : GpuTimeWindow ℚ) : Prop where
  counts : 0 < totalCalls (windowTotals tw)
  syncFraction : tw.syncFraction * totalCalls (windowTotals tw) = tw.streamSyncCount.toNat
  nonneg : 0 ≤ tw.syncFraction
  le_one : tw.syncFraction ≤ 1
  launchRate : tw.launchRate * (D / 1000000000) = tw.kernelLaunchCount.toNat
  memcpyRate : tw.memcpyRate * (D / 1000000000) = tw.memcpyCount.toNat
  allocRate : tw.allocRate * (D / 1000000000) = tw.memAllocCount.toNat
  htodRatio : 0 < tw.totalMemcpyBytes.toNat →
    tw.htodRatio * tw.totalMemcpyBytes.toNat = tw.htodBytes.toNat

theorem toNat_totalEvents {w : GPUFingerprint ℚ}
    (h : totalCalls (fingerprintTotals w) < 2 ^ 64) :
    (totalEvents w).toNat = totalCalls (fingerprintTotals w) := by
  simp only [totalCalls, fingerprintTotals] at h ⊢
  simp only [totalEvents, UInt64.toNat_add]
  omega

theorem wellDefined_windowOf {D : Duration} (hD : 0 < D) {p : UInt32} {seg : List Timed}
    (hseg : ∀ x ∈ seg, x.2.IsOf p) (hlen : seg.length < 2 ^ 64) {w : GPUFingerprint ℚ}
    (hw : windowOf D seg = some w) : WellDefined w := by
  have hown : ∀ ev ∈ seg.map Prod.snd, ev.IsOf p := by
    intro ev hev
    obtain ⟨x, hx, rfl⟩ := List.mem_map.mp hev
    exact hseg x hx
  have hcalls : totalCalls (fingerprintTotals w) = seg.length := by
    rw [totals_windowOf hseg hw, totalCalls_of hown (by simpa using hlen), List.length_map]
  have hcounts : 0 < totalCalls (fingerprintTotals w) := by
    rw [hcalls]
    apply List.length_pos_of_ne_nil
    rintro rfl
    cases hw
  have hsum := toNat_totalEvents (hcalls ▸ hlen)
  have hevents : totalEvents w > 0 := UInt64.lt_iff_toNat_lt.mpr (hsum ▸ hcounts)
  obtain ⟨f, -, hs, he⟩ := windowOf_bounds hseg hw
  have hlasts : duration w > 0 := duration_pos hD (by rw [hs, he]; ring)
  refine ⟨hcounts, hsum, hevents, hlasts, metric_windowOf hw, fun m hkept => ?_⟩
  rw [kept_iff] at hkept
  cases m with
  | htodRatio => exact ⟨rfl, by simpa [Metric.Guard] using hkept⟩
  | syncFraction => exact absurd hevents hkept
  | launchRate | memcpyRate | allocRate => exact absurd hlasts hkept

theorem perSecond_mul {D : Duration} (hD : 0 < D) (n : Nat) :
    perSecond n D * (D / 1000000000) = n := by
  have hpos : (0 : ℚ) < D / 1000000000 := div_pos (Int.cast_pos.mpr hD) (by norm_num)
  rw [perSecond, div_mul_cancel₀ _ hpos.ne']

theorem consistent_of {D : Duration} (hD : 0 < D) {tw : GpuTimeWindow ℚ} {w : GPUFingerprint ℚ}
    (hrep : Reports tw w) (hw : WellDefined w) (hspan : w.windowEnd - w.windowStart = D) :
    Consistent D tw := by
  have hcounts : 0 < totalCalls (windowTotals tw) := hrep.totals ▸ hw.counts
  have hpos : (0 : ℚ) < totalCalls (windowTotals tw) := Nat.cast_pos.mpr hcounts
  have hfraction : tw.syncFraction = tw.streamSyncCount.toNat / totalCalls (windowTotals tw) := by
    have hsyncs : tw.streamSyncCount.toNat = w.streamSyncCount.toNat :=
      congrArg Totals.streamSyncCount hrep.totals
    rw [hsyncs, hrep.totals, ← hw.sum, ← ofUInt64_rat, ← ofUInt64_rat]
    exact (hrep.metric .syncFraction).trans (if_pos hw.events)
  have hle : tw.streamSyncCount.toNat ≤ totalCalls (windowTotals tw) := Nat.le_add_left _ _
  obtain ⟨hlaunch, hcopy, halloc⟩ := reported_rates hD hrep hspan
  refine ⟨hcounts, ?_, ?_, ?_, ?_, ?_, ?_, fun hbytes => ?_⟩
  · rw [hfraction, div_mul_cancel₀ _ hpos.ne']
  · rw [hfraction]
    positivity
  · rw [hfraction]
    exact (div_le_one hpos).mpr (Nat.cast_le.mpr hle)
  · rw [hlaunch]
    exact perSecond_mul hD _
  · rw [hcopy]
    exact perSecond_mul hD _
  · rw [halloc]
    exact perSecond_mul hD _
  · have htotal : tw.totalMemcpyBytes.toNat = w.totalMemcpyBytes.toNat :=
      congrArg Totals.totalMemcpyBytes hrep.totals
    have hhtod : tw.htodBytes.toNat = w.htodBytes.toNat := congrArg Totals.htodBytes hrep.totals
    have hguard : w.totalMemcpyBytes > 0 := UInt64.lt_iff_toNat_lt.mpr (htotal ▸ hbytes)
    have hratio : tw.htodRatio = tw.htodBytes.toNat / tw.totalMemcpyBytes.toNat := by
      rw [hhtod, htotal, ← ofUInt64_rat, ← ofUInt64_rat]
      exact (hrep.metric .htodRatio).trans (if_pos hguard)
    rw [hratio, div_mul_cancel₀ _ (Nat.cast_ne_zero.mpr hbytes.ne')]

theorem length_timedEvents_le (p : UInt32) (acts : List Action) :
    (timedEvents p acts).length ≤ (updates acts).length := by
  induction acts with
  | nil => exact le_rfl
  | cons a acts ih =>
    cases a with
    | flush now order => exact ih
    | update now ev =>
      by_cases hp : ev.IsOf p
      · simpa [timedEvents, updates, hp] using ih
      · simpa [timedEvents, updates, hp] using Nat.le_succ_of_le ih

theorem wellDefined_segment {D : Duration} (hD : 0 < D) {now : Time} {acts : List Action}
    {t : Trace ℚ} (h : exec step (start D now) acts = some t)
    (hlen : (updates acts).length < 2 ^ 64) {p : UInt32} {seg : List Timed}
    (hm : seg ∈ (t.segments p).all) {w : GPUFingerprint ℚ} (hw : windowOf D seg = some w) :
    WellDefined w ∧ w.windowEnd - w.windowStart = D := by
  have hown : ∀ x ∈ seg, x.2.IsOf p :=
    fun x hx => (refines_run h).own p x (History.mem_flat_of_mem hm hx)
  have hle : seg.length ≤ (updates acts).length :=
    (segment_sublist h hm).length_le.trans (length_timedEvents_le p acts)
  obtain ⟨f, -, hs, he⟩ := windowOf_bounds hown hw
  exact ⟨wellDefined_windowOf hD hown (hle.trans_lt hlen) hw, by rw [hs, he]; ring⟩

/-- In every state of a run `Flush` can compute the metrics of every window,
and those of the windows that it has reported are consistent. -/
theorem metrics_well_defined (D : Duration) (hD : 0 < D) (now : Time) (acts : List Action)
    (t : Trace ℚ) (h : exec step (start D now) acts = some t)
    (hlen : (updates acts).length < 2 ^ 64) :
    Always step (fun t => ∀ p w, t.ga.windows.lookup p = some w → WellDefined w)
        (start (F := ℚ) D now) acts ∧
      ∀ b ∈ t.batches, ∀ e ∈ b.batch, ∃ w tw, WellDefined w ∧ windowEvent (deriveMetrics w) = e ∧
        e.payload = .tw tw ∧ Consistent D tw := by
  constructor
  · intro pre hpre u hu p w hw
    have hshort : (updates pre).length < 2 ^ 64 := (hpre.filterMap _).length_le.trans_lt hlen
    obtain ⟨seg, hm, hwin⟩ := (refines_run hu).live_segment hw
    exact (wellDefined_segment hD hu hshort hm hwin).1
  · intro b hb e he
    have hemit : e ∈ emitted e.pid t := by
      rw [emitted, List.mem_filter]
      exact ⟨List.mem_flatMap.mpr ⟨b, hb, he⟩, by simp⟩
    obtain ⟨seg, hm, w, hwin, rfl⟩ := (refines_run h).reported_segment hemit
    obtain ⟨hdefined, hspan⟩ := wellDefined_segment hD h hlen hm hwin
    obtain ⟨tw, hpay, hrep⟩ := payload_report w
    exact ⟨w, tw, hdefined, rfl, hpay, consistent_of hD hrep hdefined hspan⟩

theorem metrics_well_defined_mixedRun :
    ∃ t, exec step (start (F := ℚ) 2 0) mixedRun = some t ∧
      Always step (fun t => ∀ p w, t.ga.windows.lookup p = some w → WellDefined w)
          (start (F := ℚ) 2 0) mixedRun ∧
        ∀ b ∈ t.batches, ∀ e ∈ b.batch, ∃ w tw, WellDefined w ∧
          windowEvent (deriveMetrics w) = e ∧ e.payload = .tw tw ∧ Consistent 2 tw := by
  have h : (exec step (start (F := ℚ) 2 0) mixedRun).isSome := by decide +kernel
  have ht := (Option.some_get h).symm
  exact ⟨_, ht, metrics_well_defined 2 (by decide) 0 mixedRun _ ht (by decide)⟩

end InfraSightGpu.DerivedMetrics
