import InfraSightGpu.WindowTimes
import Mathlib.Algebra.Order.Field.Basic

namespace InfraSightGpu.TransferSplit

open InfraSightGpu.Events InfraSightGpu.Fingerprint InfraSightGpu.Aggregator
open InfraSightGpu.Lib.Runs InfraSightGpu.Lib.Segments
open InfraSightGpu.WindowHistory InfraSightGpu.WindowTotals InfraSightGpu.WindowTimes

def bytes (es : List GpuprintGpuMemcpyEventT) : Nat := (es.map fun e => e.byteSize.toNat).sum

/-- The two directions of a reported window add up to its total, and its ratio
is a share of it, not zero when bytes went to the device. -/
structure ProperSplit (tw : GpuTimeWindow ℚ) (evs : List Event) : Prop where
  sum : tw.htodBytes.toNat + tw.dtohBytes.toNat = tw.totalMemcpyBytes.toNat
  nonneg : 0 ≤ tw.htodRatio
  le_one : tw.htodRatio ≤ 1
  pos : (∃ e ∈ htodCopies evs, e.byteSize ≠ 0) → 0 < tw.htodRatio

instance (tw : GpuTimeWindow ℚ) (evs : List Event) : Decidable (ProperSplit tw evs) :=
  decidable_of_iff (tw.htodBytes.toNat + tw.dtohBytes.toNat = tw.totalMemcpyBytes.toNat ∧
      0 ≤ tw.htodRatio ∧ tw.htodRatio ≤ 1 ∧
      ((∃ e ∈ htodCopies evs, e.byteSize ≠ 0) → 0 < tw.htodRatio))
    ⟨fun h => ⟨h.1, h.2.1, h.2.2.1, h.2.2.2⟩, fun h => ⟨h.sum, h.nonneg, h.le_one, h.pos⟩⟩

def SplitsProperly (e : GpuEvent ℚ) (seg : List Timed) : Prop :=
  ∃ tw, e.payload = .tw tw ∧ ProperSplit tw (seg.map Prod.snd)

instance (e : GpuEvent ℚ) (seg : List Timed) : Decidable (SplitsProperly e seg) :=
  match hp : e.payload with
  | .tw tw => decidable_of_iff (ProperSplit tw (seg.map Prod.snd)) (by simp [SplitsProperly, hp])
  | .token _ => isFalse (by simp [SplitsProperly, hp])

/-- What the uint64 counters keep of the two directions still adds up in a
uint64, and bytes to the device do not wrap to zero. -/
def SumsFit (evs : List Event) : Prop :=
  bytes (htodCopies evs) % 2 ^ 64 + bytes (dtohCopies evs) % 2 ^ 64 < 2 ^ 64 ∧
    (0 < bytes (htodCopies evs) → 0 < bytes (htodCopies evs) % 2 ^ 64)

theorem bytes_directions (evs : List Event) :
    bytes (copies evs) = bytes (htodCopies evs) + bytes (dtohCopies evs) := by
  have hsplit : ∀ es : List GpuprintGpuMemcpyEventT, bytes es =
      bytes (es.filter fun e => e.kind = 0) + bytes (es.filter fun e => e.kind ≠ 0) := by
    intro es
    induction es with
    | nil => rfl
    | cons e es ih =>
      simp only [bytes] at ih ⊢
      by_cases hk : e.kind = 0
      · simp [hk, ih, Nat.add_assoc]
      · simp [hk, ih, Nat.add_left_comm]
  exact hsplit (copies evs)

theorem bytes_pos_iff (es : List GpuprintGpuMemcpyEventT) :
    0 < bytes es ↔ ∃ e ∈ es, e.byteSize ≠ 0 := by
  rw [bytes, List.sum_pos_iff_exists_pos_nat]
  simp only [List.mem_map, exists_exists_and_eq_and, ← UInt64.pos_iff_ne_zero]
  rfl

structure SplitOf (tw : GpuTimeWindow ℚ) (evs : List Event) : Prop where
  htod : tw.htodBytes.toNat = bytes (htodCopies evs) % 2 ^ 64
  dtoh : tw.dtohBytes.toNat = bytes (dtohCopies evs) % 2 ^ 64
  total : tw.totalMemcpyBytes.toNat = bytes (copies evs) % 2 ^ 64
  ratio : tw.htodRatio = if 0 < tw.totalMemcpyBytes.toNat then
    (tw.htodBytes.toNat : ℚ) / tw.totalMemcpyBytes.toNat else 0

theorem splitOf_windowOf {D : Duration} {p : UInt32} {seg : List Timed}
    (hseg : ∀ x ∈ seg, x.2.IsOf p) {w : GPUFingerprint ℚ} (hw : windowOf D seg = some w) :
    ∃ tw, (windowEvent (deriveMetrics w)).payload = .tw tw ∧ SplitOf tw (seg.map Prod.snd) := by
  obtain ⟨tw, hpay, hrep⟩ := payload_report w
  have htot := hrep.totals.trans (totals_windowOf hseg hw)
  have hsum : ∀ es : List GpuprintGpuMemcpyEventT,
      sum64 (es.map (·.byteSize)) = bytes es % 2 ^ 64 := by
    intro es
    rw [sum64, List.map_map]
    rfl
  refine ⟨tw, hpay, ?_, ?_, ?_, ?_⟩
  · rw [← hsum]
    exact congrArg Totals.htodBytes htot
  · rw [← hsum]
    exact congrArg Totals.dtohBytes htot
  · rw [← hsum]
    exact congrArg Totals.totalMemcpyBytes htot
  · have hratio := hrep.metric .htodRatio
    rw [metric_windowOf hw] at hratio
    have hhtod : tw.htodBytes.toNat = w.htodBytes.toNat := congrArg Totals.htodBytes hrep.totals
    have htotal : tw.totalMemcpyBytes.toNat = w.totalMemcpyBytes.toNat :=
      congrArg Totals.totalMemcpyBytes hrep.totals
    rw [hhtod, htotal, ← ofUInt64_rat, ← ofUInt64_rat]
    exact hratio

theorem properSplit_iff {tw : GpuTimeWindow ℚ} {evs : List Event} (h : SplitOf tw evs) :
    ProperSplit tw evs ↔ SumsFit evs := by
  obtain ⟨hh, hd, ht, hr⟩ := h
  rw [bytes_directions] at ht
  have hsum : tw.htodBytes.toNat + tw.dtohBytes.toNat = tw.totalMemcpyBytes.toNat ↔
      bytes (htodCopies evs) % 2 ^ 64 + bytes (dtohCopies evs) % 2 ^ 64 < 2 ^ 64 := by
    omega
  constructor
  · rintro ⟨hadd, -, -, hpos⟩
    refine ⟨hsum.mp hadd, fun hbytes => ?_⟩
    have hratio := hpos ((bytes_pos_iff _).mp hbytes)
    rw [← hh]
    by_contra hzero
    have hhtod : tw.htodBytes.toNat = 0 := by omega
    rw [hr, hhtod, Nat.cast_zero, zero_div, ite_self] at hratio
    exact absurd hratio (lt_irrefl 0)
  · rintro ⟨hfit, hpos⟩
    have hadd := hsum.mpr hfit
    have hle : tw.htodBytes.toNat ≤ tw.totalMemcpyBytes.toNat := by omega
    refine ⟨hadd, ?_, ?_, fun hcopy => ?_⟩
    · rw [hr]
      split_ifs
      · positivity
      · exact le_rfl
    · rw [hr]
      split_ifs with htotal
      · exact (div_le_one (Nat.cast_pos.mpr htotal)).mpr (Nat.cast_le.mpr hle)
      · exact zero_le_one
    · have hhtod : 0 < tw.htodBytes.toNat := hh ▸ hpos ((bytes_pos_iff _).mpr hcopy)
      have htotal : 0 < tw.totalMemcpyBytes.toNat := hhtod.trans_le hle
      rw [hr, if_pos htotal]
      exact div_pos (Nat.cast_pos.mpr hhtod) (Nat.cast_pos.mpr htotal)

/-- A reported window splits its transfers properly exactly when the sums of
its own copies fit. -/
theorem transfers_split_iff (D : Duration) (now : Time) (acts : List Action) (t : Trace ℚ)
    (h : exec step (start D now) acts = some t) (p : UInt32) :
    List.Forall₂ (fun e seg => SplitsProperly e seg ↔ SumsFit (seg.map Prod.snd))
      (emitted p t) (t.segments p).closed := by
  have href := refines_run h
  rw [reported_forall₂ href p]
  intro seg hm w hw
  have hown : ∀ x ∈ seg, x.2.IsOf p :=
    fun x hx => href.own p x (History.mem_flat_of_mem (List.mem_append_left _ hm) hx)
  obtain ⟨tw, hpay, hsplit⟩ := splitOf_windowOf hown hw
  rw [← properSplit_iff hsplit]
  constructor
  · rintro ⟨tw', hpay', hproper⟩
    obtain rfl : tw = tw' := Payload.tw.inj (hpay.symm.trans hpay')
    exact hproper
  · exact fun hproper => ⟨tw, hpay, hproper⟩

theorem transfers_split_mixedRun : ∃ t, exec step (start (F := ℚ) 2 0) mixedRun = some t ∧
    List.Forall₂ (fun e seg => SplitsProperly e seg ↔ SumsFit (seg.map Prod.snd))
      (emitted 8 t) (t.segments 8).closed := by
  have h : (exec step (start (F := ℚ) 2 0) mixedRun).isSome := by decide +kernel
  have ht := (Option.some_get h).symm
  exact ⟨_, ht, transfers_split_iff 2 0 mixedRun _ ht 8⟩

def wrappingRun : List Action :=
  [.update 1 (sampleMemcpy 7 18446744073709551615 0), .update 2 (sampleMemcpy 7 1 0), .flush 9 [7]]

theorem wrappingRun_not_split : ∃ t, exec step (start (F := ℚ) 2 0) wrappingRun = some t ∧
    ¬ List.Forall₂ SplitsProperly (emitted 7 t) (t.segments 7).closed := by
  decide +kernel

end InfraSightGpu.TransferSplit
