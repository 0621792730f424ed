import InfraSightGpu.WindowTotals
import Mathlib.Data.List.DropRight
import Mathlib.Tactic.Linarith
import Mathlib.Tactic.Ring

namespace InfraSightGpu.WindowTimes

open InfraSightGpu.Events InfraSightGpu.Fingerprint InfraSightGpu.Aggregator
open InfraSightGpu.Lib.Maps InfraSightGpu.Lib.Runs InfraSightGpu.Lib.Segments
open InfraSightGpu.WindowHistory InfraSightGpu.WindowTotals

variable {F : Type} [GoFloat F]

def Clocked (acts : List Action) : Prop := acts.Pairwise fun a b => a.now ≤ b.now

instance (acts : List Action) : Decidable (Clocked acts) :=
  inferInstanceAs (Decidable (acts.Pairwise _))

/-- The action passes an event to `Update` after the window of its process,
which is still in the map, has ended. -/
def LateUpdate (t : Trace F) : Action → Prop
  | .update now ev => ∃ p w, ev.IsOf p ∧ t.ga.windows.lookup p = some w ∧ w.windowEnd < now
  | .flush _ _ => False

def Punctual (D : Duration) (seg : List Timed) : Prop :=
  ∀ x ∈ seg, ∀ f ∈ seg.head?, x.1 ≤ f.1 + D

def AllPunctual (D : Duration) (t : Trace F) : Prop :=
  ∀ p, ∀ seg ∈ (t.segments p).all, Punctual D seg

theorem windowOf_bounds {D : Duration} {p : UInt32} {seg : List Timed} {w : GPUFingerprint F}
    (hseg : ∀ x ∈ seg, x.2.IsOf p) (hw : windowOf D seg = some w) :
    ∃ f, seg.head? = some f ∧ w.windowStart = f.1 ∧ w.windowEnd = f.1 + D := by
  cases seg with
  | nil => simp [windowOf] at hw
  | cons f xs =>
    obtain ⟨comm, -, hwin⟩ := windowOf_cons (F := F) D xs (hseg f (by simp))
    rw [hwin] at hw
    cases hw
    obtain ⟨-, -, hs, he⟩ := foldl_record_frame (newWindow (F := F) D f.1 p comm.toList) (f :: xs)
    exact ⟨f, rfl, hs, he⟩

theorem live_of_head {D : Duration} {t : Trace F} (h : Refines D t) {p : UInt32} {f : Timed}
    (hf : f ∈ (t.segments p).current.head?) :
    ∃ w, t.ga.windows.lookup p = some w ∧ w.windowEnd = f.1 + D := by
  have hown := h.own_current p
  rw [h.live p]
  cases hc : (t.segments p).current with
  | nil => simp [hc] at hf
  | cons x xs =>
    obtain ⟨comm, -, hwin⟩ := windowOf_cons (F := F) D xs (hown x (by simp [hc]))
    obtain ⟨g, hg, -, he⟩ := windowOf_bounds (hc ▸ hown) hwin
    rw [hc] at hf
    obtain rfl : f = g := Option.some.inj (hf.symm.trans hg)
    exact ⟨_, hwin, he⟩

theorem lateUpdate_iff {D : Duration} {t : Trace F} (h : Refines D t) (now : Time) (ev : Event) :
    LateUpdate t (.update now ev) ↔
      ∃ p, ev.IsOf p ∧ ∃ f ∈ (t.segments p).current.head?, f.1 + D < now := by
  constructor
  · rintro ⟨p, w, hp, hw, hlate⟩
    rw [h.live p] at hw
    obtain ⟨f, hf, -, he⟩ := windowOf_bounds (h.own_current p) hw
    exact ⟨p, hp, f, hf, he ▸ hlate⟩
  · rintro ⟨p, hp, f, hf, hlate⟩
    obtain ⟨w, hw, he⟩ := live_of_head h hf
    exact ⟨p, w, hp, hw, he ▸ hlate⟩

theorem punctual_snoc {D : Duration} (hD : 0 < D) {seg : List Timed} {x : Timed} :
    Punctual D (seg ++ [x]) ↔ Punctual D seg ∧ ∀ f ∈ seg.head?, x.1 ≤ f.1 + D := by
  cases seg with
  | nil =>
    have hle : x.1 ≤ x.1 + D := by linarith
    simp [Punctual, hle]
  | cons f seg => simp [Punctual, or_imp, forall_and, and_assoc]

theorem punctual_all_iff {D : Duration} {s : History Timed} :
    (∀ seg ∈ s.all, Punctual D seg) ↔
      (∀ seg ∈ s.closed, Punctual D seg) ∧ Punctual D s.current := by
  have hnil : Punctual D [] := by simp [Punctual]
  by_cases hc : s.current = [] <;> simp [History.all, hc, hnil, or_imp, forall_and]

theorem allPunctual_update {D : Duration} (hD : 0 < D) {t : Trace F} (h : Refines D t)
    (now : Time) (ev : Event) :
    AllPunctual D (traceUpdate t now ev) ↔
      AllPunctual D t ∧ ¬ LateUpdate t (.update now ev) := by
  have hseg : ∀ p, (∀ seg ∈ ((traceUpdate t now ev).segments p).all, Punctual D seg) ↔
      (∀ seg ∈ (t.segments p).all, Punctual D seg) ∧
        (ev.IsOf p → ∀ f ∈ (t.segments p).current.head?, now ≤ f.1 + D) := by
    intro p
    by_cases hp : ev.IsOf p
    · simp only [traceUpdate, hp, if_true, punctual_all_iff, History.closed_push,
        History.current_push, punctual_snoc hD, and_assoc, forall_const]
    · simp [traceUpdate, hp]
  rw [lateUpdate_iff h]
  simp only [AllPunctual, hseg, forall_and]
  push Not
  rfl

theorem allPunctual_flush {D : Duration} {t : Trace F} (h : Refines D t) (now : Time)
    {order : List UInt32} (ho : Enumerates order t.ga.windows) :
    AllPunctual D (traceFlush t now order) ↔ AllPunctual D t := by
  have hall : ∀ p, ((traceFlush t now order).segments p).all = (t.segments p).all := by
    intro p
    rw [segments_traceFlush h now ho]
    split
    · rfl
    · exact History.all_cut _
  simp only [AllPunctual, hall]

/-- The segments are punctual exactly when no update of the run was late. -/
theorem allPunctual_run {D : Duration} (hD : 0 < D) {now : Time} {acts : List Action}
    {t : Trace F} (h : exec step (start D now) acts = some t) :
    AllPunctual D t ↔ Along step (fun t a => ¬ LateUpdate t a) (start (F := F) D now) acts := by
  refine exec_induction (I := fun acts t => AllPunctual D t ↔
    Along step (fun t a => ¬ LateUpdate t a) (start (F := F) D now) acts) ?_ ?_ h
  · simp [AllPunctual, start, History.all, History.empty]
  · intro as t a u hr ih hs
    have hst : (∀ t', exec step (start (F := F) D now) as = some t' → ¬ LateUpdate t' a) ↔
        ¬ LateUpdate t a := by simp [hr]
    rw [along_snoc, hst, ← ih]
    cases a with
    | update now' ev =>
      cases hs
      exact allPunctual_update hD (refines_run hr) now' ev
    | flush now' order =>
      obtain ⟨ho, rfl⟩ := step_flush.mp hs
      rw [allPunctual_flush (refines_run hr) now' ho]
      simp [LateUpdate]

def untilLastFlush (acts : List Action) : List Action :=
  acts.rdropWhile fun | .update _ _ => true | .flush _ _ => false

theorem time_of_mem {p : UInt32} {acts : List Action} {x : Timed}
    (hx : x ∈ timedEvents p acts) : ∃ a ∈ acts, a.now = x.1 := by
  obtain ⟨a, ha, hax⟩ := List.mem_filterMap.mp hx
  refine ⟨a, ha, ?_⟩
  cases a with
  | update now ev =>
    dsimp only at hax
    split at hax <;> cases hax
    rfl
  | flush now order => cases hax

theorem allPunctual_iff_closed {D : Duration} {now now' : Time} {as : List Action}
    {order : List UInt32} {t : Trace F} (h : exec step (start D now) as = some t)
    (hclock : Clocked (as ++ [.flush now' order])) (ho : Enumerates order t.ga.windows) :
    AllPunctual D (traceFlush t now' order) ↔
      ∀ p, ∀ seg ∈ ((traceFlush t now' order).segments p).closed, Punctual D seg := by
  refine ⟨fun hall p seg hm => hall p seg (List.mem_append_left _ hm), fun hcl p seg hm => ?_⟩
  obtain hm | hm := List.mem_append.mp hm
  · exact hcl p seg hm
  · have href := refines_run h
    rw [segments_traceFlush href now' ho] at hm
    split at hm
    · next hnone =>
      split at hm
      · simp at hm
      · rw [List.mem_singleton.mp hm]
        intro x hx f hf
        have hflat : x ∈ timedEvents p as := flat_run h p ▸ List.mem_append_right _ hx
        obtain ⟨a, ha, hax⟩ := time_of_mem hflat
        have hle : x.1 ≤ now' :=
          hax ▸ (List.pairwise_append.mp hclock).2.2 a ha (.flush now' order) (by simp)
        obtain ⟨w, hw, he⟩ := live_of_head href hf
        rw [hw] at hnone
        have hopen : ¬ w.windowEnd < now' := fun hlt => by simp [report, hlt] at hnone
        linarith
    · simp at hm

theorem closed_punctual_iff {D : Duration} (hD : 0 < D) {now : Time} {acts : List Action}
    {t : Trace F} (h : exec step (start D now) acts = some t) (hclock : Clocked acts) :
    (∀ p, ∀ seg ∈ (t.segments p).closed, Punctual D seg) ↔
      Along step (fun t a => ¬ LateUpdate t a) (start (F := F) D now) (untilLastFlush acts) := by
  refine exec_induction (I := fun acts t => Clocked acts →
    ((∀ p, ∀ seg ∈ (t.segments p).closed, Punctual D seg) ↔
      Along step (fun t a => ¬ LateUpdate t a) (start (F := F) D now) (untilLastFlush acts)))
    ?_ ?_ h hclock
  · intro _
    simp [start, History.empty, untilLastFlush]
  · intro as t a u hr ih hs hcl
    cases a with
    | update now' ev =>
      cases hs
      have hcut : untilLastFlush (as ++ [.update now' ev]) = untilLastFlush as :=
        List.rdropWhile_concat_pos _ _ _ rfl
      have hsame : ∀ p, ((traceUpdate t now' ev).segments p).closed = (t.segments p).closed := by
        intro p
        simp only [traceUpdate]
        split <;> rfl
      rw [hcut, ← ih (List.pairwise_append.mp hcl).1]
      simp only [hsame]
    | flush now' order =>
      have hcut : untilLastFlush (as ++ [.flush now' order]) = as ++ [.flush now' order] :=
        List.rdropWhile_concat_neg _ _ _ (by simp)
      rw [hcut, ← allPunctual_run hD (exec_snoc_eq_some.mpr ⟨t, hr, hs⟩)]
      obtain ⟨ho, rfl⟩ := step_flush.mp hs
      exact (allPunctual_iff_closed hr hcl ho).symm

def Inside (tw : GpuTimeWindow ℚ) (x : Timed) : Prop :=
  tw.windowStartNs ≤ x.1 ∧ x.1 ≤ tw.windowEndNs

instance (tw : GpuTimeWindow ℚ) (x : Timed) : Decidable (Inside tw x) :=
  inferInstanceAs (Decidable (_ ∧ _))

def insideEvents (tw : GpuTimeWindow ℚ) (seg : List Timed) : List Event :=
  (seg.filter fun x => Inside tw x).map Prod.snd

def perSecond (n : Nat) (D : Duration) : ℚ := n / (D / 1000000000)

/-- A reported window is about its own interval: all the events it counts
arrived inside, and its rates are the numbers of those per second. -/
structure Timely (D : Duration) (tw : GpuTimeWindow ℚ) (seg : List Timed) : Prop where
  inside : ∀ x ∈ seg, Inside tw x
  launchRate : tw.launchRate = perSecond (launches (insideEvents tw seg)).length D
  memcpyRate : tw.memcpyRate = perSecond (copies (insideEvents tw seg)).length D
  allocRate : tw.allocRate = perSecond (allocs (insideEvents tw seg)).length D

def ReportsTimely (D : Duration) (e : GpuEvent ℚ) (seg : List Timed) : Prop :=
  ∃ tw, e.payload = .tw tw ∧ Timely D tw seg

instance (D : Duration) (tw : GpuTimeWindow ℚ) (seg : List Timed) : Decidable (Timely D tw seg) :=
  decidable_of_iff
    ((∀ x ∈ seg, Inside tw x) ∧
      tw.launchRate = perSecond (launches (insideEvents tw seg)).length D ∧
      tw.memcpyRate = perSecond (copies (insideEvents tw seg)).length D ∧
      tw.allocRate = perSecond (allocs (insideEvents tw seg)).length D)
    ⟨fun h => ⟨h.1, h.2.1, h.2.2.1, h.2.2.2⟩, fun h => ⟨h.1, h.2, h.3, h.4⟩⟩

instance (D : Duration) (e : GpuEvent ℚ) (seg : List Timed) : Decidable (ReportsTimely D e seg) :=
  match h : e.payload with
  | .tw tw => decidable_of_iff (Timely D tw seg) (by simp [ReportsTimely, h])
  | .token _ => isFalse (by simp [ReportsTimely, h])

theorem seconds_rat (d : Duration) : (GoFloat.seconds d : ℚ) = d / 1000000000 := by
  have h : (d : ℚ) = ((1000000000 * d.tdiv 1000000000 + d.tmod 1000000000 : ℤ) : ℚ) := by
    rw [Int.mul_tdiv_add_tmod]
  unfold GoFloat.seconds
  simp only [GoFloat.ofInt]
  rw [h]
  push_cast
  ring

theorem duration_pos {D : Duration} (hD : 0 < D) {w : GPUFingerprint ℚ}
    (hw : w.windowEnd - w.windowStart = D) : (0 : ℚ) < duration w := by
  rw [duration, hw, seconds_rat]
  exact div_pos (Int.cast_pos.mpr hD) (by norm_num)

theorem reported_rates {D : Duration} (hD : 0 < D) {tw : GpuTimeWindow ℚ} {w : GPUFingerprint ℚ}
    (hrep : Reports tw w) (hw : w.windowEnd - w.windowStart = D) :
    tw.launchRate = perSecond (windowTotals tw).kernelLaunchCount D ∧
      tw.memcpyRate = perSecond (windowTotals tw).memcpyCount D ∧
      tw.allocRate = perSecond (windowTotals tw).memAllocCount D := by
  have hpos := duration_pos hD hw
  have hrate : ∀ count : UInt64,
      (GoFloat.ofUInt64 count : ℚ) / duration w = perSecond count.toNat D := by
    intro count
    rw [ofUInt64_rat, duration, hw, seconds_rat, perSecond]
  rw [hrep.totals]
  refine ⟨?_, ?_, ?_⟩
  · exact (hrep.metric .launchRate).trans ((if_pos hpos).trans (hrate _))
  · exact (hrep.metric .memcpyRate).trans ((if_pos hpos).trans (hrate _))
  · exact (hrep.metric .allocRate).trans ((if_pos hpos).trans (hrate _))

def Unwrapped (evs : List Event) : Prop :=
  (launches evs).length < 2 ^ 64 ∧ (copies evs).length < 2 ^ 64 ∧ (allocs evs).length < 2 ^ 64

theorem perSecond_mod_iff {D : Duration} (hD : 0 < D) (n : Nat) :
    perSecond (n % 2 ^ 64) D = perSecond n D ↔ n < 2 ^ 64 := by
  have hpos : (0 : ℚ) < D / 1000000000 := div_pos (Int.cast_pos.mpr hD) (by norm_num)
  rw [perSecond, perSecond, div_left_inj' hpos.ne', Nat.cast_inj]
  exact Nat.mod_eq_iff_lt (by norm_num)

theorem inside_iff_punctual {D : Duration} {seg : List Timed} {f : Timed}
    (hf : seg.head? = some f) (hsort : seg.Pairwise fun x y => x.1 ≤ y.1) {tw : GpuTimeWindow ℚ}
    (hs : tw.windowStartNs = f.1) (he : tw.windowEndNs = f.1 + D) :
    (∀ x ∈ seg, Inside tw x) ↔ Punctual D seg := by
  constructor
  · intro hin x hx g hg
    obtain rfl : f = g := Option.some.inj (hf.symm.trans hg)
    exact he ▸ (hin x hx).2
  · intro hpunct x hx
    refine ⟨?_, he ▸ hpunct x hx f hf⟩
    rw [hs]
    rw [← List.cons_head?_tail hf] at hx hsort
    obtain rfl | hx := List.mem_cons.mp hx
    · exact le_rfl
    · exact (List.pairwise_cons.mp hsort).1 x hx

theorem totals_windowOf {D : Duration} {p : UInt32} {seg : List Timed}
    (hseg : ∀ x ∈ seg, x.2.IsOf p) {w : GPUFingerprint ℚ} (hw : windowOf D seg = some w) :
    fingerprintTotals w = Totals.of (seg.map Prod.snd) := by
  have hne : seg ≠ [] := fun hnil => by simp [hnil, windowOf] at hw
  have hsum := summary_windowOf (F := ℚ) (D := D) hne hseg
  rw [hw] at hsum
  exact congrArg Summary.totals (Option.some.inj hsum)

/-- The report of a segment is timely exactly when the segment is punctual and
has wrapped none of the counters behind the rates. -/
theorem reportsTimely_iff {D : Duration} (hD : 0 < D) {p : UInt32} {seg : List Timed}
    (hseg : ∀ x ∈ seg, x.2.IsOf p) (hsort : seg.Pairwise fun x y => x.1 ≤ y.1)
    {w : GPUFingerprint ℚ} (hw : windowOf D seg = some w) :
    ReportsTimely D (windowEvent (deriveMetrics w)) seg ↔
      Punctual D seg ∧ Unwrapped (seg.map Prod.snd) := by
  obtain ⟨f, hf, hws, hwe⟩ := windowOf_bounds hseg hw
  obtain ⟨tw, hpay, hrep⟩ := payload_report w
  have hin := inside_iff_punctual hf hsort (hrep.windowStart.trans hws) (hrep.windowEnd.trans hwe)
  obtain ⟨hl, hm, ha⟩ := reported_rates hD hrep (by rw [hws, hwe]; ring)
  rw [hrep.totals.trans (totals_windowOf hseg hw)] at hl hm ha
  have hall : (∀ x ∈ seg, Inside tw x) → insideEvents tw seg = seg.map Prod.snd := by
    intro h
    rw [insideEvents, List.filter_eq_self.mpr fun x hx => by simpa using h x hx]
  constructor
  · rintro ⟨tw', hpay', htimely⟩
    obtain rfl : tw = tw' := Payload.tw.inj (hpay.symm.trans hpay')
    obtain ⟨hinside, hl', hm', ha'⟩ := htimely
    rw [hall hinside] at hl' hm' ha'
    refine ⟨hin.mp hinside, ?_, ?_, ?_⟩
    · exact (perSecond_mod_iff hD _).mp (hl.symm.trans hl')
    · exact (perSecond_mod_iff hD _).mp (hm.symm.trans hm')
    · exact (perSecond_mod_iff hD _).mp (ha.symm.trans ha')
  · rintro ⟨hpunct, hl', hm', ha'⟩
    have hinside := hin.mpr hpunct
    refine ⟨tw, hpay, hinside, ?_, ?_, ?_⟩
    · rw [hall hinside]
      exact hl.trans ((perSecond_mod_iff hD _).mpr hl')
    · rw [hall hinside]
      exact hm.trans ((perSecond_mod_iff hD _).mpr hm')
    · rw [hall hinside]
      exact ha.trans ((perSecond_mod_iff hD _).mpr ha')

theorem segment_sublist {D : Duration} {now : Time} {acts : List Action} {t : Trace F}
    (h : exec step (start D now) acts = some t) {p : UInt32} {seg : List Timed}
    (hm : seg ∈ (t.segments p).all) : seg.Sublist (timedEvents p acts) := by
  rw [← flat_run h p, ← History.flatten_all]
  exact List.sublist_flatten_of_mem hm

theorem sorted_segment {D : Duration} {now : Time} {acts : List Action} {t : Trace F}
    (h : exec step (start D now) acts = some t) (hclock : Clocked acts) {p : UInt32}
    {seg : List Timed} (hm : seg ∈ (t.segments p).all) :
    seg.Pairwise fun x y => x.1 ≤ y.1 := by
  have htime : ∀ (a : Action) (x : Timed), x ∈ timedEvents p [a] → a.now = x.1 := by
    intro a x hx
    obtain ⟨b, hb, hbx⟩ := time_of_mem hx
    rwa [List.mem_singleton.mp hb] at hbx
  refine List.Pairwise.sublist (segment_sublist h hm) (List.Pairwise.filterMap _ ?_ hclock)
  intro a b hab x hx y hy
  rw [← htime a x (by simpa [timedEvents] using hx), ← htime b y (by simpa [timedEvents] using hy)]
  exact hab

theorem forall₂_of_map_some {A B : Type} {R : A → B → Prop} {g : B → Option A} {as : List A}
    {bs : List B} (h : as.map some = bs.map g) :
    List.Forall₂ R as bs ↔ ∀ b ∈ bs, ∀ a, g b = some a → R a b := by
  induction bs generalizing as with
  | nil => simp_all
  | cons b bs ih =>
    cases as with
    | nil => simp at h
    | cons a as =>
      simp only [List.map_cons, List.cons.injEq] at h
      simp [List.forall₂_cons, ih h.2, ← h.1]

theorem reported_forall₂ {R : GpuEvent F → List Timed → Prop} {D : Duration} {t : Trace F}
    (h : Refines D t) (p : UInt32) :
    List.Forall₂ R (emitted p t) (t.segments p).closed ↔ ∀ seg ∈ (t.segments p).closed,
      ∀ w, windowOf D seg = some w → R (windowEvent (deriveMetrics w)) seg := by
  rw [forall₂_of_map_some (h.reported p)]
  simp only [Option.map_eq_some_iff]
  refine forall_congr' fun seg => forall_congr' fun _ => ?_
  constructor
  · exact fun hall w hw => hall _ ⟨w, hw, rfl⟩
  · rintro hall e ⟨w, hw, rfl⟩
    exact hall w hw

/-- The reported windows are about their own intervals exactly when no event
that a later flush can report was added to a window after its end, and no
reported window has wrapped a counter behind its rates. -/
theorem reported_windows_timely_iff (D : Duration) (hD : 0 < D) (now : Time) (acts : List Action)
    (t : Trace ℚ) (h : exec step (start D now) acts = some t) (hclock : Clocked acts) :
    (∀ p, List.Forall₂ (ReportsTimely D) (emitted p t) (t.segments p).closed) ↔
      Along step (fun t a => ¬ LateUpdate t a) (start (F := ℚ) D now) (untilLastFlush acts) ∧
        ∀ p, ∀ seg ∈ (t.segments p).closed, Unwrapped (seg.map Prod.snd) := by
  have href := refines_run h
  have hseg : ∀ p, List.Forall₂ (ReportsTimely D) (emitted p t) (t.segments p).closed ↔
      ∀ seg ∈ (t.segments p).closed, Punctual D seg ∧ Unwrapped (seg.map Prod.snd) := by
    intro p
    rw [reported_forall₂ href p]
    refine forall_congr' fun seg => forall_congr' fun hm => ?_
    have hall : seg ∈ (t.segments p).all := List.mem_append_left _ hm
    have hown : ∀ x ∈ seg, x.2.IsOf p :=
      fun x hx => href.own p x (History.mem_flat_of_mem hall hx)
    have hsum := summary_windowOf (F := ℚ) (D := D) ((t.segments p).all_ne seg hall) hown
    obtain ⟨w, hw, -⟩ := Option.map_eq_some_iff.mp hsum
    have hiff := reportsTimely_iff hD hown (sorted_segment h hclock hall) hw
    simp [hw, hiff]
  rw [← closed_punctual_iff hD h hclock]
  simp only [hseg]
  exact ⟨fun hall => ⟨fun p seg hm => (hall p seg hm).1, fun p seg hm => (hall p seg hm).2⟩,
    fun hall p seg hm => ⟨hall.1 p seg hm, hall.2 p seg hm⟩⟩

theorem reported_windows_timely_mixedRun :
    ∃ t, exec step (start (F := ℚ) 2 0) mixedRun = some t ∧
      ((∀ p, List.Forall₂ (ReportsTimely 2) (emitted p t) (t.segments p).closed) ↔
        Along step (fun t a => ¬ LateUpdate t a) (start (F := ℚ) 2 0) (untilLastFlush mixedRun) ∧
          ∀ p, ∀ seg ∈ (t.segments p).closed, Unwrapped (seg.map Prod.snd)) := by
  have h : (exec step (start (F := ℚ) 2 0) mixedRun).isSome := by decide +kernel
  have ht := (Option.some_get h).symm
  exact ⟨_, ht, reported_windows_timely_iff 2 (by decide) 0 mixedRun _ ht (by decide)⟩

/-- Two launches one after the other, the second after the window has ended
and before the flush that reports it. -/
def lateRun : List Action :=
  [.update 0 (sampleLaunch 7 32), .update 3 (sampleLaunch 7 32), .flush 4 [7]]

theorem lateRun_not_timely :
    Clocked lateRun ∧ ∃ t, exec step (start (F := ℚ) 2 0) lateRun = some t ∧
      ¬ ∀ p, List.Forall₂ (ReportsTimely 2) (emitted p t) (t.segments p).closed := by
  obtain ⟨t, ht, hno⟩ : ∃ t, exec step (start (F := ℚ) 2 0) lateRun = some t ∧
      ¬ List.Forall₂ (ReportsTimely 2) (emitted 7 t) (t.segments 7).closed := by
    decide +kernel
  exact ⟨by decide, t, ht, fun hall => hno (hall 7)⟩

end InfraSightGpu.WindowTimes
