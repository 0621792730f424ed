import InfraSightGpu.Lib.Runs
import Mathlib.Algebra.BigOperators.Group.Finset.Basic
import Mathlib.Data.Fintype.BigOperators

namespace InfraSightGpu.Lib.Quiescence

open InfraSightGpu.Lib.Runs

variable {S A : Type} {step : S → A → Option S} {P : A → Prop} {I : S → Prop} {rank : S → ℕ}

def Quiet (step : S → A → Option S) (P : A → Prop) (s : S) : Prop :=
  ∀ a, P a → step s a = none

theorem keeps_run (hkeep : ∀ s a u, I s → P a → step s a = some u → I u) {s : S} (hs : I s)
    {as : List A} (has : ∀ a ∈ as, P a) {t : S} (h : exec step s as = some t) : I t := by
  induction as generalizing s with
  | nil =>
    rw [exec_nil, Option.some.injEq] at h
    exact h ▸ hs
  | cons a as ih =>
    rw [List.forall_mem_cons] at has
    obtain ⟨u, hu, hrest⟩ := Option.bind_eq_some_iff.mp h
    exact ih (hkeep s a u hs has.1 hu) has.2 hrest

structure Lowers (step : S → A → Option S) (P : A → Prop) (I : S → Prop) (rank : S → ℕ) :
    Prop where
  keeps : ∀ s a u, I s → P a → step s a = some u → I u
  lower : ∀ s a u, I s → P a → step s a = some u → rank u < rank s

theorem Lowers.length_le (hl : Lowers step P I rank) {s : S} (hs : I s) {as : List A}
    (has : ∀ a ∈ as, P a) {t : S} (h : exec step s as = some t) :
    as.length + rank t ≤ rank s := by
  induction as generalizing s with
  | nil =>
    rw [exec_nil, Option.some.injEq] at h
    simp [h]
  | cons a as ih =>
    rw [List.forall_mem_cons] at has
    obtain ⟨u, hu, hrest⟩ := Option.bind_eq_some_iff.mp h
    have hlower := hl.lower s a u hs has.1 hu
    have hle := ih (hl.keeps s a u hs has.1 hu) has.2 hrest
    rw [List.length_cons]
    omega

theorem Lowers.exists_quiet (hl : Lowers step P I rank) {s : S} (hs : I s) :
    ∃ as t, (∀ a ∈ as, P a) ∧ exec step s as = some t ∧ Quiet step P t := by
  induction hr : rank s using Nat.strongRecOn generalizing s with
  | _ r ih =>
    by_cases hq : Quiet step P s
    · exact ⟨[], s, by simp, rfl, hq⟩
    · simp only [Quiet, not_forall] at hq
      obtain ⟨a, ha, hstep⟩ := hq
      obtain ⟨u, hu⟩ := Option.ne_none_iff_exists'.mp hstep
      obtain ⟨as, t, has, hrun, hquiet⟩ :=
        ih (rank u) (hr ▸ hl.lower s a u hs ha hu) (hl.keeps s a u hs ha hu) rfl
      refine ⟨a :: as, t, List.forall_mem_cons.mpr ⟨ha, has⟩, ?_, hquiet⟩
      rw [exec_cons, hu]
      exact hrun

/-- Amortised counting: when a step of one class lowers the rank and only a step
of another can raise it, by at most `k`, the second class pays for the first. -/
theorem countP_le {p q : A → Bool} {k : ℕ} (hI : ∀ s a u, I s → step s a = some u → I u)
    (hpay : ∀ s a u, I s → step s a = some u →
      rank u + (if p a then 1 else 0) ≤ rank s + if q a then k else 0)
    {s : S} (hs : I s) {as : List A} {t : S} (h : exec step s as = some t) :
    rank t + as.countP p ≤ rank s + k * as.countP q := by
  induction as generalizing s with
  | nil =>
    rw [exec_nil, Option.some.injEq] at h
    simp [h]
  | cons a as ih =>
    obtain ⟨u, hu, hrest⟩ := Option.bind_eq_some_iff.mp h
    have hfirst := hpay s a u hs hu
    have hle := ih (hI s a u hs hu) hrest
    have hcost : k * (as.countP q + if q a then 1 else 0) =
        k * as.countP q + if q a then k else 0 := by
      split <;> rw [Nat.mul_add] <;> simp
    rw [List.countP_cons, List.countP_cons, hcost]
    omega

theorem sum_update {J X : Type} [Fintype J] [DecidableEq J] (g : X → ℕ) (f : J → X) (i : J)
    (x : X) : (∑ j, g (Function.update f i x j)) + g (f i) = (∑ j, g (f j)) + g x := by
  have hupdate : (fun j => g (Function.update f i x j)) =
      Function.update (fun j => g (f j)) i (g x) := by
    funext j
    by_cases hj : j = i
    · subst hj
      simp
    · simp [hj]
  rw [hupdate, Finset.sum_update_of_mem (Finset.mem_univ i),
    ← Finset.sum_sdiff (Finset.subset_univ {i}), Finset.sum_singleton]
  omega

end InfraSightGpu.Lib.Quiescence
