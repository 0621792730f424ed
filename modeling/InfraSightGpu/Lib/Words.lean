import Mathlib.Data.UInt
import Mathlib.Algebra.BigOperators.Fin
import Mathlib.Algebra.Order.BigOperators.Group.List
import Mathlib.Data.Nat.ModEq
import Mathlib.Tactic.Ring

namespace InfraSightGpu.Lib.Words

variable {E : Type} {n : Nat}

open scoped UInt64.CommRing

def sumBy (g : E → UInt64) (vs : List E) : UInt64 := vs.foldl (fun acc v => acc + g v) 0

theorem sumBy_eq_sum (g : E → UInt64) (vs : List E) : sumBy g vs = (vs.map g).sum := by
  rw [sumBy, List.sum_eq_foldl, List.foldl_map]

theorem sumBy_update (g : E → UInt64) (s : Fin n → E) (i : Fin n) (e : E) (d : UInt64)
    (h : g e = g (s i) + d) :
    sumBy g (List.ofFn (Function.update s i e)) = sumBy g (List.ofFn s) + d := by
  have hg : g ∘ Function.update s i e = Function.update (g ∘ s) i (g (s i) + d) := by
    rw [Function.comp_update, h]
  simp only [sumBy_eq_sum, List.map_ofFn, hg, List.sum_ofFn]
  rw [Finset.sum_update_of_mem (Finset.mem_univ i), Finset.sdiff_singleton_eq_erase,
    ← Finset.add_sum_erase _ _ (Finset.mem_univ i)]
  dsimp only [Function.comp_apply]
  ring

theorem sumBy_const_zero (g : E → UInt64) (vs : List E) (h : ∀ v ∈ vs, g v = 0) :
    sumBy g vs = 0 := by
  rw [sumBy_eq_sum]
  exact List.sum_eq_zero (by simpa using h)

/-- Reducing the terms of a sum changes it unless every term is reduced already. -/
theorem sum_mod_eq_iff (m : Nat) (hm : 0 < m) (ns : List Nat) :
    (ns.map (· % m)).sum = ns.sum ↔ ∀ n ∈ ns, n < m := by
  induction ns with
  | nil => simp
  | cons n ns ih =>
    have hle : (ns.map (· % m)).sum ≤ (ns.map id).sum :=
      List.sum_le_sum fun n _ => Nat.mod_le n m
    rw [List.map_id] at hle
    have hn : n % m ≤ n := Nat.mod_le n m
    have hiff : n % m = n ↔ n < m := Nat.mod_eq_iff_lt hm.ne'
    simp only [List.map_cons, List.sum_cons, List.forall_mem_cons]
    rw [← ih, ← hiff]
    omega

section Pieces

variable {X : Type} {f : List X → Nat} (h0 : f [] = 0) (hadd : ∀ a b, f (a ++ b) = f a + f b)
include h0 hadd

theorem sum_pieces (segs : List (List X)) : (segs.map f).sum = f segs.flatten := by
  induction segs with
  | nil => exact h0.symm
  | cons seg segs ih => rw [List.map_cons, List.sum_cons, ih, List.flatten_cons, hadd]

theorem sum_pieces_modEq (m : Nat) (segs : List (List X)) :
    (segs.map fun seg => f seg % m).sum ≡ f segs.flatten [MOD m] := by
  rw [← sum_pieces h0 hadd]
  induction segs with
  | nil => rfl
  | cons seg segs ih => exact (Nat.mod_modEq _ _).add ih

theorem sum_pieces_eq_iff {m : Nat} (hm : 0 < m) (segs : List (List X)) :
    (segs.map fun seg => f seg % m).sum = f segs.flatten ↔ ∀ seg ∈ segs, f seg < m := by
  have hiff := sum_mod_eq_iff m hm (segs.map f)
  rwa [List.map_map, sum_pieces h0 hadd, List.forall_mem_map] at hiff

end Pieces

theorem foldl_max_init (a : Nat) (ns : List Nat) :
    ns.foldl Nat.max a = Nat.max a (ns.foldl Nat.max 0) := by
  induction ns generalizing a with
  | nil => simp
  | cons n ns ih =>
    rw [List.foldl_cons, List.foldl_cons, ih, ih (Nat.max 0 n)]
    simp [max_assoc]

theorem foldl_max_pieces {X : Type} (g : List X → List Nat) (h0 : g [] = [])
    (hadd : ∀ a b, g (a ++ b) = g a ++ g b) (segs : List (List X)) :
    (segs.map fun seg => (g seg).foldl Nat.max 0).foldl Nat.max 0 =
      (g segs.flatten).foldl Nat.max 0 := by
  induction segs with
  | nil => rw [List.flatten_nil, h0]; rfl
  | cons seg segs ih =>
    rw [List.map_cons, List.foldl_cons, foldl_max_init, ih, List.flatten_cons, hadd,
      List.foldl_append, foldl_max_init (List.foldl Nat.max 0 (g seg))]
    simp

/-- A product of three numbers keeps its residue when the upper digits are
dropped exactly when those contribute nothing to the upper digit of the product. -/
theorem mul_digits_modEq_iff {B : Nat} (hB : 0 < B) (x y z a b c : Nat) :
    (x + B * a) * (y + B * b) * (z + B * c) ≡ x * y * z [MOD B * B] ↔
      B ∣ a * y * z + x * b * z + x * y * c := by
  have hexpand : (x + B * a) * (y + B * b) * (z + B * c) = x * y * z +
      B * (a * y * z + x * b * z + x * y * c + B * (a * b * z + a * y * c + x * b * c +
        B * (a * b * c))) := by ring
  rw [hexpand, Nat.add_modEq_left_iff, Nat.mul_dvd_mul_iff_left hB,
    Nat.dvd_add_left (Nat.dvd_mul_right _ _)]

theorem toNat_mul3 (x y z : UInt64) :
    (x * y * z).toNat = x.toNat * y.toNat * z.toNat % 2 ^ 64 := by
  rw [UInt64.toNat_mul, UInt64.toNat_mul, Nat.mod_mul_mod]

theorem toNat_truncate (x : UInt64) : x.toUInt32.toUInt64.toNat = x.toNat % 2 ^ 32 := by
  simp

/-- The upper 32 bits of three words, seen from the product of the words. -/
def crossTerms (x y z : UInt64) : Nat :=
  x.toNat / 2 ^ 32 * (y.toNat % 2 ^ 32) * (z.toNat % 2 ^ 32) +
    x.toNat % 2 ^ 32 * (y.toNat / 2 ^ 32) * (z.toNat % 2 ^ 32) +
    x.toNat % 2 ^ 32 * (y.toNat % 2 ^ 32) * (z.toNat / 2 ^ 32)

theorem mul_truncate_iff (x y z : UInt64) :
    x * y * z = x.toUInt32.toUInt64 * y.toUInt32.toUInt64 * z.toUInt32.toUInt64 ↔
      2 ^ 32 ∣ crossTerms x y z := by
  have hdigits := mul_digits_modEq_iff (B := 2 ^ 32) (by norm_num) (x.toNat % 2 ^ 32)
    (y.toNat % 2 ^ 32) (z.toNat % 2 ^ 32) (x.toNat / 2 ^ 32) (y.toNat / 2 ^ 32) (z.toNat / 2 ^ 32)
  simp only [Nat.mod_add_div] at hdigits
  rw [crossTerms, ← hdigits, ← UInt64.toNat_inj, toNat_mul3, toNat_mul3]
  simp only [toNat_truncate]
  rfl

end InfraSightGpu.Lib.Words
