import Mathlib.Data.UInt
import Mathlib.Tactic.SplitIfs

namespace InfraSightGpu.Lib.Wire

/-! Sizes, in bytes, of the fields of a protobuf message. A scalar or string
field without explicit presence is left out when it has its default value. -/

def varintSize (n : ℕ) : ℕ := n.log2 / 7 + 1

def tagSize (field : ℕ) : ℕ := varintSize (field * 8)

def uintField (field n : ℕ) : ℕ := if n = 0 then 0 else tagSize field + varintSize n

/-- Negative values are encoded as 64-bit two's complement. -/
def intField (field : ℕ) (x : ℤ) : ℕ := uintField field (UInt64.ofInt x).toNat

def doubleField (field : ℕ) (unset : Bool) : ℕ := if unset then 0 else tagSize field + 8

def messageField (field len : ℕ) : ℕ := tagSize field + varintSize len + len

def stringField (field len : ℕ) : ℕ := if len = 0 then 0 else messageField field len

theorem lt_messageField (field len : ℕ) : len < messageField field len := by
  unfold messageField tagSize varintSize
  omega

theorem le_stringField (field len : ℕ) : len ≤ stringField field len := by
  unfold stringField
  split_ifs with h
  · omega
  · exact Nat.le_of_lt (lt_messageField field len)

theorem varintSize_le {n k : ℕ} (hk : 0 < k) (h : n < 2 ^ (7 * k)) : varintSize n ≤ k := by
  unfold varintSize
  by_cases hn : n = 0
  · subst hn
    exact hk
  · have hlog : n.log2 < 7 * k := (Nat.log2_lt hn).mpr h
    omega

theorem tagSize_le_one {field : ℕ} (h : field < 16) : tagSize field ≤ 1 :=
  varintSize_le (by decide) (by omega)

theorem tagSize_le_two {field : ℕ} (h : field < 2048) : tagSize field ≤ 2 :=
  varintSize_le (by decide) (by omega)

theorem uintField_le (field : ℕ) {n k : ℕ} (hk : 0 < k) (h : n < 2 ^ (7 * k)) :
    uintField field n ≤ tagSize field + k := by
  have hsize := varintSize_le hk h
  unfold uintField
  split_ifs
  · exact Nat.zero_le _
  · omega

theorem uintField_le_of_lt (field : ℕ) {n : ℕ} (h : n < 2 ^ 64) :
    uintField field n ≤ tagSize field + 10 :=
  uintField_le field (by decide) (Nat.lt_trans h (by decide))

theorem intField_le (field : ℕ) (x : ℤ) : intField field x ≤ tagSize field + 10 :=
  uintField_le_of_lt field (UInt64.toNat_lt _)

theorem doubleField_le (field : ℕ) (unset : Bool) :
    doubleField field unset ≤ tagSize field + 8 := by
  unfold doubleField
  split_ifs
  · exact Nat.zero_le _
  · exact le_rfl

theorem messageField_le (field : ℕ) {len k : ℕ} (hk : 0 < k) (h : len < 2 ^ (7 * k)) :
    messageField field len ≤ tagSize field + k + len := by
  have hsize := varintSize_le hk h
  unfold messageField
  omega

theorem stringField_le (field : ℕ) {len k : ℕ} (hk : 0 < k) (h : len < 2 ^ (7 * k)) :
    stringField field len ≤ tagSize field + k + len := by
  unfold stringField
  split_ifs
  · exact Nat.zero_le _
  · exact messageField_le field hk h

end InfraSightGpu.Lib.Wire
