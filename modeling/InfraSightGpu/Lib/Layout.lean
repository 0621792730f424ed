import Mathlib.Data.Nat.Basic
import Mathlib.Tactic.Ring

namespace InfraSightGpu.Lib.Layout

def toLe : Nat → Nat → List UInt8
  | 0, _ => []
  | k + 1, x => UInt8.ofNat x :: toLe k (x / 256)

def ofLe : List UInt8 → Nat
  | [] => 0
  | b :: bs => b.toNat + 256 * ofLe bs

@[simp] theorem length_toLe (k x : Nat) : (toLe k x).length = k := by
  induction k generalizing x with
  | zero => rfl
  | succ k ih => simp [toLe, ih]

theorem ofLe_toLe (k x : Nat) (h : x < 256 ^ k) : ofLe (toLe k x) = x := by
  induction k generalizing x with
  | zero =>
    have h0 : x = 0 := by simpa using h
    simp [toLe, ofLe, h0]
  | succ k ih =>
    have hd : x / 256 < 256 ^ k := by
      rw [Nat.div_lt_iff_lt_mul (by decide), ← Nat.pow_succ]
      exact h
    have hm : (UInt8.ofNat x).toNat = x % 256 := by simp
    rw [toLe, ofLe, ih _ hd, hm]
    omega

inductive Ty where
  | u8 | u32 | u64 | bytes (n : Nat)
deriving DecidableEq

namespace Ty

abbrev Val : Ty → Type
  | u8 => UInt8
  | u32 => UInt32
  | u64 => UInt64
  | bytes n => Vector UInt8 n

def size : Ty → Nat
  | u8 => 1
  | u32 => 4
  | u64 => 8
  | bytes n => n

def align : Ty → Nat
  | u8 => 1
  | u32 => 4
  | u64 => 8
  | bytes _ => 1

def encode : (t : Ty) → t.Val → List UInt8
  | u8, x => toLe 1 x.toNat
  | u32, x => toLe 4 x.toNat
  | u64, x => toLe 8 x.toNat
  | bytes _, x => x.toList

def decode : (t : Ty) → List UInt8 → t.Val
  | u8, bs => UInt8.ofNat (ofLe bs)
  | u32, bs => UInt32.ofNat (ofLe bs)
  | u64, bs => UInt64.ofNat (ofLe bs)
  | bytes _, bs => Vector.ofFn fun i => bs.getD i 0

@[simp] theorem length_encode (t : Ty) (v : t.Val) : (t.encode v).length = t.size := by
  cases t with
  | u8 | u32 | u64 => exact length_toLe _ _
  | bytes n => exact Vector.length_toList

theorem decode_encode (t : Ty) (v : t.Val) : t.decode (t.encode v) = v := by
  cases t with
  | u8 =>
    rw [encode, decode, ofLe_toLe 1 _ v.toNat_lt]
    exact UInt8.ofNat_toNat
  | u32 =>
    rw [encode, decode, ofLe_toLe 4 _ v.toNat_lt]
    exact UInt32.ofNat_toNat
  | u64 =>
    rw [encode, decode, ofLe_toLe 8 _ v.toNat_lt]
    exact UInt64.ofNat_toNat
  | bytes n =>
    apply Vector.ext
    intro i hi
    simp [encode, decode]

end Ty

abbrev Vals : List Ty → Type
  | [] => Unit
  | t :: ts => t.Val × Vals ts

def padding (align off : Nat) : Nat := (align - off % align) % align

def gap (garbage : Nat → UInt8) (off n : Nat) : List UInt8 :=
  (List.range n).map fun i => garbage (off + i)

@[simp] theorem length_gap (garbage : Nat → UInt8) (off n : Nat) :
    (gap garbage off n).length = n := by
  simp [gap]

/-- The members from an offset on, each at its natural alignment, and the
padding that rounds the size up to the alignment of the struct. -/
def layoutFrom (garbage : Nat → UInt8) (al : Nat) : Nat → (ts : List Ty) → Vals ts → List UInt8
  | off, [], _ => gap garbage off (padding al off)
  | off, t :: ts, (v, vs) =>
    gap garbage off (padding t.align off) ++ (t.encode v ++
      layoutFrom garbage al (off + padding t.align off + t.size) ts vs)

def structAlign (ts : List Ty) : Nat := (ts.map Ty.align).foldr max 1

def layout (garbage : Nat → UInt8) (ts : List Ty) (vs : Vals ts) : List UInt8 :=
  layoutFrom garbage (structAlign ts) 0 ts vs

def sizeofFrom (al : Nat) : Nat → List Ty → Nat
  | off, [] => off + padding al off
  | off, t :: ts => sizeofFrom al (off + padding t.align off + t.size) ts

def sizeof (ts : List Ty) : Nat := sizeofFrom (structAlign ts) 0 ts

theorem length_layoutFrom (garbage : Nat → UInt8) (al off : Nat) (ts : List Ty) (vs : Vals ts) :
    off + (layoutFrom garbage al off ts vs).length = sizeofFrom al off ts := by
  induction ts generalizing off with
  | nil => simp [layoutFrom, sizeofFrom]
  | cons t ts ih =>
    simp only [layoutFrom, sizeofFrom, ← ih _ vs.2, List.length_append, length_gap,
      Ty.length_encode]
    ring

theorem length_layout (garbage : Nat → UInt8) (ts : List Ty) (vs : Vals ts) :
    (layout garbage ts vs).length = sizeof ts := by
  have h := length_layoutFrom garbage (structAlign ts) 0 ts vs
  rwa [Nat.zero_add] at h

/-- The fields of a packed struct, indexed by the types of its named fields.
A blank field occupies bytes that a decoder skips. -/
inductive Fields : List Ty → Type where
  | nil : Fields []
  | named (t : Ty) {ts : List Ty} (fs : Fields ts) : Fields (t :: ts)
  | blank (n : Nat) {ts : List Ty} (fs : Fields ts) : Fields ts

def packedSize {ts : List Ty} : Fields ts → Nat
  | .nil => 0
  | .named t fs => t.size + packedSize fs
  | .blank n fs => n + packedSize fs

def readFields {ts : List Ty} : Fields ts → List UInt8 → Vals ts
  | .nil, _ => ()
  | .named t fs, bs => (t.decode (bs.take t.size), readFields fs (bs.drop t.size))
  | .blank n fs, bs => readFields fs (bs.drop n)

def blankIf (n : Nat) {ts : List Ty} (fs : Fields ts) : Fields ts :=
  if n = 0 then fs else .blank n fs

/-- The packed struct that spells the padding of a C struct out. -/
def explicitFrom (al : Nat) : Nat → (ts : List Ty) → Fields ts
  | off, [] => blankIf (padding al off) .nil
  | off, t :: ts => blankIf (padding t.align off)
      (.named t (explicitFrom al (off + padding t.align off + t.size) ts))

def explicit (ts : List Ty) : Fields ts := explicitFrom (structAlign ts) 0 ts

theorem packedSize_blankIf (n : Nat) {ts : List Ty} (fs : Fields ts) :
    packedSize (blankIf n fs) = n + packedSize fs := by
  unfold blankIf
  split <;> simp_all [packedSize]

theorem readFields_blankIf (n : Nat) {ts : List Ty} (fs : Fields ts) (bs : List UInt8) :
    readFields (blankIf n fs) bs = readFields fs (bs.drop n) := by
  unfold blankIf
  split <;> simp_all [readFields]

theorem packedSize_explicitFrom (al off : Nat) (ts : List Ty) :
    off + packedSize (explicitFrom al off ts) = sizeofFrom al off ts := by
  induction ts generalizing off with
  | nil => simp [explicitFrom, sizeofFrom, packedSize_blankIf, packedSize]
  | cons t ts ih =>
    simp only [explicitFrom, sizeofFrom, ← ih, packedSize_blankIf, packedSize]
    ring

theorem readFields_layoutFrom (garbage : Nat → UInt8) (al off : Nat) (ts : List Ty)
    (vs : Vals ts) (rest : List UInt8) :
    readFields (explicitFrom al off ts) (layoutFrom garbage al off ts vs ++ rest) = vs := by
  induction ts generalizing off with
  | nil => rfl
  | cons t ts ih =>
    obtain ⟨v, vs⟩ := vs
    have hskip : ∀ xs : List UInt8,
        (gap garbage off (padding t.align off) ++ xs).drop (padding t.align off) = xs :=
      fun xs => by rw [List.drop_append_of_le_length (by simp)]; simp
    have htake : ∀ xs : List UInt8, (t.encode v ++ xs).take t.size = t.encode v :=
      fun xs => List.take_left' (Ty.length_encode t v)
    have hdrop : ∀ xs : List UInt8, (t.encode v ++ xs).drop t.size = xs :=
      fun xs => List.drop_left' (Ty.length_encode t v)
    simp only [explicitFrom, layoutFrom, readFields_blankIf, readFields, List.append_assoc,
      hskip, htake, hdrop, Ty.decode_encode, ih]

theorem packedSize_explicit (ts : List Ty) : packedSize (explicit ts) = sizeof ts := by
  have h := packedSize_explicitFrom (structAlign ts) 0 ts
  rwa [Nat.zero_add] at h

theorem readFields_append {ts : List Ty} (fs : Fields ts) {bs : List UInt8}
    (h : packedSize fs ≤ bs.length) (rest : List UInt8) :
    readFields fs (bs ++ rest) = readFields fs bs := by
  induction fs generalizing bs with
  | nil => rfl
  | named t fs ih =>
    rw [packedSize] at h
    rw [readFields, readFields, List.take_append_of_le_length (by omega),
      List.drop_append_of_le_length (by omega), ih (by rw [List.length_drop]; omega)]
  | blank n fs ih =>
    rw [packedSize] at h
    rw [readFields, readFields, List.drop_append_of_le_length (by omega),
      ih (by rw [List.length_drop]; omega)]

/-- Decoding the explicit packed struct undoes the C layout, whatever the
padding holds. -/
theorem readFields_layout (garbage : Nat → UInt8) (ts : List Ty) (vs : Vals ts)
    (rest : List UInt8) : readFields (explicit ts) (layout garbage ts vs ++ rest) = vs :=
  readFields_layoutFrom garbage (structAlign ts) 0 ts vs rest

end InfraSightGpu.Lib.Layout
