import Mathlib.Data.Finmap

namespace InfraSightGpu.Lib.Maps

variable {K V E : Type} [DecidableEq K]

abbrev Map (K V : Type) := Finmap (fun _ : K => V)

theorem lookup_insert (m : Map K V) (k k' : K) (v : V) :
    (m.insert k v).lookup k' = if k' = k then some v else m.lookup k' := by
  by_cases h : k' = k
  · subst h; simp
  · simp [h, Finmap.lookup_insert_of_ne]

theorem lookup_erase (m : Map K V) (k k' : K) :
    (m.erase k).lookup k' = if k' = k then none else m.lookup k' := by
  by_cases h : k' = k
  · subst h; simp
  · simp [h, Finmap.lookup_erase_ne]

theorem lookup_isSome_iff {m : Map K V} {k : K} : (m.lookup k).isSome ↔ k ∈ m := by
  rw [Finmap.mem_iff, Option.isSome_iff_exists]

def size (m : Map K V) : Nat := m.keys.card

/-- An order in which a loop over the map may visit it: every key once. -/
def Enumerates (order : List K) (m : Map K V) : Prop := (order : Multiset K) = m.keys.val

instance (order : List K) (m : Map K V) : Decidable (Enumerates order m) :=
  inferInstanceAs (Decidable ((order : Multiset K) = m.keys.val))

omit [DecidableEq K] in
theorem Enumerates.nodup {order : List K} {m : Map K V} (h : Enumerates order m) :
    order.Nodup := by
  have hn := m.keys.nodup
  rw [← h] at hn
  exact Multiset.coe_nodup.mp hn

omit [DecidableEq K] in
theorem Enumerates.mem_iff {order : List K} {m : Map K V} (h : Enumerates order m) (k : K) :
    k ∈ order ↔ k ∈ m := by
  rw [← Finmap.mem_keys, ← Multiset.mem_coe, h, Finset.mem_val]

omit [DecidableEq K] in
theorem enumerates_singleton {k : K} {m : Map K V} (h : ∀ p, p ∈ m ↔ p = k) :
    Enumerates [k] m := by
  have hkeys : m.keys = {k} := by
    ext p
    rw [Finmap.mem_keys, h, Finset.mem_singleton]
  rw [Enumerates, hkeys]
  rfl

theorem filter_flatMap_key (f : K → List E) (key : E → K) (hkey : ∀ k, ∀ e ∈ f k, key e = k)
    (p : K) (order : List K) (hn : order.Nodup) :
    (order.flatMap f).filter (fun e => key e = p) = if p ∈ order then f p else [] := by
  induction order with
  | nil => simp
  | cons a order ih =>
    obtain ⟨ha, hn⟩ := List.nodup_cons.mp hn
    rw [List.flatMap_cons, List.filter_append, ih hn]
    by_cases hp : p = a
    · subst hp
      have hf : (f p).filter (fun e => key e = p) = f p :=
        List.filter_eq_self.mpr fun e he => by simp [hkey p e he]
      simp [hf, ha]
    · have hf : (f a).filter (fun e => key e = p) = [] :=
        List.filter_eq_nil_iff.mpr fun e he => by simp [hkey a e he, Ne.symm hp]
      simp [hf, hp]

def drainStep (take : V → Option E) (st : Map K V × List E) (k : K) : Map K V × List E :=
  match (st.1.lookup k).bind take with
  | some e => (st.1.erase k, st.2 ++ [e])
  | none => st

/-- Erasing the visited key does not disturb the rest of the loop: what is
taken is what the map held when the loop began. -/
theorem foldl_drainStep (take : V → Option E) (order : List K) (hn : order.Nodup)
    (m : Map K V) (out : List E) :
    (order.foldl (drainStep take) (m, out)).2 =
        out ++ order.filterMap (fun k => (m.lookup k).bind take) ∧
      ∀ k, (order.foldl (drainStep take) (m, out)).1.lookup k =
        if k ∈ order ∧ ((m.lookup k).bind take).isSome then none else m.lookup k := by
  induction order generalizing m out with
  | nil => simp
  | cons a order ih =>
    obtain ⟨ha, hn⟩ := List.nodup_cons.mp hn
    cases htake : (m.lookup a).bind take with
    | none =>
      have hs : drainStep take (m, out) a = (m, out) := by simp [drainStep, htake]
      obtain ⟨hout, hlook⟩ := ih hn m out
      rw [List.foldl_cons, hs]
      refine ⟨by rw [hout, List.filterMap_cons, htake], fun k => ?_⟩
      rw [hlook]
      by_cases hk : k = a
      · subst hk; simp [ha, htake]
      · simp [hk]
    | some e =>
      have hs : drainStep take (m, out) a = (m.erase a, out ++ [e]) := by
        simp [drainStep, htake]
      have hrest : order.filterMap (fun k => ((m.erase a).lookup k).bind take) =
          order.filterMap (fun k => (m.lookup k).bind take) := by
        apply List.filterMap_congr
        intro k hk
        have hka : k ≠ a := fun he => ha (he ▸ hk)
        rw [lookup_erase, if_neg hka]
      obtain ⟨hout, hlook⟩ := ih hn (m.erase a) (out ++ [e])
      rw [List.foldl_cons, hs]
      refine ⟨by rw [hout, hrest, List.filterMap_cons, htake]; simp, fun k => ?_⟩
      rw [hlook, lookup_erase]
      by_cases hk : k = a
      · subst hk; simp [ha, htake]
      · simp [hk]

section Bounded

variable (maxEntries : Nat)

/-- An update that creates or overwrites; creation fails on a full map. -/
def updateAny (m : Map K V) (k : K) (v : V) : Map K V :=
  if k ∈ m ∨ size m < maxEntries then m.insert k v else m

/-- An update that only creates: it changes nothing when the key is present
or the map is full. -/
def updateNoExist (m : Map K V) (k : K) (v : V) : Map K V :=
  if k ∉ m ∧ size m < maxEntries then m.insert k v else m

theorem lookup_updateAny (m : Map K V) (k k' : K) (v : V) :
    (updateAny maxEntries m k v).lookup k' =
      if k' = k ∧ (k ∈ m ∨ size m < maxEntries) then some v else m.lookup k' := by
  unfold updateAny
  split <;> simp_all [lookup_insert]

theorem lookup_updateNoExist (m : Map K V) (k k' : K) (v : V) :
    (updateNoExist maxEntries m k v).lookup k' =
      if k' = k ∧ k ∉ m ∧ size m < maxEntries then some v else m.lookup k' := by
  unfold updateNoExist
  split <;> simp_all [lookup_insert]

end Bounded

end InfraSightGpu.Lib.Maps
