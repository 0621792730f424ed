import Mathlib.Data.List.Induction

namespace InfraSightGpu.Lib.Segments

variable {X : Type}

/-- A history cut into consecutive segments: the closed ones, none of which
is empty, and the one still open, which is empty when nothing is open. -/
structure History (X : Type) where
  closed : List (List X)
  current : List X
  closed_ne : ∀ seg ∈ closed, seg ≠ []

namespace History

def empty : History X := ⟨[], [], by simp⟩

def push (s : History X) (x : X) : History X := ⟨s.closed, s.current ++ [x], s.closed_ne⟩

def cut (s : History X) : History X :=
  if h : s.current = [] then s
  else ⟨s.closed ++ [s.current], [], by
    intro seg hm
    obtain hm | hm := List.mem_append.mp hm
    · exact s.closed_ne seg hm
    · rw [List.mem_singleton.mp hm]; exact h⟩

def flat (s : History X) : List X := s.closed.flatten ++ s.current

def all (s : History X) : List (List X) :=
  s.closed ++ if s.current = [] then [] else [s.current]

@[simp] theorem flat_empty : (empty : History X).flat = [] := rfl

@[simp] theorem flat_push (s : History X) (x : X) : (s.push x).flat = s.flat ++ [x] := by
  simp [flat, push]

@[simp] theorem closed_push (s : History X) (x : X) : (s.push x).closed = s.closed := rfl

@[simp] theorem current_push (s : History X) (x : X) :
    (s.push x).current = s.current ++ [x] := rfl

theorem closed_cut (s : History X) (h : s.current ≠ []) :
    s.cut.closed = s.closed ++ [s.current] := by
  simp [cut, h]

@[simp] theorem current_cut (s : History X) : s.cut.current = [] := by
  by_cases h : s.current = [] <;> simp [cut, h]

@[simp] theorem flat_cut (s : History X) : s.cut.flat = s.flat := by
  by_cases h : s.current = [] <;> simp [flat, cut, h]

theorem flatten_all (s : History X) : s.all.flatten = s.flat := by
  unfold all flat
  split <;> simp_all

theorem all_ne (s : History X) : ∀ seg ∈ s.all, seg ≠ [] := by
  intro seg hm
  obtain hm | hm := List.mem_append.mp hm
  · exact s.closed_ne seg hm
  · split at hm <;> simp_all

theorem all_cut (s : History X) : s.cut.all = s.all := by
  by_cases h : s.current = [] <;> simp [all, cut, h]

theorem mem_flat_of_mem {s : History X} {seg : List X} {x : X}
    (hs : seg ∈ s.all) (hx : x ∈ seg) : x ∈ s.flat := by
  rw [← flatten_all]
  exact List.mem_flatten.mpr ⟨seg, hs, hx⟩

end History

end InfraSightGpu.Lib.Segments
