import Mathlib.Algebra.GroupWithZero.Nat
import Mathlib.Data.List.Basic

/-! Slices of a list, and fields laid out one after the other, each behind a header. -/

namespace Slices

variable {α : Type}

structure Slice where
  start : Nat
  size : Nat
deriving DecidableEq, Repr

def Slice.of (s : Slice) (bs : List α) : List α := (bs.drop s.start).take s.size

/-- The slice lies within `n` elements. -/
def Slice.Inside (s : Slice) (n : Nat) : Prop := s.start + s.size ≤ n

instance (s : Slice) (n : Nat) : Decidable (s.Inside n) :=
  inferInstanceAs (Decidable (s.start + s.size ≤ n))

theorem Slice.length_of {s : Slice} {bs : List α} (h : s.Inside bs.length) :
    (s.of bs).length = s.size := by
  rw [Slice.Inside] at h
  rw [Slice.of, List.length_take, List.length_drop]
  omega

theorem Slice.of_behind (before mine rest : List α) :
    Slice.of ⟨before.length, mine.length⟩ (before ++ (mine ++ rest)) = mine := by
  rw [Slice.of, List.drop_left, List.take_left]

/-- Where fields of these sizes stand from `i` on, behind headers of `h` elements. -/
def layout (h : Nat) : Nat → List Nat → List Slice
  | _, [] => []
  | i, n :: ns => ⟨i + h, n⟩ :: layout h (i + h + n) ns

theorem layout_inside (h i n : Nat) (ns : List Nat) (hn : i + ns.sum + h * ns.length ≤ n) :
    ∀ s ∈ layout h i ns, s.Inside n := by
  induction ns generalizing i with
  | nil => simp [layout]
  | cons m ms ih =>
    rw [List.sum_cons, List.length_cons, Nat.mul_succ] at hn
    intro s hs
    rw [layout, List.mem_cons] at hs
    rcases hs with rfl | hs
    · show i + h + m ≤ n
      omega
    · exact ih (i + h + m) (by omega) s hs

def frames (head : List α → List α) (fs : List (List α)) : List α :=
  fs.flatMap fun f => head f ++ f

@[simp] theorem frames_nil (head : List α → List α) : frames head [] = [] := rfl

@[simp] theorem frames_cons (head : List α → List α) (f : List α) (fs : List (List α)) :
    frames head (f :: fs) = head f ++ (f ++ frames head fs) := by
  rw [frames, List.flatMap_cons, List.append_assoc]
  rfl

section Layout

variable {head : List α → List α} {h : Nat} (hhead : ∀ f, (head f).length = h)
include hhead

theorem length_frames (fs : List (List α)) :
    (frames head fs).length = (fs.map List.length).sum + h * fs.length := by
  induction fs with
  | nil => simp
  | cons f fs ih =>
    rw [frames_cons, List.length_append, List.length_append, hhead, ih, List.map_cons, List.sum_cons,
      List.length_cons, Nat.mul_succ]
    omega

end Layout

def Slice.framed (h : Nat) (s : Slice) : Slice := ⟨s.start - h, s.size + h⟩

/-- The slices cover `i` up to `j`, each where the one before it ends. -/
def Tiles : Nat → List Slice → Nat → Prop
  | i, [], j => i = j
  | i, s :: ss, j => s.start = i ∧ Tiles (i + s.size) ss j

theorem Tiles.le {i j : Nat} {ss : List Slice} (h : Tiles i ss j) : i ≤ j := by
  induction ss generalizing i with
  | nil => exact Nat.le_of_eq h
  | cons s ss ih => exact Nat.le_trans (Nat.le_add_right i s.size) (ih h.2)

theorem Tiles.inside {i j : Nat} {ss : List Slice} (h : Tiles i ss j) : ∀ s ∈ ss, s.Inside j := by
  induction ss generalizing i with
  | nil => simp
  | cons s ss ih =>
    obtain ⟨rfl, hrest⟩ := h
    exact List.forall_mem_cons.mpr ⟨hrest.le, ih hrest⟩

end Slices
