import Mathlib.Data.List.Basic

/-! Cells from which lists are read back where they were put. -/

abbrev Cells (α : Type) := Nat → α

namespace Cells

variable {α : Type}

/-- The list `xs` from the address `a` on, over what `m` holds. -/
def put (m : Cells α) (a : Nat) (xs : List α) : Cells α := fun i =>
  if a ≤ i then xs[i - a]?.getD (m i) else m i

@[simp] theorem put_nil (m : Cells α) (a : Nat) : m.put a [] = m := by
  funext i
  simp [put]

theorem put_outside (m : Cells α) {a : Nat} {xs : List α} {i : Nat}
    (hi : i < a ∨ a + xs.length ≤ i) : m.put a xs i = m i := by
  rw [put]
  split
  · have hlen : xs.length ≤ i - a := by omega
    rw [List.getElem?_eq_none hlen, Option.getD_none]
  · rfl

theorem put_append (m : Cells α) (a : Nat) (xs ys : List α) :
    (m.put a xs).put (a + xs.length) ys = m.put a (xs ++ ys) := by
  funext i
  by_cases hi : i < a + xs.length
  · rw [put_outside _ (.inl hi), put, put]
    by_cases ha : a ≤ i
    · rw [if_pos ha, if_pos ha, List.getElem?_append_left (by omega)]
    · rw [if_neg ha, if_neg ha]
  · have ha : a ≤ i := by omega
    have hrest : i - a - xs.length = i - (a + xs.length) := by omega
    rw [put, if_pos (by omega), put_outside m (.inr (by omega)), put, if_pos ha,
      List.getElem?_append_right (by omega), hrest]

end Cells
