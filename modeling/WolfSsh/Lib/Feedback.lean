import Mathlib.Data.List.Basic

/-! A stream of blocks, each made of all the blocks before it. -/

namespace Feedback

variable {α : Type} {first : List α} {next : List α → List α} {d m n sz : Nat}

/-- The first `n + 1` blocks. -/
def chain (first : List α) (next : List α → List α) : Nat → List α
  | 0 => first
  | n + 1 => chain first next n ++ next (chain first next n)

theorem length_chain (hfirst : first.length = d) (hnext : ∀ out, (next out).length = d) (n : Nat) :
    (chain first next n).length = (n + 1) * d := by
  induction n with
  | zero => rw [chain, hfirst, Nat.zero_add, Nat.one_mul]
  | succ n ih => rw [chain, List.length_append, ih, hnext, Nat.add_one_mul (n + 1)]

theorem chain_starts (h : m ≤ n) : chain first next m <+: chain first next n := by
  induction n with
  | zero =>
    obtain rfl := Nat.le_zero.mp h
    exact List.prefix_rfl
  | succ n ih =>
    by_cases hm : m = n + 1
    · subst hm
      exact List.prefix_rfl
    · exact (ih (by omega)).trans (List.prefix_append _ _)

theorem take_chain (hm : sz ≤ (chain first next m).length) (hn : sz ≤ (chain first next n).length) :
    (chain first next m).take sz = (chain first next n).take sz := by
  rcases Nat.le_total m n with h | h
  · obtain ⟨rest, hrest⟩ := @chain_starts α first next m n h
    rw [← hrest, List.take_append_of_le_length hm]
  · obtain ⟨rest, hrest⟩ := @chain_starts α first next n m h
    rw [← hrest, List.take_append_of_le_length hn]

end Feedback
