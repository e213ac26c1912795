import Mathlib.Data.List.Perm.Subperm

/-! The search for an unused id: a counter that wraps at `modulus` steps over the ids in use. -/

namespace FreshIds

/-- The first unused id from `next` on; `none` after `fuel` steps. -/
def search (modulus : Nat) (used : Nat → Bool) : Nat → Nat → Option Nat
  | 0, _ => none
  | fuel + 1, next =>
    if used next then search modulus used fuel ((next + 1) % modulus) else some next

variable {modulus : Nat} {used : Nat → Bool}

theorem search_unused {fuel next id : Nat} (h : search modulus used fuel next = some id) :
    used id = false := by
  induction fuel generalizing next with
  | zero => cases h
  | succ fuel ih =>
    rw [search] at h
    split at h
    · exact ih h
    · rename_i hused
      cases h
      simpa using hused

theorem search_lt {fuel next id : Nat} (hnext : next < modulus)
    (h : search modulus used fuel next = some id) : id < modulus := by
  induction fuel generalizing next with
  | zero => cases h
  | succ fuel ih =>
    rw [search] at h
    split at h
    · exact ih (Nat.mod_lt _ (Nat.zero_lt_of_lt hnext)) h
    · cases h
      exact hnext

theorem used_of_search_none {fuel next : Nat} (hnext : next < modulus)
    (h : search modulus used fuel next = none) {i : Nat} (hi : i < fuel) :
    used ((next + i) % modulus) = true := by
  induction fuel generalizing next i with
  | zero => omega
  | succ fuel ih =>
    rw [search] at h
    split at h
    · rename_i hused
      cases i with
      | zero => rwa [Nat.add_zero, Nat.mod_eq_of_lt hnext]
      | succ i =>
        have hrest := ih (Nat.mod_lt _ (Nat.zero_lt_of_lt hnext)) h (show i < fuel by omega)
        rwa [Nat.mod_add_mod, Nat.add_right_comm, Nat.add_assoc] at hrest
    · cases h

/-- With fewer ids in use than there are, one turn of the counter finds an unused one. -/
theorem search_isSome {ids : List Nat} {next : Nat} (hnext : next < modulus)
    (hlen : ids.length < modulus) (hids : ∀ id, used id → id ∈ ids) :
    (search modulus used modulus next).isSome := by
  by_contra hnone
  rw [Option.not_isSome_iff_eq_none] at hnone
  have hall : List.range modulus ⊆ ids := by
    intro id hid
    rw [List.mem_range] at hid
    apply hids
    by_cases hle : next ≤ id
    · have hused := used_of_search_none hnext hnone (show id - next < modulus by omega)
      rwa [Nat.add_sub_cancel' hle, Nat.mod_eq_of_lt hid] at hused
    · have hused := used_of_search_none hnext hnone (show id + modulus - next < modulus by omega)
      rwa [Nat.add_sub_cancel' (by omega), Nat.add_mod_right, Nat.mod_eq_of_lt hid] at hused
  have hle := (List.nodup_range.subperm hall).length_le
  rw [List.length_range] at hle
  omega

end FreshIds
