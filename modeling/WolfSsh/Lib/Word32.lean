import Mathlib.Algebra.Group.Nat.Defs

/-! Unsigned 32-bit arithmetic where it does not wrap. -/

namespace Word32

variable {a b n : UInt32}

theorem toNat_add (h : a.toNat + b.toNat < 2 ^ 32) : (a + b).toNat = a.toNat + b.toNat := by
  rw [UInt32.toNat_add, Nat.mod_eq_of_lt h]

theorem toNat_sub (h : b.toNat ≤ a.toNat) : (a - b).toNat = a.toNat - b.toNat :=
  UInt32.toNat_sub_of_le a b (UInt32.le_iff_toNat_le.mpr h)

theorem toNat_ofNat {k : Nat} (h : k < 2 ^ 32) : (UInt32.ofNat k).toNat = k :=
  UInt32.toNat_ofNat_of_lt' h

theorem toNat_pos : a ≠ 0 ↔ 0 < a.toNat := by
  rw [Nat.pos_iff_ne_zero]
  exact not_congr UInt32.toNat_inj.symm

theorem le_sub_iff (h : a.toNat ≤ b.toNat) : n ≤ b - a ↔ a.toNat + n.toNat ≤ b.toNat := by
  rw [UInt32.le_iff_toNat_le, toNat_sub h]
  omega

theorem toNat_add_of_le (h : a.toNat + n.toNat ≤ b.toNat) : (a + n).toNat = a.toNat + n.toNat :=
  toNat_add (Nat.lt_of_le_of_lt h b.toNat_lt)

end Word32
