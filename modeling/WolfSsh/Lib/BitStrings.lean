import Mathlib.Data.List.Basic
import Mathlib.Tactic.IntervalCases

/-! The bits of a string of octets, the most significant ones first, and comparisons of octets under
a mask as comparisons of bits. -/

namespace BitStrings

/-- Bit `i` of the string. There are zeros behind its end. -/
def bit (bs : List UInt8) (i : Nat) : Bool := (bs.getD (i / 8) 0).toBitVec.getMsbD (i % 8)

/-- The octet whose first `n` bits are set. -/
def highMask (n : Nat) : UInt8 := (0xFF : UInt8) <<< (8 - n).toUInt8

theorem getMsbD_highMask {n : Nat} (hn : n < 8) (hpos : 0 < n) {j : Nat} (hj : j < 8) :
    (highMask n).toBitVec.getMsbD j = decide (j < n) := by
  interval_cases n <;> interval_cases j <;> rfl

theorem octet_ext {a b : UInt8} (h : ∀ j < 8, a.toBitVec.getMsbD j = b.toBitVec.getMsbD j) : a = b :=
  UInt8.toBitVec_inj.mp (BitVec.eq_of_getMsbD_eq h)

theorem and_highMask_eq_iff {a b : UInt8} {n : Nat} (hn : n < 8) (hpos : 0 < n) :
    a &&& highMask n = b &&& highMask n ↔ ∀ j < n, a.toBitVec.getMsbD j = b.toBitVec.getMsbD j := by
  have hbit : ∀ (c : UInt8) (j : Nat), j < 8 →
      (c &&& highMask n).toBitVec.getMsbD j = (c.toBitVec.getMsbD j && decide (j < n)) := by
    intro c j hj
    rw [UInt8.toBitVec_and, BitVec.getMsbD_and, getMsbD_highMask hn hpos hj]
  constructor
  · intro h j hj
    have hj8 : j < 8 := Nat.lt_trans hj hn
    have hab := congrArg (fun c : UInt8 => c.toBitVec.getMsbD j) h
    simpa only [hbit _ j hj8, hj, decide_true, Bool.and_true] using hab
  · intro h
    refine octet_ext fun j hj => ?_
    rw [hbit a j hj, hbit b j hj]
    by_cases hjn : j < n
    · rw [h j hjn]
    · simp only [hjn, decide_false, Bool.and_false]

theorem bit_append_octet {bs : List UInt8} {k j : Nat} (hj : j < 8) :
    bit bs (8 * k + j) = (bs.getD k 0).toBitVec.getMsbD j := by
  rw [bit, Nat.mul_add_div (by decide), Nat.div_eq_of_lt hj, Nat.mul_add_mod, Nat.mod_eq_of_lt hj,
    Nat.add_zero]

/-- Two strings begin with the same `n` octets when they begin with the same bits of them. -/
theorem take_eq_take_iff {as bs : List UInt8} {n : Nat} (ha : n ≤ as.length) (hb : n ≤ bs.length) :
    as.take n = bs.take n ↔ ∀ i < 8 * n, bit as i = bit bs i := by
  constructor
  · intro h i hi
    have hk : i / 8 < n := Nat.div_lt_of_lt_mul hi
    have hoctet : as.getD (i / 8) 0 = bs.getD (i / 8) 0 := by
      have htake := congrArg (fun l : List UInt8 => l.getD (i / 8) 0) h
      simpa [List.getD_eq_getElem?_getD, List.getElem?_take, hk] using htake
    rw [bit, bit, hoctet]
  · intro h
    refine List.ext_getElem (by rw [List.length_take, List.length_take]; omega) ?_
    intro k hk _
    have hkn : k < n := by
      rw [List.length_take] at hk
      omega
    rw [List.getElem_take, List.getElem_take]
    refine octet_ext fun j hj => ?_
    have hbit := h (8 * k + j) (by omega)
    rw [bit_append_octet hj, bit_append_octet hj] at hbit
    simpa [List.getD_eq_getElem?_getD, List.getElem?_eq_getElem (Nat.lt_of_lt_of_le hkn ha),
      List.getElem?_eq_getElem (Nat.lt_of_lt_of_le hkn hb)] using hbit

end BitStrings
