import Mathlib.Data.List.Basic
import Mathlib.Data.Nat.Size
import Mathlib.Tactic.Ring

/-! Octet strings as unsigned big-endian numbers: fixed-width encoding, the value of a string,
and the canonical positive form in which no leading octet can be dropped. -/

namespace Octets

/-- Big endian, truncating to exactly `width` octets. -/
def be : Nat → Nat → List UInt8
  | 0, _ => []
  | width + 1, n => UInt8.ofNat (n / 256 ^ width) :: be width n

def value : List UInt8 → Nat
  | [] => 0
  | b :: bs => b.toNat * 256 ^ bs.length + value bs

@[simp] theorem be_length (width n : Nat) : (be width n).length = width := by
  induction width with
  | zero => rfl
  | succ width ih => simp [be, ih]

theorem value_lt (bs : List UInt8) : value bs < 256 ^ bs.length := by
  induction bs with
  | nil => simp [value]
  | cons b bs ih =>
    have hb := b.toNat_lt
    have hmul : (b.toNat + 1) * 256 ^ bs.length ≤ 256 * 256 ^ bs.length :=
      Nat.mul_le_mul_right _ (by omega)
    simp only [value, List.length_cons, pow_succ]
    rw [add_mul] at hmul
    omega

theorem value_be_mod (width n : Nat) : value (be width n) = n % 256 ^ width := by
  induction width with
  | zero => simp [be, value, Nat.mod_one]
  | succ width ih =>
    have hmod : n % (256 ^ width * 256) = n % 256 ^ width + 256 ^ width * (n / 256 ^ width % 256) :=
      Nat.mod_mul
    have ho : (UInt8.ofNat (n / 256 ^ width)).toNat = n / 256 ^ width % 256 := UInt8.toNat_ofNat'
    rw [be, value, be_length, ih, ho, pow_succ, hmod, add_comm, mul_comm]

theorem value_be {width n : Nat} (hn : n < 256 ^ width) : value (be width n) = n := by
  rw [value_be_mod, Nat.mod_eq_of_lt hn]

theorem value_cons_inj {a b : UInt8} {as bs : List UInt8} (hlen : as.length = bs.length)
    (h : value (a :: as) = value (b :: bs)) : a = b ∧ value as = value bs := by
  have ha := value_lt as
  have hb := value_lt bs
  simp only [value, hlen] at h ha
  have hpos : 0 < 256 ^ bs.length := Nat.pow_pos (by decide)
  have hq : a.toNat = b.toNat := by
    have hd : (a.toNat * 256 ^ bs.length + value as) / 256 ^ bs.length =
        (b.toNat * 256 ^ bs.length + value bs) / 256 ^ bs.length := by rw [h]
    rwa [mul_comm, Nat.mul_add_div hpos, Nat.div_eq_of_lt ha, mul_comm (b.toNat),
      Nat.mul_add_div hpos, Nat.div_eq_of_lt hb] at hd
  exact ⟨UInt8.toNat_inj.mp hq, by rw [hq] at h; omega⟩

theorem value_inj {as bs : List UInt8} (hlen : as.length = bs.length)
    (h : value as = value bs) : as = bs := by
  induction as generalizing bs with
  | nil => simpa using hlen.symm
  | cons a as ih =>
    cases bs with
    | nil => simp at hlen
    | cons b bs =>
      have hl : as.length = bs.length := by simpa using hlen
      obtain ⟨rfl, hv⟩ := value_cons_inj hl h
      rw [ih hl hv]

/-- The shortest big-endian form of a number that leaves the top bit clear; zero is empty. -/
def positive (n : Nat) : List UInt8 :=
  if n = 0 then [] else be (n.size / 8 + 1) n

theorem value_replicate_zero (k : Nat) (bs : List UInt8) :
    value (List.replicate k 0 ++ bs) = value bs := by
  induction k with
  | zero => simp
  | succ k ih =>
    rw [List.replicate_succ, List.cons_append, value, ih]
    simp

theorem value_cons_bounds {b : UInt8} {m : Nat} (bs : List UInt8) (hm : m ≤ b.toNat) :
    m * 256 ^ bs.length ≤ value (b :: bs) ∧ value (b :: bs) < (b.toNat + 1) * 256 ^ bs.length := by
  have hlt := value_lt bs
  have hmul := Nat.mul_le_mul_right (256 ^ bs.length) hm
  rw [value, add_mul]
  omega

theorem size_eq_of_bounds {n len : Nat} (hlo : 256 ^ len ≤ n) (hhi : n < 128 * 256 ^ len) :
    n.size / 8 = len := by
  have hpow : 256 ^ len = 2 ^ (8 * len) := by rw [show 256 = 2 ^ 8 from rfl, ← pow_mul]
  rw [hpow] at hlo hhi
  have h1 : 8 * len < n.size := Nat.lt_size.mpr hlo
  have h2 : n.size ≤ 8 * len + 7 := by
    apply Nat.size_le.mpr
    rw [pow_add]
    omega
  omega

theorem size_eq_of_high_bounds {n len : Nat} (hlo : 128 * 256 ^ len ≤ n)
    (hhi : n < 256 ^ (len + 1)) : n.size / 8 = len + 1 := by
  have hpow : 256 ^ len = 2 ^ (8 * len) := by rw [show 256 = 2 ^ 8 from rfl, ← pow_mul]
  rw [pow_succ, hpow] at hhi
  rw [hpow] at hlo
  have h1 : 8 * len + 7 < n.size := by
    apply Nat.lt_size.mpr
    rw [pow_add]
    omega
  have h2 : n.size ≤ 8 * len + 8 := by
    apply Nat.size_le.mpr
    rw [pow_add]
    omega
  omega

theorem positive_of_low {b : UInt8} {bs : List UInt8} (hb : b ≠ 0) (hlow : b.toNat < 128) :
    positive (value (b :: bs)) = b :: bs := by
  have hpos : 1 ≤ b.toNat := by
    have hne : b.toNat ≠ 0 := fun h => hb (UInt8.toNat_inj.mp h)
    omega
  obtain ⟨hlo, hhi⟩ := value_cons_bounds bs hpos
  rw [one_mul] at hlo
  have hhi' : value (b :: bs) < 128 * 256 ^ bs.length :=
    lt_of_lt_of_le hhi (Nat.mul_le_mul_right _ (by omega))
  have hn0 : value (b :: bs) ≠ 0 := by
    have hp : 0 < 256 ^ bs.length := Nat.pow_pos (by decide)
    omega
  rw [positive, if_neg hn0, size_eq_of_bounds hlo hhi']
  apply value_inj (by simp)
  exact value_be (value_lt (b :: bs))

theorem positive_of_high {b : UInt8} {bs : List UInt8} (hhigh : 128 ≤ b.toNat) :
    positive (value (b :: bs)) = 0 :: b :: bs := by
  obtain ⟨hlo, -⟩ := value_cons_bounds bs hhigh
  have hn0 : value (b :: bs) ≠ 0 := by
    have hp : 0 < 256 ^ bs.length := Nat.pow_pos (by decide)
    omega
  have hz : value (0 :: b :: bs) = value (b :: bs) := value_replicate_zero 1 (b :: bs)
  rw [positive, if_neg hn0, size_eq_of_high_bounds hlo (value_lt (b :: bs)), ← hz]
  apply value_inj (by simp)
  exact value_be (value_lt (0 :: b :: bs))

end Octets
