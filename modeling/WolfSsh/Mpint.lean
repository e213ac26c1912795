import WolfSsh.Wire

/-! The mpint encoding of a big-endian buffer, as `CreateMpint` prepares it in place. -/

namespace WolfSsh

/-- The buffer without the leading zeros that are not needed, and whether a zero must go in
front. A zero that is there already is kept in place of a pad. -/
def createMpint (buf : Bytes) : Bytes × Bool :=
  let i := (buf.takeWhile (· == 0)).length
  match buf.drop i with
  | [] => ([], false)
  | b :: rest =>
    let top := decide (128 ≤ b.toNat)
    let back := top && decide (0 < i)
    if back then (0 :: b :: rest, false) else (b :: rest, top)

def padBytes (pad : Bool) : Bytes := if pad then [0] else []

/-- The octets a prepared mpint stands for. -/
def padded (m : Bytes × Bool) : Bytes := padBytes m.2 ++ m.1

/-- A prepared mpint on the wire and in a hash. -/
def copyMpint (m : Bytes × Bool) : Bytes :=
  c32toa (m.1.length + (padBytes m.2).length) ++ (padBytes m.2 ++ m.1)

theorem copyMpint_eq (m : Bytes × Bool) : copyMpint m = c32toa (padded m).length ++ padded m := by
  rw [copyMpint, padded, List.length_append, Nat.add_comm]

theorem split_zeros (buf : Bytes) :
    ∃ k rest, buf = List.replicate k 0 ++ rest ∧ (buf.takeWhile (· == 0)).length = k ∧
      ∀ b bs, rest = b :: bs → b ≠ 0 := by
  induction buf with
  | nil => exact ⟨0, [], rfl, rfl, by simp⟩
  | cons b buf ih =>
    by_cases hb : b = 0
    · obtain ⟨k, rest, hbuf, hlen, hne⟩ := ih
      refine ⟨k + 1, rest, ?_, ?_, hne⟩
      · rw [List.replicate_succ, List.cons_append, ← hbuf, hb]
      · simp [hb, hlen]
    · refine ⟨0, b :: buf, rfl, by simp [hb], ?_⟩
      rintro c bs h rfl
      exact hb (List.cons.inj h).1

theorem padded_createMpint (buf : Bytes) :
    padded (createMpint buf) = Octets.positive (Octets.value buf) := by
  obtain ⟨k, rest, hbuf, hlen, hne⟩ := split_zeros buf
  have hdrop : buf.drop k = rest := by
    rw [hbuf, List.drop_left' (by simp)]
  have hval : Octets.value buf = Octets.value rest := by
    rw [hbuf, Octets.value_replicate_zero]
  unfold createMpint
  simp only [hlen, hdrop]
  rw [hval]
  cases rest with
  | nil => rfl
  | cons b bs =>
    by_cases htop : 128 ≤ b.toNat
    · rw [Octets.positive_of_high htop]
      by_cases hk : 0 < k <;> simp [padded, padBytes, htop, hk]
    · rw [Octets.positive_of_low (hne b bs rfl) (by omega)]
      simp [padded, padBytes, htop]

theorem and_high_eq (b : UInt8) : (b &&& 0x80 != 0) = decide (128 ≤ b.toNat) := by
  have hall : ∀ n : Fin 256, (UInt8.ofNat n &&& 0x80 != 0) = decide (128 ≤ (UInt8.ofNat n).toNat) := by
    decide +kernel
  have hb := hall ⟨b.toNat, b.toNat_lt⟩
  rwa [UInt8.ofNat_toNat] at hb

theorem getMpint_yields {buf str rest : Bytes} {idx : Nat}
    (h : Rest buf idx (c32toa str.length ++ (str ++ rest))) (hn : str.length < 2 ^ 32)
    (htop : ∀ b bs, str = b :: bs → b.toNat < 128) :
    Fallible.Yields (getMpint buf) idx str (idx + 4 + str.length) := by
  refine (getStringRef_yields h hn).bind ?_
  cases str with
  | nil => rfl
  | cons b bs =>
    have hb : (b &&& 0x80 != 0) = false := by
      have hlow := htop b bs rfl
      rw [and_high_eq]
      exact decide_eq_false (by omega)
    simp only [hb]
    rfl

/-- What the buffer is prepared to: nothing for zero, else its octets from the first one that counts,
behind a zero where the top bit is set. -/
theorem padded_createMpint_cases (buf : Bytes) :
    Octets.value buf = 0 ∧ padded (createMpint buf) = [] ∨
      ∃ b bs, b ≠ 0 ∧ Octets.value (b :: bs) = Octets.value buf ∧
        padded (createMpint buf) = if 128 ≤ b.toNat then 0 :: b :: bs else b :: bs := by
  obtain ⟨k, rest, hbuf, -, hne⟩ := split_zeros buf
  have hval : Octets.value buf = Octets.value rest := by
    rw [hbuf, Octets.value_replicate_zero]
  rw [padded_createMpint, hval]
  cases rest with
  | nil => exact .inl ⟨rfl, rfl⟩
  | cons b bs =>
    refine .inr ⟨b, bs, hne b bs rfl, rfl, ?_⟩
    by_cases htop : 128 ≤ b.toNat
    · rw [Octets.positive_of_high htop, if_pos htop]
    · rw [Octets.positive_of_low (hne b bs rfl) (by omega), if_neg htop]

/-- A positive number in the fewest octets that leave the top bit clear. -/
def CanonicalMpint (bs : Bytes) : Prop :=
  ∃ b rest, bs = b :: rest ∧ b.toNat < 128 ∧ (b = 0 → ∃ c more, rest = c :: more ∧ 128 ≤ c.toNat)

/-- What `CreateMpint` prepares stands for the number in the buffer, is empty for zero and canonical
for any other number, and is what `GetMpint` reads back from behind its length. -/
theorem createMpint_canonical (buf : Bytes) :
    let str := padded (createMpint buf)
    Octets.value str = Octets.value buf ∧ (Octets.value buf = 0 → str = []) ∧
      (Octets.value buf ≠ 0 → CanonicalMpint str) ∧
      ∀ {whole rest : Bytes} {idx : Nat}, str.length < 2 ^ 32 →
        Rest whole idx (copyMpint (createMpint buf) ++ rest) →
        Fallible.Yields (getMpint whole) idx str (idx + 4 + str.length) := by
  intro str
  have hcases := padded_createMpint_cases buf
  have hread : (∀ b bs, str = b :: bs → b.toNat < 128) →
      ∀ {whole rest : Bytes} {idx : Nat}, str.length < 2 ^ 32 →
        Rest whole idx (copyMpint (createMpint buf) ++ rest) →
        Fallible.Yields (getMpint whole) idx str (idx + 4 + str.length) := by
    intro htop whole rest idx hlen hrest
    rw [copyMpint_eq, List.append_assoc] at hrest
    exact getMpint_yields hrest hlen htop
  have hstr : padded (createMpint buf) = str := rfl
  rw [hstr] at hcases
  rcases hcases with ⟨hzero, hnil⟩ | ⟨b, bs, hb, hval, hpadded⟩
  · refine ⟨?_, fun _ => hnil, fun hne => absurd hzero hne, hread ?_⟩
    · rw [hnil, hzero]
      rfl
    · rw [hnil]
      exact nofun
  · have hpos : Octets.value buf ≠ 0 := by
      have hhead : 0 < b.toNat := Nat.pos_of_ne_zero fun h0 => hb (UInt8.toNat_inj.mp h0)
      rw [← hval, Octets.value]
      have hpow : 0 < 256 ^ bs.length := Nat.pow_pos (by decide)
      have hmul := Nat.mul_pos hhead hpow
      omega
    by_cases htop : 128 ≤ b.toNat
    · rw [if_pos htop] at hpadded
      refine ⟨?_, fun h0 => absurd h0 hpos, fun _ => ?_, hread ?_⟩
      · rw [hpadded, ← hval]
        simp [Octets.value]
      · exact ⟨0, b :: bs, hpadded, by decide, fun _ => ⟨b, bs, rfl, htop⟩⟩
      · rw [hpadded]
        rintro c cs hc
        cases hc
        decide
    · rw [if_neg htop] at hpadded
      refine ⟨?_, fun h0 => absurd h0 hpos, fun _ => ?_, hread ?_⟩
      · rw [hpadded, hval]
      · exact ⟨b, bs, hpadded, by omega, fun h0 => absurd h0 hb⟩
      · rw [hpadded]
        rintro c cs hc
        cases hc
        omega

/-- A buffer with two leading zeros, one of which the top bit needs. -/
theorem createMpint_canonical_kept :
    Fallible.Yields (getMpint (copyMpint (createMpint [0, 0, 0x80, 5]))) 0 [0, 0x80, 5] 7 :=
  (createMpint_canonical [0, 0, 0x80, 5]).2.2.2 (by decide) (List.append_nil _).symm

end WolfSsh
