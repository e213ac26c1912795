import Mathlib.Data.List.TakeWhile

/-! NUL-terminated texts in a buffer of octets, and writes that stay in the buffer or do not happen. -/

namespace CStrings

/-- Write `bs` from `i` on, if that is in the buffer. -/
def write (mem : List UInt8) (i : Nat) (bs : List UInt8) : Option (List UInt8) :=
  if i + bs.length ≤ mem.length then some (mem.take i ++ bs ++ mem.drop (i + bs.length)) else none

/-- The text up to the first NUL, if there is one. -/
def text (mem : List UInt8) : Option (List UInt8) :=
  if 0 ∈ mem then some (mem.takeWhile (· ≠ 0)) else none

/-- The first place of a string among the octets, none of them NUL up to there. -/
def find (str : List UInt8) : List UInt8 → Option Nat
  | [] => if str = [] then some 0 else none
  | a :: s =>
    if str = [] then some 0
    else if str.length ≤ (a :: s).length ∧ a ≠ 0 then
      if (a :: s).take str.length = str then some 0 else (find str s).map (· + 1)
    else none

/-- The buffer begins with the text and a NUL. -/
def Holds (mem str : List UInt8) : Prop := 0 ∉ str ∧ ∃ junk, mem = str ++ 0 :: junk

variable {mem str : List UInt8}

theorem takeWhile_nul (hnul : 0 ∉ str) (junk : List UInt8) :
    (str ++ 0 :: junk).takeWhile (· ≠ 0) = str := by
  rw [List.takeWhile_append_of_pos]
  · simp
  · exact fun c hc => decide_eq_true fun heq => hnul (heq ▸ hc)

theorem Holds.text (h : Holds mem str) : text mem = some str := by
  obtain ⟨hnul, junk, rfl⟩ := h
  rw [CStrings.text, if_pos (by simp), takeWhile_nul hnul]

theorem Holds.length_lt (h : Holds mem str) : str.length < mem.length := by
  obtain ⟨-, junk, rfl⟩ := h
  rw [List.length_append, List.length_cons]
  omega

theorem Holds.unique {str' : List UInt8} (h : Holds mem str) (h' : Holds mem str') : str = str' :=
  Option.some.inj (h.text.symm.trans h'.text)

theorem length_write {mem' bs : List UInt8} {i : Nat} (h : write mem i bs = some mem') :
    mem'.length = mem.length := by
  rw [write] at h
  split at h
  · obtain rfl := Option.some.inj h
    rw [List.length_append, List.length_append, List.length_take, List.length_drop]
    omega
  · simp at h

theorem Holds.cut (h : Holds mem str) {i : Nat} (hi : i ≤ str.length) :
    ∃ mem', write mem i [0] = some mem' ∧ Holds mem' (str.take i) := by
  obtain ⟨hnul, junk, rfl⟩ := h
  have hin : i + [(0 : UInt8)].length ≤ (str ++ 0 :: junk).length := by
    simp only [List.length_append, List.length_cons, List.length_nil]
    omega
  rw [write, if_pos hin]
  refine ⟨_, rfl, fun hmem => hnul (List.mem_of_mem_take hmem),
    (str ++ 0 :: junk).drop (i + 1), ?_⟩
  rw [List.take_append_of_le_length hi, List.append_assoc]
  rfl

theorem Holds.extend (h : Holds mem str) {more : List UInt8} (hmore : 0 ∉ more)
    (hfits : str.length + more.length < mem.length) :
    ∃ mem', write mem str.length (more ++ [0]) = some mem' ∧ Holds mem' (str ++ more) := by
  obtain ⟨hnul, junk, rfl⟩ := h
  have hin : str.length + (more ++ [(0 : UInt8)]).length ≤ (str ++ 0 :: junk).length := by
    simp only [List.length_append, List.length_cons, List.length_nil] at hfits ⊢
    omega
  rw [write, if_pos hin]
  refine ⟨_, rfl, ?_, (str ++ 0 :: junk).drop (str.length + (more ++ [(0 : UInt8)]).length), ?_⟩
  · intro hmem
    rcases List.mem_append.mp hmem with hmem | hmem
    · exact hnul hmem
    · exact hmore hmem
  · rw [List.take_left, List.append_assoc, List.append_assoc, List.append_assoc]
    rfl

theorem find_cons (c a : UInt8) (s : List UInt8) :
    find [c] (a :: s) = if a = 0 then none else if a = c then some 0 else (find [c] s).map (· + 1) := by
  rw [find, if_neg (List.cons_ne_nil c [])]
  by_cases ha : a = 0
  · rw [if_pos ha, if_neg fun h => h.2 ha]
  · rw [if_neg ha, if_pos ⟨by simp, ha⟩]
    simp

theorem find_eq_some_iff {c : UInt8} (hc : c ≠ 0) {s : List UInt8} {k : Nat} :
    find [c] s = some k ↔ ∃ front rest, s = front ++ c :: rest ∧ front.length = k ∧ c ∉ front ∧ 0 ∉ front := by
  induction s generalizing k with
  | nil => simp [find]
  | cons a s ih =>
    rw [find_cons]
    by_cases h0 : a = 0
    · rw [if_pos h0]
      refine iff_of_false nofun ?_
      rintro ⟨front, rest, h, -, -, hnul⟩
      cases front with
      | nil => exact hc ((List.cons.inj h).1.symm.trans h0)
      | cons b front => exact hnul (by simp [← (List.cons.inj h).1, h0])
    rw [if_neg h0]
    by_cases ha : a = c
    · rw [if_pos ha, Option.some.injEq]
      constructor
      · rintro rfl
        exact ⟨[], s, by rw [ha]; rfl, rfl, List.not_mem_nil, List.not_mem_nil⟩
      · rintro ⟨front, rest, h, rfl, hmem, -⟩
        cases front with
        | nil => rfl
        | cons b front => exact absurd (by simp [← (List.cons.inj h).1, ha]) hmem
    · rw [if_neg ha, Option.map_eq_some_iff]
      constructor
      · rintro ⟨j, hj, rfl⟩
        obtain ⟨front, rest, rfl, rfl, hmem, hnul⟩ := ih.mp hj
        exact ⟨a :: front, rest, rfl, rfl, by simp [Ne.symm ha, hmem], by simp [Ne.symm h0, hnul]⟩
      · rintro ⟨front, rest, h, rfl, hmem, hnul⟩
        cases front with
        | nil => exact absurd (List.cons.inj h).1 ha
        | cons b front =>
          rw [List.mem_cons, not_or] at hmem hnul
          exact ⟨front.length, ih.mpr ⟨front, rest, (List.cons.inj h).2, rfl, hmem.2, hnul.2⟩, rfl⟩

end CStrings
