import WolfSsh.RealPath

/-! `wolfSSH_CleanPath` where the separator is a slash: it takes dots, doubled separators and parents
out of a path in place, in loops over an index. -/

namespace WolfSsh.CleanPath

open Paths

/-- The octet at `i`, or the NUL behind the path. -/
def octet (path : Bytes) (i : Nat) : UInt8 := path.getD i 0

/-- A `/./` pattern around `i`. -/
def DotAt (path : Bytes) (i : Nat) : Prop :=
  octet path i = 0x2e ∧ octet path (i - 1) = slash ∧ octet path (i + 1) = slash

instance (path : Bytes) (i : Nat) : Decidable (DotAt path i) := instDecidableAnd

/-- A doubled separator at `i`. -/
def DoubleAt (path : Bytes) (i : Nat) : Prop := octet path i = slash ∧ octet path (i + 1) = slash

instance (path : Bytes) (i : Nat) : Decidable (DoubleAt path i) := instDecidableAnd

/-- Remove `/./` patterns. -/
def dropDot (path : Bytes) (i : Nat) : Bytes :=
  if i + 1 < path.length then
    if DotAt path i then
      dropDot (path.take (i - 1) ++ path.drop (i + 1)) i
    else
      dropDot path (i + 1)
  else
    path
termination_by path.length - i
decreasing_by
  · simp only [List.length_append, List.length_take, List.length_drop]
    omega
  · omega

def dropDouble (path : Bytes) (i : Nat) : Bytes :=
  if i < path.length then
    if DoubleAt path i then
      dropDouble (path.take i ++ path.drop (i + 1)) i
    else
      dropDouble path (i + 1)
  else
    path
termination_by path.length - i
decreasing_by
  · simp only [List.length_append, List.length_take, List.length_drop]
    omega
  · omega

/-- The separator in front of a real `..` segment. -/
def isParent (path : Bytes) (i : Nat) : Bool :=
  octet path i == slash && octet path (i + 1) == 0x2e && octet path (i + 2) == 0x2e &&
    (octet path (i + 3) == slash || octet path (i + 3) == 0)

/-- The first of them, from `i` on. -/
def findParent (path : Bytes) (i : Nat) : Option Nat :=
  if i < path.length then
    if isParent path i then some i else findParent path (i + 1)
  else
    none
termination_by path.length - i

/-- Where the cut begins: retrace from `z` to a separator or a colon, or to the front. -/
def retrace (path : Bytes) : Nat → Nat
  | 0 => 0
  | z + 1 => if octet path (z + 1) = slash ∨ octet path (z + 1) = 0x3a then z + 1 else retrace path z

theorem retrace_le (path : Bytes) (z : Nat) : retrace path z ≤ z := by
  induction z with
  | zero => exact Nat.le_refl 0
  | succ z ih =>
    rw [retrace]
    split
    · exact Nat.le_refl _
    · exact Nat.le_succ_of_le ih

/-- Cut out a `..` and what is before it. -/
def cutParent (path : Bytes) (i : Nat) : Bytes :=
  let path := path.take (retrace path (i - 1)) ++ path.drop (i + 3)
  -- case of at /
  if path = [] then [slash] else path

theorem findParent_some {path : Bytes} {i k : Nat} (h : findParent path i = some k) :
    i ≤ k ∧ k < path.length ∧ isParent path k = true := by
  fun_induction findParent path i with
  | case1 i hi hparent =>
    obtain rfl := Option.some.inj h
    exact ⟨Nat.le_refl _, hi, hparent⟩
  | case2 i hi hparent ih =>
    obtain ⟨hle, hk⟩ := ih h
    exact ⟨by omega, hk⟩
  | case3 i hi => simp at h

theorem octet_ne_zero {path : Bytes} {i : Nat} (h : octet path i ≠ 0) : i < path.length := by
  by_contra hi
  exact h (by rw [octet, List.getD_eq_getElem?_getD, List.getElem?_eq_none (Nat.not_lt.mp hi)]; rfl)

theorem length_cutParent {path : Bytes} {k : Nat} (h : findParent path 1 = some k) :
    (cutParent path k).length < path.length := by
  obtain ⟨hpos, hk, hparent⟩ := findParent_some h
  have hdot : octet path (k + 2) = 0x2e := by
    simp only [isParent, Bool.and_eq_true, beq_iff_eq] at hparent
    exact hparent.1.2
  have hlen : k + 2 < path.length := octet_ne_zero (by rw [hdot]; decide)
  have hz := retrace_le path (k - 1)
  rw [cutParent]
  split
  · rw [List.length_singleton]
    omega
  · rw [List.length_append, List.length_take, List.length_drop]
    omega

/-- Go through the path until no cases are found. -/
def removeParents (path : Bytes) : Bytes :=
  match _h : findParent path 1 with
  | some i => removeParents (cutParent path i)
  | none => path
termination_by path.length
decreasing_by exact length_cutParent _h

def dropTrailing (path : Bytes) : Bytes :=
  if 3 < path.length ∧ octet path (path.length - 1) = slash then path.dropLast else path

/-- `wolfSSH_CleanPath` of a string in a buffer of `inSz` octets: the size and what the buffer then
holds. -/
def cleanPath (path : Bytes) (inSz : Int) : Except PathErr (Nat × Bytes) :=
  if inSz ≤ 0 then
    .error .badArgument
  else
    let path := dropTrailing (removeParents (dropDouble (dropDot path 1) 0))
    -- path would overflow input buffer
    if (path.length : Int) ≥ inSz then .error .bufferE else .ok (path.length, path)

end WolfSsh.CleanPath
