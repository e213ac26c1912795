import Mathlib.Data.List.Basic

/-! Settings in layers. Within a layer the last one written for a key counts, and among layers the
first one that has the key. -/

namespace Layers

variable {K V : Type}

section Last

variable [DecidableEq K]

def lastFor (k : K) (ws : List (K × V)) : Option V := ((ws.filter (·.1 = k)).getLast?).map (·.2)

@[simp] theorem lastFor_nil (k : K) : lastFor k ([] : List (K × V)) = none := rfl

theorem lastFor_append (k : K) (ws ws' : List (K × V)) :
    lastFor k (ws ++ ws') = (lastFor k ws').or (lastFor k ws) := by
  rw [lastFor, List.filter_append, List.getLast?_append, lastFor, lastFor]
  cases (ws'.filter (·.1 = k)).getLast? <;> rfl

theorem lastFor_singleton (k : K) (w : K × V) :
    lastFor k [w] = if w.1 = k then some w.2 else none := by
  by_cases hk : w.1 = k <;> simp [lastFor, hk]

theorem lastFor_cons (k : K) (w : K × V) (ws : List (K × V)) :
    lastFor k (w :: ws) = (lastFor k ws).or (if w.1 = k then some w.2 else none) := by
  rw [← List.singleton_append, lastFor_append, lastFor_singleton]

theorem lastFor_eq_none_iff (k : K) (ws : List (K × V)) :
    lastFor k ws = none ↔ ∀ w ∈ ws, w.1 ≠ k := by
  rw [lastFor, Option.map_eq_none_iff, List.getLast?_eq_none_iff, List.filter_eq_nil_iff]
  simp

end Last

/-- A layer has a value for every key, and of some keys it says that it set them itself. -/
structure Layer (K V : Type) where
  sets : K → Bool
  value : K → V

def Layer.get? (l : Layer K V) (k : K) : Option V := if l.sets k then some (l.value k) else none

def Layer.base (value : K → V) : Layer K V := ⟨fun _ => false, value⟩

/-- Take from `src` what it set and `dst` did not. -/
def Layer.under (dst src : Layer K V) : Layer K V where
  sets k := dst.sets k || src.sets k
  value k := if src.sets k && !dst.sets k then src.value k else dst.value k

theorem Layer.foldl_under_value (ls : List (Layer K V)) (dst : Layer K V) (k : K) :
    (ls.foldl Layer.under dst).value k =
      if dst.sets k then dst.value k else (ls.findSome? (·.get? k)).getD (dst.value k) := by
  induction ls generalizing dst with
  | nil => simp
  | cons l ls ih =>
    rw [List.foldl_cons, ih, List.findSome?_cons, Layer.get?]
    cases hdst : dst.sets k <;> cases hl : l.sets k <;> simp [Layer.under, hdst, hl]

theorem Layer.foldl_under_base (ls : List (Layer K V)) (value : K → V) (k : K) :
    (ls.foldl Layer.under (Layer.base value)).value k =
      (ls.findSome? (·.get? k)).getD (value k) := by
  rw [Layer.foldl_under_value]
  exact if_neg (by simp [Layer.base])

/-! The first of a list that gives something, by its place. -/

variable {α β : Type}

theorem findSome?_of_getElem? {f : α → Option β} {l : List α} {i : Nat} {a : α} {b : β}
    (ha : l[i]? = some a) (hb : f a = some b)
    (hfirst : ∀ j < i, ∀ x, l[j]? = some x → f x = none) : l.findSome? f = some b := by
  induction l generalizing i with
  | nil => cases ha
  | cons x l ih =>
    cases i with
    | zero =>
      obtain rfl := Option.some.inj ha
      rw [List.findSome?_cons, hb]
    | succ i =>
      rw [List.findSome?_cons, hfirst 0 (Nat.succ_pos i) x rfl]
      exact ih ha fun j hj y hy => hfirst (j + 1) (Nat.succ_lt_succ hj) y hy

theorem exists_getElem?_of_findSome? {f : α → Option β} {l : List α} {b : β}
    (h : l.findSome? f = some b) :
    ∃ (i : Nat) (a : α), l[i]? = some a ∧ f a = some b ∧
      ∀ j < i, ∀ x, l[j]? = some x → f x = none := by
  induction l with
  | nil => cases h
  | cons x l ih =>
    rw [List.findSome?_cons] at h
    cases hx : f x with
    | some y =>
      rw [hx] at h
      exact ⟨0, x, rfl, hx.trans h, fun j hj => absurd hj (Nat.not_lt_zero j)⟩
    | none =>
      rw [hx] at h
      obtain ⟨i, a, ha, hb, hfirst⟩ := ih h
      refine ⟨i + 1, a, ha, hb, fun j hj y hy => ?_⟩
      cases j with
      | zero =>
        obtain rfl := Option.some.inj hy
        exact hx
      | succ j => exact hfirst j (Nat.lt_of_succ_lt_succ hj) y hy

end Layers
