import Mathlib.Data.List.Perm.Basic

/-! Resources that are opened, used and closed. A key may be opened again after it was closed, and
where it is open twice it is to be closed twice. -/

namespace Ledger

inductive Act (K : Type) where
  | opened (k : K)
  | closed (k : K)
  | used (k : K)
deriving DecidableEq, Repr

variable {K : Type} [DecidableEq K]

/-- What is open after an act, the last opened first. -/
def after (l : List K) : Act K → List K
  | .opened k => k :: l
  | .closed k => l.erase k
  | .used _ => l

def live (l : List K) (acts : List (Act K)) : List K := acts.foldl after l

/-- Only what is open is used or closed. -/
def Orderly : List K → List (Act K) → Prop
  | _, [] => True
  | l, a :: acts =>
    (match a with
      | .opened _ => True
      | .closed k | .used k => k ∈ l) ∧ Orderly (after l a) acts

@[simp] theorem live_nil (l : List K) : live l [] = l := rfl

@[simp] theorem live_cons (l : List K) (a : Act K) (acts : List (Act K)) :
    live l (a :: acts) = live (after l a) acts := rfl

theorem live_append (l : List K) (acts rest : List (Act K)) :
    live l (acts ++ rest) = live (live l acts) rest := List.foldl_append ..

theorem orderly_append {l : List K} {acts rest : List (Act K)} :
    Orderly l (acts ++ rest) ↔ Orderly l acts ∧ Orderly (live l acts) rest := by
  induction acts generalizing l with
  | nil => simp [Orderly]
  | cons a acts ih => simp only [List.cons_append, Orderly, ih, live_cons, and_assoc]

@[simp] theorem after_closed_cons (k : K) (l : List K) : after (k :: l) (.closed k) = l :=
  List.erase_cons_head ..

theorem after_perm {l l' : List K} (h : l.Perm l') (a : Act K) : (after l a).Perm (after l' a) := by
  cases a with
  | opened k => exact h.cons k
  | closed k => exact h.erase k
  | used k => exact h

theorem live_perm {l l' : List K} (h : l.Perm l') (acts : List (Act K)) :
    (live l acts).Perm (live l' acts) := by
  induction acts generalizing l l' with
  | nil => exact h
  | cons a acts ih => exact ih (after_perm h a)

theorem Orderly.perm {l l' : List K} (h : l.Perm l') {acts : List (Act K)}
    (hacts : Orderly l acts) : Orderly l' acts := by
  induction acts generalizing l l' with
  | nil => trivial
  | cons a acts ih =>
    obtain ⟨ha, hrest⟩ := hacts
    refine ⟨?_, ih (after_perm h a) hrest⟩
    cases a with
    | opened k => trivial
    | closed k => exact h.mem_iff.mp ha
    | used k => exact h.mem_iff.mp ha

theorem Orderly.count {l : List K} {acts : List (Act K)} (h : Orderly l acts) (k : K) :
    l.count k + acts.count (.opened k) = acts.count (.closed k) + (live l acts).count k := by
  induction acts generalizing l with
  | nil => simp
  | cons a acts ih =>
    obtain ⟨ha, hrest⟩ := h
    have hcount := ih hrest
    rw [live_cons]
    cases a with
    | opened j =>
      simp only [after, List.count_cons, beq_iff_eq, Act.opened.injEq, reduceCtorEq, if_false,
        Nat.add_zero] at hcount ⊢
      omega
    | closed j =>
      rw [after, List.count_erase] at hcount
      rw [List.count_cons, after]
      by_cases hjk : j = k
      · subst hjk
        have hpos : 0 < l.count j := List.count_pos_iff.mpr ha
        simp only [beq_self_eq_true, if_true, List.count_cons, beq_iff_eq, reduceCtorEq, if_false,
          Nat.add_zero] at hcount ⊢
        omega
      · simp only [beq_iff_eq, hjk, List.count_cons, reduceCtorEq, if_false, Act.closed.injEq,
          Nat.add_zero, Nat.sub_zero] at hcount ⊢
        omega
    | used j =>
      simp only [after, List.count_cons, beq_iff_eq, reduceCtorEq, if_false,
        Nat.add_zero] at hcount ⊢
      omega

/-- The openings of a history that leaves nothing open are as many as the closings, for each key. -/
theorem Orderly.count_eq {acts : List (Act K)} (h : Orderly [] acts) (hlive : live [] acts = [])
    (k : K) : acts.count (.opened k) = acts.count (.closed k) := by
  have hcount := h.count k
  rw [hlive] at hcount
  simpa using hcount

/-- To close everything that is open, in whatever order, is orderly and leaves nothing open. -/
theorem closeAll {l keys : List K} (h : l.Perm keys) :
    Orderly l (keys.map .closed) ∧ live l (keys.map .closed) = [] := by
  induction keys generalizing l with
  | nil => exact ⟨trivial, List.perm_nil.mp h⟩
  | cons k keys ih =>
    have hrest : (l.erase k).Perm keys := by simpa using h.erase k
    obtain ⟨horderly, hlive⟩ := ih hrest
    exact ⟨⟨h.mem_iff.mpr List.mem_cons_self, horderly⟩, hlive⟩

theorem useOpen {l : List K} {acts : List (Act K)} (h : ∀ a ∈ acts, ∃ k ∈ l, a = .used k) :
    Orderly l acts ∧ live l acts = l := by
  induction acts with
  | nil => exact ⟨trivial, rfl⟩
  | cons a acts ih =>
    obtain ⟨k, hk, rfl⟩ := h a List.mem_cons_self
    obtain ⟨horderly, hlive⟩ := ih fun a ha => h a (List.mem_cons_of_mem _ ha)
    exact ⟨⟨hk, horderly⟩, hlive⟩

theorem openClose (l : List K) (k : K) :
    Orderly l [.opened k, .closed k] ∧ live l [.opened k, .closed k] = l := by
  refine ⟨⟨trivial, List.mem_cons_self, trivial⟩, ?_⟩
  rw [live_cons, live_cons, live_nil, after, after_closed_cons]

end Ledger
