import Mathlib.Data.List.Basic

/-! The words of a text: what stands between separators, without the empty parts. -/

namespace Words

variable {α : Type}

def words (p : α → Bool) (l : List α) : List (List α) := (l.splitOnP p).filter fun w => !w.isEmpty

@[simp] theorem words_nil (p : α → Bool) : words p [] = [] := rfl

theorem words_cons_sep {p : α → Bool} {a : α} (ha : p a = true) (l : List α) :
    words p (a :: l) = words p l := by
  rw [words, List.splitOnP_cons_eq_if_modifyHead, if_pos ha]
  rfl

theorem words_dropWhile (p : α → Bool) (l : List α) : words p (l.dropWhile p) = words p l := by
  induction l with
  | nil => rfl
  | cons a l ih =>
    by_cases ha : p a = true
    · rw [List.dropWhile_cons_of_pos ha, ih, words_cons_sep ha]
    · rw [List.dropWhile_cons_of_neg ha]

theorem words_append {p : α → Bool} {w rest : List α} (hne : w ≠ [])
    (hw : ∀ x ∈ w, p x = false) (hrest : ∀ a, rest.head? = some a → p a = true) :
    words p (w ++ rest) = w :: words p rest := by
  have hkeep : (!w.isEmpty) = true := by simpa using hne
  cases rest with
  | nil =>
    rw [List.append_nil, words, List.splitOnP_eq_singleton hw,
      List.filter_cons_of_pos (p := fun w : List α => !w.isEmpty) hkeep]
    rfl
  | cons a rest =>
    rw [words_cons_sep (hrest a rfl), words,
      List.splitOnP_append_cons_of_forall_mem hw a (hrest a rfl),
      List.filter_cons_of_pos (p := fun w : List α => !w.isEmpty) hkeep]
    rfl

theorem words_takeWhile {p : α → Bool} {l : List α} (hne : l.takeWhile (!p ·) ≠ []) :
    words p l = l.takeWhile (!p ·) :: words p (l.dropWhile (!p ·)) := by
  have hw : ∀ x ∈ l.takeWhile (!p ·), p x = false := by
    intro x hx
    simpa using List.all_eq_true.mp List.all_takeWhile x hx
  have hrest : ∀ a, (l.dropWhile (!p ·)).head? = some a → p a = true := by
    intro a ha
    have hnot := List.head?_dropWhile_not (!p ·) l
    rw [ha] at hnot
    simpa using hnot
  rw [← words_append hne hw hrest, List.takeWhile_append_dropWhile]

theorem splitOnP_append_singleton {p : α → Bool} {c : α} (hc : p c = false) (l : List α) :
    ∃ init last, l.splitOnP p = init ++ [last] ∧ (l ++ [c]).splitOnP p = init ++ [last ++ [c]] := by
  induction l with
  | nil =>
    refine ⟨[], [], rfl, ?_⟩
    rw [List.nil_append, List.splitOnP_cons_eq_if_modifyHead, if_neg (by simp [hc])]
    rfl
  | cons a l ih =>
    obtain ⟨init, last, hl, hlc⟩ := ih
    rw [List.cons_append, List.splitOnP_cons_eq_if_modifyHead, List.splitOnP_cons_eq_if_modifyHead, hl, hlc]
    by_cases ha : p a = true
    · rw [if_pos ha, if_pos ha]
      exact ⟨[] :: init, last, rfl, rfl⟩
    · rw [if_neg ha, if_neg ha]
      cases init with
      | nil => exact ⟨[], a :: last, rfl, rfl⟩
      | cons w init => exact ⟨(a :: w) :: init, last, rfl, rfl⟩

/-- An element that separates nothing is a word of its own at the end, or lengthens the last one. -/
theorem words_append_singleton {p : α → Bool} {c : α} (hc : p c = false) (l : List α) :
    words p (l ++ [c]) = words p l ++ [[c]] ∨
      ∃ init w, words p l = init ++ [w] ∧ words p (l ++ [c]) = init ++ [w ++ [c]] := by
  obtain ⟨init, last, hl, hlc⟩ := splitOnP_append_singleton hc l
  rw [words, words, hl, hlc, List.filter_append, List.filter_append]
  cases last with
  | nil => exact .inl (by simp)
  | cons a last => exact .inr ⟨init.filter fun w => !w.isEmpty, a :: last, rfl, rfl⟩

theorem mem_splitOnP_iff {p : α → Bool} {x : α} (hx : p x = false) {l : List α} :
    (∃ w ∈ l.splitOnP p, x ∈ w) ↔ x ∈ l := by
  induction l with
  | nil => simp
  | cons a l ih =>
    rw [List.splitOnP_cons_eq_if_modifyHead, List.mem_cons, ← ih]
    by_cases ha : p a = true
    · have hne : x ≠ a := fun heq => Bool.false_ne_true (hx.symm.trans (heq ▸ ha))
      rw [if_pos ha, List.exists_mem_cons_iff]
      simp [hne]
    · obtain ⟨w₀, ws, hparts⟩ := List.exists_cons_of_ne_nil (List.splitOnP_ne_nil p l)
      rw [if_neg ha, hparts, List.modifyHead_cons, List.exists_mem_cons_iff, List.exists_mem_cons_iff,
        List.mem_cons, or_assoc]

theorem not_sep_of_mem_splitOnP {p : α → Bool} {l w : List α} (hw : w ∈ l.splitOnP p) :
    ∀ x ∈ w, p x = false := by
  induction l generalizing w with
  | nil =>
    rw [List.splitOnP_nil, List.mem_singleton] at hw
    simp [hw]
  | cons a l ih =>
    rw [List.splitOnP_cons_eq_if_modifyHead] at hw
    cases ha : p a with
    | true =>
      rw [if_pos ha, List.mem_cons] at hw
      rcases hw with rfl | hw
      · simp
      · exact ih hw
    | false =>
      rw [if_neg (by simp [ha])] at hw
      obtain ⟨w₀, ws, hparts⟩ := List.exists_cons_of_ne_nil (List.splitOnP_ne_nil p l)
      rw [hparts] at hw ih
      rw [List.modifyHead_cons, List.mem_cons] at hw
      rcases hw with rfl | hw
      · intro x hx
        rcases List.mem_cons.mp hx with rfl | hx
        · exact ha
        · exact ih List.mem_cons_self x hx
      · exact ih (List.mem_cons_of_mem w₀ hw)

theorem not_sep_of_mem_words {p : α → Bool} {l w : List α} (hw : w ∈ words p l) :
    ∀ x ∈ w, p x = false :=
  not_sep_of_mem_splitOnP (List.mem_of_mem_filter hw)

end Words
