import WolfSsh.Lib.Runs
import Mathlib.Data.List.Infix

/-! Absolute paths as lists of components, and their rendering with a separator in front of every
component. The root is the separator alone. -/

namespace Paths

variable {α : Type} (sep : α)

/-- Every component with the separator in front of it. -/
def body (cs : List (List α)) : List α := cs.flatMap (sep :: ·)

def render (cs : List (List α)) : List α := if cs = [] then [sep] else body sep cs

/-- The nonempty runs of characters between delimiters, `acc` being read already. -/
def tokensFrom (delim : α → Bool) (acc : List α) : List α → List (List α)
  | [] => if acc = [] then [] else [acc]
  | c :: cs =>
    if delim c then
      if acc = [] then tokensFrom delim [] cs else acc :: tokensFrom delim [] cs
    else tokensFrom delim (acc ++ [c]) cs

def tokens (delim : α → Bool) (s : List α) : List (List α) := tokensFrom delim [] s

def lastIndex [DecidableEq α] (c : α) (s : List α) : Option Nat :=
  if c ∈ s then some (s.length - 1 - s.reverse.idxOf c) else none

variable {sep} {delim : α → Bool}

@[simp] theorem body_nil : body sep ([] : List (List α)) = [] := rfl

@[simp] theorem body_cons (c : List α) (cs : List (List α)) :
    body sep (c :: cs) = sep :: c ++ body sep cs := rfl

@[simp] theorem body_append (as bs : List (List α)) :
    body sep (as ++ bs) = body sep as ++ body sep bs := by
  simp [body]

@[simp] theorem render_nil : render sep ([] : List (List α)) = [sep] := rfl

theorem render_of_ne_nil {cs : List (List α)} (hcs : cs ≠ []) : render sep cs = body sep cs :=
  if_neg hcs

theorem render_concat {cs : List (List α)} {c : List α} (hcs : cs ≠ []) :
    render sep (cs ++ [c]) = render sep cs ++ sep :: c := by
  simp [render, hcs]

theorem render_singleton (c : List α) : render sep [c] = render sep [] ++ c := by
  simp [render]

theorem render_ne_nil (cs : List (List α)) : render sep cs ≠ [] := by
  cases cs <;> simp [render]

theorem render_head (cs : List (List α)) : (render sep cs).head? = some sep := by
  cases cs <;> rfl

theorem length_pos_render (cs : List (List α)) : 0 < (render sep cs).length :=
  List.length_pos_iff.mpr (render_ne_nil cs)

theorem render_length_eq_one {cs : List (List α)} (hne : ∀ c ∈ cs, c ≠ []) :
    (render sep cs).length = 1 ↔ cs = [] := by
  cases cs with
  | nil => simp
  | cons c cs =>
    have hc : 0 < c.length := List.length_pos_iff.mpr (hne c (by simp))
    simp only [render, reduceCtorEq, if_false, body_cons, List.length_append, List.length_cons,
      iff_false]
    omega

theorem tokensFrom_mem {s acc tok : List α} (h : tok ∈ tokensFrom delim acc s) :
    tok ≠ [] ∧ ∀ c ∈ tok, c ∈ acc ∨ c ∈ s ∧ delim c = false := by
  induction s generalizing acc with
  | nil =>
    by_cases hacc : acc = []
    · simp [tokensFrom, hacc] at h
    · rw [tokensFrom, if_neg hacc, List.mem_singleton] at h
      subst h
      exact ⟨hacc, fun c hc => Or.inl hc⟩
  | cons d s ih =>
    rw [tokensFrom] at h
    by_cases hd : delim d
    · have hrest : tok ∈ tokensFrom delim [] s →
          tok ≠ [] ∧ ∀ c ∈ tok, c ∈ acc ∨ c ∈ d :: s ∧ delim c = false := by
        intro htok
        obtain ⟨hne, hall⟩ := ih htok
        refine ⟨hne, fun c hc => Or.inr ?_⟩
        rcases hall c hc with hc | ⟨hc, hdc⟩
        · simp at hc
        · exact ⟨List.mem_cons_of_mem _ hc, hdc⟩
      rw [if_pos hd] at h
      by_cases hacc : acc = []
      · rw [if_pos hacc] at h
        exact hrest h
      · rw [if_neg hacc, List.mem_cons] at h
        rcases h with rfl | h
        · exact ⟨hacc, fun c hc => Or.inl hc⟩
        · exact hrest h
    · rw [if_neg hd] at h
      obtain ⟨hne, hall⟩ := ih h
      refine ⟨hne, fun c hc => ?_⟩
      rcases hall c hc with hc | ⟨hc, hdc⟩
      · rcases List.mem_append.mp hc with hc | hc
        · exact Or.inl hc
        · rw [List.mem_singleton] at hc
          subst hc
          exact Or.inr ⟨by simp, by simpa using hd⟩
      · exact Or.inr ⟨List.mem_cons_of_mem _ hc, hdc⟩

/-- A token is not empty, and its characters come from the string and are no delimiters. -/
theorem mem_tokens {s tok : List α} (h : tok ∈ tokens delim s) :
    tok ≠ [] ∧ ∀ c ∈ tok, c ∈ s ∧ delim c = false := by
  obtain ⟨hne, hall⟩ := tokensFrom_mem h
  exact ⟨hne, fun c hc => (hall c hc).resolve_left (by simp)⟩

theorem length_mem_tokensFrom {s acc tok : List α} (h : tok ∈ tokensFrom delim acc s) :
    tok.length ≤ acc.length + s.length := by
  induction s generalizing acc with
  | nil =>
    rw [tokensFrom] at h
    split at h
    · simp at h
    · rw [List.mem_singleton] at h
      rw [h]
      exact Nat.le_refl _
  | cons d s ih =>
    rw [List.length_cons]
    rw [tokensFrom] at h
    split at h
    · split at h
      · have hrest := ih h
        rw [List.length_nil] at hrest
        omega
      · rcases List.mem_cons.mp h with rfl | h
        · omega
        · have hrest := ih h
          rw [List.length_nil] at hrest
          omega
    · have hrest := ih h
      rw [List.length_append, List.length_singleton] at hrest
      omega

theorem length_mem_tokens {s tok : List α} (h : tok ∈ tokens delim s) : tok.length ≤ s.length := by
  have hlen := length_mem_tokensFrom h
  rwa [List.length_nil, Nat.zero_add] at hlen

theorem lastIndex_append [DecidableEq α] {c : α} {s t : List α} (ht : c ∉ t) :
    lastIndex c (s ++ c :: t) = some s.length := by
  have hidx : (s ++ c :: t).reverse.idxOf c = t.length := by
    have hrev : (s ++ c :: t).reverse = t.reverse ++ (c :: s.reverse) := by simp
    rw [hrev, List.idxOf_append_of_notMem (by simpa using ht)]
    simp
  have hmem : c ∈ s ++ c :: t := by simp
  rw [lastIndex, if_pos hmem, hidx]
  simp only [List.length_append, List.length_cons, Option.some.injEq]
  omega

theorem take_lastIndex_render [DecidableEq α] (cs : List (List α)) {c : List α} (hc : sep ∉ c) :
    lastIndex sep (render sep (cs ++ [c])) = some (body sep cs).length ∧
      (render sep (cs ++ [c])).take (body sep cs).length = body sep cs := by
  have hr : render sep (cs ++ [c]) = body sep cs ++ sep :: c := by
    simp [render]
  rw [hr]
  exact ⟨lastIndex_append hc, List.take_left⟩

theorem eq_or_sep_of_prefix {a b s t : List α} (ha : sep ∉ a) (hb : sep ∉ b)
    (hs : s = [] ∨ s.head? = some sep) (ht : t = [] ∨ t.head? = some sep)
    (h : a ++ s = b ++ t) : a = b ∧ s = t := by
  induction a generalizing b with
  | nil =>
    cases b with
    | nil => exact ⟨rfl, h⟩
    | cons x b =>
      rcases hs with rfl | hs
      · simp at h
      · rw [List.nil_append] at h
        rw [h] at hs
        simp only [List.cons_append, List.head?_cons, Option.some.injEq] at hs
        simp [hs] at hb
  | cons x a ih =>
    cases b with
    | nil =>
      rcases ht with rfl | ht
      · simp at h
      · rw [List.nil_append] at h
        rw [← h] at ht
        simp only [List.cons_append, List.head?_cons, Option.some.injEq] at ht
        simp [ht] at ha
    | cons y b =>
      simp only [List.cons_append, List.cons.injEq] at h
      simp only [List.mem_cons, not_or] at ha hb
      obtain ⟨rfl, hst⟩ := ih ha.2 hb.2 h.2
      exact ⟨by rw [h.1], hst⟩

theorem body_head (cs : List (List α)) : body sep cs = [] ∨ (body sep cs).head? = some sep := by
  cases cs <;> simp

/-- A rendered path that starts with another one, up to a separator or the end, has its
components in front. -/
theorem prefix_of_body_append {root cs : List (List α)} {rest : List α}
    (hroot : ∀ c ∈ root, sep ∉ c) (hcs : ∀ c ∈ cs, sep ∉ c)
    (hrest : rest = [] ∨ rest.head? = some sep) (h : body sep cs = body sep root ++ rest) :
    ∃ tail, cs = root ++ tail ∧ rest = body sep tail := by
  induction root generalizing cs with
  | nil => exact ⟨cs, rfl, by simpa using h.symm⟩
  | cons r root ih =>
    cases cs with
    | nil => simp at h
    | cons c cs =>
      simp only [body_cons, List.cons_append, List.cons.injEq, true_and, List.append_assoc] at h
      have hhead : body sep root ++ rest = [] ∨ (body sep root ++ rest).head? = some sep := by
        cases root with
        | nil => simpa using hrest
        | cons => right; simp
      obtain ⟨rfl, htail⟩ := eq_or_sep_of_prefix (hcs c (by simp)) (hroot r (by simp))
        (body_head cs) hhead h
      obtain ⟨tail, rfl, hr⟩ := ih (fun c hc => hroot c (by simp [hc]))
        (fun c hc => hcs c (by simp [hc])) htail
      exact ⟨tail, rfl, hr⟩

/-- A rendered path cut in front of a separator, or at its end, is rendered from its first
components. -/
theorem split_body {cs : List (List α)} {front rest : List α} (hcs : ∀ c ∈ cs, sep ∉ c)
    (hrest : rest = [] ∨ rest.head? = some sep) (h : body sep cs = front ++ rest) :
    ∃ head tail, cs = head ++ tail ∧ front = body sep head := by
  induction cs generalizing front with
  | nil =>
    rw [body_nil] at h
    exact ⟨[], [], rfl, (List.append_eq_nil_iff.mp h.symm).1⟩
  | cons c cs ih =>
    cases front with
    | nil => exact ⟨[], c :: cs, rfl, rfl⟩
    | cons x front =>
      simp only [body_cons, List.cons_append, List.cons.injEq] at h
      obtain ⟨hsep, hfront⟩ := h
      -- the cut is not inside the first component, which holds no separator
      have hlen : c.length ≤ front.length := by
        by_contra hshort
        rw [List.append_eq_append_iff] at hfront
        rcases hfront with ⟨mid, rfl, -⟩ | ⟨mid, rfl, hmid⟩
        · simp at hshort
        · rcases hrest with rfl | hhead
          · simp only [List.nil_eq, List.append_eq_nil_iff] at hmid
            simp [hmid.1] at hshort
          · cases mid with
            | nil => simp at hshort
            | cons y mid =>
              rw [hmid] at hhead
              simp only [List.cons_append, List.head?_cons, Option.some.injEq] at hhead
              exact hcs (front ++ y :: mid) (by simp) (by simp [hhead])
      obtain ⟨mid, rfl⟩ : ∃ mid, front = c ++ mid :=
        (List.prefix_of_prefix_length_le ⟨_, rfl⟩ ⟨_, hfront.symm⟩ hlen).imp fun _ => Eq.symm
      rw [List.append_assoc] at hfront
      obtain ⟨head, tail, rfl, hmid⟩ :=
        ih (fun d hd => hcs d (by simp [hd])) (List.append_cancel_left hfront)
      exact ⟨c :: head, tail, rfl, by rw [hmid, ← hsep]; rfl⟩

theorem tokensFrom_eq (acc s : List α) :
    tokensFrom delim acc s = ((s.splitOnP delim).modifyHead (acc ++ ·)).filter fun w => !w.isEmpty := by
  induction s generalizing acc with
  | nil => cases acc <;> simp [tokensFrom]
  | cons c s ih =>
    rw [tokensFrom, List.splitOnP_cons_eq_if_modifyHead]
    by_cases hc : delim c = true
    · have hrest : tokensFrom delim [] s = (s.splitOnP delim).filter fun w => !w.isEmpty := by
        rw [ih]
        cases s.splitOnP delim <;> rfl
      rw [if_pos hc, if_pos hc, hrest]
      cases acc <;> simp
    · rw [if_neg hc, if_neg hc, ih, List.modifyHead_modifyHead]
      congr 2
      funext w
      exact List.append_assoc acc [c] w

theorem tokens_eq (s : List α) :
    tokens delim s = (s.splitOnP delim).filter fun w => !w.isEmpty := by
  rw [tokens, tokensFrom_eq]
  cases s.splitOnP delim <;> rfl

theorem tokens_render {cs : List (List α)} (hsep : delim sep = true)
    (hcs : ∀ c ∈ cs, c ≠ [] ∧ ∀ x ∈ c, delim x = false) : tokens delim (render sep cs) = cs := by
  have hnil : ∀ l : List α, tokens delim (sep :: l) = tokens delim l := by
    intro l
    rw [tokens, tokensFrom, if_pos hsep, if_pos rfl, tokens]
  have hbody : tokens delim (body sep cs) = cs := by
    induction cs with
    | nil => rfl
    | cons c cs ih =>
      obtain ⟨⟨hne, hc⟩, hcs⟩ := List.forall_mem_cons.mp hcs
      have hkeep : (!c.isEmpty) = true := by simpa using hne
      rw [body_cons, List.cons_append, hnil, tokens_eq]
      cases cs with
      | nil =>
        rw [body_nil, List.append_nil, List.splitOnP_eq_singleton hc,
          List.filter_cons_of_pos (p := fun w : List α => !w.isEmpty) hkeep]
        rfl
      | cons d cs =>
        have ih' := ih hcs
        rw [body_cons, List.cons_append, hnil, tokens_eq] at ih'
        rw [body_cons, List.cons_append, List.splitOnP_append_cons_of_forall_mem hc sep hsep,
          List.filter_cons_of_pos (p := fun w : List α => !w.isEmpty) hkeep, ih']
  cases cs with
  | nil =>
    rw [render_nil, hnil]
    rfl
  | cons c cs => rwa [render_of_ne_nil (List.cons_ne_nil c cs)]

theorem length_render_take_le (cs : List (List α)) (k : Nat) :
    (render sep (cs.take k)).length ≤ (render sep cs).length := by
  by_cases hnil : cs.take k = []
  · rw [hnil]
    exact length_pos_render cs
  · have hne : cs ≠ [] := by
      rintro rfl
      exact hnil List.take_nil
    rw [render_of_ne_nil hnil, render_of_ne_nil hne]
    have happ := congrArg (fun l => (body sep l).length) (List.take_append_drop k cs)
    simp only [body_append, List.length_append] at happ
    omega

section Normalise

variable [DecidableEq α] {dot dotdot : List α}

/-- Where a segment leads: nowhere, up, or down. The root has nothing above it. -/
def enter (dot dotdot : List α) (cs : List (List α)) (seg : List α) : List (List α) :=
  if seg = [] ∨ seg = dot then cs
  else if seg = dotdot then cs.dropLast
  else cs ++ [seg]

/-- Lexical normalisation: where the segments lead from a path. -/
def normalise (dot dotdot : List α) (cs segs : List (List α)) : List (List α) :=
  segs.foldl (enter dot dotdot) cs

theorem enter_nil (cs : List (List α)) : enter dot dotdot cs [] = cs := if_pos (.inl rfl)

theorem normalise_tokens (cs : List (List α)) (s : List α) :
    normalise dot dotdot cs (tokens delim s) = normalise dot dotdot cs (s.splitOnP delim) := by
  rw [tokens_eq]
  induction s.splitOnP delim generalizing cs with
  | nil => rfl
  | cons seg segs ih =>
    cases seg with
    | nil =>
      rw [normalise, normalise, List.foldl_cons, enter_nil]
      exact ih cs
    | cons a seg => exact ih (enter dot dotdot cs (a :: seg))

theorem normalise_self {cs segs : List (List α)}
    (hsegs : ∀ seg ∈ segs, seg ≠ [] ∧ seg ≠ dot ∧ seg ≠ dotdot) :
    normalise dot dotdot cs segs = cs ++ segs := by
  induction segs generalizing cs with
  | nil => exact (List.append_nil cs).symm
  | cons seg segs ih =>
    obtain ⟨⟨hne, hdot, hdotdot⟩, hsegs⟩ := List.forall_mem_cons.mp hsegs
    have henter : enter dot dotdot cs seg = cs ++ [seg] := by
      rw [enter, if_neg (not_or.mpr ⟨hne, hdot⟩), if_neg hdotdot]
    rw [normalise, List.foldl_cons, henter]
    exact (ih hsegs).trans (by simp)

/-- How often the segments go up from the root. -/
def climbs (dot dotdot : List α) (cs segs : List (List α)) : Nat :=
  (Runs.steps (enter dot dotdot) cs segs).countP fun p => p.1 = [] ∧ p.2 = dotdot

theorem climbs_cons (cs : List (List α)) (seg : List α) (segs : List (List α)) :
    climbs dot dotdot cs (seg :: segs)
      = (if cs = [] ∧ seg = dotdot then 1 else 0) + climbs dot dotdot (enter dot dotdot cs seg) segs := by
  rw [climbs, Runs.steps, List.countP_cons, Nat.add_comm]
  simp [climbs]

/-- Where a segment leads when going up from the root is a segment as any other. -/
def unwind (dotdot : List α) (cs : List (List α)) (seg : List α) : List (List α) :=
  if seg = dotdot ∧ cs ≠ [] then cs.dropLast else cs ++ [seg]

/-- Of the segments up from the root, every second one goes up from the one before it. -/
def marks (dotdot : List α) (n : Nat) : List (List α) := if n % 2 = 1 then [dotdot] else []

theorem unwind_marks (cs : List (List α)) {n : Nat} {seg : List α} (hne : seg ≠ []) (hdot : seg ≠ dot) :
    unwind dotdot (marks dotdot n ++ cs) seg
      = marks dotdot (n + if cs = [] ∧ seg = dotdot then 1 else 0) ++ enter dot dotdot cs seg := by
  rw [unwind, enter, if_neg (not_or.mpr ⟨hne, hdot⟩)]
  by_cases hseg : seg = dotdot
  · by_cases hcs : cs = []
    · subst hseg hcs
      rcases Nat.mod_two_eq_zero_or_one n with hn | hn
      · simp [marks, hn, Nat.add_mod]
      · simp [marks, hn, Nat.add_mod]
    · rw [if_pos ⟨hseg, by simp [hcs]⟩, if_neg (by simp [hcs]), if_pos hseg,
        List.dropLast_append_of_ne_nil hcs, Nat.add_zero]
  · rw [if_neg (by simp [hseg]), if_neg (by simp [hseg]), if_neg hseg, List.append_assoc, Nat.add_zero]

theorem foldl_unwind (dotdot : List α) (cs : List (List α)) (n : Nat) {segs : List (List α)}
    (hsegs : ∀ seg ∈ segs, seg ≠ [] ∧ seg ≠ dot) :
    segs.foldl (unwind dotdot) (marks dotdot n ++ cs)
      = marks dotdot (n + climbs dot dotdot cs segs) ++ normalise dot dotdot cs segs := by
  induction segs generalizing n cs with
  | nil => rfl
  | cons seg segs ih =>
    obtain ⟨⟨hne, hdot⟩, hsegs⟩ := List.forall_mem_cons.mp hsegs
    rw [List.foldl_cons, unwind_marks cs hne hdot, ih _ _ hsegs, climbs_cons, Nat.add_assoc]
    rfl

theorem mem_normalise {cs segs : List (List α)} {c : List α} (h : c ∈ normalise dot dotdot cs segs) :
    c ∈ cs ∨ c ∈ segs ∧ c ≠ [] ∧ c ≠ dot ∧ c ≠ dotdot := by
  induction segs generalizing cs with
  | nil => exact .inl h
  | cons seg segs ih =>
    rw [normalise, List.foldl_cons] at h
    rcases ih h with hmem | ⟨hmem, hc⟩
    · rw [enter] at hmem
      split at hmem
      · exact .inl hmem
      · rename_i hdot
        split at hmem
        · exact .inl (List.mem_of_mem_dropLast hmem)
        · rename_i hdotdot
          rcases List.mem_append.mp hmem with hmem | hmem
          · exact .inl hmem
          · rw [List.mem_singleton] at hmem
            subst hmem
            exact .inr ⟨List.mem_cons_self, (not_or.mp hdot).1, (not_or.mp hdot).2, hdotdot⟩
    · exact .inr ⟨List.mem_cons_of_mem _ hmem, hc⟩

theorem climbs_eq_zero {cs segs : List (List α)} (h : dotdot ∉ segs) : climbs dot dotdot cs segs = 0 := by
  induction segs generalizing cs with
  | nil => rfl
  | cons seg segs ih =>
    rw [List.mem_cons, not_or] at h
    rw [climbs_cons, ih h.2, if_neg fun hseg => h.1 hseg.2.symm]

end Normalise

section Filter

variable [DecidableEq α] {dot dotdot x : List α} {cond : List (List α) → List α → Prop}

theorem normalise_filter (hx : ∀ cs, enter dot dotdot cs x = cs) (cs segs : List (List α)) :
    normalise dot dotdot cs (segs.filter (· ≠ x)) = normalise dot dotdot cs segs := by
  induction segs generalizing cs with
  | nil => rfl
  | cons seg segs ih =>
    by_cases hseg : seg = x
    · rw [List.filter_cons_of_neg (by simpa using hseg), ih, normalise, normalise, List.foldl_cons, hseg, hx]
    · rw [List.filter_cons_of_pos (by simpa using hseg), normalise, List.foldl_cons]
      exact ih _

theorem climbs_filter (hx : ∀ cs, enter dot dotdot cs x = cs) (hne : x ≠ dotdot)
    (cs segs : List (List α)) :
    climbs dot dotdot cs (segs.filter (· ≠ x)) = climbs dot dotdot cs segs := by
  induction segs generalizing cs with
  | nil => rfl
  | cons seg segs ih =>
    by_cases hseg : seg = x
    · rw [List.filter_cons_of_neg (by simpa using hseg), ih, climbs_cons, hseg, hx,
        if_neg fun h => hne h.2, Nat.zero_add]
    · rw [List.filter_cons_of_pos (by simpa using hseg), climbs_cons, climbs_cons, ih]

theorem meets_filter (hx : ∀ cs, enter dot dotdot cs x = cs) {cs segs : List (List α)}
    (h : Runs.Meets (enter dot dotdot) cond cs segs) :
    Runs.Meets (enter dot dotdot) cond cs (segs.filter (· ≠ x)) := by
  induction segs generalizing cs with
  | nil => exact h
  | cons seg segs ih =>
    obtain ⟨hc, hrest⟩ := h.cons
    by_cases hseg : seg = x
    · rw [hseg, hx] at hrest
      rw [List.filter_cons_of_neg (by simpa using hseg)]
      exact ih hrest
    · rw [List.filter_cons_of_pos (by simpa using hseg)]
      exact Runs.meets_cons.mpr ⟨hc, ih hrest⟩

theorem body_splitOnP (sep : α) (s : List α) : body sep (s.splitOnP (· == sep)) = sep :: s := by
  induction s with
  | nil => rfl
  | cons a s ih =>
    rw [List.splitOnP_cons_eq_if_modifyHead]
    by_cases ha : (a == sep) = true
    · rw [if_pos ha, body_cons, ih, beq_iff_eq.mp ha]
      rfl
    · rw [if_neg ha]
      cases hs : s.splitOnP (· == sep) with
      | nil => exact absurd hs (List.splitOnP_ne_nil _ s)
      | cons w ws =>
        rw [hs, body_cons, List.cons_append, List.cons.injEq] at ih
        rw [List.modifyHead_cons, body_cons, List.cons_append, List.cons_append, ih.2]

theorem splitOnP_body {sep : α} {cs : List (List α)} (hcs : ∀ c ∈ cs, sep ∉ c) :
    (body sep cs).splitOnP (· == sep) = [] :: cs := by
  induction cs with
  | nil => rfl
  | cons c cs ih =>
    obtain ⟨hc, hcs⟩ := List.forall_mem_cons.mp hcs
    have hno : ∀ x ∈ c, (x == sep) = false := by
      intro x hx
      exact beq_eq_false_iff_ne.mpr fun h => hc (h ▸ hx)
    rw [body_cons, List.cons_append, List.splitOnP_cons_eq_if_modifyHead, if_pos (beq_self_eq_true sep)]
    cases cs with
    | nil => rw [body_nil, List.append_nil, List.splitOnP_eq_singleton hno]
    | cons d cs =>
      have hrest := ih hcs
      rw [body_cons, List.cons_append, List.splitOnP_cons_eq_if_modifyHead,
        if_pos (beq_self_eq_true sep), List.cons.injEq] at hrest
      rw [body_cons, List.cons_append, List.splitOnP_append_cons_of_forall_mem hno sep (beq_self_eq_true sep),
        hrest.2]

end Filter

section Inner

variable {β : Type} [DecidableEq β]

/-- The list without an element, but for its last place. -/
def dropInner (x : β) : List β → List β
  | [] => []
  | [a] => [a]
  | a :: b :: l => if a = x then dropInner x (b :: l) else a :: dropInner x (b :: l)

theorem dropInner_concat (x a : β) (l : List β) :
    dropInner x (l ++ [a]) = l.filter (· ≠ x) ++ [a] := by
  induction l with
  | nil => rfl
  | cons b l ih =>
    obtain ⟨c, l', hcons⟩ : ∃ c l', l ++ [a] = c :: l' := List.exists_cons_of_ne_nil (by simp)
    rw [List.cons_append, hcons, dropInner, ← hcons, ih]
    by_cases hb : b = x <;> simp [hb]

end Inner

end Paths
