import WolfSsh.Lib.Paths

/-! Templates of paths, with places for a name and for an absolute path. A template is cut into parts
around its separators and in front of every path, so that each part stands in one component of what the
template becomes. -/

/-- A character of a template, or a place in it. -/
inductive Hole (α : Type) where
  | lit (a : α)
  | name
  | path
deriving DecidableEq, Repr

namespace Template

variable {α : Type}

def fill (name path : List α) : Hole α → List α
  | .lit a => [a]
  | .name => name
  | .path => path

def expand (t : List (Hole α)) (name path : List α) : List α := t.flatMap (fill name path)

/-- What stands between two cuts: characters, and `none` for the name. It starts a component, or it is
behind a path and goes on with the last component of that. -/
structure Part (α : Type) where
  afterPath : Bool
  text : List (Option α)
deriving DecidableEq, Repr

def Part.named (p : Part α) : Prop := none ∈ p.text

instance [DecidableEq α] (p : Part α) : Decidable p.named := inferInstanceAs (Decidable (none ∈ p.text))

def fillText (name : List α) (text : List (Option α)) : List α :=
  text.flatMap fun | some a => [a] | none => name

/-- The text in front of the first cut, and the parts behind it. -/
def parts [DecidableEq α] (sep : α) : List (Hole α) → List (Option α) × List (Part α)
  | [] => ([], [])
  | .lit a :: t =>
    if a = sep then ([], ⟨false, (parts sep t).1⟩ :: (parts sep t).2)
    else (some a :: (parts sep t).1, (parts sep t).2)
  | .name :: t => (none :: (parts sep t).1, (parts sep t).2)
  | .path :: t => ([], ⟨true, (parts sep t).1⟩ :: (parts sep t).2)

/-- The components that a part becomes for the path of the components `dirs` and `last`. -/
def Part.components (name : List α) (dirs : List (List α)) (last : List α) (p : Part α) :
    List (List α) :=
  if p.afterPath then dirs ++ [last ++ fillText name p.text] else [fillText name p.text]

@[simp] theorem fillText_nil (name : List α) : fillText name [] = [] := rfl

@[simp] theorem fillText_some (name : List α) (a : α) (text : List (Option α)) :
    fillText name (some a :: text) = a :: fillText name text := rfl

@[simp] theorem fillText_none (name : List α) (text : List (Option α)) :
    fillText name (none :: text) = name ++ fillText name text := rfl

section Splitting

variable [DecidableEq α] {sep : α}

theorem exists_afterPath {t : List (Hole α)} (h : .path ∈ t) : ∃ p ∈ (parts sep t).2, p.afterPath := by
  induction t with
  | nil => exact absurd h List.not_mem_nil
  | cons hole t ih =>
    cases hole with
    | path => exact ⟨_, List.mem_cons_self, rfl⟩
    | name => exact ih (by simpa using h)
    | lit a =>
      obtain ⟨p, hp, hpath⟩ := ih (by simpa using h)
      rw [parts]
      split
      · exact ⟨p, List.mem_cons_of_mem _ hp, hpath⟩
      · exact ⟨p, hp, hpath⟩

theorem exists_named {t : List (Hole α)} (h : .name ∈ t) :
    none ∈ (parts sep t).1 ∨ ∃ p ∈ (parts sep t).2, p.named := by
  induction t with
  | nil => exact absurd h List.not_mem_nil
  | cons hole t ih =>
    cases hole with
    | name => exact .inl List.mem_cons_self
    | path =>
      rcases ih (by simpa using h) with hlead | ⟨p, hp, hnamed⟩
      · exact .inr ⟨_, List.mem_cons_self, hlead⟩
      · exact .inr ⟨p, List.mem_cons_of_mem _ hp, hnamed⟩
    | lit a =>
      rw [parts]
      split
      · rcases ih (by simpa using h) with hlead | ⟨p, hp, hnamed⟩
        · exact .inr ⟨_, List.mem_cons_self, hlead⟩
        · exact .inr ⟨p, List.mem_cons_of_mem _ hp, hnamed⟩
      · rcases ih (by simpa using h) with hlead | hpart
        · exact .inl (List.mem_cons_of_mem _ hlead)
        · exact .inr hpart

theorem splitOn_append_free {x : List α} (hx : sep ∉ x) (w : List α) :
    (x ++ w).splitOn sep = (w.splitOn sep).modifyHead (x ++ ·) := by
  induction x with
  | nil =>
    obtain ⟨first, more, hw⟩ := List.exists_cons_of_ne_nil (List.splitOn_ne_nil sep w)
    rw [List.nil_append, hw]
    rfl
  | cons a x ih =>
    rw [List.mem_cons, not_or] at hx
    obtain ⟨first, more, hw⟩ := List.exists_cons_of_ne_nil (List.splitOn_ne_nil sep w)
    rw [List.cons_append, List.splitOn_cons_eq_if_modifyHead, if_neg (by simpa using Ne.symm hx.1), ih hx.2, hw]
    rfl

theorem splitOn_body {dirs : List (List α)} {last : List α} (hdirs : ∀ c ∈ dirs, sep ∉ c)
    (hlast : sep ∉ last) (w : List α) :
    (Paths.body sep (dirs ++ [last]) ++ w).splitOn sep
      = [] :: (dirs ++ (w.splitOn sep).modifyHead (last ++ ·)) := by
  induction dirs with
  | nil =>
    rw [List.nil_append, Paths.body_cons, Paths.body_nil, List.append_nil, List.cons_append,
      List.splitOn_cons_eq_if_modifyHead, if_pos (by simp), splitOn_append_free hlast]
    rfl
  | cons c dirs ih =>
    have hrest := ih fun x hx => hdirs x (List.mem_cons_of_mem c hx)
    have hc : sep ∉ c := hdirs c List.mem_cons_self
    rw [List.cons_append, Paths.body_cons, List.cons_append, List.cons_append, List.append_assoc,
      List.splitOn_cons_eq_if_modifyHead, if_pos (by simp), splitOn_append_free hc, hrest]
    simp

/-- A name and the components of an absolute path, none with a separator in it. -/
structure Free (sep : α) (name : List α) (dirs : List (List α)) (last : List α) : Prop where
  name : sep ∉ name
  dirs : ∀ c ∈ dirs, sep ∉ c
  last : sep ∉ last

variable {name name' last last' : List α} {dirs dirs' : List (List α)}

theorem splitOn_expand (h : Free sep name dirs last) (t : List (Hole α)) :
    (expand t name (Paths.body sep (dirs ++ [last]))).splitOn sep
      = fillText name (parts sep t).1 :: (parts sep t).2.flatMap (Part.components name dirs last) := by
  induction t with
  | nil => rfl
  | cons hole t ih =>
    rw [expand, List.flatMap_cons]
    rw [expand] at ih
    cases hole with
    | lit a =>
      rw [fill, List.singleton_append, List.splitOn_cons_eq_if_modifyHead, ih, parts]
      by_cases ha : a = sep
      · rw [if_pos (by simpa using ha), if_pos ha]
        rfl
      · rw [if_neg (by simpa using ha), if_neg ha]
        rfl
    | name =>
      rw [fill, splitOn_append_free h.name, ih]
      rfl
    | path =>
      rw [fill, splitOn_body h.dirs h.last, ih, parts, List.flatMap_cons, Part.components, if_pos rfl]
      simp

theorem splitOn_injective {x y : List α} (h : x.splitOn sep = y.splitOn sep) : x = y := by
  have hx : [sep].intercalate (x.splitOn sep) = x := List.intercalate_splitOn sep
  rw [← hx, h, List.intercalate_splitOn]

end Splitting

/-! Two names and two paths in one template. -/

theorem length_fillText (name : List α) (text : List (Option α)) :
    (fillText name text).length + text.countP Option.isNone
      = text.length + text.countP Option.isNone * name.length := by
  induction text with
  | nil => simp
  | cons o text ih =>
    cases o with
    | some a =>
      rw [fillText_some, List.length_cons, List.length_cons, List.countP_cons_of_neg (by simp)]
      omega
    | none =>
      rw [fillText_none, List.length_append, List.length_cons, List.countP_cons_of_pos (by simp),
        Nat.succ_mul]
      omega

theorem fillText_eq_iff {name name' : List α} (hne : name ≠ name') (text : List (Option α)) :
    fillText name text = fillText name' text ↔ none ∉ text := by
  constructor
  · intro h hnone
    have hcount : 0 < text.countP Option.isNone :=
      List.countP_pos_iff.mpr ⟨none, hnone, rfl⟩
    have hlen : name.length = name'.length := by
      have h₁ := length_fillText name text
      have h₂ := length_fillText name' text
      rw [h] at h₁
      have hmul : text.countP Option.isNone * name.length = text.countP Option.isNone * name'.length := by
        omega
      exact Nat.eq_of_mul_eq_mul_left hcount hmul
    clear hcount
    induction text with
    | nil => exact absurd hnone List.not_mem_nil
    | cons o text ih =>
      cases o with
      | none =>
        rw [fillText_none, fillText_none] at h
        exact hne (List.append_inj h hlen).1
      | some a =>
        rw [fillText_some, fillText_some, List.cons.injEq] at h
        exact ih h.2 (by simpa using hnone)
  · intro hnone
    induction text with
    | nil => rfl
    | cons o text ih =>
      rw [List.mem_cons, not_or] at hnone
      cases o with
      | none => exact absurd rfl hnone.1
      | some a => rw [fillText_some, fillText_some, ih hnone.2]

theorem flatMap_eq_iff {β γ : Type} {f g : β → List γ} {l : List β}
    (hlen : ∀ b ∈ l, (f b).length = (g b).length) :
    l.flatMap f = l.flatMap g ↔ ∀ b ∈ l, f b = g b := by
  constructor
  · intro h
    induction l with
    | nil => exact fun b hb => absurd hb List.not_mem_nil
    | cons b l ih =>
      rw [List.flatMap_cons, List.flatMap_cons] at h
      obtain ⟨hb, hl⟩ := List.append_inj h (hlen b List.mem_cons_self)
      exact List.forall_mem_cons.mpr ⟨hb, ih (fun c hc => hlen c (List.mem_cons_of_mem b hc)) hl⟩
  · intro h
    induction l with
    | nil => rfl
    | cons b l ih =>
      rw [List.forall_mem_cons] at h
      rw [List.flatMap_cons, List.flatMap_cons, h.1,
        ih (fun c hc => hlen c (List.mem_cons_of_mem b hc)) h.2]

section Meeting

variable {name name' last last' : List α} {dirs dirs' : List (List α)}

theorem length_components (name last : List α) (dirs : List (List α)) (p : Part α) :
    (p.components name dirs last).length = if p.afterPath then dirs.length + 1 else 1 := by
  rw [Part.components]
  split
  · rw [List.length_append, List.length_singleton]
  · rfl

theorem length_flatMap_components (name last : List α) (dirs : List (List α)) (ps : List (Part α)) :
    (ps.flatMap (Part.components name dirs last)).length
      = ps.length + ps.countP Part.afterPath * dirs.length := by
  induction ps with
  | nil => simp
  | cons p ps ih =>
    rw [List.flatMap_cons, List.length_append, ih, length_components, List.length_cons]
    by_cases hp : p.afterPath = true
    · rw [if_pos hp, List.countP_cons_of_pos hp, Nat.succ_mul]
      omega
    · rw [if_neg hp, List.countP_cons_of_neg hp]
      omega

theorem components_eq_iff (ps : List (Part α)) :
    ps.flatMap (Part.components name dirs last) = ps.flatMap (Part.components name' dirs' last') ↔
      ∀ p ∈ ps, p.components name dirs last = p.components name' dirs' last' := by
  have hback (h : ∀ p ∈ ps, p.components name dirs last = p.components name' dirs' last') :=
    (flatMap_eq_iff fun p hp => congrArg List.length (h p hp)).mpr h
  refine ⟨fun h => ?_, hback⟩
  refine (flatMap_eq_iff fun p hp => ?_).mp h
  rw [length_components, length_components]
  by_cases hpath : p.afterPath = true
  · have hcount : 0 < ps.countP Part.afterPath := List.countP_pos_iff.mpr ⟨p, hp, hpath⟩
    have hlen := congrArg List.length h
    rw [length_flatMap_components, length_flatMap_components] at hlen
    rw [Nat.eq_of_mul_eq_mul_left hcount (Nat.add_left_cancel hlen)]
  · rw [if_neg hpath, if_neg hpath]

/-- A part becomes the same for two names and paths that differ: it holds neither, or it holds both, and
the last components of the paths make up for the names. -/
def Part.Meets (name : List α) (dirs : List (List α)) (last : List α) (name' : List α)
    (dirs' : List (List α)) (last' : List α) (p : Part α) : Prop :=
  if p.afterPath then
    p.named ∧ dirs = dirs' ∧ last ++ fillText name p.text = last' ++ fillText name' p.text
  else ¬p.named

instance [DecidableEq α] (p : Part α) : Decidable (p.Meets name dirs last name' dirs' last') :=
  inferInstanceAs (Decidable (if p.afterPath then p.named ∧ dirs = dirs' ∧
    last ++ fillText name p.text = last' ++ fillText name' p.text else ¬p.named))

theorem components_meet_iff (hname : name ≠ name') (hpath : dirs ≠ dirs' ∨ last ≠ last') (p : Part α) :
    p.components name dirs last = p.components name' dirs' last' ↔
      p.Meets name dirs last name' dirs' last' := by
  rw [Part.components, Part.components, Part.Meets]
  split
  · constructor
    · intro h
      obtain ⟨hdirs, htext⟩ := List.append_inj' h rfl
      rw [List.cons.injEq] at htext
      refine ⟨?_, hdirs, htext.1⟩
      by_contra hnamed
      have hfill := (fillText_eq_iff hname p.text).mpr hnamed
      rw [hfill] at htext
      exact hpath.elim (fun hne => hne hdirs) (fun hne => hne (List.append_cancel_right htext.1))
    · rintro ⟨-, rfl, htext⟩
      rw [htext]
  · rw [List.cons.injEq, fillText_eq_iff hname, Part.named]
    simp

variable [DecidableEq α] {sep : α}

/-- One template becomes the same for two names and paths that differ exactly where all of its parts
do. -/
theorem expand_eq_iff (h : Free sep name dirs last) (h' : Free sep name' dirs' last')
    (hname : name ≠ name') (hpath : dirs ≠ dirs' ∨ last ≠ last') (t : List (Hole α)) :
    expand t name (Paths.body sep (dirs ++ [last])) = expand t name' (Paths.body sep (dirs' ++ [last'])) ↔
      none ∉ (parts sep t).1 ∧ ∀ p ∈ (parts sep t).2, p.Meets name dirs last name' dirs' last' := by
  have hsplit : expand t name (Paths.body sep (dirs ++ [last]))
      = expand t name' (Paths.body sep (dirs' ++ [last'])) ↔
      fillText name (parts sep t).1 = fillText name' (parts sep t).1 ∧
        (parts sep t).2.flatMap (Part.components name dirs last)
          = (parts sep t).2.flatMap (Part.components name' dirs' last') := by
    rw [← List.cons.injEq, ← splitOn_expand h, ← splitOn_expand h']
    exact ⟨congrArg (List.splitOn sep), splitOn_injective⟩
  rw [hsplit, fillText_eq_iff hname, components_eq_iff]
  exact and_congr_right fun _ => forall₂_congr fun p _ => components_meet_iff hname hpath p

/-- The components of what a template becomes that are `w`. -/
theorem mem_splitOn_expand_iff (h : Free sep name dirs last) (t : List (Hole α)) {w : List α} :
    w ∈ (expand t name (Paths.body sep (dirs ++ [last]))).splitOn sep ↔
      w = fillText name (parts sep t).1 ∨ ∃ p ∈ (parts sep t).2, w ∈ p.components name dirs last := by
  rw [splitOn_expand h, List.mem_cons, List.mem_flatMap]

end Meeting

end Template
