import WolfSsh.CleanPathLoops

/-! What `wolfSSH_CleanPath` yields, and when that is the lexical normal form of the path. -/

namespace WolfSsh.CleanPath

open Paths

/-- The parts of a path, with an empty one before the root. -/
def parts (path : Bytes) : List Bytes := path.splitOnP (· == slash)

/-- The components of the lexical normal form. -/
def lexical (path : Bytes) : List Bytes := normalise dot dotdot [] (tokens (· == slash) path)

/-- The function leaves the normal form and returns its length, and changes nothing a second time. -/
def Normalises (path : Bytes) (inSz : Int) : Prop :=
  cleanPath path inSz = .ok ((render slash (lexical path)).length, render slash (lexical path)) ∧
    cleanPath (render slash (lexical path)) inSz
      = .ok ((render slash (lexical path)).length, render slash (lexical path))

/-- No `..` goes up from a segment with a colon. -/
def ColonsStay (path : Bytes) : Prop := Runs.Meets (enter dot dotdot) KeepsColons [] (parts path)

/-- The `..` at the root come in pairs, and neither a dot nor a separator that the last loop leaves
stands at the end. -/
structure Plain (path : Bytes) : Prop where
  paired : climbs dot dotdot [] (parts path) % 2 = 0
  noDot : (parts path).getLast? ≠ some dot
  noSlash : ¬ ((parts path).getLast? = some [] ∧ ∃ c, lexical path = [[c]])

theorem lexical_eq (path : Bytes) : lexical path = normalise dot dotdot [] (parts path) :=
  normalise_tokens [] path

section Shrink

theorem length_dropDot_le (path : Bytes) (i : Nat) : (dropDot path i).length ≤ path.length := by
  fun_induction dropDot path i with
  | case1 path i hi hdot ih =>
    rw [List.length_append, List.length_take, List.length_drop] at ih
    omega
  | case2 path i hi hdot ih => exact ih
  | case3 path i hi => exact Nat.le_refl _

theorem length_dropDouble_le (path : Bytes) (i : Nat) : (dropDouble path i).length ≤ path.length := by
  fun_induction dropDouble path i with
  | case1 path i hi hdouble ih =>
    rw [List.length_append, List.length_take, List.length_drop] at ih
    omega
  | case2 path i hi hdouble ih => exact ih
  | case3 path i hi => exact Nat.le_refl _

theorem length_removeParents_le (path : Bytes) : (removeParents path).length ≤ path.length := by
  fun_induction removeParents path with
  | case1 path i hi ih => exact Nat.le_of_lt (Nat.lt_of_le_of_lt ih (length_cutParent hi))
  | case2 path hnone => exact Nat.le_refl _

theorem length_dropTrailing_le (path : Bytes) : (dropTrailing path).length ≤ path.length := by
  rw [dropTrailing]
  split
  · rw [List.length_dropLast]
    omega
  · exact Nat.le_refl _

theorem cleanPath_ok {path : Bytes} {inSz : Int} (hfits : (path.length : Int) < inSz) :
    cleanPath path inSz =
      let path := dropTrailing (removeParents (dropDouble (dropDot path 1) 0))
      .ok (path.length, path) := by
  have hlen := length_dropTrailing_le (removeParents (dropDouble (dropDot path 1) 0))
  have hparents := length_removeParents_le (dropDouble (dropDot path 1) 0)
  have hdouble := length_dropDouble_le (dropDot path 1) 0
  have hdot := length_dropDot_le path 1
  rw [cleanPath, if_neg (by omega)]
  dsimp only
  rw [if_neg (by omega)]

end Shrink

section Loops

/-- The walk of the third loop is the lexical one behind the marks that are left, and a last dot or
a last separator stays. -/
theorem unwind_last (cs : List Bytes) (n : Nat) (last : Bytes) :
    unwind dotdot (marks dotdot n ++ cs) last
      = marks dotdot (n + climbs dot dotdot cs [last]) ++ enter dot dotdot cs last ++
        (if last = [] ∨ last = dot then [last] else []) := by
  have hclimbs : climbs dot dotdot cs [last] = if cs = [] ∧ last = dotdot then 1 else 0 := by
    rw [climbs_cons]
    rfl
  rw [hclimbs]
  by_cases hlast : last = [] ∨ last = dot
  · have hne : last ≠ dotdot := by rcases hlast with rfl | rfl <;> decide
    rw [unwind, if_neg fun h => hne h.1, enter, if_pos hlast, if_pos hlast, if_neg fun h => hne h.2,
      Nat.add_zero]
  · rw [not_or] at hlast
    rw [unwind_marks cs hlast.1 hlast.2, if_neg (not_or.mpr hlast), List.append_nil]

theorem keepsColons_marks {cs : List Bytes} {seg : Bytes} (n : Nat) (h : KeepsColons cs seg) :
    KeepsColons (marks dotdot n ++ cs) seg := by
  intro hseg c hc
  rw [Option.mem_def, List.getLast?_append] at hc
  cases hcs : cs.getLast? with
  | some d =>
    rw [hcs] at hc
    obtain rfl : d = c := by simpa using hc
    exact h hseg d hcs
  | none =>
    rw [hcs, marks] at hc
    split at hc
    · obtain rfl : dotdot = c := by simpa using hc
      decide
    · simp at hc

theorem meets_unwind {cs segs : List Bytes} (n : Nat) (hsegs : ∀ seg ∈ segs, seg ≠ [] ∧ seg ≠ dot)
    (h : Runs.Meets (enter dot dotdot) KeepsColons cs segs) :
    Runs.Meets (unwind dotdot) KeepsColons (marks dotdot n ++ cs) segs := by
  induction segs generalizing n cs with
  | nil => exact nofun
  | cons seg segs ih =>
    obtain ⟨⟨hne, hdot⟩, hsegs⟩ := List.forall_mem_cons.mp hsegs
    obtain ⟨hc, hrest⟩ := h.cons
    rw [Runs.meets_cons, unwind_marks cs hne hdot]
    exact ⟨keepsColons_marks n hc, ih _ hsegs hrest⟩

theorem enter_dot (cs : List Bytes) : enter dot dotdot cs dot = cs := if_pos (.inr rfl)

/-- The segments that the first two loops leave before the last one. -/
def inner (init : List Bytes) : List Bytes := (init.filter (· ≠ dot)).filter (· ≠ [])

theorem mem_inner {init : List Bytes} {seg : Bytes} (h : seg ∈ inner init) :
    seg ∈ init ∧ seg ≠ [] ∧ seg ≠ dot := by
  simp only [inner, List.mem_filter, decide_eq_true_eq] at h
  exact ⟨h.1.1, h.2, h.1.2⟩

theorem inner_concat (init : List Bytes) (last : Bytes) :
    inner (init ++ [last]) = inner init ++ if last = [] ∨ last = dot then [] else [last] := by
  rw [inner, inner, List.filter_append, List.filter_append]
  by_cases hdot : last = dot
  · simp [hdot]
  · by_cases hnil : last = [] <;> simp [hdot, hnil]

theorem normalise_inner (cs segs : List Bytes) :
    normalise dot dotdot cs (inner segs) = normalise dot dotdot cs segs := by
  rw [inner, normalise_filter enter_nil, normalise_filter enter_dot]

theorem climbs_inner (cs segs : List Bytes) :
    climbs dot dotdot cs (inner segs) = climbs dot dotdot cs segs := by
  rw [inner, climbs_filter enter_nil (by decide), climbs_filter enter_dot (by decide)]

theorem climbs_concat (cs segs : List Bytes) (seg : Bytes) :
    climbs dot dotdot cs (segs ++ [seg])
      = climbs dot dotdot cs segs + climbs dot dotdot (normalise dot dotdot cs segs) [seg] := by
  rw [climbs, Runs.steps_concat, List.countP_append]
  rfl

theorem loops_render {init : List Bytes} {last : Bytes}
    (hsegs : ∀ s ∈ init ++ [last], IsSegment s)
    (hcolons : Runs.Meets (enter dot dotdot) KeepsColons [] (init ++ [last])) :
    removeParents (dropDouble (dropDot (body slash (init ++ [last])) 1) 0)
      = render slash (marks dotdot (climbs dot dotdot [] (init ++ [last])) ++
          normalise dot dotdot [] (init ++ [last]) ++
          if last = [] ∨ last = dot then [last] else []) := by
  obtain ⟨first, rest, hcons⟩ : ∃ first rest, init ++ [last] = first :: rest :=
    List.exists_cons_of_ne_nil (by simp)
  have hdots : dropDot (body slash (init ++ [last])) 1
      = body slash (init.filter (· ≠ dot) ++ [last]) := by
    have h := dropDot_body [] first rest fun s hs => (hsegs s (hcons ▸ hs)).1
    rw [List.nil_append, List.nil_append, ← hcons, dropInner_concat] at h
    exact h
  have hdoubles : dropDouble (body slash (init.filter (· ≠ dot) ++ [last])) 0
      = body slash (inner init ++ [last]) := by
    obtain ⟨first, rest, hcons⟩ : ∃ first rest, init.filter (· ≠ dot) ++ [last] = first :: rest :=
      List.exists_cons_of_ne_nil (by simp)
    have h := dropDouble_body [] first rest fun s hs => by
      rw [← hcons, List.mem_append] at hs
      refine (hsegs s (List.mem_append.mpr (hs.imp_left List.mem_of_mem_filter))).1
    rw [List.nil_append, List.nil_append, ← hcons, dropInner_concat] at h
    exact h
  have hinner : ∀ s ∈ inner init ++ [last], IsSegment s := by
    intro s hs
    rw [List.mem_append] at hs
    exact hsegs s (List.mem_append.mpr (hs.imp_left fun hs => (mem_inner hs).1))
  have hfold : (inner init).foldl (unwind dotdot) []
      = marks dotdot (climbs dot dotdot [] init) ++ normalise dot dotdot [] init := by
    have h := foldl_unwind dotdot [] 0 fun s (hs : s ∈ inner init) => (mem_inner hs).2
    rwa [Nat.zero_add, climbs_inner, normalise_inner] at h
  have hmeets : Runs.Meets (unwind dotdot) KeepsColons [] (inner init ++ [last]) := by
    have hkept : Runs.Meets (enter dot dotdot) KeepsColons [] (inner (init ++ [last])) :=
      meets_filter enter_nil (meets_filter enter_dot hcolons)
    have h : Runs.Meets (unwind dotdot) KeepsColons [] _ := meets_unwind 0 (fun s hs => (mem_inner hs).2) hkept
    rw [inner_concat] at h
    by_cases hlast : last = [] ∨ last = dot
    · rw [if_pos hlast, List.append_nil] at h
      refine Runs.meets_concat.mpr ⟨h, fun hup => ?_⟩
      rcases hlast with rfl | rfl
      · exact absurd hup (by decide)
      · exact absurd hup (by decide)
    · rwa [if_neg hlast] at h
  have hrun := removeParents_render (List.forall_mem_nil _) List.not_mem_nil hinner hmeets
  rw [List.nil_append, render_of_ne_nil (by simp), List.foldl_append, hfold, List.foldl_cons,
    List.foldl_nil, unwind_last, ← climbs_concat] at hrun
  rw [hdots, hdoubles, hrun, normalise, normalise, List.foldl_append]
  rfl

end Loops

section Result

variable {path : Bytes} {inSz : Int}

theorem isSegment_parts (hnul : 0 ∉ path) : ∀ s ∈ parts path, IsSegment s := by
  intro s hs
  refine ⟨fun h => ?_, fun h => hnul ?_⟩
  · exact absurd (Words.not_sep_of_mem_splitOnP hs slash h) (by decide)
  · exact (Words.mem_splitOnP_iff (by decide)).mp ⟨s, hs, h⟩

theorem mem_lexical {c : Bytes} (h : c ∈ lexical path) :
    c ∈ parts path ∧ c ≠ [] ∧ c ≠ dot ∧ c ≠ dotdot := by
  rw [lexical_eq] at h
  exact (mem_normalise h).resolve_left List.not_mem_nil

/-- The components before the last loop, but for what it may take off. -/
def left (path : Bytes) : List Bytes := marks dotdot (climbs dot dotdot [] (parts path)) ++ lexical path

/-- A name between two separators, with or without dots. -/
def IsName (c : Bytes) : Prop := c ≠ [] ∧ slash ∉ c

theorem isName_lexical (hnul : 0 ∉ path) : ∀ c ∈ lexical path, IsName c := by
  intro c hc
  obtain ⟨hmem, hne, -⟩ := mem_lexical hc
  exact ⟨hne, (isSegment_parts hnul c hmem).1⟩

theorem isName_left (hnul : 0 ∉ path) : ∀ c ∈ left path, IsName c := by
  intro c hc
  rw [left, List.mem_append] at hc
  rcases hc with hc | hc
  · rw [marks] at hc
    split at hc
    · rw [List.mem_singleton] at hc
      subst hc
      exact ⟨by decide, by decide⟩
    · simp at hc
  · exact isName_lexical hnul c hc

theorem tokens_names {cs : List Bytes} (hcs : ∀ c ∈ cs, IsName c) :
    tokens (· == slash) (render slash cs) = cs := by
  refine tokens_render (by decide) fun c hc => ⟨(hcs c hc).1, fun x hx => ?_⟩
  exact beq_eq_false_iff_ne.mpr fun h => (hcs c hc).2 (h ▸ hx)

theorem render_inj {cs ds : List Bytes} (hcs : ∀ c ∈ cs, IsName c) (hds : ∀ d ∈ ds, IsName d)
    (h : render slash cs = render slash ds) : cs = ds := by
  rw [← tokens_names hcs, h, tokens_names hds]

theorem dropTrailing_render {cs : List Bytes} (hcs : ∀ c ∈ cs, IsName c) :
    dropTrailing (render slash cs) = render slash cs := by
  rw [dropTrailing, if_neg]
  rintro ⟨hlong, hlast⟩
  have hne : cs ≠ [] := by
    rintro rfl
    exact absurd hlong (by decide)
  obtain ⟨init, c, rfl⟩ : ∃ init c, cs = init ++ [c] :=
    ⟨cs.dropLast, cs.getLast hne, (List.dropLast_append_getLast hne).symm⟩
  obtain ⟨hc, hslash⟩ := hcs c (by simp)
  have hpos : 0 < c.length := List.length_pos_iff.mpr hc
  have hbody : render slash (init ++ [c]) = body slash init ++ slash :: (c ++ []) := by
    rw [render_of_ne_nil hne, body_append]
    rfl
  refine octet_inside hslash (m := c.length - 1) (by omega) (p := body slash init) (r := []) ?_
  rw [hbody] at hlast
  rwa [show (body slash init ++ slash :: (c ++ [])).length - 1
    = (body slash init).length + 1 + (c.length - 1) by simp; omega] at hlast

theorem dropTrailing_slash (cs : List Bytes) :
    dropTrailing (render slash (cs ++ [[]]))
      = if 2 < (body slash cs).length then body slash cs else body slash cs ++ [slash] := by
  have hrender : render slash (cs ++ [[]]) = body slash cs ++ [slash] := by
    rw [render_of_ne_nil (by simp), body_append]
    rfl
  have hlast : octet (body slash cs ++ [slash]) ((body slash cs ++ [slash]).length - 1) = slash := by
    rw [List.length_append, List.length_singleton, Nat.add_sub_cancel]
    exact octet_slash _ _
  rw [hrender, dropTrailing]
  by_cases hlong : 2 < (body slash cs).length
  · rw [if_pos ⟨by simp; omega, hlast⟩, if_pos hlong, List.dropLast_concat]
  · rw [if_neg fun h => hlong (by simp at h; omega), if_neg hlong]

theorem short_body {cs : List Bytes} (hcs : ∀ c ∈ cs, IsName c) (h : (body slash cs).length ≤ 2) :
    cs = [] ∨ ∃ x, cs = [[x]] := by
  cases cs with
  | nil => exact .inl rfl
  | cons c cs =>
    obtain ⟨⟨hc, -⟩, hcs⟩ := List.forall_mem_cons.mp hcs
    have hpos : 0 < c.length := List.length_pos_iff.mpr hc
    rw [body_cons, List.length_append, List.length_cons] at h
    cases cs with
    | nil =>
      obtain ⟨x, rfl⟩ : ∃ x, c = [x] := List.length_eq_one_iff.mp (by omega)
      exact .inr ⟨x, rfl⟩
    | cons d cs =>
      rw [body_cons, List.length_append, List.length_cons] at h
      omega

theorem parts_slash (s : Bytes) : parts (slash :: s) = [] :: s.splitOnP (· == slash) := by
  rw [parts, List.splitOnP_cons_eq_if_modifyHead, if_pos (beq_self_eq_true slash)]

theorem loops_left (hslash : path.head? = some slash) (hnul : 0 ∉ path) (hcolons : ColonsStay path) :
    ∃ last, (parts path).getLast? = some last ∧
      removeParents (dropDouble (dropDot path 1) 0)
        = render slash (left path ++ if last = [] ∨ last = dot then [last] else []) := by
  cases path with
  | nil => simp at hslash
  | cons a s =>
    obtain rfl : a = slash := by simpa using hslash
    obtain ⟨init, last, hs⟩ : ∃ init last, s.splitOnP (· == slash) = init ++ [last] :=
      ⟨_, _, (List.dropLast_append_getLast (List.splitOnP_ne_nil _ s)).symm⟩
    have hparts : parts (slash :: s) = [] :: (init ++ [last]) := by rw [parts_slash, hs]
    have hsegs := isSegment_parts hnul
    rw [hparts] at hsegs
    have hmeets : Runs.Meets (enter dot dotdot) KeepsColons [] (init ++ [last]) := by
      rw [ColonsStay, hparts] at hcolons
      exact hcolons.cons.2
    have hrun := loops_render (List.forall_mem_cons.mp hsegs).2 hmeets
    refine ⟨last, by rw [hparts, ← List.cons_append, List.getLast?_concat], ?_⟩
    have hleft : left (slash :: s) = marks dotdot (climbs dot dotdot [] (init ++ [last])) ++
        normalise dot dotdot [] (init ++ [last]) := by
      rw [left, lexical_eq, hparts, climbs_cons, if_neg (by decide), Nat.zero_add]
      rfl
    rwa [← hs, body_splitOnP, hs, ← hleft] at hrun

theorem left_of_paired (h : climbs dot dotdot [] (parts path) % 2 = 0) : left path = lexical path := by
  rw [left, marks, if_neg (by omega)]
  rfl

theorem left_of_odd (h : climbs dot dotdot [] (parts path) % 2 ≠ 0) :
    left path = dotdot :: lexical path := by
  rw [left, marks, if_pos (by omega)]
  rfl

theorem cleaned_iff (hslash : path.head? = some slash) (hnul : 0 ∉ path) (hcolons : ColonsStay path) :
    dropTrailing (removeParents (dropDouble (dropDot path 1) 0)) = render slash (lexical path) ↔
      Plain path := by
  obtain ⟨last, hlast, hloops⟩ := loops_left hslash hnul hcolons
  have hnames := isName_left hnul
  have hlexical := isName_lexical hnul
  rw [hloops]
  by_cases hdot : last = dot
  · -- the dot is still there
    subst hdot
    refine iff_of_false ?_ fun h => h.noDot hlast
    rw [if_pos (.inr rfl)]
    have hall : ∀ c ∈ left path ++ [dot], IsName c :=
      List.forall_mem_append.mpr ⟨hnames, by simp [IsName, dot, slash]⟩
    rw [dropTrailing_render hall]
    intro h
    have hmem : dot ∈ lexical path := render_inj hall hlexical h ▸ by simp
    exact (mem_lexical hmem).2.2.1 rfl
  have hparents : render slash (left path) = render slash (lexical path) ↔
      climbs dot dotdot [] (parts path) % 2 = 0 := by
    constructor
    · intro h
      by_contra hodd
      have hlen := congrArg List.length (render_inj hnames hlexical h)
      rw [left_of_odd hodd, List.length_cons] at hlen
      omega
    · intro h
      rw [left_of_paired h]
  have hnoDot : (parts path).getLast? ≠ some dot := by
    rw [hlast]
    exact fun h => hdot (Option.some.inj h)
  by_cases hnil : last = []
  · subst hnil
    rw [if_pos (.inl rfl), dropTrailing_slash]
    by_cases hlong : 2 < (body slash (left path)).length
    · have hne : left path ≠ [] := by
        intro h
        rw [h] at hlong
        simp at hlong
      rw [if_pos hlong, ← render_of_ne_nil hne, hparents]
      refine ⟨fun h => ⟨h, hnoDot, ?_⟩, Plain.paired⟩
      rintro ⟨-, c, hc⟩
      rw [left_of_paired h, hc] at hlong
      simp at hlong
    · rw [if_neg hlong]
      rcases short_body hnames (Nat.not_lt.mp hlong) with hempty | ⟨x, hone⟩
      · -- the root
        have hpaired : climbs dot dotdot [] (parts path) % 2 = 0 := by
          by_contra hodd
          rw [left_of_odd hodd] at hempty
          simp at hempty
        have hlex : lexical path = [] := by rw [← left_of_paired hpaired, hempty]
        refine iff_of_true (by rw [hempty, hlex]; rfl) ⟨hpaired, hnoDot, ?_⟩
        rintro ⟨-, c, hc⟩
        rw [hlex] at hc
        simp at hc
      · -- a name as short as a drive keeps the separator
        have hpaired : climbs dot dotdot [] (parts path) % 2 = 0 := by
          by_contra hodd
          rw [left_of_odd hodd] at hone
          simp [dotdot] at hone
        have hlex : lexical path = [[x]] := by rw [← left_of_paired hpaired, hone]
        refine iff_of_false (fun h => ?_) fun h => h.noSlash ⟨hlast, x, hlex⟩
        rw [hone, hlex] at h
        simp [render] at h
  · rw [if_neg (by simp [hnil, hdot]), List.append_nil, dropTrailing_render hnames, hparents]
    refine ⟨fun h => ⟨h, hnoDot, fun hslash => hnil ?_⟩, Plain.paired⟩
    rw [hlast] at hslash
    exact Option.some.inj hslash.1

theorem length_cleaned_le (path : Bytes) :
    (dropTrailing (removeParents (dropDouble (dropDot path 1) 0))).length ≤ path.length :=
  (length_dropTrailing_le _).trans <| (length_removeParents_le _).trans <|
    (length_dropDouble_le _ 0).trans (length_dropDot_le path 1)

theorem parts_render {cs : List Bytes} (hcs : ∀ c ∈ cs, IsName c) :
    parts (render slash cs) = if cs = [] then [[], []] else [] :: cs := by
  by_cases hnil : cs = []
  · rw [if_pos hnil, hnil]
    decide
  · rw [if_neg hnil, render_of_ne_nil hnil, parts]
    exact splitOnP_body fun c hc => (hcs c hc).2

theorem normal_self (hnul : 0 ∉ path) :
    0 ∉ render slash (lexical path) ∧ (render slash (lexical path)).head? = some slash ∧
      lexical (render slash (lexical path)) = lexical path ∧
      ColonsStay (render slash (lexical path)) ∧ Plain (render slash (lexical path)) := by
  have hnames := isName_lexical hnul
  have hplain : ∀ c ∈ lexical path, c ≠ [] ∧ c ≠ dot ∧ c ≠ dotdot := fun c hc => (mem_lexical hc).2
  have hself : lexical (render slash (lexical path)) = lexical path := by
    rw [lexical, tokens_names hnames, normalise_self hplain, List.nil_append]
  have hparts := parts_render hnames
  have hnodd : dotdot ∉ parts (render slash (lexical path)) := by
    rw [hparts]
    split
    · decide
    · rw [List.mem_cons, not_or]
      exact ⟨by decide, fun h => (hplain _ h).2.2 rfl⟩
  refine ⟨?_, ?_, hself, ?_, ?_, ?_, ?_⟩
  · rw [render]
    split
    · decide
    · simp only [body, List.mem_flatMap, List.mem_cons, not_exists, not_and, not_or]
      exact fun c hc => ⟨by decide, (isSegment_parts hnul c (mem_lexical hc).1).2⟩
  · exact render_head _
  · intro p hp hup
    exact absurd (hup ▸ Runs.snd_mem_of_mem_steps hp) hnodd
  · rw [climbs_eq_zero hnodd]
  · rw [hparts]
    split
    · decide
    · intro h
      have hmem := List.mem_of_getLast? h
      rw [List.mem_cons] at hmem
      rcases hmem with hmem | hmem
      · exact absurd hmem (by decide)
      · exact (hplain dot hmem).2.1 rfl
  · rw [hself, hparts]
    rintro ⟨hlast, c, hc⟩
    rw [hc] at hlast
    simp at hlast

/-- Where no `..` goes up from a segment with a colon, `wolfSSH_CleanPath` of an absolute path in its
buffer leaves the lexical normal form of just the plain paths. -/
theorem cleanPath_normalises_iff (hslash : path.head? = some slash) (hnul : 0 ∉ path)
    (hfits : (path.length : Int) < inSz) (hcolons : ColonsStay path) :
    Normalises path inSz ↔ Plain path := by
  have hclean := cleaned_iff hslash hnul hcolons
  obtain ⟨hnul', hslash', hself, hcolons', hplain'⟩ := normal_self hnul
  have hagain := (cleaned_iff hslash' hnul' hcolons').mpr hplain'
  rw [hself] at hagain
  constructor
  · intro h
    have hfirst := h.1
    rw [cleanPath_ok hfits] at hfirst
    exact hclean.mp (Prod.mk.inj (Except.ok.inj hfirst)).2
  · intro h
    have hfirst := hclean.mpr h
    have hlen := length_cleaned_le path
    rw [hfirst] at hlen
    refine ⟨?_, ?_⟩
    · rw [cleanPath_ok hfits, hfirst]
    · rw [cleanPath_ok (by omega), hagain]

/-- The path `/x/../yz//./w`, whose normal form is `/yz/w`. -/
def sample : Bytes :=
  [slash, 0x78, slash, 0x2e, 0x2e, slash, 0x79, 0x7a, slash, slash, 0x2e, slash, 0x77]

instance (path : Bytes) : Decidable (ColonsStay path) :=
  inferInstanceAs (Decidable (∀ p ∈ Runs.steps (enter dot dotdot) [] (parts path), KeepsColons p.1 p.2))

theorem sample_plain : Plain sample where
  paired := by decide +kernel
  noDot := by decide +kernel
  noSlash h := absurd h.1 (by decide +kernel)

theorem cleanPath_normalises_sample : Normalises sample 14 :=
  (cleanPath_normalises_iff (by decide) (by decide) (by decide) (by decide +kernel)).mpr sample_plain

/-- A `..` at the root is left in `/../a`. -/
theorem parent_at_root_stays :
    ¬ ∀ (path : Bytes) (inSz : Int), path.head? = some slash → 0 ∉ path → (path.length : Int) < inSz →
      Normalises path inSz := by
  intro h
  have hroot := (h [slash, 0x2e, 0x2e, slash, 0x61] 6 (by decide) (by decide) (by decide)).1
  have hstays : cleanPath [slash, 0x2e, 0x2e, slash, 0x61] 6 = .ok (5, [slash, 0x2e, 0x2e, slash, 0x61]) := by
    decide +kernel
  rw [hstays] at hroot
  exact absurd (Prod.mk.inj (Except.ok.inj hroot)).1 (by decide)

end Result

end WolfSsh.CleanPath
