import WolfSsh.CleanPath
import WolfSsh.Lib.Words

/-! The loops of `wolfSSH_CleanPath` over the segments of a path. -/

namespace WolfSsh.CleanPath

open Paths

/-- A part of a string between separators. -/
def IsSegment (seg : Bytes) : Prop := slash ∉ seg ∧ 0 ∉ seg

instance : DecidablePred IsSegment := fun _ => instDecidableAnd

section Octets

variable {p seg r : Bytes} {m : Nat}

theorem octet_append (p q : Bytes) (n : Nat) : octet (p ++ q) (p.length + n) = octet q n := by
  rw [octet, octet, List.getD_eq_getElem?_getD, List.getD_eq_getElem?_getD,
    List.getElem?_append_right (Nat.le_add_right _ _), Nat.add_sub_cancel_left]

theorem octet_slash (p q : Bytes) : octet (p ++ slash :: q) p.length = slash := octet_append p _ 0

theorem octet_behind (p : Bytes) (seg rest : Bytes) (n : Nat) :
    octet (p ++ slash :: (seg ++ rest)) (p.length + 1 + n) = octet (seg ++ rest) n := by
  rw [Nat.add_assoc, octet_append, Nat.add_comm 1 n]
  rfl

theorem octet_left (hm : m < seg.length) : octet (seg ++ r) m = seg[m] := by
  rw [octet, List.getD_eq_getElem?_getD, List.getElem?_append_left hm, List.getElem?_eq_getElem hm]
  rfl

theorem octet_inside (hseg : slash ∉ seg) (hm : m < seg.length) :
    octet (p ++ slash :: (seg ++ r)) (p.length + 1 + m) ≠ slash := by
  rw [octet_behind, octet_left hm]
  exact fun h => hseg (h ▸ List.getElem_mem hm)

theorem octet_last (hseg : slash ∉ seg) (m : Nat) :
    octet (p ++ slash :: seg) (p.length + 1 + m) ≠ slash := by
  by_cases hm : m < seg.length
  · have hin := octet_inside (p := p) (r := []) hseg hm
    rwa [List.append_nil] at hin
  · intro h
    have hlt : p.length + 1 + m < (p ++ slash :: seg).length := octet_ne_zero (by rw [h]; decide)
    rw [List.length_append, List.length_cons] at hlt
    omega

end Octets

section Dots

theorem dropDot_skip {path : Bytes} {i j : Nat} (hij : i ≤ j) (h : ∀ k, i ≤ k → k < j → ¬ DotAt path k) :
    dropDot path i = dropDot path j := by
  induction j, hij using Nat.le_induction with
  | base => rfl
  | succ j hij ih =>
    rw [ih fun k hik hkj => h k hik (by omega), dropDot]
    by_cases hj : j + 1 < path.length
    · rw [if_pos hj, if_neg (h j hij (by omega))]
    · rw [if_neg hj, dropDot, if_neg (by omega)]

theorem dropDot_end {path : Bytes} {i : Nat} (h : path.length ≤ i + 1) : dropDot path i = path := by
  rw [dropDot, if_neg (by omega)]

theorem dropDot_body (p seg : Bytes) (segs : List Bytes)
    (hsegs : ∀ s ∈ seg :: segs, slash ∉ s) :
    dropDot (p ++ body slash (seg :: segs)) (p.length + 1)
      = p ++ body slash (dropInner dot (seg :: segs)) := by
  induction segs generalizing p seg with
  | nil =>
    have hseg := hsegs seg (by simp)
    rw [dropInner, body_cons, body_nil, List.append_nil]
    rw [dropDot_skip (j := p.length + 1 + seg.length) (by omega), dropDot_end (by simp; omega)]
    intro k hk _ hdot
    obtain ⟨m, rfl⟩ := Nat.exists_eq_add_of_le hk
    exact octet_last hseg (m + 1) hdot.2.2
  | cons t segs ih =>
    obtain ⟨hseg, hsegs⟩ := List.forall_mem_cons.mp hsegs
    rw [dropInner, body_cons, List.cons_append]
    by_cases hdot : seg = dot
    · have hhit : DotAt (p ++ slash :: (dot ++ body slash (t :: segs))) (p.length + 1) := by
        refine ⟨octet_append p _ 1, octet_slash p _, ?_⟩
        exact octet_append p _ 2
      have hcut : (p ++ slash :: (dot ++ body slash (t :: segs))).take (p.length + 1 - 1) ++
          (p ++ slash :: (dot ++ body slash (t :: segs))).drop (p.length + 1 + 1)
          = p ++ body slash (t :: segs) := by
        rw [Nat.add_sub_cancel, List.take_left, List.drop_append, List.drop_eq_nil_of_le (by omega),
          List.nil_append, Nat.add_assoc, Nat.add_sub_cancel_left]
        rfl
      have hlt : p.length + 1 + 1 < (p ++ slash :: (dot ++ body slash (t :: segs))).length := by
        simp [dot]
        omega
      rw [if_pos hdot, hdot, dropDot, if_pos hlt, if_pos hhit, hcut]
      exact ih p _ hsegs
    · rw [if_neg hdot, dropDot_skip (j := (p ++ slash :: seg).length + 1) (by simp)]
      · have hnext := ih (p ++ slash :: seg) _ hsegs
        rw [List.append_assoc, List.cons_append] at hnext
        rw [hnext, body_cons, List.append_assoc]
      · intro k hk hlt hhit
        obtain ⟨m, rfl⟩ := Nat.exists_eq_add_of_le hk
        have hm : m ≤ seg.length := by
          rw [List.length_append, List.length_cons] at hlt
          omega
        obtain ⟨hat, hbefore, hbehind⟩ := hhit
        rcases Nat.lt_or_eq_of_le hm with hm | rfl
        · -- the dot is the whole segment
          obtain rfl : m = 0 := by
            by_contra hpos
            refine octet_inside hseg (m := m - 1) (by omega) (p := p) (r := body slash (t :: segs)) ?_
            rwa [show p.length + 1 + (m - 1) = p.length + 1 + m - 1 by omega]
          have hone : seg.length ≤ 1 := by
            by_contra hlong
            exact octet_inside hseg (m := 1) (by omega) hbehind
          obtain ⟨c, rfl⟩ : ∃ c, seg = [c] := List.length_eq_one_iff.mp (by omega)
          rw [octet_behind, octet_left hm] at hat
          exact hdot (by rw [dot, ← hat]; rfl)
        · have hsep := octet_slash (p ++ slash :: seg) (t ++ body slash segs)
          have hlen : (p ++ slash :: seg).length = p.length + 1 + seg.length := by simp; omega
          rw [hlen, List.append_assoc, List.cons_append] at hsep
          rw [body_cons] at hat
          exact absurd (hat.symm.trans hsep) (by decide)

end Dots

section Doubles

theorem dropDouble_skip {path : Bytes} {i j : Nat} (hij : i ≤ j)
    (h : ∀ k, i ≤ k → k < j → ¬ DoubleAt path k) : dropDouble path i = dropDouble path j := by
  induction j, hij using Nat.le_induction with
  | base => rfl
  | succ j hij ih =>
    rw [ih fun k hik hkj => h k hik (by omega), dropDouble]
    by_cases hj : j < path.length
    · rw [if_pos hj, if_neg (h j hij (by omega))]
    · rw [if_neg hj, dropDouble, if_neg (by omega)]

theorem dropDouble_end {path : Bytes} {i : Nat} (h : path.length ≤ i) : dropDouble path i = path := by
  rw [dropDouble, if_neg (by omega)]

theorem dropDouble_body (p seg : Bytes) (segs : List Bytes)
    (hsegs : ∀ s ∈ seg :: segs, slash ∉ s) :
    dropDouble (p ++ body slash (seg :: segs)) p.length
      = p ++ body slash (dropInner [] (seg :: segs)) := by
  induction segs generalizing p seg with
  | nil =>
    have hseg := hsegs seg (by simp)
    rw [dropInner, body_cons, body_nil, List.append_nil]
    rw [dropDouble_skip (j := p.length + 1 + seg.length) (by omega), dropDouble_end (by simp; omega)]
    intro k hk _ hdouble
    obtain ⟨m, rfl⟩ := Nat.exists_eq_add_of_le hk
    refine octet_last hseg m (p := p) ?_
    rw [Nat.add_right_comm]
    exact hdouble.2
  | cons t segs ih =>
    obtain ⟨hseg, hsegs⟩ := List.forall_mem_cons.mp hsegs
    rw [dropInner, body_cons, List.cons_append]
    by_cases hnil : seg = []
    · have hhit : DoubleAt (p ++ slash :: ([] ++ body slash (t :: segs))) p.length :=
        ⟨octet_slash p _, octet_append p _ 1⟩
      have hcut : (p ++ slash :: ([] ++ body slash (t :: segs))).take p.length ++
          (p ++ slash :: ([] ++ body slash (t :: segs))).drop (p.length + 1)
          = p ++ body slash (t :: segs) := by
        rw [List.take_left, List.drop_append, List.drop_eq_nil_of_le (by omega), List.nil_append,
          Nat.add_sub_cancel_left]
        rfl
      rw [if_pos hnil, hnil, dropDouble, if_pos (by simp), if_pos hhit, hcut]
      exact ih p _ hsegs
    · rw [if_neg hnil, dropDouble_skip (j := (p ++ slash :: seg).length) (by simp)]
      · have hnext := ih (p ++ slash :: seg) _ hsegs
        rw [List.append_assoc, List.cons_append] at hnext
        rw [hnext, body_cons, List.append_assoc]
      · intro k hk hlt hhit
        obtain ⟨m, rfl⟩ := Nat.exists_eq_add_of_le hk
        have hm : m ≤ seg.length := by
          rw [List.length_append, List.length_cons] at hlt
          omega
        rcases Nat.lt_or_eq_of_le hm with hm | rfl
        · refine octet_inside hseg hm (p := p) (r := body slash (t :: segs)) ?_
          rw [Nat.add_right_comm]
          exact hhit.2
        · have hpos : 0 < seg.length := List.length_pos_iff.mpr hnil
          refine octet_inside hseg (m := seg.length - 1) (by omega) (p := p)
            (r := body slash (t :: segs)) ?_
          rw [show p.length + 1 + (seg.length - 1) = p.length + seg.length by omega]
          exact hhit.1

end Doubles

section Parents

theorem findParent_skip {path : Bytes} {i j : Nat} (hij : i ≤ j)
    (h : ∀ k, i ≤ k → k < j → isParent path k = false) : findParent path i = findParent path j := by
  induction j, hij using Nat.le_induction with
  | base => rfl
  | succ j hij ih =>
    rw [ih fun k hik hkj => h k hik (by omega), findParent]
    by_cases hj : j < path.length
    · rw [if_pos hj, if_neg (by rw [h j hij (by omega)]; decide)]
    · rw [if_neg hj, findParent, if_neg (by omega)]

theorem octet_body (segs : List Bytes) : octet (body slash segs) 0 = if segs = [] then 0 else slash := by
  cases segs <;> rfl

/-- What stands in front of a segment is the separator of a real `..` or it is not. -/
theorem isParent_iff (p : Bytes) {seg : Bytes} {segs : List Bytes} (hseg : IsSegment seg) :
    isParent (p ++ body slash (seg :: segs)) p.length = true ↔ seg = dotdot := by
  have hbehind : ∀ n, octet (p ++ body slash (seg :: segs)) (p.length + (1 + n))
      = octet (seg ++ body slash segs) n := by
    intro n
    rw [body_cons, List.cons_append, ← Nat.add_assoc]
    exact octet_behind p seg _ n
  have hend : octet (body slash segs) 0 ≠ 0x2e := by
    rw [octet_body]
    split <;> decide
  have hstop : octet (body slash segs) 0 = slash ∨ octet (body slash segs) 0 = 0 := by
    rw [octet_body]
    split
    · exact .inr rfl
    · exact .inl rfl
  have h0 : octet (p ++ body slash (seg :: segs)) p.length = slash := octet_slash p _
  simp only [isParent, Bool.and_eq_true, Bool.or_eq_true, beq_iff_eq, h0, true_and]
  rw [hbehind 0, hbehind 1, hbehind 2]
  rcases seg with _ | ⟨c, _ | ⟨d, _ | ⟨e, seg⟩⟩⟩
  · exact iff_of_false (fun h => hend h.1.1) (by simp [dotdot])
  · exact iff_of_false (fun h => hend h.1.2) (by simp [dotdot])
  · constructor
    · rintro ⟨⟨hc, hd⟩, -⟩
      have hc : c = 0x2e := hc
      have hd : d = 0x2e := hd
      rw [hc, hd, dotdot]
    · intro h
      obtain ⟨rfl, rfl⟩ : c = 0x2e ∧ d = 0x2e := by simpa [dotdot] using h
      exact ⟨⟨rfl, rfl⟩, hstop⟩
  · refine iff_of_false ?_ (by simp [dotdot])
    rintro ⟨-, he⟩
    have he : e = slash ∨ e = 0 := he
    rcases he with rfl | rfl
    · exact hseg.1 (by simp)
    · exact hseg.2 (by simp)

/-- The search goes on behind a segment that is not `..`. -/
theorem findParent_step (p : Bytes) {seg : Bytes} {segs : List Bytes} (hseg : IsSegment seg)
    (hne : seg ≠ dotdot) :
    findParent (p ++ body slash (seg :: segs)) p.length
      = findParent ((p ++ slash :: seg) ++ body slash segs) (p ++ slash :: seg).length := by
  have hassoc : p ++ body slash (seg :: segs) = (p ++ slash :: seg) ++ body slash segs := by
    rw [body_cons, List.append_assoc]
  rw [findParent_skip (j := (p ++ slash :: seg).length) (by simp), hassoc]
  intro k hk hlt
  obtain ⟨m, rfl⟩ := Nat.exists_eq_add_of_le hk
  cases m with
  | zero => exact Bool.eq_false_iff.mpr (mt (isParent_iff p hseg).mp hne)
  | succ m =>
    have hm : m < seg.length := by
      rw [List.length_append, List.length_cons] at hlt
      omega
    have hin := octet_inside (p := p) (r := body slash segs) hseg.1 hm
    rw [Nat.add_assoc, Nat.add_comm 1 m] at hin
    simp only [isParent, Bool.and_eq_false_iff, beq_eq_false_iff_ne]
    exact .inl (.inl (.inl hin))

theorem findParent_none (p : Bytes) {segs : List Bytes}
    (hsegs : ∀ s ∈ segs, IsSegment s ∧ s ≠ dotdot) :
    findParent (p ++ body slash segs) p.length = none := by
  induction segs generalizing p with
  | nil =>
    rw [findParent, if_neg (by simp)]
  | cons seg segs ih =>
    obtain ⟨⟨hseg, hne⟩, hsegs⟩ := List.forall_mem_cons.mp hsegs
    rw [findParent_step p hseg hne]
    exact ih _ hsegs

theorem findParent_first (p : Bytes) (pre post : List Bytes)
    (hpre : ∀ s ∈ pre, IsSegment s ∧ s ≠ dotdot) :
    findParent (p ++ body slash (pre ++ dotdot :: post)) p.length = some (p ++ body slash pre).length := by
  induction pre generalizing p with
  | nil =>
    have hparent : isParent (p ++ body slash (dotdot :: post)) p.length = true :=
      (isParent_iff p (by decide)).mpr rfl
    rw [List.nil_append, findParent, if_pos (by simp), if_pos hparent, body_nil, List.append_nil]
  | cons seg pre ih =>
    obtain ⟨⟨hseg, hne⟩, hpre⟩ := List.forall_mem_cons.mp hpre
    rw [List.cons_append, findParent_step p hseg hne, ih _ hpre, body_cons, List.append_assoc]

/-- The search begins behind the root, which no `..` in the first segment is. -/
theorem findParent_behind {seg : Bytes} (hseg : slash ∉ seg) (segs : List Bytes) :
    findParent (body slash (seg :: segs)) 1
      = findParent (slash :: seg ++ body slash segs) (slash :: seg).length := by
  rw [findParent_skip (j := (slash :: seg).length) (by simp), body_cons]
  intro k hk hlt
  obtain ⟨m, rfl⟩ := Nat.exists_eq_add_of_le hk
  have hm : m < seg.length := by
    rw [List.length_cons] at hlt
    omega
  have hin := octet_inside (p := []) (r := body slash segs) hseg hm
  simp only [isParent, Bool.and_eq_false_iff, beq_eq_false_iff_ne]
  refine .inl (.inl (.inl ?_))
  rwa [List.length_nil, Nat.zero_add] at hin

theorem retrace_eq {path : Bytes} {j z : Nat} (hjz : j ≤ z) (hj : j = 0 ∨ octet path j = slash)
    (h : ∀ k, j < k → k ≤ z → octet path k ≠ slash ∧ octet path k ≠ 0x3a) : retrace path z = j := by
  induction z with
  | zero =>
    rw [retrace]
    omega
  | succ z ih =>
    rw [retrace]
    rcases Nat.lt_or_eq_of_le hjz with hlt | rfl
    · rw [if_neg (not_or.mpr (h (z + 1) hlt (Nat.le_refl _)))]
      exact ih (by omega) fun k hk hkz => h k hk (by omega)
    · rw [if_pos (.inl (hj.resolve_left (Nat.succ_ne_zero z)))]

/-- A `..` is cut out with the segment before it, where that holds no colon. -/
theorem cutParent_body (init post : List Bytes) {seg : Bytes} (hseg : slash ∉ seg)
    (hcolon : 0x3a ∉ seg) :
    cutParent (body slash (init ++ seg :: dotdot :: post)) (body slash (init ++ [seg])).length
      = render slash (init ++ post) := by
  have hpath : body slash (init ++ seg :: dotdot :: post)
      = body slash init ++ slash :: (seg ++ body slash (dotdot :: post)) := by
    rw [body_append, body_cons, List.cons_append]
  have hlen : (body slash (init ++ [seg])).length = (body slash init).length + 1 + seg.length := by
    rw [body_append, List.length_append, body_cons, body_nil, List.append_nil, List.length_cons]
    omega
  have hretrace : retrace (body slash (init ++ seg :: dotdot :: post))
      ((body slash (init ++ [seg])).length - 1) = (body slash init).length := by
    rw [hlen, hpath]
    refine retrace_eq (by omega) (.inr (octet_slash _ _)) ?_
    intro k hk hkz
    obtain ⟨m, rfl⟩ := Nat.exists_eq_add_of_lt hk
    have hm : m < seg.length := by omega
    rw [Nat.add_right_comm, octet_behind, octet_left hm]
    exact ⟨fun h => hseg (h ▸ List.getElem_mem hm), fun h => hcolon (h ▸ List.getElem_mem hm)⟩
  have hdrop : (body slash (init ++ seg :: dotdot :: post)).drop
      ((body slash (init ++ [seg])).length + 3) = body slash post := by
    have hsplit : body slash (init ++ seg :: dotdot :: post)
        = body slash (init ++ [seg]) ++ (slash :: dotdot) ++ body slash post := by
      simp [body_append, body_cons]
    rw [hsplit, List.drop_left' (by simp [dotdot]; omega)]
  rw [cutParent, hretrace, hdrop, hpath, List.take_left, ← body_append, render]
  by_cases hnil : init ++ post = []
  · rw [if_pos hnil, hnil, body_nil, if_pos rfl]
  · rw [if_neg hnil, if_neg]
    cases hcons : init ++ post with
    | nil => exact absurd hcons hnil
    | cons => exact List.cons_ne_nil _ _

/-- The segment that a `..` goes up from has no colon. -/
def KeepsColons (st : List Bytes) (seg : Bytes) : Prop :=
  seg = dotdot → ∀ c ∈ st.getLast?, 0x3a ∉ c

instance (st : List Bytes) (seg : Bytes) : Decidable (KeepsColons st seg) :=
  inferInstanceAs (Decidable (_ → _))

/-- The third loop goes up from what is before the first `..` again and again. -/
theorem removeParents_render {st segs : List Bytes} (hst : ∀ s ∈ st, IsSegment s)
    (htail : dotdot ∉ st.tail) (hsegs : ∀ s ∈ segs, IsSegment s)
    (hkeep : Runs.Meets (unwind dotdot) KeepsColons st segs) :
    removeParents (render slash (st ++ segs)) = render slash (segs.foldl (unwind dotdot) st) := by
  induction segs generalizing st with
  | nil =>
    have hnone : findParent (render slash st) 1 = none := by
      cases st with
      | nil => decide +kernel
      | cons s st =>
        obtain ⟨hs, hst⟩ := List.forall_mem_cons.mp hst
        rw [render_of_ne_nil (List.cons_ne_nil s st), findParent_behind hs.1]
        exact findParent_none _ fun t ht => ⟨hst t ht, fun h => htail (h ▸ ht)⟩
    rw [List.append_nil, List.foldl_nil, removeParents]
    split
    · rename_i i hi
      rw [hnone] at hi
      simp at hi
    · rfl
  | cons seg segs ih =>
    obtain ⟨hseg, hsegs'⟩ := List.forall_mem_cons.mp hsegs
    obtain ⟨hcolon, hrest⟩ := hkeep.cons
    rw [List.foldl_cons]
    by_cases hup : seg = dotdot ∧ st ≠ []
    · have hunwind : unwind dotdot st seg = st.dropLast := if_pos hup
      obtain ⟨rfl, hne⟩ := hup
      rw [hunwind] at hrest ⊢
      obtain ⟨init, last, rfl⟩ : ∃ init last, st = init ++ [last] :=
        ⟨st.dropLast, st.getLast hne, (List.dropLast_append_getLast hne).symm⟩
      have hlast : IsSegment last := hst last (by simp)
      have hnocolon : 0x3a ∉ last := hcolon rfl last (by simp)
      have hfind : findParent (render slash (init ++ [last] ++ dotdot :: segs)) 1
          = some (body slash (init ++ [last])).length := by
        cases init with
        | nil =>
          rw [render_of_ne_nil (by simp), List.nil_append, List.singleton_append,
            findParent_behind hlast.1]
          have hfirst := findParent_first (slash :: last) [] segs (by simp)
          rw [List.nil_append] at hfirst
          rw [hfirst]
          simp
        | cons s init =>
          have hs : IsSegment s := hst s (by simp)
          rw [render_of_ne_nil (by simp), List.cons_append, List.cons_append, findParent_behind hs.1,
            findParent_first (slash :: s) _ _]
          · simp
          · intro t ht
            exact ⟨hst t (by simp only [List.cons_append, List.mem_cons]; exact .inr ht),
              fun h => htail (h ▸ ht)⟩
      rw [removeParents]
      split
      · rename_i i hi
        rw [hfind] at hi
        obtain rfl := Option.some.inj hi
        have hcut := cutParent_body init segs hlast.1 hnocolon
        rw [render_of_ne_nil (by simp), List.append_assoc, List.singleton_append, hcut,
          List.dropLast_concat]
        rw [List.dropLast_concat] at hrest
        refine ih (fun t ht => hst t (by simp [ht])) (fun h => htail ?_) hsegs' hrest
        cases init with
        | nil => simp at h
        | cons s init => exact List.mem_append_left _ h
      · rename_i hnone
        rw [hfind] at hnone
        simp at hnone
    · have hunwind : unwind dotdot st seg = st ++ [seg] := if_neg hup
      rw [hunwind] at hrest ⊢
      rw [List.append_cons]
      refine ih (List.forall_mem_append.mpr ⟨hst, by simpa using hseg⟩) ?_ hsegs' hrest
      cases st with
      | nil => simp
      | cons s st =>
        rw [List.cons_append, List.tail_cons, List.mem_append, List.mem_singleton]
        rintro (h | h)
        · exact htail h
        · exact hup ⟨h.symm, List.cons_ne_nil s st⟩

end Parents

end WolfSsh.CleanPath
