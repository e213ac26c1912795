import WolfSsh.SshdAuthKeys

/-! Two accounts and one AuthorizedKeysFile pattern: where their paths differ, and where a path has a
`..` component. -/

namespace WolfSsh.AuthKeys

open Template (parts fillText)

/-- The parts of a template, which are cut at its slashes and in front of every home directory. -/
def cuts (t : List (Hole UInt8)) : List (Template.Part UInt8) := (parts slash t).2

theorem template_lead {pattern : Option Bytes} {t : List (Hole UInt8)} (h : template pattern = some t) :
    (parts slash t).1 = [] := by
  have hroot (t : List (Hole UInt8)) : (parts slash (rooted t)).1 = [] := by
    rw [rooted]
    split
    · rename_i hhead
      cases t with
      | nil => simp at hhead
      | cons hole t =>
        rw [List.head?_cons, Option.some.injEq, Option.some.injEq] at hhead
        rcases hhead with rfl | rfl
        · rw [parts, if_pos rfl]
        · rfl
    · rfl
  rcases pattern with _ | _ | ⟨c, rest⟩
  · obtain rfl := Option.some.inj h
    rfl
  · obtain rfl := Option.some.inj h
    rfl
  · obtain ⟨t₀, -, rfl⟩ := Option.map_eq_some_iff.mp h
    exact hroot t₀

theorem tokens_head {pattern : Bytes} {t : List (Hole UInt8)} (h : tokens pattern = some t)
    (hhead : t.head? = some (.lit slash)) : isAbsoluteAuthKeysPath pattern = true := by
  rw [isAbsoluteAuthKeysPath, beq_iff_eq]
  rcases pattern with _ | ⟨c, _ | ⟨d, rest⟩⟩
  · obtain rfl := Option.some.inj h
    cases hhead
  · obtain rfl := Option.some.inj h
    rw [List.head?_cons, Option.some.injEq, Hole.lit.injEq] at hhead
    rw [List.head?_cons, hhead]
  · rw [tokens] at h
    split at h
    · exfalso
      split at h
      · obtain ⟨t₀, -, rfl⟩ := Option.map_eq_some_iff.mp h
        simp [percent, slash] at hhead
      · split at h
        · obtain ⟨t₀, -, rfl⟩ := Option.map_eq_some_iff.mp h
          simp at hhead
        · split at h
          · obtain ⟨t₀, -, rfl⟩ := Option.map_eq_some_iff.mp h
            simp at hhead
          · cases h
    · obtain ⟨t₀, -, rfl⟩ := Option.map_eq_some_iff.mp h
      rw [List.head?_cons, Option.some.injEq, Hole.lit.injEq] at hhead
      rw [List.head?_cons, hhead]

theorem carriesToken_tokens {pattern : Bytes} {t : List (Hole UInt8)} (h : carriesToken pattern = true)
    (ht : tokens pattern = some t) : .name ∈ t ∨ .path ∈ t := by
  have hcons {hole : Hole UInt8} {t : List (Hole UInt8)} (h : .name ∈ t ∨ .path ∈ t) :
      .name ∈ hole :: t ∨ .path ∈ hole :: t :=
    h.imp (List.mem_cons_of_mem hole) (List.mem_cons_of_mem hole)
  induction pattern using tokens.induct generalizing t with
  | case1 => cases h
  | case2 c => cases h
  | case3 rest ih =>
    rw [carriesToken, if_neg (by simp), if_neg (by decide), if_pos rfl] at h
    rw [tokens, if_pos rfl, if_pos rfl] at ht
    obtain ⟨t₀, ht₀, rfl⟩ := Option.map_eq_some_iff.mp ht
    exact hcons (ih h ht₀)
  | case4 rest hne ih =>
    rw [tokens, if_pos rfl, if_neg hne, if_pos rfl] at ht
    obtain ⟨t₀, -, rfl⟩ := Option.map_eq_some_iff.mp ht
    exact .inr List.mem_cons_self
  | case5 rest hne hne' ih =>
    rw [tokens, if_pos rfl, if_neg hne, if_neg hne', if_pos rfl] at ht
    obtain ⟨t₀, -, rfl⟩ := Option.map_eq_some_iff.mp ht
    exact .inl List.mem_cons_self
  | case6 t rest hp hh hu =>
    rw [tokens, if_pos rfl, if_neg hp, if_neg hh, if_neg hu] at ht
    cases ht
  | case7 c t rest hc ih =>
    rw [carriesToken, if_pos hc] at h
    rw [tokens, if_neg hc] at ht
    obtain ⟨t₀, ht₀, rfl⟩ := Option.map_eq_some_iff.mp ht
    exact hcons (ih h ht₀)

/-- A pattern that passes for one file a user has a place for the home directory or for the name. -/
theorem perUser_holes {pattern : Option Bytes} (hper : isPerUserAuthKeysPattern pattern = true)
    {t : List (Hole UInt8)} (ht : template pattern = some t) :
    ∃ p ∈ cuts t, p.afterPath = true ∨ p.named := by
  have hholes : .name ∈ t ∨ .path ∈ t := by
    match pattern with
    | none =>
      obtain rfl := Option.some.inj ht
      exact .inr List.mem_cons_self
    | some [] =>
      obtain rfl := Option.some.inj ht
      exact .inr List.mem_cons_self
    | some (c :: rest) =>
      obtain ⟨t₀, ht₀, rfl⟩ := Option.map_eq_some_iff.mp ht
      rw [rooted]
      split
      · rename_i hhead
        rcases hhead with hhead | hhead
        · change (if climbs (c :: rest) _ 0 0 = true then false else _) = true at hper
          rw [tokens_head ht₀ hhead] at hper
          split at hper
          · cases hper
          · exact carriesToken_tokens hper ht₀
        · exact .inr (List.mem_of_mem_head? hhead)
      · exact .inr List.mem_cons_self
  rcases hholes with hname | hpath
  · rcases @Template.exists_named _ _ slash _ hname with hlead | ⟨p, hp, hnamed⟩
    · rw [template_lead ht] at hlead
      exact absurd hlead List.not_mem_nil
    · exact ⟨p, hp, .inr hnamed⟩
  · obtain ⟨p, hp, hafter⟩ := @Template.exists_afterPath _ _ slash _ hpath
    exact ⟨p, hp, .inl hafter⟩

/-- The text `..` of a part. -/
def dotdotText : List (Option UInt8) := dotdot.map some

theorem eq_nil_of_dots {x y : Bytes} (h : x ++ y = dotdot) (hdot : x ≠ dot) (hdotdot : x ≠ dotdot) :
    x = [] := by
  match x with
  | [] => rfl
  | [c] =>
    rw [List.singleton_append, dotdot, List.cons.injEq] at h
    rw [h.1] at hdot
    exact absurd rfl hdot
  | [c, d] =>
    rw [List.cons_append, List.cons_append, dotdot, List.cons.injEq, List.cons.injEq] at h
    rw [h.1, h.2.1] at hdotdot
    exact absurd rfl hdotdot
  | c :: d :: e :: x =>
    have hlen := congrArg List.length h
    simp [dotdot] at hlen

theorem fillText_dotdot_iff (a : Account) (text : List (Option UInt8)) :
    fillText a.user text = dotdot ↔ text = dotdotText := by
  obtain ⟨hne, hdot, hdotdot, -⟩ := a.named
  have huser {rest : Bytes} : ∀ pre : Bytes, pre ++ (a.user ++ rest) ≠ dotdot := by
    intro pre h
    match pre with
    | [] => exact hne (eq_nil_of_dots h hdot hdotdot)
    | [c] =>
      rw [List.singleton_append, dotdot, List.cons.injEq] at h
      have hone : a.user.length ≤ 1 := by
        have hlen := congrArg List.length h.2
        rw [List.length_append, List.length_singleton] at hlen
        omega
      obtain ⟨d, hd⟩ := List.length_eq_one_iff.mp
        (Nat.le_antisymm hone (List.length_pos_iff.mpr hne))
      rw [hd, List.singleton_append, List.cons.injEq] at h
      rw [hd, h.2.1] at hdot
      exact hdot rfl
    | c :: d :: pre =>
      have hlen := congrArg List.length h
      have hpos := List.length_pos_iff.mpr hne
      simp only [List.cons_append, List.length_cons, List.length_append, dotdot, List.length_nil] at hlen
      omega
  constructor
  · intro h
    match text with
    | [] => cases h
    | none :: text => exact absurd h (huser [])
    | [some c] => cases h
    | some c :: none :: text => exact absurd h (huser [c])
    | [some c, some d] =>
      rw [Template.fillText_some, Template.fillText_some, Template.fillText_nil, dotdot, List.cons.injEq,
        List.cons.injEq] at h
      rw [h.1, h.2.1]
      rfl
    | some c :: some d :: none :: text => exact absurd h (huser [c, d])
    | some c :: some d :: some e :: text =>
      have hlen := congrArg List.length h
      simp [dotdot] at hlen
  · rintro rfl
    rfl

/-- A part that is `..` where it starts a component, or behind a home directory that ends in a slash. -/
def Climbs (t : List (Hole UInt8)) (a : Account) : Prop :=
  ∃ p ∈ cuts t, p.text = dotdotText ∧ (p.afterPath = true → a.last = [])

theorem dotdot_mem_components (a : Account) (p : Template.Part UInt8) :
    dotdot ∈ p.components a.user a.dirs a.last ↔
      p.text = dotdotText ∧ (p.afterPath = true → a.last = []) := by
  rw [Template.Part.components]
  split
  · rename_i hafter
    rw [List.mem_append, List.mem_singleton]
    constructor
    · rintro (hdirs | hlast)
      · exact absurd rfl (a.noDots_comps _ (List.mem_append_left _ hdirs)).2
      · obtain ⟨hdot, hdotdot⟩ := a.noDots_comps a.last (List.mem_append_right _ (List.mem_singleton_self _))
        have hnil := eq_nil_of_dots hlast.symm hdot hdotdot
        rw [hnil, List.nil_append] at hlast
        exact ⟨(fillText_dotdot_iff a p.text).mp hlast.symm, fun _ => hnil⟩
    · rintro ⟨htext, hlast⟩
      rw [hlast hafter, List.nil_append, (fillText_dotdot_iff a p.text).mpr htext]
      exact .inr rfl
  · rename_i hstart
    rw [List.mem_singleton, eq_comm, fillText_dotdot_iff]
    simp [hstart]

theorem dotdot_mem_path {pattern : Option Bytes} {t : List (Hole UInt8)} (ht : template pattern = some t)
    (a : Account) : dotdot ∈ (a.path t).splitOn slash ↔ Climbs t a := by
  rw [Account.path, a.home_eq, Template.mem_splitOn_expand_iff a.free, template_lead ht]
  constructor
  · rintro (hlead | ⟨p, hp, hmem⟩)
    · cases hlead
    · exact ⟨p, hp, (dotdot_mem_components a p).mp hmem⟩
  · rintro ⟨p, hp, hmem⟩
    exact .inr ⟨p, hp, (dotdot_mem_components a p).mpr hmem⟩

/-- The names make up for what the home directories differ in: every home directory of the template has
the name behind it in its last component, the name stands nowhere else, the home directories differ in
their last components only, and with the name behind it that is the same for both accounts. -/
def Glued (t : List (Hole UInt8)) (a b : Account) : Prop :=
  (∃ p ∈ cuts t, p.afterPath = true) ∧
    ∀ p ∈ cuts t, p.Meets a.user a.dirs a.last b.user b.dirs b.last

instance (t : List (Hole UInt8)) (a : Account) : Decidable (a.Fits t) :=
  inferInstanceAs (Decidable ((t.map a.size).sum < maxPathSz))

instance (t : List (Hole UInt8)) (a : Account) : Decidable (Climbs t a) :=
  inferInstanceAs (Decidable (∃ p ∈ cuts t, p.text = dotdotText ∧ (p.afterPath = true → a.last = [])))

instance (t : List (Hole UInt8)) (a b : Account) : Decidable (Glued t a b) :=
  inferInstanceAs (Decidable ((∃ p ∈ cuts t, p.afterPath = true) ∧
    ∀ p ∈ cuts t, p.Meets a.user a.dirs a.last b.user b.dirs b.last))

theorem path_eq_iff {pattern : Option Bytes} (hper : isPerUserAuthKeysPattern pattern = true)
    {t : List (Hole UInt8)} (ht : template pattern = some t) {a b : Account} (huser : a.user ≠ b.user)
    (hhome : a.home ≠ b.home) : a.path t = b.path t ↔ Glued t a b := by
  rw [Account.path, Account.path, a.home_eq, b.home_eq,
    Template.expand_eq_iff a.free b.free huser (home_ne hhome), template_lead ht]
  constructor
  · rintro ⟨-, hmeets⟩
    obtain ⟨p, hp, hafter | hnamed⟩ := perUser_holes hper ht
    · exact ⟨⟨p, hp, hafter⟩, hmeets⟩
    · have hmeet := hmeets p hp
      rw [Template.Part.Meets] at hmeet
      split at hmeet
      · rename_i hafter
        exact ⟨⟨p, hp, hafter⟩, hmeets⟩
      · exact absurd hnamed hmeet
  · rintro ⟨-, hmeets⟩
    exact ⟨List.not_mem_nil, hmeets⟩

/-- The two accounts' paths differ where both resolve, and each has no `..` component and room for its
NUL. -/
def Separates (pattern : Option Bytes) (a b : Account) : Prop :=
  (∀ p q, a.resolve pattern = .ok p → b.resolve pattern = .ok q → p ≠ q) ∧
    ∀ x ∈ [a, b], ∀ p, x.resolve pattern = .ok p →
      dotdot ∉ p.splitOn slash ∧ p.length + 1 ≤ maxPathSz

/-- A pattern for one file a user separates two accounts exactly where, if their paths fit, the template
is not glued together for them and no part of it climbs. -/
theorem separates_iff {pattern : Option Bytes} (hper : isPerUserAuthKeysPattern pattern = true)
    {a b : Account} (huser : a.user ≠ b.user) (hhome : a.home ≠ b.home) :
    Separates pattern a b ↔ ∀ t, template pattern = some t →
      (a.Fits t → b.Fits t → ¬Glued t a b) ∧ ∀ x ∈ [a, b], x.Fits t → ¬Climbs t x := by
  constructor
  · rintro ⟨hdiffer, heach⟩ t ht
    have hok (x : Account) (hfits : x.Fits t) : x.resolve pattern = .ok (x.path t) :=
      (x.resolve_ok_iff pattern _).mpr ⟨t, ht, hfits, rfl⟩
    refine ⟨fun ha hb hglued => ?_, fun x hx hfits hclimbs => ?_⟩
    · exact hdiffer _ _ (hok a ha) (hok b hb) ((path_eq_iff hper ht huser hhome).mpr hglued)
    · exact (heach x hx _ (hok x hfits)).1 ((dotdot_mem_path ht x).mpr hclimbs)
  · intro h
    refine ⟨fun p q hp hq heq => ?_, fun x hx p hp => ?_⟩
    · obtain ⟨t, ht, ha, rfl⟩ := (a.resolve_ok_iff pattern p).mp hp
      obtain ⟨t', ht', hb, rfl⟩ := (b.resolve_ok_iff pattern q).mp hq
      obtain rfl := Option.some.inj (ht.symm.trans ht')
      exact (h t ht).1 ha hb ((path_eq_iff hper ht huser hhome).mp heq)
    · obtain ⟨t, ht, hfits, rfl⟩ := (x.resolve_ok_iff pattern p).mp hp
      refine ⟨fun hdots => (h t ht).2 x hx hfits ((dotdot_mem_path ht x).mp hdots), ?_⟩
      rw [length_path]
      exact hfits

def alice : Account where
  user := ascii "bc"
  home := ascii "/home/a"
  named := by decide
  absolute := by decide
  noDots := by decide +kernel

def bob : Account where
  user := ascii "c"
  home := ascii "/home/ab"
  named := by decide
  absolute := by decide
  noDots := by decide +kernel

/-- The template of `%h/keys/%u`. -/
def keysTemplate : List (Hole UInt8) := .path :: ((ascii "/keys/").map .lit ++ [.name])

/-- `%h/keys/%u` separates them. -/
theorem separates_iff_sample : Separates (some (ascii "%h/keys/%u")) alice bob := by
  refine (separates_iff (by decide +kernel) (by decide) (by decide)).mpr ?_
  intro t ht
  have htemplate : template (some (ascii "%h/keys/%u")) = some keysTemplate := by decide +kernel
  obtain rfl := Option.some.inj (ht.symm.trans htemplate)
  decide +kernel

/-- `%h%u` passes for one file a user and gives two accounts one file, and `..%h` leaves the home
directory. -/
theorem tokens_run_together :
    isPerUserAuthKeysPattern (some (ascii "%h%u")) = true ∧
      alice.user ≠ bob.user ∧ alice.home ≠ bob.home ∧
      alice.resolve (some (ascii "%h%u")) = .ok (ascii "/home/abc") ∧
      bob.resolve (some (ascii "%h%u")) = .ok (ascii "/home/abc") ∧
      isPerUserAuthKeysPattern (some (ascii "..%h")) = true ∧
      alice.resolve (some (ascii "..%h")) = .ok (ascii "/home/a/../home/a") := by
  refine ⟨by decide +kernel, by decide, by decide, rfl, rfl, by decide +kernel, rfl⟩

end WolfSsh.AuthKeys
