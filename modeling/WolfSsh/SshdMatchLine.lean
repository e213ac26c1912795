import WolfSsh.SshdConfig
import WolfSsh.Lib.Words
import WolfSsh.Lib.Layers

/-! What a Match line says, and that the two scanners of the daemon read it so. -/

namespace WolfSsh.Sshd

open Fallible Words Layers

/-! What a line says. -/

def entries (list : Bytes) : List Bytes := list.splitOn 44

/-- No name is a pattern, and none is empty. -/
def Usable (list : Bytes) : Prop :=
  (∀ b ∈ list, b ≠ 42 ∧ b ≠ 63 ∧ b ≠ 33) ∧ [] ∉ entries list

def IsKeyword (w : Bytes) : Prop := w = ascii "User" ∨ w = ascii "Group"

instance (w : Bytes) : Decidable (IsKeyword w) :=
  inferInstanceAs (Decidable (w = ascii "User" ∨ w = ascii "Group"))

/-- Words two by two. A last one alone is left out. -/
def pairs : List Bytes → List (Bytes × Bytes)
  | kw :: name :: rest => (kw, name) :: pairs rest
  | _ => []

/-- The selectors of a line: keywords, each with its list of names. -/
def selectors (text : Bytes) : List (Bytes × Bytes) := pairs (words isspace text)

/-- The list that the last selector with this keyword has. -/
def selected (kw text : Bytes) : Option Bytes := lastFor kw (selectors text)

/-- The line consists of selectors, each with a usable list. -/
structure Selects (text : Bytes) : Prop where
  whole : (selectors text).flatMap (fun s => [s.1, s.2]) = words isspace text
  some : selectors text ≠ []
  keyword : ∀ s ∈ selectors text, IsKeyword s.1
  usable : ∀ s ∈ selectors text, Usable s.2

/-- The block of the line is for this user. -/
def Applies (text : Bytes) (usr : Option Bytes) (grps : List (Option Bytes)) : Prop :=
  (∀ list, selected (ascii "User") text = some list →
    ∃ name, usr = some name ∧ name ∈ entries list) ∧
  (∀ list, selected (ascii "Group") text = some list →
    ∃ name, some name ∈ grps ∧ name ∈ entries list)

/-! Lists of names. -/

theorem entries_of_not_mem {list : Bytes} (h : 44 ∉ list) : entries list = [list] :=
  List.splitOn_eq_singleton h

theorem entries_cons {entry : Bytes} (h : 44 ∉ entry) (rest : Bytes) :
    entries (entry ++ 44 :: rest) = entry :: entries rest :=
  List.splitOn_append_cons_self_of_not_mem h rest

theorem matchListOk_iff (entry list : Bytes) (h : 44 ∉ entry) :
    matchListOk entry.length list = true ↔
      (∀ b ∈ list, b ≠ 42 ∧ b ≠ 63 ∧ b ≠ 33) ∧ [] ∉ entries (entry ++ list) := by
  induction list generalizing entry with
  | nil =>
    rw [List.append_nil, entries_of_not_mem h]
    cases entry <;> simp [matchListOk]
  | cons b list ih =>
    rw [matchListOk, List.forall_mem_cons]
    by_cases hpattern : b = 42 ∨ b = 63 ∨ b = 33
    · rw [if_pos hpattern]
      simp only [Bool.false_eq_true, false_iff]
      rintro ⟨⟨hb, -⟩, -⟩
      rcases hpattern with h | h | h
      · exact hb.1 h
      · exact hb.2.1 h
      · exact hb.2.2 h
    · rw [if_neg hpattern]
      have hb : b ≠ 42 ∧ b ≠ 63 ∧ b ≠ 33 := by
        simpa only [not_or] using hpattern
      by_cases hcomma : b = 44
      · subst hcomma
        have hrest := ih [] List.not_mem_nil
        rw [List.nil_append, List.length_nil] at hrest
        rw [if_pos rfl, entries_cons h]
        simp only [Bool.decide_and, Bool.and_eq_true, decide_eq_true_eq, hrest,
          List.mem_cons, not_or]
        constructor
        · rintro ⟨hentry, hall, hempty⟩
          exact ⟨⟨hb, hall⟩, fun hnil => hentry (by rw [← hnil]; rfl), hempty⟩
        · rintro ⟨⟨-, hall⟩, hentry, hempty⟩
          exact ⟨fun hlen => hentry (List.length_eq_zero_iff.mp hlen).symm, hall, hempty⟩
      · have hrest := ih (entry ++ [b]) (by simp [h, Ne.symm hcomma])
        rw [List.length_append, List.length_singleton, List.append_assoc] at hrest
        rw [if_neg hcomma, hrest]
        simp [hb]

theorem checkMatchList_ok_iff {list : Bytes} {u : Unit} :
    checkMatchList list = .ok u ↔ Usable list := by
  rw [checkMatchList, ok_ensure_iff]
  exact matchListOk_iff [] list List.not_mem_nil

theorem matchListFrom_iff {name : Bytes} (hname : name.length < 2 ^ 32) (entry list : Bytes)
    (h : 44 ∉ entry) :
    matchListFrom name entry list = true ↔ name ∈ entries (entry ++ list) := by
  induction list generalizing entry with
  | nil =>
    rw [List.append_nil, entries_of_not_mem h]
    simp [matchListFrom, eq_comm]
  | cons b list ih =>
    rw [matchListFrom]
    by_cases hcomma : b = 44
    · subst hcomma
      have hrest := ih [] List.not_mem_nil
      rw [if_pos rfl, entries_cons h, List.mem_cons, Nat.mod_eq_of_lt hname, List.take_length]
      by_cases hentry : entry = name
      · rw [if_pos ⟨congrArg List.length hentry, hentry⟩]
        simp [hentry]
      · rw [if_neg (fun hboth => hentry hboth.2), hrest]
        simp [Ne.symm hentry]
    · have hrest := ih (entry ++ [b]) (by simp [h, Ne.symm hcomma])
      rw [if_neg hcomma, hrest, List.append_assoc, List.singleton_append]

theorem matchList_iff {name : Bytes} (hname : name.length < 2 ^ 32) (list : Bytes) :
    matchList list name = true ↔ name ∈ entries list :=
  matchListFrom_iff hname [] list List.not_mem_nil

/-! The scanners, word by word. -/

theorem nextToken_eq_nil_iff (s : Bytes) : (nextToken s).1 = [] ↔ s.dropWhile isspace = [] := by
  cases hs : s.dropWhile isspace with
  | nil => simp [nextToken, hs]
  | cons b rest =>
    have hb := List.head?_dropWhile_not isspace s
    rw [hs] at hb
    simp only [List.head?_cons] at hb
    simp [nextToken, hs, hb]

theorem nextToken_snd_of_nil {s : Bytes} (h : (nextToken s).1 = []) : (nextToken s).2 = [] := by
  simp [nextToken, (nextToken_eq_nil_iff s).mp h]

theorem words_eq_nextToken (s : Bytes) :
    words isspace s = if (nextToken s).1 = [] then [] else
      (nextToken s).1 :: words isspace (nextToken s).2 := by
  rw [← words_dropWhile]
  by_cases hnone : (nextToken s).1 = []
  · rw [if_pos hnone, (nextToken_eq_nil_iff s).mp hnone]
    rfl
  · rw [if_neg hnone]
    exact words_takeWhile hnone

/-- The line of a keyword and a name, two by two. -/
def readSelectors (config : Config) : List Bytes → Except Err Config
  | [] => .ok config
  | [_] => .error .fatal
  | kw :: name :: rest => do readSelectors (← applyCriterion config kw name) rest

/-- A keyword at every other place. -/
def Keyworded : List Bytes → Prop
  | [] => True
  | [kw] => IsKeyword kw
  | kw :: _ :: rest => IsKeyword kw ∧ Keyworded rest

theorem Keyworded.head {tok : Bytes} {rest : List Bytes} (h : Keyworded (tok :: rest)) :
    IsKeyword tok := by
  cases rest with
  | nil => exact h
  | cons _ _ => exact h.1

theorem parseMatchCriteria_words (config : Config) (text : Bytes)
    (h : Keyworded (words isspace text)) :
    parseMatchCriteria config text = readSelectors config (words isspace text) := by
  induction hn : text.length using Nat.strongRecOn generalizing config text with
  | ind n ih =>
    rw [parseMatchCriteria]
    by_cases htok : (nextToken text).1 = []
    · rw [words_eq_nextToken, if_pos htok, if_pos htok]
      rfl
    · have hwords := words_eq_nextToken text
      have hname := words_eq_nextToken (nextToken text).2
      have hlen := length_nextToken text
      have hlen' := length_nextToken (nextToken text).2
      have hpos := List.length_pos_of_ne_nil htok
      rw [if_neg htok] at hwords
      rw [hwords] at h ⊢
      rw [if_neg htok, if_pos (show _ ∨ _ from h.head)]
      by_cases hnone : (nextToken (nextToken text).2).1 = []
      · rw [if_pos hnone] at hname
        rw [hname, hnone]
        rfl
      · rw [if_neg hnone] at hname
        rw [hname] at h ⊢
        rw [readSelectors]
        congr 1
        funext config'
        exact ih _ (by omega) config' _ h.2 rfl

theorem take_countWhitespace (s : Bytes) (inv : Bool) :
    s.take (countWhitespace s inv) = s.takeWhile (isspace · != inv) := by
  have hsplit := List.takeWhile_append_dropWhile (p := (isspace · != inv)) (l := s)
  calc s.take (countWhitespace s inv)
      = (s.takeWhile (isspace · != inv) ++ s.dropWhile (isspace · != inv)).take
          (s.takeWhile (isspace · != inv)).length := by rw [hsplit]; rfl
    _ = s.takeWhile (isspace · != inv) := List.take_left

theorem drop_countWhitespace (s : Bytes) (inv : Bool) :
    s.drop (countWhitespace s inv) = s.dropWhile (isspace · != inv) := by
  have hsplit := List.takeWhile_append_dropWhile (p := (isspace · != inv)) (l := s)
  calc s.drop (countWhitespace s inv)
      = (s.takeWhile (isspace · != inv) ++ s.dropWhile (isspace · != inv)).drop
          (s.takeWhile (isspace · != inv)).length := by rw [hsplit]; rfl
    _ = s.dropWhile (isspace · != inv) := List.drop_left

theorem checkMatchSelectorsFrom_eq (found : Bool) (text : Bytes) :
    checkMatchSelectorsFrom found text =
      if (nextToken text).1 = [] then ensure (found = true) .fatal
      else if IsKeyword (nextToken text).1 then
        checkMatchSelectorsFrom true (nextToken (nextToken text).2).2
      else .error .fatal := by
  have hskip : ∀ s : Bytes, s.dropWhile (isspace · != false) = s.dropWhile isspace := by simp
  have htok : ∀ b, (isspace b != true) = !isspace b := by simp
  rw [checkMatchSelectorsFrom]
  simp only [take_countWhitespace, drop_countWhitespace, hskip, htok, nextToken_eq_nil_iff]
  rfl

theorem checkMatchSelectorsFrom_ok_iff (found : Bool) (text : Bytes) :
    checkMatchSelectorsFrom found text = .ok () ↔
      Keyworded (words isspace text) ∧ (found = true ∨ words isspace text ≠ []) := by
  induction hn : text.length using Nat.strongRecOn generalizing found text with
  | ind n ih =>
    rw [checkMatchSelectorsFrom_eq, words_eq_nextToken]
    by_cases htok : (nextToken text).1 = []
    · rw [if_pos htok, if_pos htok, ok_ensure_iff]
      simp [Keyworded]
    · have hname := words_eq_nextToken (nextToken text).2
      have hlen := length_nextToken text
      have hlen' := length_nextToken (nextToken text).2
      have hpos := List.length_pos_of_ne_nil htok
      rw [if_neg htok, if_neg htok]
      by_cases hkw : IsKeyword (nextToken text).1
      · have hrest := ih _ (by omega) true (nextToken (nextToken text).2).2 rfl
        rw [if_pos hkw, hrest]
        by_cases hnone : (nextToken (nextToken text).2).1 = []
        · rw [if_pos hnone] at hname
          rw [hname, nextToken_snd_of_nil hnone]
          simp [Keyworded, hkw]
        · rw [if_neg hnone] at hname
          rw [hname]
          simp [Keyworded, hkw]
      · rw [if_neg hkw]
        simp only [reduceCtorEq, false_iff]
        exact fun h => hkw h.1.head

theorem checkMatchSelectors_ok_iff (text : Bytes) :
    checkMatchSelectors text = .ok () ↔
      Keyworded (words isspace text) ∧ words isspace text ≠ [] := by
  rw [checkMatchSelectors, checkMatchSelectorsFrom_ok_iff]
  simp

/-! What is kept of a line. -/

theorem Usable.ne_nil {name : Bytes} (h : Usable name) : name ≠ [] := by
  rintro rfl
  exact h.2 (by simp [entries])

theorem createString_word {w : Bytes} (hne : w ≠ []) (hw : ∀ b ∈ w, isspace b = false) :
    createString w = .ok w := by
  have hblank : ∀ b ∈ w, isBlank b = false ∧ isLineEnd b = false := by
    intro b hb
    have hspace := hw b hb
    simp only [isspace, isBlank, isLineEnd, decide_eq_false_iff_not, not_or] at hspace ⊢
    refine ⟨⟨hspace.1, ?_⟩, ?_, hspace.1, ?_, ?_⟩ <;>
    · rintro rfl
      exact hspace.2 (by decide)
  obtain ⟨b, rest, rfl⟩ := List.exists_cons_of_ne_nil hne
  have hrest : rest.rdropWhile isLineEnd = rest := by
    rw [List.rdropWhile_eq_self_iff]
    intro hlast
    rw [(hblank _ (List.mem_cons_of_mem b (List.getLast_mem hlast))).2]
    simp
  rw [createString, List.dropWhile_cons_of_neg (by simp [(hblank b List.mem_cons_self).1])]
  dsimp only
  rw [hrest]

def setCriterion (config : Config) (s : Bytes × Bytes) : Config :=
  if s.1 = ascii "User" then { config with usrAppliesTo := some s.2 }
  else { config with groupAppliesTo := some s.2 }

theorem applyCriterion_ok_iff {config config' : Config} {tok name : Bytes}
    (hname : ∀ b ∈ name, isspace b = false) :
    applyCriterion config tok name = .ok config' ↔
      Usable name ∧ setCriterion config (tok, name) = config' := by
  simp only [applyCriterion, ok_bind_iff, ok_ensure_iff, checkMatchList_ok_iff, ok_pure_iff]
  constructor
  · rintro ⟨-, hne, -, husable, out, hout, hconfig⟩
    rw [createString_word hne hname] at hout
    obtain rfl := Except.ok.inj hout
    exact ⟨husable, hconfig⟩
  · rintro ⟨husable, hconfig⟩
    exact ⟨(), husable.ne_nil, (), husable, name, createString_word husable.ne_nil hname, hconfig⟩

theorem readSelectors_ok_iff {config config' : Config} {ws : List Bytes}
    (hws : ∀ w ∈ ws, ∀ b ∈ w, isspace b = false) :
    readSelectors config ws = .ok config' ↔
      (pairs ws).flatMap (fun s => [s.1, s.2]) = ws ∧ (∀ s ∈ pairs ws, Usable s.2) ∧
        (pairs ws).foldl setCriterion config = config' := by
  induction ws using pairs.induct generalizing config with
  | case1 kw name rest ih =>
    have hname : ∀ b ∈ name, isspace b = false := hws name (by simp)
    have hrest (c : Config) : readSelectors c rest = .ok config' ↔ _ :=
      ih fun w hw => hws w (by simp [hw])
    simp only [readSelectors, ok_bind_iff, applyCriterion_ok_iff hname, hrest, pairs,
      List.flatMap_cons, List.forall_mem_cons, List.foldl_cons]
    simp only [List.cons_append, List.nil_append, List.cons.injEq, true_and]
    constructor
    · rintro ⟨c, ⟨husable, rfl⟩, hwhole, hall, hfold⟩
      exact ⟨hwhole, ⟨husable, hall⟩, hfold⟩
    · rintro ⟨hwhole, ⟨husable, hall⟩, hfold⟩
      exact ⟨_, ⟨husable, rfl⟩, hwhole, hall, hfold⟩
  | case2 ws hshort =>
    cases ws with
    | nil => simp [readSelectors, pairs]
    | cons w ws =>
      cases ws with
      | nil => simp [readSelectors, pairs]
      | cons w' ws => exact absurd rfl (hshort w w' ws)

theorem foldl_setCriterion (ps : List (Bytes × Bytes)) (hps : ∀ s ∈ ps, IsKeyword s.1)
    (config : Config) :
    ps.foldl setCriterion config =
      { config with
        usrAppliesTo := (lastFor (ascii "User") ps).or config.usrAppliesTo
        groupAppliesTo := (lastFor (ascii "Group") ps).or config.groupAppliesTo } := by
  have hdiff : ascii "User" ≠ ascii "Group" := by decide
  induction ps generalizing config with
  | nil => rfl
  | cons s ps ih =>
    rw [List.foldl_cons, ih (fun t ht => hps t (List.mem_cons_of_mem s ht)), lastFor_cons,
      lastFor_cons, Option.or_assoc, Option.or_assoc]
    rcases hps s List.mem_cons_self with hs | hs
    · simp [setCriterion, hs, hdiff]
    · simp [setCriterion, hs, hdiff.symm]

theorem keyword_of_keyworded {ws : List Bytes} (h : Keyworded ws) :
    ∀ s ∈ pairs ws, IsKeyword s.1 := by
  induction ws using pairs.induct with
  | case1 kw name rest ih =>
    rw [pairs, List.forall_mem_cons]
    exact ⟨h.1, ih h.2⟩
  | case2 ws hshort =>
    rw [pairs]
    · simp
    · exact hshort

/-- The selectors of the line, in place of what the node had. -/
def withSelectors (config : Config) (text : Bytes) : Config :=
  { config with
    usrAppliesTo := (selected (ascii "User") text).or config.usrAppliesTo
    groupAppliesTo := (selected (ascii "Group") text).or config.groupAppliesTo }

/-- A line that the first scanner accepts is taken by the second one exactly if it consists of
selectors with usable lists, and then for these selectors. -/
theorem parseMatchCriteria_ok_iff {config config' : Config} {text : Bytes}
    (h : checkMatchSelectors text = .ok ()) :
    parseMatchCriteria config text = .ok config' ↔
      Selects text ∧ withSelectors config text = config' := by
  obtain ⟨hkw, hne⟩ := (checkMatchSelectors_ok_iff text).mp h
  have hkeys : ∀ s ∈ selectors text, IsKeyword s.1 := keyword_of_keyworded hkw
  have hfold : (selectors text).foldl setCriterion config = withSelectors config text :=
    foldl_setCriterion (selectors text) hkeys config
  rw [parseMatchCriteria_words config text hkw, readSelectors_ok_iff fun w => not_sep_of_mem_words]
  rw [← selectors, hfold]
  constructor
  · rintro ⟨hwhole, husable, hconfig⟩
    refine ⟨⟨hwhole, ?_, hkeys, husable⟩, hconfig⟩
    intro hnone
    rw [hnone] at hwhole
    exact hne hwhole.symm
  · rintro ⟨hselects, hconfig⟩
    exact ⟨hselects.whole, hselects.usable, hconfig⟩

theorem selected_eq_none_iff (kw text : Bytes) :
    selected kw text = none ↔ ∀ s ∈ selectors text, s.1 ≠ kw :=
  lastFor_eq_none_iff kw (selectors text)

theorem Selects.selected {text : Bytes} (h : Selects text) :
    ¬(Sshd.selected (ascii "User") text = none ∧ Sshd.selected (ascii "Group") text = none) := by
  rintro ⟨husr, hgrp⟩
  obtain ⟨s, hs⟩ := List.exists_mem_of_ne_nil _ h.some
  rw [selected_eq_none_iff] at husr hgrp
  rcases h.keyword s hs with hkw | hkw
  · exact husr s hs hkw
  · exact hgrp s hs hkw

theorem grpMatches_iff {list : Bytes} {grps : List (Option Bytes)}
    (hnames : ∀ name, some name ∈ grps → name.length < 2 ^ 32) :
    grpMatches list grps = true ↔ ∃ name, some name ∈ grps ∧ name ∈ entries list := by
  rw [grpMatches, List.any_eq_true]
  constructor
  · rintro ⟨grp, hgrp, hmatch⟩
    cases grp with
    | none => exact absurd hmatch (by simp)
    | some name => exact ⟨name, hgrp, (matchList_iff (hnames name hgrp) list).mp hmatch⟩
  · rintro ⟨name, hname, hentry⟩
    exact ⟨some name, hname, (matchList_iff (hnames name hname) list).mpr hentry⟩

/-- A node with the selectors of a line applies exactly to those that the line is for. -/
theorem matchApplies_iff {node : Config} {text : Bytes} {usr : Option Bytes}
    {grps : List (Option Bytes)} (hselects : Selects text)
    (husr : node.usrAppliesTo = selected (ascii "User") text)
    (hgrp : node.groupAppliesTo = selected (ascii "Group") text)
    (hname : ∀ name, usr = some name → name.length < 2 ^ 32)
    (hnames : ∀ name, some name ∈ grps → name.length < 2 ^ 32) :
    matchApplies node usr grps = true ↔ Applies text usr grps := by
  have hsome := hselects.selected
  rw [matchApplies, husr, hgrp, if_neg hsome, Bool.and_eq_true, Applies]
  refine and_congr ?_ ?_
  · cases selected (ascii "User") text with
    | none => simp
    | some list =>
      cases usr with
      | none => simp
      | some name => simpa using matchList_iff (hname name rfl) list
  · cases selected (ascii "Group") text with
    | none => simp
    | some list => simpa using grpMatches_iff hnames

end WolfSsh.Sshd
