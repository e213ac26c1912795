import WolfSsh.SshdConfigLoad
import WolfSsh.SshdKeywords
import WolfSsh.SshdMatchLine

/-! The configuration as its files say it: the lines with every Include expanded in place, each
with the Match blocks that it stands in. The nodes that the daemon loads hold what these lines
say. -/

namespace WolfSsh.Sshd

open Fallible Layers

inductive Line where
  | setting (k : Keyword) (v : Value)
  | criteria (text : Bytes)
deriving DecidableEq, Repr

/-- A line, and the Match lines whose blocks it stands in, by their numbers, the innermost last. -/
structure Placed where
  within : List Nat
  line : Line
deriving DecidableEq, Repr

structure MatchLine where
  within : List Nat
  text : Bytes
deriving DecidableEq, Repr

def Placed.matchLine? (p : Placed) : Option MatchLine :=
  match p.line with
  | .setting _ _ => none
  | .criteria text => some ⟨p.within, text⟩

def matchLines (ps : List Placed) : List MatchLine := ps.filterMap Placed.matchLine?

def Placed.setting? (home : Option Nat) (p : Placed) : Option (Keyword × Value) :=
  match p.line with
  | .setting k v => if p.within.getLast? = home then some (k, v) else none
  | .criteria _ => none

/-- The settings of a block, or the global ones, in file order. -/
def settings (ps : List Placed) (home : Option Nat) : List (Keyword × Value) :=
  ps.filterMap (Placed.setting? home)

/-! The lines of a file. -/

/-- The lines that are neither empty nor a comment. -/
def significant (bs : Bytes) : List Bytes :=
  (configLines bs).filterMap fun (line, _) =>
    let current := line.dropWhile isBlank
    if current.head? = some 35 ∨ current.length ≤ 2 then none else some current

/-- The option, the first word behind it, and all that is behind it. -/
def splitLine (l : Bytes) : Option (Opt × Bytes × Bytes) :=
  (findOption l).map fun (opt, name) =>
    let full := (l.drop name.length).drop (countWhitespace (l.drop name.length) false)
    (opt, full.take (countWhitespace full true), full)

def includedFiles (fs : Files) (value : Bytes) : List Bytes :=
  match wildcard value with
  | none => [value]
  | some (front, stop) =>
    let (path, start) := splitPath front
    (((fs.readDir path).map fileNames).getD []).filter (nameMatches start stop) |>.map
      fun name => path ++ 47 :: name

/-- What a setting says of a keyword that a block can override. -/
def settingOf (opt : Opt) (value full : Bytes) : Option Line :=
  match opt.keyword? with
  | none => none
  | some k =>
    match k.read value full with
    | .ok v => some (.setting k v)
    | .error _ => none

/-- What is read so far, and the blocks that the next line stands in. -/
structure Reading where
  placed : List Placed
  within : List Nat

/-- Read a file behind what is read, within the blocks that its Include stands in. -/
abbrev Expand := List Placed → List Nat → Bytes → List Placed

/-- A Match line of a file ends the block of the one before it, and stands in the blocks that the
file does. -/
def expandLine (fs : Files) (expand : Expand) (outer : List Nat) (s : Reading) (l : Bytes) :
    Reading :=
  match splitLine l with
  | none => s
  | some (opt, value, full) =>
    match opt with
    | .include =>
      { s with
        placed := (includedFiles fs value).foldl (fun ps file => expand ps s.within file) s.placed }
    | .match => ⟨s.placed ++ [⟨outer, .criteria full⟩], outer ++ [(matchLines s.placed).length]⟩
    | _ =>
      match settingOf opt value full with
      | none => s
      | some line => { s with placed := s.placed ++ [⟨s.within, line⟩] }

def expandFile (fs : Files) : Nat → Expand
  | 0, ps, _, _ => ps
  | left + 1, ps, outer, file =>
    match fs.openFile file with
    | none => ps
    | some bytes =>
      ((significant bytes).foldl (expandLine fs (expandFile fs left) outer) ⟨ps, outer⟩).placed

/-- The configuration that starts with this file. -/
def expansion (fs : Files) (file : Bytes) : List Placed :=
  expandFile fs maxIncludeDepth [] [] file

/-! What the nodes hold. -/

/-- The nodes are those of the lines read so far. -/
structure Holds (confs : Configs) (ps : List Placed) : Prop where
  count : confs.blocks.length = (matchLines ps).length
  known : ∀ p ∈ ps, ∀ i ∈ p.within, i < confs.blocks.length
  selects : ∀ (i : Nat) node m, confs.blocks[i]? = some node → (matchLines ps)[i]? = some m →
    Selects m.text ∧ node.usrAppliesTo = selected (ascii "User") m.text ∧
      node.groupAppliesTo = selected (ascii "Group") m.text
  layer : ∀ (i : Nat) node, confs.blocks[i]? = some node → ∀ k,
    node.layer.get? k = lastFor k (settings ps (some i))
  clean : ∀ node ∈ confs.blocks, Clean node
  global : confs.head.usrAppliesTo = none ∧ confs.head.groupAppliesTo = none
  globalValue : ∀ k, confs.head.value k = (lastFor k (settings ps none)).getD (configNew.value k)
  globalClean : Clean confs.head

theorem matchLines_append (ps qs : List Placed) :
    matchLines (ps ++ qs) = matchLines ps ++ matchLines qs := List.filterMap_append

theorem settings_append (ps qs : List Placed) (home : Option Nat) :
    settings (ps ++ qs) home = settings ps home ++ settings qs home := List.filterMap_append

theorem holds_new : Holds ⟨configNew, []⟩ [] where
  count := rfl
  known p hp := absurd hp List.not_mem_nil
  selects _ _ _ hnode := by cases hnode
  layer _ _ hnode := by cases hnode
  clean node hnode := absurd hnode List.not_mem_nil
  global := ⟨rfl, rfl⟩
  globalValue _ := rfl
  globalClean := clean_configNew

theorem Holds.setNode {confs : Configs} {ps ps' : List Placed} {cursor : Option Nat}
    {node' : Config} (h : Holds confs ps) (hcursor : ∀ i, cursor = some i → i < confs.blocks.length)
    (hlines : matchLines ps' = matchLines ps)
    (hknown : ∀ p ∈ ps', ∀ i ∈ p.within, i < confs.blocks.length)
    (hother : ∀ home, home ≠ cursor → settings ps' home = settings ps home)
    (husr : node'.usrAppliesTo = (confs.node cursor).usrAppliesTo)
    (hgroup : node'.groupAppliesTo = (confs.node cursor).groupAppliesTo) (hclean : Clean node')
    (hlayer : ∀ i, cursor = some i → ∀ k,
      node'.layer.get? k = lastFor k (settings ps' (some i)))
    (hvalue : cursor = none → ∀ k,
      node'.value k = (lastFor k (settings ps' none)).getD (configNew.value k)) :
    Holds (confs.setNode cursor node') ps' := by
  cases cursor with
  | none =>
    refine ⟨by rw [hlines]; exact h.count, hknown, ?_, ?_, h.clean, ?_, hvalue rfl, hclean⟩
    · rw [hlines]
      exact h.selects
    · intro i node hnode k
      rw [hother (some i) (by simp)]
      exact h.layer i node hnode k
    · exact ⟨husr.trans h.global.1, hgroup.trans h.global.2⟩
  | some i =>
    have hi := hcursor i rfl
    have hnode : confs.blocks[i]? = some (confs.node (some i)) := by
      rw [Configs.node, List.getD_eq_getElem?_getD, List.getElem?_eq_getElem hi]
      rfl
    refine ⟨?_, ?_, ?_, ?_, ?_, h.global, ?_, h.globalClean⟩
    · rw [hlines, ← h.count]
      exact List.length_set
    · intro p hp j hj
      rw [show (confs.setNode (some i) node').blocks.length = confs.blocks.length from
        List.length_set]
      exact hknown p hp j hj
    · intro j node m hj hm
      rw [hlines] at hm
      rw [Configs.setNode, List.getElem?_set] at hj
      by_cases hij : i = j
      · subst hij
        rw [if_pos rfl, if_pos hi] at hj
        obtain rfl := Option.some.inj hj
        obtain ⟨hselects, husr', hgroup'⟩ := h.selects i _ m hnode hm
        exact ⟨hselects, husr.trans husr', hgroup.trans hgroup'⟩
      · rw [if_neg hij] at hj
        exact h.selects j node m hj hm
    · intro j node hj k
      rw [Configs.setNode, List.getElem?_set] at hj
      by_cases hij : i = j
      · subst hij
        rw [if_pos rfl, if_pos hi] at hj
        obtain rfl := Option.some.inj hj
        exact hlayer i rfl k
      · rw [if_neg hij] at hj
        rw [hother (some j) (by simpa using Ne.symm hij)]
        exact h.layer j node hj k
    · intro node hmem
      rcases List.mem_or_eq_of_mem_set hmem with hold | rfl
      · exact h.clean node hold
      · exact hclean
    · intro k
      rw [hother none (by simp)]
      exact h.globalValue k

/-! One line. -/

/-- The node with the line written to it, and noted in its mask. -/
def noted (opt : Opt) (node : Config) : Config :=
  if opt.hasBit then { node with setMask := node.setMask ||| opt.bit } else node

theorem noted_value (opt : Opt) (node : Config) : (noted opt node).value = node.value := by
  rw [noted]
  split
  · funext k
    cases k <;> rfl
  · rfl

theorem inMask_noted (opt : Opt) (node : Config) (k : Keyword) :
    inMask (noted opt node).setMask k.opt = (inMask node.setMask k.opt || decide (opt = k.opt)) := by
  rw [noted]
  cases hbit : opt.hasBit with
  | true =>
    rw [if_pos rfl]
    exact inMask_or_bit k.hasBit _
  | false =>
    have hne : opt ≠ k.opt := by
      rintro rfl
      rw [k.hasBit] at hbit
      cases hbit
    rw [if_neg Bool.false_ne_true]
    simp [hne]

theorem noted_get? (opt : Opt) (node : Config) (k : Keyword) :
    (noted opt node).layer.get? k =
      if k.opt = opt then some (node.value k) else node.layer.get? k := by
  rw [Layer.get?, Layer.get?]
  simp only [Config.layer, noted_value, inMask_noted]
  by_cases hopt : k.opt = opt
  · simp [hopt]
  · simp only [hopt, Ne.symm hopt, decide_false, Bool.or_false, if_false]
    rfl

/-- Where the loader and the reader of the lines stand. -/
structure At (s : Loading) (r : Reading) : Prop where
  holds : Holds s.confs r.placed
  cursor : s.cursor = r.within.getLast?
  known : ∀ i ∈ r.within, i < s.confs.blocks.length

theorem At.cursor_lt {s : Loading} {r : Reading} (h : At s r) :
    ∀ i, s.cursor = some i → i < s.confs.blocks.length := by
  intro i hi
  rw [h.cursor] at hi
  exact h.known i (List.mem_of_getLast? hi)

theorem At.node_clean {s : Loading} {r : Reading} (h : At s r) :
    Clean (s.confs.node s.cursor) := by
  cases hcursor : s.cursor with
  | none => exact h.holds.globalClean
  | some i =>
    have hi := h.cursor_lt i hcursor
    rw [Configs.node, List.getD_eq_getElem?_getD, List.getElem?_eq_getElem hi]
    exact h.holds.clean _ (List.getElem_mem hi)

theorem blocks_setNode (confs : Configs) (cursor : Option Nat) (node : Config) :
    (confs.setNode cursor node).blocks.length = confs.blocks.length := by
  cases cursor with
  | none => rfl
  | some i => exact List.length_set

theorem settingOf_of_sets {opt : Opt} {value full : Bytes} {c c' : Config}
    (h : Sets opt value full c c') :
    (opt.keyword? = none ∧ settingOf opt value full = none) ∨
      ∃ k : Keyword, k.opt = opt ∧ settingOf opt value full = some (.setting k (c'.value k)) := by
  cases hk : opt.keyword? with
  | none => exact .inl ⟨rfl, by rw [settingOf, hk]⟩
  | some k =>
    have hopt := Opt.opt_of_keyword? hk
    exact .inr ⟨k, hopt, by rw [settingOf, hk]; simp only [h.given k hopt]⟩

theorem Sets.get? {opt : Opt} {value full : Bytes} {c c' : Config}
    (h : Sets opt value full c c') (k : Keyword) :
    (noted opt c').layer.get? k = if k.opt = opt then some (c'.value k) else c.layer.get? k := by
  rw [noted_get?]
  by_cases hopt : k.opt = opt
  · rw [if_pos hopt, if_pos hopt]
  · rw [if_neg hopt, if_neg hopt]
    simp only [Layer.get?, Config.layer, h.mask, h.kept k hopt]
    rfl

theorem settings_setting (within : List Nat) (k : Keyword) (v : Value) (home : Option Nat) :
    settings [⟨within, .setting k v⟩] home = if within.getLast? = home then [(k, v)] else [] := by
  by_cases hhome : within.getLast? = home <;> simp [settings, Placed.setting?, hhome]

theorem At.set {s : Loading} {r : Reading} (h : At s r) {opt : Opt} {value full : Bytes}
    {node : Config} (hset : setOption (s.confs.node s.cursor) opt value full = .ok node) :
    At { s with confs := s.confs.setNode s.cursor (noted opt node) }
      (match settingOf opt value full with
        | none => r
        | some line => { r with placed := r.placed ++ [⟨r.within, line⟩] }) := by
  have hsets := setOption_sets hset
  have husr : (noted opt node).usrAppliesTo = (s.confs.node s.cursor).usrAppliesTo := by
    rw [noted]
    split <;> exact hsets.usr
  have hgroup : (noted opt node).groupAppliesTo = (s.confs.node s.cursor).groupAppliesTo := by
    rw [noted]
    split <;> exact hsets.group
  have hclean : Clean (noted opt node) := by
    have hnode := hsets.clean h.node_clean
    rw [noted]
    split
    · cases hnode
      constructor <;> assumption
    · exact hnode
  have hold : ∀ i, s.cursor = some i → ∀ k,
      (s.confs.node s.cursor).layer.get? k = lastFor k (settings r.placed (some i)) := by
    intro i hi k
    refine h.holds.layer i _ ?_ k
    rw [hi, Configs.node, List.getD_eq_getElem?_getD, List.getElem?_eq_getElem (h.cursor_lt i hi)]
    rfl
  have holdValue : s.cursor = none → ∀ k, (s.confs.node s.cursor).value k =
      (lastFor k (settings r.placed none)).getD (configNew.value k) := by
    intro hnone k
    rw [hnone]
    exact h.holds.globalValue k
  rcases settingOf_of_sets hsets with ⟨hnone, hline⟩ | ⟨k, rfl, hline⟩
  · have hne : ∀ k : Keyword, k.opt ≠ opt := by
      rintro k rfl
      rw [k.keyword?_opt] at hnone
      cases hnone
    rw [hline]
    refine ⟨h.holds.setNode h.cursor_lt rfl h.holds.known (fun _ _ => rfl) husr hgroup hclean
      ?_ ?_, h.cursor, ?_⟩
    · intro i hi k
      rw [hsets.get?, if_neg (hne k)]
      exact hold i hi k
    · intro hcursor k
      rw [noted_value, hsets.kept k (hne k)]
      exact holdValue hcursor k
    · rw [blocks_setNode]
      exact h.known
  · rw [hline]
    refine ⟨h.holds.setNode h.cursor_lt ?_ ?_ ?_ husr hgroup hclean ?_ ?_, h.cursor, ?_⟩
    · rw [matchLines_append]
      exact List.append_nil _
    · intro p hp
      rcases List.mem_append.mp hp with hp | hp
      · exact h.holds.known p hp
      · rw [List.mem_singleton.mp hp]
        exact h.known
    · intro home hhome
      rw [settings_append, settings_setting, if_neg, List.append_nil]
      rw [← h.cursor]
      exact Ne.symm hhome
    · intro i hi k'
      have hhome : r.within.getLast? = some i := h.cursor.symm.trans hi
      rw [hsets.get?, settings_append, settings_setting, if_pos hhome, lastFor_append,
        lastFor_singleton]
      by_cases hk : k' = k
      · subst hk
        rw [if_pos rfl, if_pos rfl]
        rfl
      · rw [if_neg (fun hopt => hk (Keyword.opt_inj hopt)), if_neg (Ne.symm hk)]
        exact hold i hi k'
    · intro hcursor k'
      have hhome : r.within.getLast? = none := h.cursor.symm.trans hcursor
      rw [noted_value, settings_append, settings_setting, if_pos hhome, lastFor_append,
        lastFor_singleton]
      by_cases hk : k' = k
      · subst hk
        rw [if_pos rfl]
        rfl
      · rw [if_neg (Ne.symm hk), hsets.kept k' (fun hopt => hk (Keyword.opt_inj hopt))]
        exact holdValue hcursor k'
    · rw [blocks_setNode]
      exact h.known

/-! A Match line. -/

theorem settings_criteria (within : List Nat) (text : Bytes) (home : Option Nat) :
    settings [⟨within, .criteria text⟩] home = [] := rfl

theorem settings_fresh {ps : List Placed} {n : Nat} (h : ∀ p ∈ ps, ∀ i ∈ p.within, i < n) :
    settings ps (some n) = [] := by
  rw [settings, List.filterMap_eq_nil_iff]
  intro p hp
  rw [Placed.setting?]
  split
  · rw [if_neg]
    intro hlast
    exact absurd (h p hp n (List.mem_of_getLast? hlast)) (Nat.lt_irrefl n)
  · rfl

theorem handleMatch_ok {confs : Configs} {full : Bytes} {s' : Loading} (hclean : Clean confs.head)
    (h : handleMatch confs full = .ok s') :
    Selects full ∧ ∃ newConf : Config,
      s' = ⟨{ confs with blocks := confs.blocks ++ [newConf] }, some confs.blocks.length⟩ ∧
      newConf.usrAppliesTo = selected (ascii "User") full ∧
      newConf.groupAppliesTo = selected (ascii "Group") full ∧ newConf.setMask = 0 ∧
      Clean newConf := by
  rw [handleMatch, ok_bind_iff] at h
  obtain ⟨⟨⟩, hcheck, h⟩ := h
  rw [configCopy_of_clean hclean] at h
  dsimp only at h
  rw [ok_bind_iff] at h
  obtain ⟨newConf, hparse, h⟩ := h
  obtain ⟨hselects, rfl⟩ := (parseMatchCriteria_ok_iff hcheck).mp hparse
  refine ⟨hselects, _, ((ok_pure_iff).mp h).symm, ?_, ?_, rfl, ?_⟩
  · exact Option.or_none
  · exact Option.or_none
  · cases hclean
    constructor <;> assumption

theorem getElem?_concat {α : Type} {l : List α} {a x : α} {i : Nat}
    (h : (l ++ [a])[i]? = some x) : l[i]? = some x ∨ i = l.length ∧ x = a := by
  rcases Nat.lt_or_ge i l.length with hi | hi
  · rw [List.getElem?_append_left hi] at h
    exact .inl h
  · rw [List.getElem?_append_right hi, List.getElem?_singleton] at h
    split at h
    · exact .inr ⟨by omega, (Option.some.inj h).symm⟩
    · cases h

theorem Holds.match {confs : Configs} {ps : List Placed} (h : Holds confs ps) {outer : List Nat}
    (houter : ∀ i ∈ outer, i < confs.blocks.length) {full : Bytes} (hselects : Selects full)
    {newConf : Config} (husr : newConf.usrAppliesTo = selected (ascii "User") full)
    (hgroup : newConf.groupAppliesTo = selected (ascii "Group") full) (hmask : newConf.setMask = 0)
    (hclean : Clean newConf) :
    Holds { confs with blocks := confs.blocks ++ [newConf] }
      (ps ++ [⟨outer, .criteria full⟩]) := by
  have hlines : matchLines (ps ++ [⟨outer, .criteria full⟩]) = matchLines ps ++ [⟨outer, full⟩] :=
    matchLines_append ps _
  have hsettings : ∀ home, settings (ps ++ [⟨outer, .criteria full⟩]) home = settings ps home := by
    intro home
    rw [settings_append, settings_criteria, List.append_nil]
  refine ⟨?_, ?_, ?_, ?_, ?_, h.global, ?_, h.globalClean⟩
  · rw [hlines, List.length_append, List.length_append, h.count]
    rfl
  · intro p hp i hi
    rw [List.length_append]
    refine Nat.lt_add_right 1 ?_
    rcases List.mem_append.mp hp with hp | hp
    · exact h.known p hp i hi
    · rw [List.mem_singleton.mp hp] at hi
      exact houter i hi
  · intro i node m hnode hm
    rw [hlines] at hm
    rcases getElem?_concat hnode with hnode | ⟨rfl, rfl⟩
    · rcases getElem?_concat hm with hm | ⟨rfl, -⟩
      · exact h.selects i node m hnode hm
      · rw [← h.count, List.getElem?_eq_none (Nat.le_refl _)] at hnode
        cases hnode
    · rw [h.count, List.getElem?_concat_length] at hm
      obtain rfl := Option.some.inj hm
      exact ⟨hselects, husr, hgroup⟩
  · intro i node hnode k
    rw [hsettings]
    rcases getElem?_concat hnode with hnode | ⟨rfl, rfl⟩
    · exact h.layer i node hnode k
    · rw [settings_fresh h.known, Layer.get?, Config.layer, hmask]
      exact if_neg (by simp [inMask])
  · intro node hnode
    rcases List.mem_append.mp hnode with hnode | hnode
    · exact h.clean node hnode
    · rw [List.mem_singleton.mp hnode]
      exact hclean
  · intro k
    rw [hsettings]
    exact h.globalValue k

theorem At.match {s s' : Loading} {r : Reading} (h : At s r) {outer : List Nat}
    (houter : ∀ i ∈ outer, i < s.confs.blocks.length) {full : Bytes}
    (hmatch : handleMatch s.confs full = .ok s') :
    At s' ⟨r.placed ++ [⟨outer, .criteria full⟩], outer ++ [(matchLines r.placed).length]⟩ ∧
      s.confs.blocks.length ≤ s'.confs.blocks.length := by
  obtain ⟨hselects, newConf, rfl, husr, hgroup, hmask, hclean⟩ :=
    handleMatch_ok h.holds.globalClean hmatch
  refine ⟨⟨h.holds.match houter hselects husr hgroup hmask hclean, ?_, ?_⟩, ?_⟩
  · rw [List.getLast?_concat, ← h.holds.count]
  · intro i hi
    dsimp only
    rw [List.length_append, List.length_singleton]
    rcases List.mem_append.mp hi with hi | hi
    · exact Nat.lt_succ_of_lt (houter i hi)
    · rw [List.mem_singleton.mp hi, ← h.holds.count]
      exact Nat.lt_succ_self _
  · dsimp only
    rw [List.length_append]
    exact Nat.le_add_right _ _

/-! Whole files. -/

/-- What is loaded from a file is what its lines say. -/
def Agrees (load : Load) (expand : Expand) : Prop :=
  ∀ (s : Loading) (r : Reading) file confs', At s r → load s.confs s.cursor file = .ok confs' →
    Holds confs' (expand r.placed r.within file) ∧ s.confs.blocks.length ≤ confs'.blocks.length

theorem At.confs {s : Loading} {r : Reading} (h : At s r) {confs' : Configs} {ps : List Placed}
    (hholds : Holds confs' ps) (hle : s.confs.blocks.length ≤ confs'.blocks.length) :
    At { s with confs := confs' } { r with placed := ps } :=
  ⟨hholds, h.cursor, fun i hi => Nat.lt_of_lt_of_le (h.known i hi) hle⟩

theorem Agrees.loadAll {load : Load} {expand : Expand} (hload : Agrees load expand) {pathMax : Nat}
    {path : Bytes} {s : Loading} {r : Reading} (h : At s r) {names : List Bytes} {confs' : Configs}
    (hall : loadAll pathMax load s.cursor path s.confs names = .ok confs') :
    Holds confs' ((names.map fun name => path ++ 47 :: name).foldl
        (fun ps file => expand ps r.within file) r.placed) ∧
      s.confs.blocks.length ≤ confs'.blocks.length := by
  induction names generalizing s r with
  | nil =>
    obtain rfl := Except.ok.inj hall
    exact ⟨h.holds, Nat.le_refl _⟩
  | cons name names ih =>
    simp only [Sshd.loadAll, ok_bind_iff] at hall
    obtain ⟨-, -, confs, hfile, hrest⟩ := hall
    obtain ⟨hholds, hle⟩ := hload s r _ confs h hfile
    obtain ⟨hholds', hle'⟩ := ih (h.confs hholds hle) hrest
    exact ⟨hholds', hle.trans hle'⟩

theorem Agrees.handleInclude {fs : Files} {load : Load} {expand : Expand}
    (hload : Agrees load expand) {s : Loading} {r : Reading} (h : At s r) {value : Bytes}
    {confs' : Configs} (hinclude : handleInclude fs load s.confs s.cursor value = .ok confs') :
    Holds confs' ((includedFiles fs value).foldl (fun ps file => expand ps r.within file)
        r.placed) ∧ s.confs.blocks.length ≤ confs'.blocks.length := by
  rw [Sshd.handleInclude] at hinclude
  split at hinclude
  · cases hinclude
  · rw [includedFiles]
    cases hwild : wildcard value with
    | none =>
      rw [hwild] at hinclude
      exact hload s r value confs' h hinclude
    | some parts =>
      obtain ⟨front, stop⟩ := parts
      rw [hwild] at hinclude
      dsimp only at hinclude ⊢
      cases hdir : fs.readDir (splitPath front).1 with
      | none =>
        rw [hdir] at hinclude
        cases hinclude
      | some entries =>
        rw [hdir] at hinclude
        exact hload.loadAll h hinclude

theorem Agrees.handleConfigOption {fs : Files} {load : Load} {expand : Expand}
    (hload : Agrees load expand) {s s' : Loading} {r : Reading} (h : At s r) {outer : List Nat}
    (houter : ∀ i ∈ outer, i < s.confs.blocks.length) {opt : Opt} {value full l : Bytes}
    (hsplit : splitLine l = some (opt, value, full))
    (hopt : handleConfigOption fs load s opt value full = .ok s') :
    At s' (expandLine fs expand outer r l) ∧ s.confs.blocks.length ≤ s'.confs.blocks.length := by
  rw [expandLine, hsplit]
  cases opt
  case «include» =>
    simp only [Sshd.handleConfigOption, ok_bind_iff, ok_pure_iff] at hopt
    obtain ⟨confs', hinclude, rfl⟩ := hopt
    obtain ⟨hholds, hle⟩ := hload.handleInclude h hinclude
    exact ⟨h.confs hholds hle, hle⟩
  case «match» => exact h.match houter hopt
  all_goals
    simp only [Sshd.handleConfigOption, ok_bind_iff, ok_pure_iff] at hopt
    obtain ⟨node, hset, rfl⟩ := hopt
    exact ⟨h.set hset, Nat.le_of_eq (blocks_setNode _ _ _).symm⟩

theorem Agrees.parseConfigLine {fs : Files} {load : Load} {expand : Expand}
    (hload : Agrees load expand) {s s' : Loading} {r : Reading} (h : At s r) {outer : List Nat}
    (houter : ∀ i ∈ outer, i < s.confs.blocks.length) {l : Bytes}
    (hline : parseConfigLine fs load s l = .ok s') :
    At s' (expandLine fs expand outer r l) ∧ s.confs.blocks.length ≤ s'.confs.blocks.length := by
  rw [Sshd.parseConfigLine] at hline
  cases hfind : findOption l with
  | none =>
    rw [hfind] at hline
    cases hline
  | some found =>
    obtain ⟨opt, name⟩ := found
    rw [hfind] at hline
    dsimp only at hline
    split at hline
    · cases hline
    · exact hload.handleConfigOption h houter (by rw [splitLine, hfind]; rfl) hline

theorem Agrees.parseLines {fs : Files} {load : Load} {expand : Expand}
    (hload : Agrees load expand) {outer : List Nat} (lines : List (Bytes × Bool)) {s s' : Loading}
    {r : Reading} (h : At s r) (houter : ∀ i ∈ outer, i < s.confs.blocks.length)
    (hlines : parseLines fs load s lines = .ok s') :
    At s' ((lines.filterMap fun (line, _) =>
        let current := line.dropWhile isBlank
        if current.head? = some 35 ∨ current.length ≤ 2 then none else some current).foldl
          (expandLine fs expand outer) r) ∧
      s.confs.blocks.length ≤ s'.confs.blocks.length := by
  induction lines generalizing s r with
  | nil =>
    obtain rfl := Except.ok.inj hlines
    exact ⟨h, Nat.le_refl _⟩
  | cons line lines ih =>
    obtain ⟨line, tooLong⟩ := line
    rw [Sshd.parseLines] at hlines
    rw [List.filterMap_cons]
    dsimp only at hlines ⊢
    by_cases hcomment : (line.dropWhile isBlank).head? = some 35
    · rw [if_pos hcomment] at hlines
      rw [if_pos (.inl hcomment)]
      exact ih h houter hlines
    · rw [if_neg hcomment] at hlines
      cases tooLong with
      | true =>
        rw [if_pos rfl] at hlines
        cases hlines
      | false =>
        rw [if_neg Bool.false_ne_true] at hlines
        by_cases hshort : (line.dropWhile isBlank).length ≤ 2
        · rw [if_pos hshort] at hlines
          rw [if_pos (.inr hshort)]
          exact ih h houter hlines
        · rw [if_neg hshort, ok_bind_iff] at hlines
          obtain ⟨s₁, hline, hrest⟩ := hlines
          rw [if_neg (not_or.mpr ⟨hcomment, hshort⟩)]
          obtain ⟨h₁, hle⟩ := hload.parseConfigLine h houter hline
          obtain ⟨h', hle'⟩ := ih h₁ (fun i hi => Nat.lt_of_lt_of_le (houter i hi) hle) hrest
          exact ⟨h', hle.trans hle'⟩

theorem configLoadFrom_agrees (fs : Files) (left : Nat) :
    Agrees (configLoadFrom fs left) (expandFile fs left) := by
  induction left with
  | zero =>
    intro s r file confs' _ hload
    cases hload
  | succ left ih =>
    intro s r file confs' h hload
    rw [configLoadFrom] at hload
    rw [expandFile]
    cases hfile : fs.openFile file with
    | none =>
      rw [hfile] at hload
      cases hload
    | some bytes =>
      rw [hfile] at hload
      simp only [ok_bind_iff, ok_pure_iff] at hload
      obtain ⟨s', hlines, rfl⟩ := hload
      obtain ⟨h', hle⟩ := ih.parseLines (configLines bytes) h h.known hlines
      exact ⟨h'.holds, hle⟩

theorem configLoad_holds {fs : Files} {file : Bytes} {confs : Configs}
    (hload : configLoad fs file = .ok confs) : Holds confs (expansion fs file) :=
  (configLoadFrom_agrees fs maxIncludeDepth ⟨⟨configNew, []⟩, none⟩ ⟨[], []⟩ file confs
    ⟨holds_new, rfl, fun _ hi => absurd hi List.not_mem_nil⟩ hload).1

end WolfSsh.Sshd
