import WolfSsh.SshdExpansion

/-! The configuration that a user gets, against what the files say. -/

namespace WolfSsh.Sshd

open Fallible Layers

def BlockApplies (ps : List Placed) (usr : Option Bytes) (grps : List (Option Bytes)) (i : Nat) :
    Prop :=
  ∃ m, (matchLines ps)[i]? = some m ∧ Applies m.text usr grps

/-- Block `i` is the first one in file order that applies and sets the keyword, and the last line
of it that does gives `v`. -/
structure InForce (ps : List Placed) (usr : Option Bytes) (grps : List (Option Bytes)) (k : Keyword)
    (i : Nat) (v : Value) : Prop where
  applies : BlockApplies ps usr grps i
  value : lastFor k (settings ps (some i)) = some v
  first : ∀ j < i, BlockApplies ps usr grps j → lastFor k (settings ps (some j)) = none

/-- What the final global lines say. -/
def globalValue (ps : List Placed) (k : Keyword) : Value :=
  (lastFor k (settings ps none)).getD (configNew.value k)

/-- The configuration of a user is what the files say of the user. -/
structure Resolves (ps : List Placed) (confs : Configs) (usr : Option Bytes)
    (grps : List (Option Bytes)) : Prop where
  value : ∃ conf, getUserConf confs usr grps = some conf ∧ ∀ k,
    (∀ i v, InForce ps usr grps k i v → conf.value k = v) ∧
      ((∀ i v, ¬InForce ps usr grps k i v) → conf.value k = globalValue ps k)
  blocks : confs.blocks.length = (matchLines ps).length
  applies : ∀ (i : Nat) node, confs.blocks[i]? = some node →
    (matchApplies node usr grps = true ↔ BlockApplies ps usr grps i)
  selectors : ∀ m ∈ matchLines ps, Selects m.text
  read : ∀ config config' text, checkMatchSelectors text = .ok () →
    (parseMatchCriteria config text = .ok config' ↔
      Selects text ∧ withSelectors config text = config')
  enclosed : ∀ k i v, InForce ps usr grps k i v → ∀ m, (matchLines ps)[i]? = some m →
    ∀ j ∈ m.within, BlockApplies ps usr grps j

/-- A block that applies though one around it does not sets nothing that an earlier block has not
set for the user. -/
def NoEscape (ps : List Placed) (usr : Option Bytes) (grps : List (Option Bytes)) : Prop :=
  ∀ (i : Nat) m, (matchLines ps)[i]? = some m → Applies m.text usr grps →
    (∃ j ∈ m.within, ¬BlockApplies ps usr grps j) →
    ∀ k v, lastFor k (settings ps (some i)) = some v →
      ∃ j < i, BlockApplies ps usr grps j ∧ lastFor k (settings ps (some j)) ≠ none

/-! What composition gives. -/

theorem composeFrom_layer (usr : Option Bytes) (grps : List (Option Bytes)) {nodes : List Config}
    (hclean : ∀ node ∈ nodes, Clean node) (dst : Config) :
    ∃ dst', composeFrom usr grps dst nodes = .ok dst' ∧
      dst'.layer =
        ((nodes.filter (matchApplies · usr grps)).map Config.layer).foldl Layer.under dst.layer := by
  induction nodes generalizing dst with
  | nil => exact ⟨dst, rfl, rfl⟩
  | cons node nodes ih =>
    have hrest := ih fun n hn => hclean n (List.mem_cons_of_mem node hn)
    rw [composeFrom]
    cases happlies : matchApplies node usr grps with
    | true =>
      obtain ⟨taken, htaken, hlayer⟩ :=
        configComposeFrom_layer dst (hclean node List.mem_cons_self)
      obtain ⟨dst', hdst', hlayer'⟩ := hrest taken
      refine ⟨dst', ?_, ?_⟩
      · rw [if_pos rfl, htaken]
        exact hdst'
      · rw [List.filter_cons_of_pos (p := (matchApplies · usr grps)) happlies, List.map_cons,
          List.foldl_cons, ← hlayer]
        exact hlayer'
    | false =>
      obtain ⟨dst', hdst', hlayer'⟩ := hrest dst
      refine ⟨dst', ?_, ?_⟩
      · rw [if_neg Bool.false_ne_true]
        exact hdst'
      · rw [List.filter_cons_of_neg (p := (matchApplies · usr grps)) (by simp [happlies])]
        exact hlayer'

theorem getUserConf_value {confs : Configs} {ps : List Placed} (h : Holds confs ps)
    (usr : Option Bytes) (grps : List (Option Bytes)) :
    ∃ conf, getUserConf confs usr grps = some conf ∧ ∀ k, conf.value k =
      ((((confs.blocks.filter (matchApplies · usr grps)).map Config.layer).findSome?
        (·.get? k))).getD (globalValue ps k) := by
  have hhead : matchApplies confs.head usr grps = false := by
    rw [matchApplies, if_pos h.global]
  have hclean : ∀ node ∈ confs.head :: confs.blocks, Clean node :=
    List.forall_mem_cons.mpr ⟨h.globalClean, h.clean⟩
  obtain ⟨conf, hconf, hlayer⟩ := composeFrom_layer usr grps hclean
    { confs.head with usrAppliesTo := none, groupAppliesTo := none, setMask := 0 }
  refine ⟨conf, ?_, fun k => ?_⟩
  · rw [getUserConf, configCopy_of_clean h.globalClean]
    dsimp only
    rw [hconf]
    rfl
  · have hbase : Config.layer
        { confs.head with usrAppliesTo := none, groupAppliesTo := none, setMask := 0 } =
          Layer.base (globalValue ps) := by
      rw [Config.layer, Layer.base, Layer.mk.injEq]
      constructor
      · funext k
        simp [inMask]
      · funext k
        rw [globalValue, ← h.globalValue k]
        cases k <;> rfl
    rw [List.filter_cons_of_neg (p := (matchApplies · usr grps)) (by simp [hhead]), hbase] at hlayer
    rw [← Layer.foldl_under_base, ← hlayer]
    rfl

theorem findSome?_filter_map {α β γ : Type} (p : α → Bool) (f : α → β) (g : β → Option γ)
    (l : List α) :
    ((l.filter p).map f).findSome? g = l.findSome? fun x => if p x then g (f x) else none := by
  induction l with
  | nil => rfl
  | cons a l ih =>
    cases ha : p a <;> simp [ha, ih, List.findSome?_cons]

theorem Holds.applies {confs : Configs} {ps : List Placed} (h : Holds confs ps)
    {usr : Option Bytes} {grps : List (Option Bytes)}
    (hname : ∀ name, usr = some name → name.length < 2 ^ 32)
    (hnames : ∀ name, some name ∈ grps → name.length < 2 ^ 32) (i : Nat) (node : Config)
    (hnode : confs.blocks[i]? = some node) :
    matchApplies node usr grps = true ↔ BlockApplies ps usr grps i := by
  have hi : i < (matchLines ps).length := by
    rw [← h.count]
    exact (List.getElem?_eq_some_iff.mp hnode).1
  have hm : (matchLines ps)[i]? = some (matchLines ps)[i] := List.getElem?_eq_getElem hi
  obtain ⟨hselects, husr, hgroup⟩ := h.selects i node _ hnode hm
  rw [matchApplies_iff hselects husr hgroup hname hnames, BlockApplies, hm]
  simp

theorem Holds.inForce_iff {confs : Configs} {ps : List Placed} (h : Holds confs ps)
    {usr : Option Bytes} {grps : List (Option Bytes)}
    (hname : ∀ name, usr = some name → name.length < 2 ^ 32)
    (hnames : ∀ name, some name ∈ grps → name.length < 2 ^ 32) (k : Keyword) (v : Value) :
    (((confs.blocks.filter (matchApplies · usr grps)).map Config.layer).findSome?
      (·.get? k)) = some v ↔ ∃ i, InForce ps usr grps k i v := by
  rw [findSome?_filter_map]
  constructor
  · intro hfind
    obtain ⟨i, node, hnode, hv, hfirst⟩ := exists_getElem?_of_findSome? hfind
    have happlies : matchApplies node usr grps = true := by
      by_contra hnot
      rw [if_neg hnot] at hv
      cases hv
    rw [if_pos happlies] at hv
    refine ⟨i, (h.applies hname hnames i node hnode).mp happlies, ?_, ?_⟩
    · rw [← h.layer i node hnode]
      exact hv
    · intro j hj hblock
      have hlt : j < confs.blocks.length :=
        hj.trans (List.getElem?_eq_some_iff.mp hnode).1
      have hother : confs.blocks[j]? = some confs.blocks[j] := List.getElem?_eq_getElem hlt
      have hnone := hfirst j hj _ hother
      rw [if_pos ((h.applies hname hnames j _ hother).mpr hblock), h.layer j _ hother] at hnone
      exact hnone
  · rintro ⟨i, hforce⟩
    have hlt : i < confs.blocks.length := by
      obtain ⟨m, hm, -⟩ := hforce.applies
      rw [h.count]
      exact (List.getElem?_eq_some_iff.mp hm).1
    have hnode : confs.blocks[i]? = some confs.blocks[i] := List.getElem?_eq_getElem hlt
    refine findSome?_of_getElem? hnode ?_ ?_
    · rw [if_pos ((h.applies hname hnames i _ hnode).mpr hforce.applies), h.layer i _ hnode]
      exact hforce.value
    · intro j hj node hother
      split
      · rename_i happlies
        rw [h.layer j node hother]
        exact hforce.first j hj ((h.applies hname hnames j node hother).mp happlies)
      · rfl

theorem enclosed_iff (ps : List Placed) (usr : Option Bytes) (grps : List (Option Bytes)) :
    (∀ k i v, InForce ps usr grps k i v → ∀ m, (matchLines ps)[i]? = some m →
      ∀ j ∈ m.within, BlockApplies ps usr grps j) ↔ NoEscape ps usr grps := by
  constructor
  · rintro henclosed i m hm happlies ⟨j, hj, hout⟩ k v hv
    by_contra hfirst
    refine hout (henclosed k i v ⟨⟨m, hm, happlies⟩, hv, ?_⟩ m hm j hj)
    intro j' hj' hblock
    by_contra hset
    exact hfirst ⟨j', hj', hblock, hset⟩
  · intro hescape k i v hforce m hm j hj
    by_contra hout
    obtain ⟨m', hm', happlies⟩ := hforce.applies
    obtain rfl : m' = m := Option.some.inj (hm'.symm.trans hm)
    obtain ⟨j', hj', hblock, hset⟩ := hescape i m' hm' happlies ⟨j, hj, hout⟩ k v hforce.value
    exact hset (hforce.first j' hj' hblock)

/-- A user gets what the files say, except where a Match line in a file that a block includes
reaches users that the block is not for. -/
theorem match_resolution {fs : Files} {file : Bytes} {confs : Configs} {usr : Option Bytes}
    {grps : List (Option Bytes)} (hload : configLoad fs file = .ok confs)
    (hname : ∀ name, usr = some name → name.length < 2 ^ 32)
    (hnames : ∀ name, some name ∈ grps → name.length < 2 ^ 32) :
    Resolves (expansion fs file) confs usr grps ↔ NoEscape (expansion fs file) usr grps := by
  have h := configLoad_holds hload
  rw [← enclosed_iff]
  refine ⟨fun hresolves => hresolves.enclosed, fun henclosed => ?_⟩
  refine ⟨?_, h.count, h.applies hname hnames, ?_, ?_, henclosed⟩
  · obtain ⟨conf, hconf, hvalue⟩ := getUserConf_value h usr grps
    refine ⟨conf, hconf, fun k => ⟨fun i v hforce => ?_, fun hnone => ?_⟩⟩
    · rw [hvalue k, (h.inForce_iff hname hnames k v).mpr ⟨i, hforce⟩]
      rfl
    · rw [hvalue k]
      cases hfind : (((confs.blocks.filter (matchApplies · usr grps)).map Config.layer).findSome?
          (·.get? k)) with
      | none => rfl
      | some v =>
        obtain ⟨i, hforce⟩ := (h.inForce_iff hname hnames k v).mp hfind
        exact absurd hforce (hnone i v)
  · intro m hm
    obtain ⟨i, hi, rfl⟩ := List.getElem_of_mem hm
    have hlt : i < confs.blocks.length := by
      rw [h.count]
      exact hi
    exact (h.selects i _ _ (List.getElem?_eq_getElem hlt) (List.getElem?_eq_getElem hi)).1
  · exact fun config config' text hcheck => parseMatchCriteria_ok_iff hcheck

/-! A file with a Match line of its own, included from the block of another user. -/

def sampleFiles : Files where
  openFile name :=
    if name = ascii "sshd_config" then
      some (ascii "ForceCommand /bin/false\nMatch User alice\nInclude extra.conf\n")
    else if name = ascii "extra.conf" then
      some (ascii "PermitEmptyPasswords yes\nMatch User bob\nForceCommand /bin/sh\n")
    else none
  readDir _ := none
  maxFilenameSz := 256
  pathMax := 4096

def sampleConfs : Configs :=
  ((configLoad sampleFiles (ascii "sshd_config")).toOption).getD ⟨configNew, []⟩

def sampleLines : List Placed :=
  [⟨[], .setting .forceCmd (.text (ascii "/bin/false"))⟩, ⟨[], .criteria (ascii "User alice\n")⟩,
    ⟨[0], .setting .permitEmptyPw (.flag true)⟩, ⟨[0], .criteria (ascii "User bob\n")⟩,
    ⟨[0, 1], .setting .forceCmd (.text (ascii "/bin/sh"))⟩]

theorem expansion_sample : expansion sampleFiles (ascii "sshd_config") = sampleLines := by
  decide +kernel

theorem applies_alice (usr : Option Bytes) (grps : List (Option Bytes)) :
    Applies (ascii "User alice\n") usr grps ↔ usr = some (ascii "alice") := by
  have husr : selected (ascii "User") (ascii "User alice\n") = some (ascii "alice") := by
    decide +kernel
  have hgroup : selected (ascii "Group") (ascii "User alice\n") = none := by decide +kernel
  have hentries : entries (ascii "alice") = [ascii "alice"] := by decide +kernel
  simp [Applies, husr, hgroup, hentries]

theorem applies_bob (usr : Option Bytes) (grps : List (Option Bytes)) :
    Applies (ascii "User bob\n") usr grps ↔ usr = some (ascii "bob") := by
  have husr : selected (ascii "User") (ascii "User bob\n") = some (ascii "bob") := by
    decide +kernel
  have hgroup : selected (ascii "Group") (ascii "User bob\n") = none := by decide +kernel
  have hentries : entries (ascii "bob") = [ascii "bob"] := by decide +kernel
  simp [Applies, husr, hgroup, hentries]

theorem matchLines_sample : matchLines sampleLines =
    [⟨[], ascii "User alice\n"⟩, ⟨[0], ascii "User bob\n"⟩] := by
  decide +kernel

/-- Nothing escapes for the user of the outer block. -/
theorem match_resolution_alice : configLoad sampleFiles (ascii "sshd_config") = .ok sampleConfs ∧
    Resolves (expansion sampleFiles (ascii "sshd_config")) sampleConfs (some (ascii "alice")) [] := by
  have hload : configLoad sampleFiles (ascii "sshd_config") = .ok sampleConfs := by decide +kernel
  refine ⟨hload, (match_resolution hload ?_ ?_).mpr ?_⟩
  · intro name hname
    obtain rfl := Option.some.inj hname
    decide
  · exact fun name hname => absurd hname List.not_mem_nil
  · rw [expansion_sample]
    intro i m hm happlies hout
    rw [matchLines_sample] at hm
    match i with
    | 0 =>
      obtain rfl := Option.some.inj hm
      obtain ⟨j, hj, -⟩ := hout
      cases hj
    | 1 =>
      obtain rfl := Option.some.inj hm
      exact absurd ((applies_bob _ _).mp happlies) (by decide)
    | i + 2 => cases hm

/-- A user that the outer block is not for gets what the Match line of the included file sets. -/
theorem included_match_escapes :
    configLoad sampleFiles (ascii "sshd_config") = .ok sampleConfs ∧
    (getUserConf sampleConfs (some (ascii "bob")) []).map (·.forceCmd) =
      some (some (ascii "/bin/sh")) ∧
    ¬Resolves (expansion sampleFiles (ascii "sshd_config")) sampleConfs (some (ascii "bob")) [] := by
  refine ⟨by decide +kernel, by decide +kernel, fun hresolves => ?_⟩
  rw [expansion_sample] at hresolves
  have halice : ¬BlockApplies sampleLines (some (ascii "bob")) [] 0 := by
    rintro ⟨m, hm, happlies⟩
    rw [matchLines_sample] at hm
    obtain rfl := Option.some.inj hm
    exact absurd ((applies_alice _ _).mp happlies) (by decide)
  have hbob : (matchLines sampleLines)[1]? = some ⟨[0], ascii "User bob\n"⟩ := by
    rw [matchLines_sample]
    rfl
  have hforce : InForce sampleLines (some (ascii "bob")) [] .forceCmd 1
      (.text (ascii "/bin/sh")) := by
    refine ⟨⟨_, hbob, (applies_bob _ _).mpr rfl⟩, by decide +kernel, fun j hj hblock => ?_⟩
    obtain rfl : j = 0 := by omega
    exact absurd hblock halice
  exact halice (hresolves.enclosed _ _ _ hforce _ hbob 0 List.mem_cons_self)

end WolfSsh.Sshd
