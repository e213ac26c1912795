import WolfSsh.RealPath
import WolfSsh.Lib.Templates
import WolfSsh.Lib.Words

/-! Where the daemon finds a user's authorized keys: the tokens of the AuthorizedKeysFile pattern, and
what the two accounts of a host make of them. Absolute paths are those of POSIX. -/

namespace WolfSsh.AuthKeys

def maxPathSz : Nat := 80

def percent : UInt8 := 0x25
def tokenHome : UInt8 := 0x68
def tokenUser : UInt8 := 0x75

def authKeysDefault : Bytes := ascii ".ssh/authorized_keys"

/-- What the token behind a `%` stands for, where it is one that is known and has a value. -/
def tokenValue (homeDir user : Option Bytes) (c : UInt8) : Option Bytes :=
  if c = percent then some [percent]
  else if c = tokenHome then homeDir
  else if c = tokenUser then user
  else none

/-- Leaves room for the terminating NUL. -/
def insert (outSz : Nat) (out ins : Bytes) : Except WsErr Bytes :=
  if outSz ≤ out.length + ins.length then .error .fatalError else .ok (out ++ ins)

/-- The loop over the pattern. A `%` at its end is a literal. -/
def expandLoop (homeDir user : Option Bytes) (outSz : Nat) : Bytes → Bytes → Except WsErr Bytes
  | [], out => .ok out
  | [c], out => insert outSz out [c]
  | c :: t :: rest, out =>
    if c = percent then
      match tokenValue homeDir user t with
      | none => .error .fatalError
      | some ins => insert outSz out ins >>= expandLoop homeDir user outSz rest
    else insert outSz out [c] >>= expandLoop homeDir user outSz (t :: rest)

def expandAuthKeysTokens (pattern : Bytes) (homeDir user : Option Bytes) (outSz : Nat) :
    Except WsErr Bytes :=
  if outSz = 0 then .error .badArgument else expandLoop homeDir user outSz pattern []

def isAbsoluteAuthKeysPath (path : Bytes) : Bool := path.head? == some slash

/-- The first loop of IsPerUserAuthKeysPattern over the indices `i` up to the end of the pattern, `n` of
them left: is a component, from `seg` on, `..`? -/
def climbs (pattern : Bytes) : Nat → Nat → Nat → Bool
  | 0, _, _ => false
  | n + 1, i, seg =>
    if i = pattern.length ∨ isDelim (pattern.getD i 0) then
      if i - seg = 2 ∧ pattern.getD seg 0 = 0x2e ∧ pattern.getD (seg + 1) 0 = 0x2e then true
      else climbs pattern n (i + 1) (i + 1)
    else climbs pattern n (i + 1) seg

/-- The second loop: is there a `%u` or a `%h`? A `%%` is stepped over. -/
def carriesToken : Bytes → Bool
  | c :: t :: rest =>
    if c ≠ percent then carriesToken (t :: rest)
    else if t = tokenUser ∨ t = tokenHome then true
    else if t = percent then carriesToken rest
    else carriesToken (t :: rest)
  | _ => false

def isPerUserAuthKeysPattern (pattern : Option Bytes) : Bool :=
  match pattern with
  | none | some [] => true
  | some pattern =>
    if climbs pattern (pattern.length + 1) 0 0 then false
    else if !isAbsoluteAuthKeysPath pattern then true
    else carriesToken pattern

/-- The path of a suffix under the home directory. -/
def underHome (homeDir suffix : Bytes) : Except WsErr Bytes :=
  if maxPathSz ≤ homeDir.length + 1 + suffix.length then .error .fatalError
  else .ok (homeDir ++ slash :: suffix)

def resolveAuthKeysPath (homeDir pattern user : Option Bytes) : Except WsErr Bytes :=
  match homeDir with
  | none => .error .badArgument
  | some home =>
    match pattern with
    | none | some [] => underHome home authKeysDefault
    | some pattern => do
      let expanded ← expandAuthKeysTokens pattern homeDir user maxPathSz
      if isAbsoluteAuthKeysPath expanded then return expanded else underHome home expanded

/-! The pattern as a template. -/

/-- An account: a name that can be a component, and an absolute home directory without dot segments. -/
structure Account where
  user : Bytes
  home : Bytes
  named : user ≠ [] ∧ user ≠ dot ∧ user ≠ dotdot ∧ slash ∉ user
  absolute : home.head? = some slash
  noDots : ∀ c ∈ home.splitOn slash, c ≠ dot ∧ c ≠ dotdot

def Account.resolve (a : Account) (pattern : Option Bytes) : Except WsErr Bytes :=
  resolveAuthKeysPath (some a.home) pattern (some a.user)

/-- The tokens of a pattern, if they are all known. -/
def tokens : Bytes → Option (List (Hole UInt8))
  | [] => some []
  | [c] => some [.lit c]
  | c :: t :: rest =>
    if c = percent then
      if t = percent then (tokens rest).map (.lit percent :: ·)
      else if t = tokenHome then (tokens rest).map (.path :: ·)
      else if t = tokenUser then (tokens rest).map (.name :: ·)
      else none
    else (tokens (t :: rest)).map (.lit c :: ·)

/-- A template that does not start with a slash or a home directory is taken under the home directory. -/
def rooted (t : List (Hole UInt8)) : List (Hole UInt8) :=
  if t.head? = some (.lit slash) ∨ t.head? = some .path then t else .path :: .lit slash :: t

/-- The template of the resolved path. -/
def template (pattern : Option Bytes) : Option (List (Hole UInt8)) :=
  match pattern with
  | none | some [] => some (.path :: .lit slash :: authKeysDefault.map .lit)
  | some pattern => (tokens pattern).map rooted

def Account.path (a : Account) (t : List (Hole UInt8)) : Bytes := Template.expand t a.user a.home

def Account.size (a : Account) : Hole UInt8 → Nat
  | .lit _ => 1
  | .name => a.user.length
  | .path => a.home.length

/-- The path that a template becomes leaves room for its NUL. -/
def Account.Fits (a : Account) (t : List (Hole UInt8)) : Prop := (t.map a.size).sum < maxPathSz

theorem insert_bind {α : Type} (outSz : Nat) (out ins : Bytes) (f : Bytes → Except WsErr α) :
    insert outSz out ins >>= f =
      if outSz ≤ out.length + ins.length then .error .fatalError else f (out ++ ins) := by
  rw [insert]
  split <;> rfl

/-- What the loop makes of a pattern that is a template, or that has a token which is not known. -/
def expanded (a : Account) (outSz : Nat) (out : Bytes) : Option (List (Hole UInt8)) → Except WsErr Bytes
  | none => .error .fatalError
  | some t => if (out ++ a.path t).length < outSz then .ok (out ++ a.path t) else .error .fatalError

theorem expanded_map {a : Account} {outSz : Nat} {out : Bytes} (hole : Hole UInt8)
    (t : Option (List (Hole UInt8))) :
    expanded a outSz out (t.map (hole :: ·))
      = expanded a outSz (out ++ Template.fill a.user a.home hole) t := by
  cases t with
  | none => rfl
  | some t =>
    simp only [Option.map_some, expanded, Account.path, Template.expand, List.flatMap_cons,
      List.append_assoc]

theorem expanded_over {a : Account} {outSz : Nat} {out : Bytes} (h : outSz ≤ out.length)
    (t : Option (List (Hole UInt8))) : expanded a outSz out t = .error .fatalError := by
  cases t with
  | none => rfl
  | some t =>
    rw [expanded, if_neg]
    rw [List.length_append]
    omega

theorem insert_expanded {a : Account} {outSz : Nat} {out : Bytes} (hole : Hole UInt8) {rest : Bytes}
    {t : Option (List (Hole UInt8))}
    (ih : ∀ out' : Bytes, out'.length < outSz →
      expandLoop (some a.home) (some a.user) outSz rest out' = expanded a outSz out' t) :
    (insert outSz out (Template.fill a.user a.home hole)
        >>= expandLoop (some a.home) (some a.user) outSz rest)
      = expanded a outSz out (t.map (hole :: ·)) := by
  rw [insert_bind, expanded_map]
  split
  · rename_i hover
    rw [expanded_over (by rwa [List.length_append])]
  · rename_i hroom
    exact ih _ (by rw [List.length_append]; omega)

theorem expandLoop_percent {homeDir user : Option Bytes} {outSz : Nat} {t : UInt8} {rest out ins : Bytes}
    (hval : tokenValue homeDir user t = some ins) :
    expandLoop homeDir user outSz (percent :: t :: rest) out
      = insert outSz out ins >>= expandLoop homeDir user outSz rest := by
  rw [expandLoop, if_pos rfl, hval]

theorem expandLoop_eq (a : Account) {outSz : Nat} (pattern out : Bytes) (hout : out.length < outSz) :
    expandLoop (some a.home) (some a.user) outSz pattern out = expanded a outSz out (tokens pattern) := by
  induction pattern using tokens.induct generalizing out with
  | case1 =>
    rw [expandLoop, tokens, expanded, Account.path, Template.expand, List.flatMap_nil, List.append_nil,
      if_pos hout]
  | case2 c =>
    rw [expandLoop, insert, tokens, expanded, Account.path, Template.expand, List.flatMap_cons,
      List.flatMap_nil, List.append_nil, Template.fill, List.length_append]
    by_cases hover : outSz ≤ out.length + [c].length
    · rw [if_pos hover, if_neg (by omega)]
    · rw [if_neg hover, if_pos (by omega)]
  | case3 rest ih =>
    have hval : tokenValue (some a.home) (some a.user) percent = some [percent] := by
      rw [tokenValue, if_pos rfl]
    rw [expandLoop_percent hval, tokens, if_pos rfl, if_pos rfl]
    exact insert_expanded (.lit percent) ih
  | case4 rest hne ih =>
    have hval : tokenValue (some a.home) (some a.user) tokenHome = some a.home := by
      rw [tokenValue, if_neg hne, if_pos rfl]
    rw [expandLoop_percent hval, tokens, if_pos rfl, if_neg hne,
      if_pos rfl]
    exact insert_expanded .path ih
  | case5 rest hne hne' ih =>
    have hval : tokenValue (some a.home) (some a.user) tokenUser = some a.user := by
      rw [tokenValue, if_neg hne, if_neg hne', if_pos rfl]
    rw [expandLoop_percent hval, tokens, if_pos rfl, if_neg hne, if_neg hne', if_pos rfl]
    exact insert_expanded .name ih
  | case6 t rest hp hh hu =>
    rw [expandLoop, if_pos rfl, tokenValue, if_neg hp, if_neg hh, if_neg hu, tokens, if_pos rfl, if_neg hp,
      if_neg hh, if_neg hu]
    rfl
  | case7 c t rest hc ih =>
    rw [expandLoop, if_neg hc, tokens, if_neg hc]
    exact insert_expanded (.lit c) ih

theorem length_path (a : Account) (t : List (Hole UInt8)) : (a.path t).length = (t.map a.size).sum := by
  rw [Account.path, Template.expand, List.length_flatMap]
  congr 2
  funext hole
  cases hole <;> rfl

theorem Account.path_cons (a : Account) (hole : Hole UInt8) (t : List (Hole UInt8)) :
    a.path (hole :: t) = Template.fill a.user a.home hole ++ a.path t := rfl

theorem Account.path_lits (a : Account) (str : Bytes) : a.path (str.map .lit) = str := by
  induction str with
  | nil => rfl
  | cons c str ih => rw [List.map_cons, Account.path_cons, ih, Template.fill, List.singleton_append]

/-- What a template becomes is an absolute path where it starts with a slash or the home directory. -/
theorem Account.absolute_iff (a : Account) (t : List (Hole UInt8)) :
    isAbsoluteAuthKeysPath (a.path t) = true ↔ t.head? = some (.lit slash) ∨ t.head? = some .path := by
  rw [isAbsoluteAuthKeysPath, beq_iff_eq]
  cases t with
  | nil => simp [Account.path, Template.expand]
  | cons hole t =>
    rw [Account.path_cons, List.head?_cons]
    cases hole with
    | lit c => simp [Template.fill]
    | path =>
      rw [Template.fill, List.head?_append, a.absolute]
      simp
    | name =>
      obtain ⟨hne, -, -, hslash⟩ := a.named
      obtain ⟨c, user, huser⟩ := List.exists_cons_of_ne_nil hne
      have hc : c ≠ slash := by
        rintro rfl
        exact hslash (huser ▸ List.mem_cons_self)
      rw [Template.fill, huser, List.cons_append, List.head?_cons]
      simp [hc]

theorem underHome_eq (a : Account) (t : List (Hole UInt8)) :
    underHome a.home (a.path t) = expanded a maxPathSz [] (some (.path :: .lit slash :: t)) := by
  rw [underHome, expanded, List.nil_append, Account.path_cons, Account.path_cons, Template.fill,
    Template.fill, List.singleton_append, List.length_append, List.length_cons]
  by_cases hover : maxPathSz ≤ a.home.length + 1 + (a.path t).length
  · rw [if_pos hover, if_neg (by omega)]
  · rw [if_neg hover, if_pos (by omega)]

/-- The resolved path is what the template of the pattern becomes, where that fits. -/
theorem Account.resolve_eq (a : Account) (pattern : Option Bytes) :
    a.resolve pattern = expanded a maxPathSz [] (template pattern) := by
  have hdefault : underHome a.home authKeysDefault
      = expanded a maxPathSz [] (some (.path :: .lit slash :: authKeysDefault.map .lit)) := by
    rw [← underHome_eq, Account.path_lits]
  rw [Account.resolve, resolveAuthKeysPath.eq_def]
  match pattern with
  | none => exact hdefault
  | some [] => exact hdefault
  | some (c :: rest) =>
    change _ = expanded a maxPathSz [] ((tokens (c :: rest)).map rooted)
    dsimp only
    rw [expandAuthKeysTokens, if_neg (by decide), expandLoop_eq a _ _ (by decide)]
    cases tokens (c :: rest) with
    | none => rfl
    | some t =>
      rw [Option.map_some, rooted]
      by_cases hroot : t.head? = some (.lit slash) ∨ t.head? = some .path
      · rw [if_pos hroot, expanded]
        split
        · change (if isAbsoluteAuthKeysPath (a.path t) = true then _ else _) = _
          rw [if_pos ((a.absolute_iff t).mpr hroot)]
          rfl
        · rfl
      · rw [if_neg hroot, expanded]
        split
        · change (if isAbsoluteAuthKeysPath (a.path t) = true then _ else _) = _
          rw [if_neg (mt (a.absolute_iff t).mp hroot), List.nil_append, underHome_eq]
        · rename_i hover
          rw [expanded, if_neg]
          · rfl
          · rw [List.nil_append] at hover ⊢
            rw [Account.path_cons, Account.path_cons, List.length_append, List.length_append]
            omega

theorem Account.resolve_ok_iff (a : Account) (pattern : Option Bytes) (p : Bytes) :
    a.resolve pattern = .ok p ↔ ∃ t, template pattern = some t ∧ a.Fits t ∧ p = a.path t := by
  rw [Account.resolve_eq]
  cases template pattern with
  | none => simp [expanded]
  | some t =>
    rw [expanded, List.nil_append, length_path]
    simp only [Option.some.injEq, exists_eq_left', Account.Fits]
    split
    · rename_i hfits
      simp [hfits, eq_comm]
    · rename_i hfits
      simp [hfits]

/-! The components of a home directory. -/

def Account.comps (a : Account) : List Bytes := a.home.tail.splitOn slash

def Account.dirs (a : Account) : List Bytes := a.comps.dropLast

/-- The last component of the home directory, empty where that ends in a slash. -/
def Account.last (a : Account) : Bytes := a.comps.getLast?.getD []

theorem Account.comps_eq (a : Account) : a.comps = a.dirs ++ [a.last] := by
  have hne : a.comps ≠ [] := List.splitOn_ne_nil slash a.home.tail
  rw [Account.dirs, Account.last, List.getLast?_eq_some_getLast hne, Option.getD_some,
    List.dropLast_concat_getLast hne]

theorem Account.home_eq (a : Account) : a.home = Paths.body slash (a.dirs ++ [a.last]) := by
  rw [← a.comps_eq, Account.comps, List.splitOn_eq_splitOnP, Paths.body_splitOnP]
  have habsolute := a.absolute
  cases hhome : a.home with
  | nil => rw [hhome] at habsolute; cases habsolute
  | cons c home =>
    rw [hhome, List.head?_cons, Option.some.injEq] at habsolute
    rw [habsolute, List.tail_cons]

theorem Account.free (a : Account) : Template.Free slash a.user a.dirs a.last := by
  have hcomps : ∀ c ∈ a.dirs ++ [a.last], slash ∉ c := by
    rw [← a.comps_eq]
    intro c hc hslash
    rw [Account.comps, List.splitOn_eq_splitOnP] at hc
    have hno := Words.not_sep_of_mem_splitOnP hc slash hslash
    simp at hno
  exact ⟨a.named.2.2.2, fun c hc => hcomps c (List.mem_append_left _ hc),
    hcomps _ (List.mem_append_right _ (List.mem_singleton_self _))⟩

theorem Account.noDots_comps (a : Account) : ∀ c ∈ a.dirs ++ [a.last], c ≠ dot ∧ c ≠ dotdot := by
  rw [← a.comps_eq]
  intro c hc
  have habsolute := a.absolute
  have hnoDots := a.noDots
  cases hhome : a.home with
  | nil => rw [hhome] at habsolute; cases habsolute
  | cons s home =>
    rw [hhome, List.head?_cons, Option.some.injEq] at habsolute
    rw [hhome, habsolute, List.splitOn_cons_eq_if_modifyHead, if_pos (by simp)] at hnoDots
    rw [Account.comps, hhome, List.tail_cons] at hc
    exact hnoDots c (List.mem_cons_of_mem _ hc)

theorem home_ne {a b : Account} (h : a.home ≠ b.home) : a.dirs ≠ b.dirs ∨ a.last ≠ b.last := by
  by_contra hsame
  rw [not_or, not_not, not_not] at hsame
  exact h (by rw [a.home_eq, b.home_eq, hsame.1, hsame.2])

end WolfSsh.AuthKeys
