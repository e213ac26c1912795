import WolfSsh.Names

/-! Name-lists: decoding a comma separated list into identifiers, checking a list the application
supplies, and choosing an identifier common to two lists. -/

namespace WolfSsh

inductive Endpoint where
  | server | client
deriving DecidableEq, Repr

def comma : UInt8 := 0x2C
def atSign : UInt8 := 0x40

def maxNameListSz : Nat := 4096
def maxNameListCnt : Nat := 64
def maxAlgoNameSz : Nat := 64
def kexInitIdListMax : Nat := 32

/-- One complete name of a list: count it, and keep its identifier if it is known or is the
first one kept. -/
def addName (idListSz : Nat) (name : Bytes) (acc : Nat × List AlgoId) :
    Except WsErr (Nat × List AlgoId) :=
  if acc.1 + 1 > maxNameListCnt then .error .bufferE
  else if nameToId name ≠ .unknown ∨ acc.2 = [] then
    if acc.2.length ≥ idListSz then .error .bufferE
    else .ok (acc.1 + 1, acc.2 ++ [nameToId name])
  else .ok (acc.1 + 1, acc.2)

/-- The scan of `GetNameListRaw`: `name` is the part of the current element already passed. -/
def scanNames (idListSz : Nat) : Bytes → Bytes → Nat × List AlgoId → Except WsErr (List AlgoId)
  | [], name, acc =>
    if name = [] then .ok acc.2
    else (addName idListSz name acc).map Prod.snd
  | b :: rest, name, acc =>
    if b = comma then
      if name = [] then .ok acc.2
      else
        match addName idListSz name acc with
        | .error e => .error e
        | .ok acc' => scanNames idListSz rest [] acc'
    else scanNames idListSz rest (name ++ [b]) acc

def getNameListRaw (idListSz : Nat) (nameList : Bytes) : Except WsErr (List AlgoId) :=
  if nameList.length > maxNameListSz then .error .bufferE
  else scanNames idListSz nameList [] (0, [])

def getNameList (idListSz : Nat) (buf : Bytes) : Reader (List AlgoId) := do
  let nameList ← getStringRef buf
  Fallible.ofExcept (getNameListRaw idListSz nameList)

/-- The size of a list without the one trailing comma it may have. -/
def algoListSz (algoList : Bytes) : Nat :=
  if algoList.getLast? = some comma then algoList.length - 1 else algoList.length

def algoNames (algoList : Bytes) : Bytes := algoList.take (algoListSz algoList)

/-- Printable, no space, at most one at sign and text on both sides of it. -/
def nameCharsOk (name : Bytes) : Bool :=
  name.all (fun b => 0x20 < b && b < 0x7F) && decide (name.count atSign ≤ 1) &&
    name.head? != some atSign && name.getLast? != some atSign

/-- One name of an application's list: the number of usable names it adds, or a refusal. -/
def checkName (allowNone : Bool) (type : AlgoType) (name : Bytes) : Except WsErr Nat :=
  if name.length > maxAlgoNameSz ∨ nameCharsOk name = false then .error .invalidAlgoId
  else if nameToId name = .none then
    if allowNone ∧ (type = .cipher ∨ type = .mac) then .ok 1 else .error .invalidAlgoId
  else if nameToId name ≠ .unknown then
    if (nameToIdType name).2 ≠ type then .error .invalidAlgoId else .ok 1
  else .ok 0

/-- The scan of `CheckAlgoList`; `first` is set until the first element has ended. -/
def scanAlgoList (allowNone : Bool) (type : AlgoType) :
    Bytes → Bytes → Bool → Nat → Except WsErr Nat
  | [], name, first, usable =>
    if name = [] then
      if first then .error .invalidAlgoId else .ok usable
    else (checkName allowNone type name).map (usable + ·)
  | b :: rest, name, first, usable =>
    if b = comma then
      if name = [] then .error .invalidAlgoId
      else
        match checkName allowNone type name with
        | .error e => .error e
        | .ok n => scanAlgoList allowNone type rest [] false (usable + n)
    else scanAlgoList allowNone type rest (name ++ [b]) first usable

/-- Whether the application may set this list. `allowNone` is the build option for the null
cipher. -/
def checkAlgoList (allowNone : Bool) (list : Bytes) (type : AlgoType) : Except WsErr Unit :=
  match scanAlgoList allowNone type list [] true 0 with
  | .error e => .error e
  | .ok usable => if usable = 0 then .error .invalidAlgoId else .ok ()

/-- The first identifier of the client's list that the server's list has too. `left` is the
peer's list and `right` our own. -/
def matchIdLists (side : Endpoint) (left right : List AlgoId) : AlgoId :=
  match side with
  | .server => (left.find? (fun id => right.contains id)).getD .unknown
  | .client => (right.find? (fun id => left.contains id)).getD .unknown

/-- Names separated by single commas, with none at either end. -/
def joinNames : List Bytes → Bytes
  | [] => []
  | [name] => name
  | name :: next :: names => name ++ comma :: joinNames (next :: names)

/-- The names of a list of identifiers, as the server advertises its host keys. -/
def buildNameList (ids : List AlgoId) : Bytes := joinNames (ids.map idToName)

def ValidName (name : Bytes) : Prop := name ≠ [] ∧ comma ∉ name

/-- The identifiers a decoder keeps: the first name's whatever it is, then the known ones. -/
def keptIds : List Bytes → List AlgoId
  | [] => []
  | name :: names => nameToId name :: (names.map nameToId).filter (· ≠ .unknown)

/-- The names of a list fit the decoder's caps on octets, names and identifiers. -/
def FitsCaps (idListSz : Nat) (names : List Bytes) : Prop :=
  (joinNames names).length ≤ maxNameListSz ∧ names.length ≤ maxNameListCnt ∧
    (keptIds names).length ≤ idListSz

instance (idListSz : Nat) (names : List Bytes) : Decidable (FitsCaps idListSz names) :=
  inferInstanceAs (Decidable (_ ∧ _ ∧ _))

theorem joinNames_cons {name : Bytes} {names : List Bytes} (hne : names ≠ []) :
    joinNames (name :: names) = name ++ comma :: joinNames names := by
  cases names with
  | nil => exact absurd rfl hne
  | cons next names => rfl

theorem joinNames_append {names more : List Bytes} (hne : names ≠ []) (hmore : more ≠ []) :
    joinNames (names ++ more) = joinNames names ++ comma :: joinNames more := by
  induction names with
  | nil => exact absurd rfl hne
  | cons name names ih =>
    by_cases hn : names = []
    · subst hn
      simp only [List.cons_append, List.nil_append, joinNames_cons hmore, joinNames]
    · have happ : names ++ more ≠ [] := by simp [hn]
      rw [List.cons_append, joinNames_cons happ, joinNames_cons hn, ih hn]
      simp only [List.append_assoc, List.cons_append]

theorem keptIds_append {names more : List Bytes} (hne : names ≠ []) :
    keptIds (names ++ more) = keptIds names ++ (more.map nameToId).filter (· ≠ .unknown) := by
  cases names with
  | nil => exact absurd rfl hne
  | cons name names => simp [keptIds]

theorem scanNames_name (cap : Nat) {name : Bytes} (hc : comma ∉ name) (rest pre : Bytes)
    (acc : Nat × List AlgoId) :
    scanNames cap (name ++ rest) pre acc = scanNames cap rest (pre ++ name) acc := by
  induction name generalizing pre with
  | nil => simp
  | cons b name ih =>
    have hb : b ≠ comma := fun h => hc (by simp [h])
    have hn : comma ∉ name := fun h => hc (List.mem_cons_of_mem _ h)
    rw [List.cons_append, scanNames, if_neg hb, ih hn]
    simp

/-- What is kept of further names once `n` names were counted and `ids` kept. -/
def keptAfter (ids : List AlgoId) (names : List Bytes) : List AlgoId :=
  if ids = [] then keptIds names else ids ++ (names.map nameToId).filter (· ≠ .unknown)

theorem keptAfter_cons (ids : List AlgoId) (name : Bytes) (names : List Bytes) :
    keptAfter ids (name :: names) =
      keptAfter (if nameToId name ≠ .unknown ∨ ids = [] then ids ++ [nameToId name] else ids)
        names := by
  by_cases hi : ids = []
  · simp [keptAfter, keptIds, hi]
  · by_cases hu : nameToId name = .unknown <;> simp [keptAfter, hi, hu]

theorem length_le_keptAfter (ids : List AlgoId) (names : List Bytes) :
    ids.length ≤ (keptAfter ids names).length := by
  by_cases hi : ids = [] <;> simp [keptAfter, hi]

theorem addName_eq (cap : Nat) (name : Bytes) (n : Nat) (ids : List AlgoId) :
    addName cap name (n, ids) =
      if n + 1 ≤ maxNameListCnt ∧ (nameToId name ≠ .unknown ∨ ids = [] → ids.length < cap) then
        .ok (n + 1, if nameToId name ≠ .unknown ∨ ids = [] then ids ++ [nameToId name] else ids)
      else .error .bufferE := by
  unfold addName
  by_cases hn : n + 1 ≤ maxNameListCnt
  · by_cases hk : nameToId name ≠ .unknown ∨ ids = []
    · by_cases hc : ids.length < cap <;> simp [hn, hk, hc, Nat.not_lt.mpr hn]
    · simp [hn, hk, Nat.not_lt.mpr hn]
  · simp [hn, Nat.not_le.mp hn]

theorem scanNames_cons (cap : Nat) {name : Bytes} (hv : ValidName name) (names : List Bytes)
    (acc : Nat × List AlgoId) :
    scanNames cap (joinNames (name :: names)) [] acc =
      match addName cap name acc with
      | .error e => .error e
      | .ok acc' => scanNames cap (joinNames names) [] acc' := by
  by_cases hn : names = []
  · subst hn
    have hscan := scanNames_name cap hv.2 [] [] acc
    rw [List.append_nil, List.nil_append] at hscan
    have hj : joinNames [name] = name := rfl
    rw [hj, hscan, scanNames, if_neg hv.1]
    cases addName cap name acc <;> simp [joinNames, scanNames, Except.map]
  · rw [joinNames_cons hn, scanNames_name cap hv.2, List.nil_append, scanNames, if_pos rfl,
      if_neg hv.1]

theorem scanNames_joinNames (cap : Nat) {names : List Bytes} (hv : ∀ name ∈ names, ValidName name)
    (n : Nat) (ids : List AlgoId) (hn : n ≤ maxNameListCnt) (hids : ids.length ≤ cap) :
    scanNames cap (joinNames names) [] (n, ids) =
      if n + names.length ≤ maxNameListCnt ∧ (keptAfter ids names).length ≤ cap then
        .ok (keptAfter ids names)
      else .error .bufferE := by
  induction names generalizing n ids with
  | nil =>
    by_cases hi : ids = [] <;> simp [joinNames, scanNames, keptAfter, keptIds, hi, hids, hn]
  | cons name names ih =>
    have hvs : ∀ m ∈ names, ValidName m := fun m hm => hv m (List.mem_cons_of_mem _ hm)
    rw [scanNames_cons cap (hv name List.mem_cons_self), addName_eq, keptAfter_cons]
    have hle := length_le_keptAfter
      (if nameToId name ≠ .unknown ∨ ids = [] then ids ++ [nameToId name] else ids) names
    by_cases hok : n + 1 ≤ maxNameListCnt ∧
        (nameToId name ≠ .unknown ∨ ids = [] → ids.length < cap)
    · have hlen : (if nameToId name ≠ .unknown ∨ ids = [] then ids ++ [nameToId name]
          else ids).length ≤ cap := by
        by_cases hk : nameToId name ≠ .unknown ∨ ids = []
        · simpa [if_pos hk, Nat.succ_le_iff] using hok.2 hk
        · simpa [if_neg hk] using hids
      rw [if_pos hok]
      simp only
      rw [ih hvs (n + 1) _ hok.1 hlen, List.length_cons, Nat.add_right_comm, ← Nat.add_assoc]
    · rw [if_neg hok]
      have hbad : ¬ (n + (name :: names).length ≤ maxNameListCnt ∧
          (keptAfter (if nameToId name ≠ .unknown ∨ ids = [] then ids ++ [nameToId name] else ids)
            names).length ≤ cap) := by
        rintro ⟨hcnt, hcap⟩
        apply hok
        refine ⟨by simp only [List.length_cons] at hcnt; omega, fun hk => ?_⟩
        rw [if_pos hk, List.length_append, List.length_singleton] at hle
        rw [if_pos hk] at hcap
        omega
      rw [if_neg hbad]

/-- Decoding a well-formed list: it fails exactly when a cap is exceeded, else it keeps the
identifiers of its names. -/
theorem getNameListRaw_joinNames (cap : Nat) {names : List Bytes}
    (hv : ∀ name ∈ names, ValidName name) :
    getNameListRaw cap (joinNames names) =
      if FitsCaps cap names then .ok (keptIds names) else .error .bufferE := by
  unfold getNameListRaw
  by_cases hsz : (joinNames names).length ≤ maxNameListSz
  · rw [if_neg (by omega), scanNames_joinNames cap hv 0 [] (by decide) (by simp)]
    simp [keptAfter, FitsCaps, hsz]
  · rw [if_pos (by omega), if_neg (fun h => hsz h.1)]

/-- What an application's list of a category may name: an algorithm of that category, the null
algorithm, or something this build does not know. -/
def NameOfType (type : AlgoType) (name : Bytes) : Prop :=
  ValidName name ∧
    (nameToId name = .unknown ∨ nameToId name = .none ∨ typeOf (nameToId name) = type)

theorem checkName_ofType {allowNone : Bool} {type : AlgoType} {name : Bytes} {n : Nat}
    (hv : ValidName name) (h : checkName allowNone type name = .ok n) : NameOfType type name := by
  refine ⟨hv, ?_⟩
  unfold checkName at h
  split_ifs at h with _ hnone _ hu htype
  · exact Or.inr (Or.inl hnone)
  · have hu' : nameToId name ≠ .unknown := hu
    exact Or.inr (Or.inr ((nameToIdType_type hu').symm.trans (not_not.mp htype)))
  · exact Or.inl (not_not.mp hu)

/-- The elements that a successful scan saw: none after the last comma, or a list of names with
at most one trailing comma. -/
theorem scanAlgoList_names {allowNone : Bool} {type : AlgoType} {rest name : Bytes} {first : Bool}
    {usable v : Nat} (hc : comma ∉ name)
    (h : scanAlgoList allowNone type rest name first usable = .ok v) :
    (name ++ rest = [] ∧ first = false) ∨
      ∃ names, names ≠ [] ∧ (∀ m ∈ names, NameOfType type m) ∧
        (name ++ rest = joinNames names ∨ name ++ rest = joinNames names ++ [comma]) := by
  induction rest generalizing name first usable with
  | nil =>
    rw [scanAlgoList] at h
    by_cases hn : name = []
    · cases first with
      | true => simp [hn] at h
      | false => exact Or.inl ⟨by simp [hn], rfl⟩
    · rw [if_neg hn] at h
      cases hcn : checkName allowNone type name with
      | error e => simp [hcn, Except.map] at h
      | ok n =>
        refine Or.inr ⟨[name], by simp, ?_, Or.inl (by simp [joinNames])⟩
        intro m hm
        rw [List.mem_singleton.mp hm]
        exact checkName_ofType ⟨hn, hc⟩ hcn
  | cons b rest ih =>
    rw [scanAlgoList] at h
    by_cases hb : b = comma
    · subst hb
      by_cases hn : name = []
      · simp [hn] at h
      · rw [if_pos rfl, if_neg hn] at h
        cases hcn : checkName allowNone type name with
        | error e => simp [hcn] at h
        | ok n =>
          rw [hcn] at h
          have hname := checkName_ofType ⟨hn, hc⟩ hcn
          right
          rcases ih (by simp) h with ⟨hnil, _⟩ | ⟨names, hne, hall, hjoin⟩
          · refine ⟨[name], by simp, by simpa using hname, Or.inr ?_⟩
            have hr : rest = [] := by simpa using hnil
            simp [hr, joinNames]
          · refine ⟨name :: names, by simp, ?_, ?_⟩
            · intro m hm
              rcases List.mem_cons.mp hm with rfl | hm
              · exact hname
              · exact hall m hm
            · rw [joinNames_cons hne]
              rcases hjoin with hj | hj
              · exact Or.inl (by rw [← hj]; simp)
              · exact Or.inr (by rw [List.append_assoc, List.cons_append, ← hj]; simp)
    · rw [if_neg hb] at h
      have hc' : comma ∉ name ++ [b] := by simp [hc, Ne.symm hb]
      simpa using ih hc' h

theorem joinNames_getLast {names : List Bytes} (hne : names ≠ [])
    (hv : ∀ name ∈ names, ValidName name) :
    ∃ b, (joinNames names).getLast? = some b ∧ b ≠ comma := by
  induction names with
  | nil => exact absurd rfl hne
  | cons name names ih =>
    by_cases hn : names = []
    · subst hn
      have hname := hv name List.mem_cons_self
      refine ⟨name.getLast hname.1, List.getLast?_eq_some_getLast hname.1, fun hb => ?_⟩
      exact hname.2 (hb ▸ List.getLast_mem hname.1)
    · obtain ⟨b, hb, hbc⟩ := ih hn (fun m hm => hv m (List.mem_cons_of_mem _ hm))
      refine ⟨b, ?_, hbc⟩
      rw [joinNames_cons hn, List.getLast?_append, List.getLast?_cons, hb]
      rfl

theorem algoNames_joinNames {names : List Bytes} (hne : names ≠ [])
    (hv : ∀ name ∈ names, ValidName name) :
    algoNames (joinNames names) = joinNames names ∧
      algoNames (joinNames names ++ [comma]) = joinNames names := by
  obtain ⟨b, hb, hbc⟩ := joinNames_getLast hne hv
  constructor
  · have hlast : (joinNames names).getLast? ≠ some comma := by
      rw [hb]
      exact fun h => hbc (Option.some.inj h)
    rw [algoNames, algoListSz, if_neg hlast, List.take_length]
  · simp [algoNames, algoListSz]

/-- An accepted list is a list of names of its category, once its trailing comma is dropped. -/
theorem checkAlgoList_names {allowNone : Bool} {list : Bytes} {type : AlgoType}
    (h : checkAlgoList allowNone list type = .ok ()) :
    ∃ names, names ≠ [] ∧ (∀ m ∈ names, NameOfType type m) ∧ algoNames list = joinNames names := by
  unfold checkAlgoList at h
  cases hs : scanAlgoList allowNone type list [] true 0 with
  | error e => simp [hs] at h
  | ok v =>
    rcases scanAlgoList_names (by simp) hs with ⟨_, hf⟩ | ⟨names, hne, hall, hj⟩
    · cases hf
    · have ha := algoNames_joinNames hne (fun m hm => (hall m hm).1)
      refine ⟨names, hne, hall, ?_⟩
      rcases hj with hj | hj
      · rw [List.nil_append] at hj
        rw [hj, ha.1]
      · rw [List.nil_append] at hj
        rw [hj, ha.2]

/-- The elements of a list, as its commas separate them. -/
def splitNames : Bytes → List Bytes
  | [] => [[]]
  | b :: rest =>
    if b = comma then [] :: splitNames rest
    else
      match splitNames rest with
      | [] => [[b]]
      | name :: names => (b :: name) :: names

theorem splitNames_name {name : Bytes} (hc : comma ∉ name) : splitNames name = [name] := by
  induction name with
  | nil => rfl
  | cons b name ih =>
    have hb : b ≠ comma := fun h => hc (by simp [h])
    rw [splitNames, if_neg hb, ih (fun h => hc (List.mem_cons_of_mem _ h))]

theorem splitNames_name_comma {name : Bytes} (hc : comma ∉ name) (rest : Bytes) :
    splitNames (name ++ comma :: rest) = name :: splitNames rest := by
  induction name with
  | nil => simp [splitNames]
  | cons b name ih =>
    have hb : b ≠ comma := fun h => hc (by simp [h])
    rw [List.cons_append, splitNames, if_neg hb, ih (fun h => hc (List.mem_cons_of_mem _ h))]

theorem splitNames_joinNames {names : List Bytes} (hne : names ≠ [])
    (hv : ∀ name ∈ names, ValidName name) : splitNames (joinNames names) = names := by
  induction names with
  | nil => exact absurd rfl hne
  | cons name names ih =>
    have hname := hv name List.mem_cons_self
    by_cases hn : names = []
    · subst hn
      exact splitNames_name hname.2
    · rw [joinNames_cons hn, splitNames_name_comma hname.2,
        ih hn (fun m hm => hv m (List.mem_cons_of_mem _ hm))]

end WolfSsh
