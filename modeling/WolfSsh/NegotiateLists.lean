import WolfSsh.NegotiateRun

/-! What one category is negotiated to, name by name, and which of the lists that the application may
set are of use to the key exchange. -/

namespace WolfSsh

open Fallible

def recognisedIds (names : List Bytes) : List AlgoId := (names.map nameToId).filter (· ≠ .unknown)

/-- The first name is one that this build does not know, and the decoder keeps its place. -/
def StartsUnknown (names : List Bytes) : Prop := ∃ name ∈ names.head?, nameToId name = .unknown

instance (names : List Bytes) : Decidable (StartsUnknown names) :=
  match names with
  | [] => .isFalse (by simp [StartsUnknown])
  | name :: _ => decidable_of_iff (nameToId name = .unknown) (by simp [StartsUnknown])

/-- The choice of RFC 4253 section 7.1 among the recognised names. Names of one identifier count as
the same. -/
def firstCommon (client server : List Bytes) : Option Bytes :=
  client.find? fun name => decide (nameToId name ≠ .unknown ∧
    ∃ other ∈ server, nameToId other = nameToId name)

/-! The identifiers that the decoder keeps. -/

section Kept

variable {names client server : List Bytes} {id : AlgoId}

theorem mem_recognisedIds :
    id ∈ recognisedIds names ↔ id ≠ .unknown ∧ ∃ name ∈ names, nameToId name = id := by
  simp [recognisedIds, and_comm]

theorem keptIds_of_starts (h : StartsUnknown names) : keptIds names = .unknown :: recognisedIds names := by
  cases names with
  | nil => simp [StartsUnknown] at h
  | cons name names =>
    have hname : nameToId name = .unknown := by simpa [StartsUnknown] using h
    simp [keptIds, recognisedIds, hname]

theorem keptIds_of_not_starts (h : ¬ StartsUnknown names) : keptIds names = recognisedIds names := by
  cases names with
  | nil => rfl
  | cons name names =>
    have hname : nameToId name ≠ .unknown := by simpa [StartsUnknown] using h
    simp [keptIds, recognisedIds, hname]

theorem unknown_notMem_recognisedIds (names : List Bytes) : .unknown ∉ recognisedIds names :=
  fun h => (mem_recognisedIds.mp h).1 rfl

theorem keptIds_recognised_iff : keptIds names = recognisedIds names ↔ ¬ StartsUnknown names := by
  constructor
  · intro h hstarts
    have hunknown := unknown_notMem_recognisedIds names
    rw [← h, keptIds_of_starts hstarts] at hunknown
    exact hunknown List.mem_cons_self
  · exact keptIds_of_not_starts

theorem contains_keptIds {name : Bytes} (hknown : nameToId name ≠ .unknown) :
    (keptIds server).contains (nameToId name) =
      decide (∃ other ∈ server, nameToId other = nameToId name) := by
  have hmem : nameToId name ∈ keptIds server ↔ nameToId name ∈ recognisedIds server := by
    by_cases hstarts : StartsUnknown server
    · rw [keptIds_of_starts hstarts]
      simp [hknown]
    · rw [keptIds_of_not_starts hstarts]
  rw [List.contains_eq_mem, mem_recognisedIds] at *
  exact decide_eq_decide.mpr (hmem.trans (and_iff_right hknown))

theorem find?_recognisedIds (client server : List Bytes) :
    (recognisedIds client).find? (fun id => (keptIds server).contains id) =
      (firstCommon client server).map nameToId := by
  induction client with
  | nil => rfl
  | cons name client ih =>
    by_cases hknown : nameToId name = .unknown
    · have hskip : recognisedIds (name :: client) = recognisedIds client := by
        simp [recognisedIds, hknown]
      rw [hskip, ih, firstCommon, firstCommon, List.find?_cons_of_neg (by simp [hknown])]
    · have hkeep : recognisedIds (name :: client) = nameToId name :: recognisedIds client := by
        simp [recognisedIds, hknown]
      rw [hkeep, firstCommon, List.find?_cons, contains_keptIds hknown, List.find?_cons, ih,
        firstCommon]
      by_cases hserver : ∃ other ∈ server, nameToId other = nameToId name
      · rw [decide_eq_true hserver, decide_eq_true ⟨hknown, hserver⟩]
        rfl
      · rw [decide_eq_false hserver, decide_eq_false fun h => hserver h.2]

/-- Unless both lists start with a name that is not recognised, the first common identifier is that
of the first common name. -/
theorem find?_keptIds (h : ¬ (StartsUnknown client ∧ StartsUnknown server)) :
    (keptIds client).find? (fun id => (keptIds server).contains id) =
      (firstCommon client server).map nameToId := by
  by_cases hclient : StartsUnknown client
  · have hserver : ¬ StartsUnknown server := fun hs => h ⟨hclient, hs⟩
    have hnot : ¬ (keptIds server).contains .unknown = true := by
      rw [List.contains_iff_mem, keptIds_of_not_starts hserver]
      exact unknown_notMem_recognisedIds server
    rw [keptIds_of_starts hclient, List.find?_cons_of_neg hnot, find?_recognisedIds]
  · rw [keptIds_of_not_starts hclient, find?_recognisedIds]

theorem firstCommon_known {name : Bytes} (h : firstCommon client server = some name) :
    nameToId name ≠ .unknown := by
  have hfound := List.find?_some h
  exact (of_decide_eq_true hfound).1

end Kept

/-! One category, from the peer's field of the KEXINIT and the list of this side. -/

/-- Of a list of ours and the peer's, the client's and the server's. -/
def clientNames (side : Endpoint) (own peer : List Bytes) : List Bytes :=
  match side with
  | .server => peer
  | .client => own

def serverNames (side : Endpoint) (own peer : List Bytes) : List Bytes :=
  match side with
  | .server => own
  | .client => peer

theorem matchIdLists_names (side : Endpoint) (own peer : List Bytes) :
    matchIdLists side (keptIds peer) (keptIds own) =
      ((keptIds (clientNames side own peer)).find?
        fun id => (keptIds (serverNames side own peer)).contains id).getD .unknown := by
  cases side <;> rfl

/-- The outcome is the first name of the client's that the server has too, or a failure if there is
none. -/
def Follows71 (client server : List Bytes) (r : Except WsErr Match) : Prop :=
  match firstCommon client server with
  | some name => ∃ m, r = .ok m ∧ m.algoId = nameToId name
  | none => ∃ e, r = .error e

section Category

variable {allowNone : Bool} {type : AlgoType} {own buf rest : Bytes} {peer : List Bytes} {idx : Nat}
  {ssh : KexSession} {noMatch : WsErr}

theorem decode_joinNames {names : List Bytes} (hvalid : ∀ name ∈ names, ValidName name)
    (ids : List AlgoId) :
    decode (joinNames names) = .ok ids ↔ FitsCaps kexInitIdListMax names ∧ keptIds names = ids := by
  rw [decode, getNameListRaw_joinNames _ hvalid]
  by_cases hfits : FitsCaps kexInitIdListMax names
  · rw [if_pos hfits]
    exact ⟨fun h => ⟨hfits, Except.ok.inj h⟩, fun h => congrArg _ h.2⟩
  · rw [if_neg hfits]
    exact ⟨by rintro ⟨⟩, fun h => absurd h.1 hfits⟩

theorem matched_iff {names : List Bytes} (hown : ∀ name ∈ names, ValidName name)
    (hpeer : ∀ name ∈ peer, ValidName name) (hsz : (joinNames peer).length ≤ maxNameListSz)
    (hrest : Rest buf idx (copyNameList (joinNames peer) ++ rest)) (id : AlgoId) :
    (∃ m, ((matchField buf (decode (joinNames names)) noMatch).runAt ⟨idx, ssh⟩).1 = .ok m ∧
        m.algoId = id) ↔
      FitsCaps kexInitIdListMax peer ∧ FitsCaps kexInitIdListMax names ∧
        matchIdLists ssh.side (keptIds peer) (keptIds names) = id ∧ id ≠ .unknown := by
  have hlt : (joinNames peer).length < 2 ^ 32 := Nat.lt_of_le_of_lt hsz (by decide)
  have hyields : ∀ m t, Yields (matchField buf (decode (joinNames names)) noMatch) ⟨idx, ssh⟩ m t ↔ _ :=
    fun m t => matchField_yields_iff hrest hlt
  constructor
  · rintro ⟨m, hrun, rfl⟩
    have hm : Yields (matchField buf (decode (joinNames names)) noMatch) ⟨idx, ssh⟩ m _ :=
      Prod.ext hrun rfl
    obtain ⟨hlist, hcanned, hne, hid, -⟩ := (hyields m _).mp hm
    rw [decode_joinNames hpeer] at hlist
    rw [decode_joinNames hown] at hcanned
    rw [hlist.2, hcanned.2]
    exact ⟨hlist.1, hcanned.1, hid, hne⟩
  · rintro ⟨hpf, hof, hid, hne⟩
    have hm := (hyields ⟨keptIds peer, keptIds names, id⟩ _).mpr
      ⟨(decode_joinNames hpeer _).mpr ⟨hpf, rfl⟩, (decode_joinNames hown _).mpr ⟨hof, rfl⟩, hne, hid,
        rfl⟩
    exact ⟨_, congrArg Prod.fst hm, rfl⟩

/-- With our list within the decoder's caps, and not both lists starting with a name that is not
recognised, the category comes out as RFC 4253 has it, and a list of the peer's over the caps fails
it. -/
theorem category_follows (hown : checkAlgoList allowNone own type = .ok ())
    (hfits : FitsCaps kexInitIdListMax (splitNames (algoNames own)))
    (hpeer : ∀ name ∈ peer, ValidName name) (hsz : (joinNames peer).length ≤ maxNameListSz)
    (hrest : Rest buf idx (copyNameList (joinNames peer) ++ rest))
    (hstarts : ¬ (StartsUnknown peer ∧ StartsUnknown (splitNames (algoNames own)))) :
    let r := ((matchField buf (decode (algoNames own)) noMatch).runAt ⟨idx, ssh⟩).1
    if FitsCaps kexInitIdListMax peer then
      Follows71 (clientNames ssh.side (splitNames (algoNames own)) peer)
        (serverNames ssh.side (splitNames (algoNames own)) peer) r
    else ∃ e, r = .error e := by
  obtain ⟨names, hne, hall, hjoin⟩ := checkAlgoList_names hown
  have hvalid : ∀ name ∈ names, ValidName name := fun name hn => (hall name hn).1
  rw [hjoin, splitNames_joinNames hne hvalid] at hstarts hfits ⊢
  intro r
  have hmatched := fun id => @matched_iff buf rest peer idx ssh noMatch names hvalid hpeer hsz hrest id
  have hr : ((matchField buf (decode (joinNames names)) noMatch).runAt ⟨idx, ssh⟩).1 = r := rfl
  rw [hr] at hmatched
  have hfails : (∀ m, r = .ok m → False) → ∃ e, r = .error e := by
    intro hno
    cases hres : r with
    | ok m => exact (hno m hres).elim
    | error e => exact ⟨e, rfl⟩
  split
  · rename_i hpeerFits
    have hpick := matchIdLists_names ssh.side names peer
    have hboth : ¬ (StartsUnknown (clientNames ssh.side names peer) ∧
        StartsUnknown (serverNames ssh.side names peer)) := by
      cases ssh.side
      · exact hstarts
      · exact fun h => hstarts ⟨h.2, h.1⟩
    rw [find?_keptIds hboth] at hpick
    rw [Follows71]
    cases hcommon : firstCommon (clientNames ssh.side names peer) (serverNames ssh.side names peer) with
    | none =>
      rw [hcommon] at hpick
      refine hfails fun m hres => ?_
      obtain ⟨-, -, hid, hunknown⟩ := (hmatched m.algoId).mp ⟨m, hres, rfl⟩
      exact hunknown (hid.symm.trans hpick)
    | some name =>
      rw [hcommon] at hpick
      exact (hmatched (nameToId name)).mpr ⟨hpeerFits, hfits, hpick, firstCommon_known hcommon⟩
  · rename_i hover
    exact hfails fun m hres => hover ((hmatched m.algoId).mp ⟨m, hres, rfl⟩).1

end Category

instance (name : Bytes) : Decidable (ValidName name) := inferInstanceAs (Decidable (_ ∧ _))

/-- A server before it looks at a KEXINIT. -/
def bareServer : KexSession where
  side := .server
  algoListKex := []
  algoListKey := none
  algoListCipher := []
  algoListMac := []

/-- A client that lists an unknown name first, and a server that does not. -/
theorem category_follows_unknown :
    Follows71 [ascii "chacha20-poly1305@openssh.com", ascii "aes256-ctr", ascii "aes128-ctr"]
      [ascii "aes128-ctr", ascii "aes256-ctr"]
      ((matchField (copyNameList (ascii "chacha20-poly1305@openssh.com,aes256-ctr,aes128-ctr"))
        (decode (algoNames (ascii "aes128-ctr,aes256-ctr"))) .matchEncAlgoE).runAt
          ⟨0, bareServer⟩).1 := by
  have hrun := @category_follows false .cipher (ascii "aes128-ctr,aes256-ctr")
    (copyNameList (ascii "chacha20-poly1305@openssh.com,aes256-ctr,aes128-ctr")) []
    [ascii "chacha20-poly1305@openssh.com", ascii "aes256-ctr", ascii "aes128-ctr"] 0 bareServer
    .matchEncAlgoE (by decide +kernel) (by decide +kernel) (by decide +kernel) (by decide +kernel)
    (List.append_nil _).symm (by decide +kernel)
  have hfits : FitsCaps kexInitIdListMax
      [ascii "chacha20-poly1305@openssh.com", ascii "aes256-ctr", ascii "aes128-ctr"] := by
    decide +kernel
  have hown : splitNames (algoNames (ascii "aes128-ctr,aes256-ctr")) =
      [ascii "aes128-ctr", ascii "aes256-ctr"] := by
    decide +kernel
  rw [if_pos hfits, hown] at hrun
  exact hrun

/-- The RSA certificate names of the two hashes have one identifier: the client's list and the
server's have no name in common, and the category is negotiated all the same. -/
theorem category_without_common_name :
    checkAlgoList false (ascii "rsa-sha2-512-cert-v01@openssh.com") .key = .ok () ∧
      ((matchField (copyNameList (ascii "rsa-sha2-256-cert-v01@openssh.com"))
        (decode (algoNames (ascii "rsa-sha2-512-cert-v01@openssh.com"))) .matchKeyAlgoE).runAt
          ⟨0, bareServer⟩).1.map Match.algoId = .ok .osshCertRsa := by
  decide +kernel

/-! The lists that `CheckAlgoList` lets the application set. -/

structure NameLists where
  kex : Bytes
  key : Bytes
  cipherC2s : Bytes
  cipherS2c : Bytes
  macC2s : Bytes
  macS2c : Bytes

def readNameLists (buf : Bytes) : Reader NameLists := do
  let kex ← getStringRef buf
  let key ← getStringRef buf
  let cipherC2s ← getStringRef buf
  let cipherS2c ← getStringRef buf
  let macC2s ← getStringRef buf
  let macS2c ← getStringRef buf
  return ⟨kex, key, cipherC2s, cipherS2c, macC2s, macS2c⟩

/-- The list that a session has for a category. -/
def ownList (ssh : KexSession) : AlgoType → Option Bytes
  | .kex => some ssh.algoListKex
  | .key => ssh.algoListKey
  | .cipher => some ssh.algoListCipher
  | .mac => some ssh.algoListMac
  | .other => none

/-- The names stand in the category's fields, those of the key exchange methods with the
pseudo-algorithms behind them. -/
def Lists (ssh : KexSession) (names : Bytes) (lists : NameLists) : AlgoType → Prop
  | .kex => lists.kex =
      names ++ kexAlgoNamesPlus ssh.side (ssh.sessionIdSz == 0 && ssh.sendStrictKex)
  | .key => lists.key = names
  | .cipher => lists.cipherC2s = names ∧ lists.cipherS2c = names
  | .mac => lists.macC2s = names ∧ lists.macS2c = names
  | .other => False

/-- Every KEXINIT of a session with this list carries its names as they are. -/
def AdvertisedAsGiven (own : Bytes) (type : AlgoType) : Prop :=
  ∀ (ssh : KexSession) (cookie body : Bytes), ownList ssh type = some own →
    cookie.length = cookieSz → sendKexInitBody ssh cookie = .ok body → body.length < 2 ^ 32 →
    ∃ lists idx, Yields (readNameLists body) cookieSz lists idx ∧ Lists ssh (algoNames own) lists type

theorem kexInitBody_nameLists (ssh : KexSession) {cookie : Bytes} (hcookie : cookie.length = cookieSz)
    (hsz : (kexInitBody ssh cookie).length < 2 ^ 32) :
    ∃ idx, Yields (readNameLists (kexInitBody ssh cookie)) cookieSz
      ⟨ssh.kexNamesSent, keyAlgoNames ssh, ssh.cipherNames, ssh.cipherNames, ssh.macNames,
        ssh.macNames⟩ idx := by
  obtain ⟨_, _, _, _, ⟨-, rfl⟩, ⟨_, hkex⟩, rfl, ⟨_, hkey⟩, rfl, ⟨_, hcipher⟩, -, -⟩ :=
    kexInitBody_fields ssh hcookie
  generalize kexInitBody ssh cookie = buf at hkex hkey hcipher hsz
  rw [Nat.zero_add] at hkex hkey hcipher
  have hs2c := hcipher.skip_list
  have hmac := hs2c.skip_list
  have hmacS2c := hmac.skip_list
  have hread : ∀ {l rest : Bytes} {idx : Nat}, Rest buf idx (copyNameList l ++ rest) →
      Yields (getStringRef buf) idx l (idx + 4 + l.length) :=
    fun h => getStringRef_yields h (h.length_lt hsz)
  unfold readNameLists
  simp only [yields_bind_iff, yields_pure_iff]
  exact ⟨_, _, _, hread hkex, _, _, hread hkey, _, _, hread hcipher, _, _, hread hs2c,
    _, _, hread hmac, _, _, hread hmacS2c, rfl, rfl⟩

theorem advertised_as_given (own : Bytes) (type : AlgoType) : AdvertisedAsGiven own type := by
  intro ssh cookie body hown hcookie hsend hsz
  have hbody : kexInitBody ssh cookie = body := by
    unfold sendKexInitBody at hsend
    split at hsend
    · cases hsend
    · split at hsend
      · cases hsend
      · exact Except.ok.inj hsend
  subst hbody
  obtain ⟨idx, hread⟩ := kexInitBody_nameLists ssh hcookie hsz
  refine ⟨_, idx, hread, ?_⟩
  cases type with
  | kex =>
    obtain rfl := Option.some.inj hown
    rfl
  | key =>
    have hkey : ssh.algoListKey = some own := hown
    simp [Lists, keyAlgoNames, hkey]
  | cipher =>
    obtain rfl := Option.some.inj hown
    exact ⟨rfl, rfl⟩
  | mac =>
    obtain rfl := Option.some.inj hown
    exact ⟨rfl, rfl⟩
  | other => cases hown

/-- A list that the application may set is sent as it is, and the key exchange decodes it to what it
recognises of it, if it keeps the decoder's caps and starts with a name that this build knows. -/
theorem accepted_list_usable {allowNone : Bool} {own : Bytes} {type : AlgoType}
    (hown : checkAlgoList allowNone own type = .ok ()) :
    (AdvertisedAsGiven own type ∧
        decode (algoNames own) = .ok (recognisedIds (splitNames (algoNames own)))) ↔
      FitsCaps kexInitIdListMax (splitNames (algoNames own)) ∧
        ¬ StartsUnknown (splitNames (algoNames own)) := by
  obtain ⟨names, hne, hall, hjoin⟩ := checkAlgoList_names hown
  have hvalid : ∀ name ∈ names, ValidName name := fun name hn => (hall name hn).1
  rw [hjoin, splitNames_joinNames hne hvalid, decode_joinNames hvalid, keptIds_recognised_iff]
  exact and_iff_right (advertised_as_given own type)

theorem accepted_list_usable_two :
    (AdvertisedAsGiven (ascii "aes256-ctr,aes128-ctr,") .cipher ∧
        decode (algoNames (ascii "aes256-ctr,aes128-ctr,")) =
          .ok (recognisedIds (splitNames (algoNames (ascii "aes256-ctr,aes128-ctr,"))))) ↔
      FitsCaps kexInitIdListMax (splitNames (algoNames (ascii "aes256-ctr,aes128-ctr,"))) ∧
        ¬ StartsUnknown (splitNames (algoNames (ascii "aes256-ctr,aes128-ctr,"))) :=
  @accepted_list_usable false (ascii "aes256-ctr,aes128-ctr,") .cipher (by decide +kernel)

/-- The same cipher 33 times: the application may set it, and the key exchange refuses it. -/
theorem accepted_list_refused :
    checkAlgoList false (joinNames (List.replicate 33 (ascii "aes128-ctr"))) .cipher = .ok () ∧
      decode (algoNames (joinNames (List.replicate 33 (ascii "aes128-ctr")))) = .error .bufferE := by
  decide +kernel

end WolfSsh
