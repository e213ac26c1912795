import WolfSsh.NegotiateRun
import Mathlib.Data.List.Find

/-! Two sides that each take the other's KEXINIT: they choose alike whenever both accept, and
they fail to agree only where a cap of the list decoder or the strict first-packet rule stops
one side and not the other. -/

namespace WolfSsh

open Fallible

/-- What a list of a category can decode to. -/
def IdOfType (type : AlgoType) (id : AlgoId) : Prop :=
  id = .unknown ∨ id = .none ∨ typeOf id = type

theorem keptIds_ofType {type : AlgoType} {names : List Bytes}
    (h : ∀ name ∈ names, NameOfType type name) : ∀ id ∈ keptIds names, IdOfType type id := by
  cases names with
  | nil => simp [keptIds]
  | cons name names =>
    intro id hid
    rcases List.mem_cons.mp hid with rfl | hid
    · exact (h name List.mem_cons_self).2
    · obtain ⟨m, hm, rfl⟩ := List.mem_map.mp (List.mem_of_mem_filter hid)
      exact (h m (List.mem_cons_of_mem _ hm)).2

/-- The pseudo-algorithms a side appends, one by one. -/
def plusNames : Endpoint → Bool → List Bytes
  | .client, true => [ascii "ext-info-c", ascii "kex-strict-c", ascii "kex-strict-c-v00@openssh.com"]
  | .client, false => [ascii "ext-info-c"]
  | .server, true => [ascii "ext-info-s", ascii "kex-strict-s", ascii "kex-strict-s-v00@openssh.com"]
  | .server, false => [ascii "ext-info-s"]

def plusIds : Endpoint → Bool → List AlgoId
  | .client, true => [.extInfoC, .extStrictKexC, .extPreStrictKexC]
  | .client, false => [.extInfoC]
  | .server, true => [.extInfoS, .extStrictKexS, .extPreStrictKexS]
  | .server, false => [.extInfoS]

theorem plusNames_spec (side : Endpoint) (strict : Bool) :
    kexAlgoNamesPlus side strict = comma :: joinNames (plusNames side strict) ∧
      plusNames side strict ≠ [] ∧ (∀ name ∈ plusNames side strict, name ≠ [] ∧ comma ∉ name) ∧
      ((plusNames side strict).map nameToId).filter (· ≠ .unknown) = plusIds side strict := by
  cases side <;> cases strict <;> decide +kernel

theorem kexSent_names {names : List Bytes} (hne : names ≠ []) (hv : ∀ name ∈ names, ValidName name)
    (side : Endpoint) (strict : Bool) :
    WellFormedList (joinNames names ++ kexAlgoNamesPlus side strict) ∧
      listIds (joinNames names ++ kexAlgoNamesPlus side strict) =
        keptIds names ++ plusIds side strict := by
  obtain ⟨hplus, hpne, hpv, hids⟩ := plusNames_spec side strict
  have hjoin : joinNames names ++ kexAlgoNamesPlus side strict =
      joinNames (names ++ plusNames side strict) := by
    rw [hplus, joinNames_append hne hpne]
  have hall : ∀ name ∈ names ++ plusNames side strict, ValidName name := by
    intro name hn
    rcases List.mem_append.mp hn with hn | hn
    · exact hv name hn
    · exact hpv name hn
  have hcat : names ++ plusNames side strict ≠ [] := by simp [hne]
  rw [hjoin]
  refine ⟨⟨_, hcat, hall, rfl⟩, ?_⟩
  rw [listIds, splitNames_joinNames hcat hall, keptIds_append hne, hids]

def maxPubKeyAlgo : Nat := 18

/-- What `RefreshPublicKeyAlgo` leaves in the context: host key algorithms, as many as fit. -/
def LoadedKeys (ids : List AlgoId) : Prop :=
  ids.length ≤ maxPubKeyAlgo ∧ ∀ id ∈ ids, typeOf id = .key

theorem idToName_key {id : AlgoId} (h : typeOf id = .key) :
    nameToId (idToName id) = id ∧ ValidName (idToName id) ∧ (idToName id).length ≤ 64 := by
  have hall : ∀ p ∈ nameIdMap, p.type = .key → nameToId (idToName p.id) = p.id ∧
      (idToName p.id ≠ [] ∧ comma ∉ idToName p.id) ∧ (idToName p.id).length ≤ 64 := by
    decide +kernel
  unfold typeOf at h
  cases hf : nameIdMap.find? (fun p => p.id == id) with
  | none => simp [hf] at h
  | some p =>
    have hid : p.id = id := by simpa using List.find?_some hf
    rw [hf] at h
    have hp := hall p (List.mem_of_find?_eq_some hf) h
    rwa [hid] at hp

theorem joinNames_length_le {names : List Bytes} {n : Nat}
    (h : ∀ name ∈ names, name.length ≤ n) : (joinNames names).length ≤ names.length * (n + 1) := by
  induction names with
  | nil => simp [joinNames]
  | cons name names ih =>
    have hname := h name List.mem_cons_self
    have hrest := ih (fun m hm => h m (List.mem_cons_of_mem _ hm))
    by_cases hn : names = []
    · subst hn
      simp only [joinNames, List.length_cons, List.length_nil]
      omega
    · rw [joinNames_cons hn, List.length_append, List.length_cons, List.length_cons, add_mul]
      omega

theorem buildNameList_decodes {ids : List AlgoId} (hne : ids ≠ []) (h : LoadedKeys ids) :
    WellFormedList (buildNameList ids) ∧ algoNames (buildNameList ids) = buildNameList ids ∧
      decode (buildNameList ids) = .ok ids := by
  have hmne : ids.map idToName ≠ [] := by simpa using hne
  have hv : ∀ name ∈ ids.map idToName, ValidName name := by
    intro name hn
    obtain ⟨id, hid, rfl⟩ := List.mem_map.mp hn
    exact (idToName_key (h.2 id hid)).2.1
  have hback : (ids.map idToName).map nameToId = ids := by
    rw [List.map_map]
    apply (List.map_congr_left _).trans (List.map_id ids)
    exact fun id hid => (idToName_key (h.2 id hid)).1
  have hknown : ∀ id ∈ ids, id ≠ .unknown := by
    rintro id hid rfl
    have hu := h.2 _ hid
    revert hu
    decide +kernel
  have hkept : keptIds (ids.map idToName) = ids := by
    cases ids with
    | nil => exact absurd rfl hne
    | cons id ids =>
      rw [List.map_cons, List.map_cons, List.cons.injEq] at hback
      rw [List.map_cons, keptIds, hback.1, hback.2, List.filter_eq_self.mpr]
      intro x hx
      simpa using hknown x (List.mem_cons_of_mem _ hx)
  have hlen : (joinNames (ids.map idToName)).length ≤ (ids.map idToName).length * (64 + 1) := by
    apply joinNames_length_le
    intro name hn
    obtain ⟨id, hid, rfl⟩ := List.mem_map.mp hn
    exact (idToName_key (h.2 id hid)).2.2
  have hcount := h.1
  have hfits : FitsCaps kexInitIdListMax (ids.map idToName) := by
    rw [List.length_map] at hlen
    unfold maxPubKeyAlgo at hcount
    refine ⟨?_, ?_, ?_⟩
    · unfold maxNameListSz
      omega
    · rw [List.length_map]
      unfold maxNameListCnt
      omega
    · rw [hkept]
      unfold kexInitIdListMax
      omega
  refine ⟨⟨_, hmne, hv, rfl⟩, (algoNames_joinNames hmne hv).1, ?_⟩
  rw [decode, buildNameList, getNameListRaw_joinNames _ hv, if_pos hfits, hkept]

/-- A session whose lists passed the check when they were set, and whose loaded keys, if it
offers those, are what the context derives. -/
structure Configured (allowNone : Bool) (ssh : KexSession) : Prop where
  kex : checkAlgoList allowNone ssh.algoListKex .kex = .ok ()
  cipher : checkAlgoList allowNone ssh.algoListCipher .cipher = .ok ()
  mac : checkAlgoList allowNone ssh.algoListMac .mac = .ok ()
  key : ∀ list, ssh.algoListKey = some list → checkAlgoList allowNone list .key = .ok ()
  clientKey : ssh.side = .client → ssh.algoListKey ≠ none
  loaded : LoadedKeys ssh.publicKeyAlgo

theorem checkAlgoList_wellFormed {allowNone : Bool} {list : Bytes} {type : AlgoType}
    (h : checkAlgoList allowNone list type = .ok ()) : WellFormedList (algoNames list) := by
  obtain ⟨names, hne, hall, hj⟩ := checkAlgoList_names h
  exact ⟨names, hne, fun m hm => (hall m hm).1, hj⟩

/-- The identifiers of the key exchange list as its owner decodes it, and as the peer does. -/
theorem Configured.kexIds {allowNone : Bool} {ssh : KexSession} (h : Configured allowNone ssh) :
    WellFormedList ssh.kexNames ∧ WellFormedList ssh.kexNamesSent ∧
      (∀ id ∈ listIds ssh.kexNames, IdOfType .kex id) ∧
      listIds ssh.kexNamesSent =
        listIds ssh.kexNames ++ plusIds ssh.side (ssh.sessionIdSz == 0 && ssh.sendStrictKex) := by
  obtain ⟨names, hne, hall, hj⟩ := checkAlgoList_names h.kex
  have hv : ∀ m ∈ names, ValidName m := fun m hm => (hall m hm).1
  have hk : listIds ssh.kexNames = keptIds names := by
    rw [listIds, KexSession.kexNames, hj, splitNames_joinNames hne hv]
  obtain ⟨hw, hids⟩ := kexSent_names hne hv ssh.side (ssh.sessionIdSz == 0 && ssh.sendStrictKex)
  have hsent : ssh.kexNamesSent =
      joinNames names ++ kexAlgoNamesPlus ssh.side (ssh.sessionIdSz == 0 && ssh.sendStrictKex) := by
    rw [KexSession.kexNamesSent, KexSession.kexNames, hj]
  refine ⟨⟨names, hne, hv, hj⟩, hsent ▸ hw, hk ▸ keptIds_ofType hall, ?_⟩
  rw [hk, hsent, hids]

theorem Configured.wellFormed {allowNone : Bool} {ssh : KexSession} (h : Configured allowNone ssh)
    {cookie body : Bytes} (hsend : sendKexInitBody ssh cookie = .ok body) : WellFormedLists ssh := by
  have hkey : WellFormedList (keyAlgoNames ssh) ∧ ownKeyIds ssh = decode (keyAlgoNames ssh) := by
    cases hl : ssh.algoListKey with
    | some list =>
      have hk : keyAlgoNames ssh = algoNames list := by simp [keyAlgoNames, hl]
      rw [hk]
      exact ⟨checkAlgoList_wellFormed (h.key list hl), by simp [ownKeyIds, hl]⟩
    | none =>
      cases hs : ssh.side with
      | client => exact absurd hl (h.clientKey hs)
      | server =>
        have hne : ssh.publicKeyAlgo ≠ [] := by
          intro hnil
          rw [sendKexInitBody] at hsend
          split_ifs at hsend with h1 h2
          exact h2 ⟨hs, hl, hnil⟩
        obtain ⟨hw, ha, hd⟩ := buildNameList_decodes hne h.loaded
        have hk : keyAlgoNames ssh = buildNameList ssh.publicKeyAlgo := by
          simp only [keyAlgoNames, hl, hs, ha]
        rw [hk, hd]
        exact ⟨hw, by simp [ownKeyIds, hl, hs]⟩
  obtain ⟨hw, hws, -, -⟩ := h.kexIds
  exact ⟨hw, hws, hkey.1, checkAlgoList_wellFormed h.cipher, checkAlgoList_wellFormed h.mac, hkey.2⟩

theorem plusIds_not_kex (side : Endpoint) (strict : Bool) :
    ∀ id ∈ plusIds side strict, ¬ IdOfType .kex id := by
  have hall : ∀ id ∈ plusIds side strict, ¬ (id = .unknown ∨ id = .none ∨ typeOf id = .kex) := by
    cases side <;> cases strict <;> decide +kernel
  exact hall

section Pair

variable {allowNone : Bool} {c s : KexSession}

/-- Both sides choose the same key exchange method: the pseudo-algorithms of either list are
in neither side's own list. -/
theorem chooseKex_comm (hc : Configured allowNone c) (hs : Configured allowNone s)
    (hcs : c.side = .client) (hss : s.side = .server) : chooseKex c s = chooseKex s c := by
  obtain ⟨-, -, hcid, hcsent⟩ := hc.kexIds
  obtain ⟨-, -, hsid, hssent⟩ := hs.kexIds
  have hleft : ∀ id ∈ listIds c.kexNames,
      (listIds s.kexNamesSent).contains id = (listIds s.kexNames).contains id := by
    intro id hid
    have hnot : id ∉ plusIds s.side (s.sessionIdSz == 0 && s.sendStrictKex) :=
      fun h => plusIds_not_kex _ _ id h (hcid id hid)
    rw [hssent]
    simp [hnot]
  have hright : (plusIds c.side (c.sessionIdSz == 0 && c.sendStrictKex)).find?
      (fun id => (listIds s.kexNames).contains id) = none := by
    apply List.find?_eq_none.mpr
    intro id hid hmem
    exact plusIds_not_kex _ _ id hid (hsid id (by simpa using hmem))
  rw [chooseKex, chooseKex, hcs, hss, matchIdLists, matchIdLists, hcsent, List.find?_append, hright,
    Option.or_none]
  congr 1
  exact List.find?_congr hleft

theorem matchIdLists_ne_unknown_iff (side : Endpoint) {left right : List AlgoId}
    (h : .unknown ∉ right) :
    matchIdLists side left right ≠ .unknown ↔ ∃ id ∈ left, id ∈ right := by
  have hgen : ∀ (xs ys : List AlgoId), (∀ id ∈ xs, id ∈ ys → id ≠ .unknown) →
      ((xs.find? (fun id => ys.contains id)).getD .unknown ≠ .unknown ↔ ∃ id ∈ xs, id ∈ ys) := by
    intro xs ys hxy
    cases hf : xs.find? (fun id => ys.contains id) with
    | none =>
      simpa using hf
    | some id =>
      have hx := List.mem_of_find?_eq_some hf
      have hy : id ∈ ys := by simpa using List.find?_some hf
      exact ⟨fun _ => ⟨id, hx, hy⟩, fun _ => hxy id hx hy⟩
  cases side with
  | server => exact hgen left right (fun id _ hy hu => h (hu ▸ hy))
  | client =>
    rw [matchIdLists, hgen right left (fun id hx _ hu => h (hu ▸ hx))]
    exact ⟨fun ⟨id, hr, hl⟩ => ⟨id, hl, hr⟩, fun ⟨id, hl, hr⟩ => ⟨id, hr, hl⟩⟩

theorem expectedStrict_not_kex (side : Endpoint) :
    ∀ id ∈ expectedStrict side, ¬ IdOfType .kex id ∧ id ≠ .unknown := by
  have hall : ∀ id ∈ expectedStrict side,
      ¬ (id = .unknown ∨ id = .none ∨ typeOf id = .kex) ∧ id ≠ .unknown := by
    cases side <;> decide +kernel
  exact hall

theorem plusIds_strict_iff {side other : Endpoint} (hside : side ≠ other) (strict : Bool) :
    (∃ id ∈ plusIds other strict, id ∈ expectedStrict side) ↔ strict = true := by
  revert hside
  cases side <;> cases other <;> cases strict <;> decide

/-- A side finds the strict marker exactly when the other side of the pair put it in. -/
theorem strict_found_iff {me peer : KexSession} (hpeer : Configured allowNone peer)
    (hside : me.side ≠ peer.side) :
    matchIdLists me.side (listIds peer.kexNamesSent) (expectedStrict me.side) ≠ .unknown ↔
      (peer.sessionIdSz == 0 && peer.sendStrictKex) = true := by
  obtain ⟨-, -, hids, hsent⟩ := hpeer.kexIds
  rw [matchIdLists_ne_unknown_iff _ (fun h => (expectedStrict_not_kex _ _ h).2 rfl), hsent]
  rw [← plusIds_strict_iff hside]
  constructor
  · rintro ⟨id, hl, hr⟩
    rcases List.mem_append.mp hl with hl | hl
    · exact absurd (hids id hl) (expectedStrict_not_kex _ id hr).1
    · exact ⟨id, hl, hr⟩
  · rintro ⟨id, hl, hr⟩
    exact ⟨id, List.mem_append_right _ hl, hr⟩

theorem afterKex_useStrictKex (me peer : KexSession) :
    (afterKex me peer).useStrictKex =
      if me.sessionIdSz = 0 then
        decide (matchIdLists me.side (listIds peer.kexNamesSent) (expectedStrict me.side) ≠
          .unknown) && me.sendStrictKex
      else me.useStrictKex := by
  unfold afterKex noteStrictKex noteExtInfo noteKexId
  simp only
  split_ifs <;> rfl

/-- A client and a server that start one key exchange with each other, the first one or a
rekey: neither has taken a KEXINIT for it yet, and what they settled before they settled
alike. -/
structure KexPair (allowNone : Bool) (c s : KexSession) : Prop where
  client : c.side = .client
  server : s.side = .server
  clientLists : Configured allowNone c
  serverLists : Configured allowNone s
  notKeying : c.peerIsKeying = false ∧ s.peerIsKeying = false
  sameKex : c.sessionIdSz = 0 ↔ s.sessionIdSz = 0
  sameStrict : c.sessionIdSz ≠ 0 → c.useStrictKex = s.useStrictKex
  noGuess : (c.handshake.getD {}).ignoreNextKexMsg = false ∧
    (s.handshake.getD {}).ignoreNextKexMsg = false

def SameAlgorithms (c s : KexSession) : Prop :=
  let hc := c.handshake.getD {}
  let hs := s.handshake.getD {}
  c.kexId = s.kexId ∧ hc.kexId = hs.kexId ∧ hc.pubKeyId = hs.pubKeyId ∧ hc.self = hs.peer ∧
    hc.peer = hs.self ∧ c.useStrictKex = s.useStrictKex ∧ hc.ignoreNextKexMsg = hs.ignoreNextKexMsg

instance (c s : KexSession) : Decidable (SameAlgorithms c s) :=
  inferInstanceAs (Decidable (_ ∧ _ ∧ _ ∧ _ ∧ _ ∧ _ ∧ _))

/-- Both sides failed to negotiate, or both succeeded and hold the same algorithms. -/
def NegotiationAgrees (rc rs : Except WsErr Nat × KexSession) : Prop :=
  match rc.1, rs.1 with
  | .error _, .error _ => True
  | .ok _, .ok _ => SameAlgorithms rc.2 rs.2
  | _, _ => False

/-- What both sides check alike: a method and a host key in common, and for the cipher, host key
and any needed MAC both lists within the caps. -/
structure Compatible (c s : KexSession) : Prop where
  kexMatch : chooseKex c s ≠ .unknown
  keyFits : ListFits (keyAlgoNames c) ∧ ListFits (keyAlgoNames s)
  keyMatch : chooseKey c s ≠ .unknown
  cipherFits : ListFits c.cipherNames ∧ ListFits s.cipherNames
  cipherMatch : chooseCipher c s ≠ .unknown
  mac : aeadModeForId (chooseCipher c s) = false →
    (ListFits c.macNames ∧ ListFits s.macNames) ∧ chooseMac c s ≠ .unknown

/-- What only `me` checks: the peer's methods with the pseudo-algorithms, its own without them,
the peer's MACs even if none is needed, and the peer's first packet under strict key exchange. -/
structure Takes (me peer : KexSession) : Prop where
  kexFits : ListFits peer.kexNamesSent
  ownKexFits : ListFits me.kexNames
  macFits : ListFits peer.macNames
  firstPacket : me.sessionIdSz = 0 → me.sendStrictKex = true → peer.sendStrictKex = true →
    me.peerSeq = 0

theorem firstPacketOk_iff {me peer : KexSession} (hpeer : Configured allowNone peer)
    (hside : me.side ≠ peer.side) (hsid : me.sessionIdSz = 0 ↔ peer.sessionIdSz = 0) :
    firstPacketOk (afterKex me peer) ↔
      (me.sessionIdSz = 0 → me.sendStrictKex = true → peer.sendStrictKex = true →
        me.peerSeq = 0) := by
  have hfound := strict_found_iff hpeer hside
  have hstrict := afterKex_useStrictKex me peer
  have hids : (afterKex me peer).sessionIdSz = me.sessionIdSz ∧
      (afterKex me peer).peerSeq = me.peerSeq := by
    rw [afterKex_eq]
    exact ⟨rfl, rfl⟩
  rw [firstPacketOk, hids.1, hids.2, hstrict]
  by_cases h0 : me.sessionIdSz = 0
  · have hp0 := hsid.mp h0
    simp only [hp0, beq_self_eq_true, Bool.true_and] at hfound
    simp only [h0, if_true, Bool.and_eq_true, decide_eq_true_eq, hfound]
    tauto
  · simp [h0]

theorem accepts_iff {me peer : KexSession} (hpeer : Configured allowNone peer)
    (hside : me.side ≠ peer.side) (hsid : me.sessionIdSz = 0 ↔ peer.sessionIdSz = 0) :
    Accepts me peer ↔ Compatible me peer ∧ Takes me peer := by
  have hfirst := firstPacketOk_iff hpeer hside hsid
  constructor
  · intro h
    refine ⟨⟨h.kexMatch, ⟨h.ownKeyFits, h.keyFits⟩, h.keyMatch, ⟨h.ownCipherFits, h.cipherFits⟩,
      h.cipherMatch, fun ha => ⟨⟨(h.ownMac ha).1, h.macFits⟩, (h.ownMac ha).2⟩⟩,
      ⟨h.kexFits, h.ownKexFits, h.macFits, hfirst.mp h.firstPacket⟩⟩
  · rintro ⟨hc, ht⟩
    exact ⟨ht.kexFits, ht.ownKexFits, hc.kexMatch, hfirst.mpr ht.firstPacket, hc.keyFits.2,
      hc.keyFits.1, hc.keyMatch, hc.cipherFits.2, hc.cipherFits.1, hc.cipherMatch, ht.macFits,
      fun ha => ⟨(hc.mac ha).1.1, (hc.mac ha).2⟩⟩

/-- The session as `DoKexInit` starts on a KEXINIT. -/
def started (ssh : KexSession) : KexSession :=
  { ssh with peerIsKeying := true, handshake := some (ssh.handshake.getD {}) }

theorem accepts_started (me peer : KexSession) : Accepts (started me) peer ↔ Accepts me peer := by
  have hf : firstPacketOk (afterKex (started me) peer) ↔ firstPacketOk (afterKex me peer) := by
    rw [afterKex_eq (started me), afterKex_eq me, afterKex_useStrictKex, afterKex_useStrictKex]
    exact Iff.rfl
  constructor
  · intro h
    exact ⟨h.kexFits, h.ownKexFits, h.kexMatch, hf.mp h.firstPacket, h.keyFits, h.ownKeyFits,
      h.keyMatch, h.cipherFits, h.ownCipherFits, h.cipherMatch, h.macFits, h.ownMac⟩
  · intro h
    exact ⟨h.kexFits, h.ownKexFits, h.kexMatch, hf.mpr h.firstPacket, h.keyFits, h.ownKeyFits,
      h.keyMatch, h.cipherFits, h.ownCipherFits, h.cipherMatch, h.macFits, h.ownMac⟩

theorem negotiated_started (me peer : KexSession) :
    (negotiated (started me) peer).kexId = chooseKex me peer ∧
      (negotiated (started me) peer).useStrictKex = (afterKex me peer).useStrictKex ∧
      (negotiated (started me) peer).handshake = some { me.handshake.getD {} with
        kexId := chooseKex me peer
        pubKeyId := chooseKey me peer
        self := chosenAlgos me peer
        peer := chosenAlgos me peer } := by
  rw [negotiated, afterKey, afterKex_eq, afterKex_useStrictKex, afterKex_useStrictKex]
  exact ⟨rfl, rfl, rfl⟩

theorem doKexInitNegotiate_ok_iff {me peer : KexSession} {cookie : Bytes}
    (hme : WellFormedLists me) (hpeer : WellFormedLists peer) (hkeying : me.peerIsKeying = false)
    (hcookie : cookie.length = cookieSz) (hsz : (kexInitBody peer cookie).length < 2 ^ 32) :
    (Accepts me peer ∧ ∃ n, doKexInitNegotiate (kexInitBody peer cookie) me =
        (.ok n, negotiated (started me) peer)) ∨
      (¬ Accepts me peer ∧ ∃ e ssh, doKexInitNegotiate (kexInitBody peer cookie) me =
        (.error e, ssh)) := by
  have hme' : WellFormedLists (started me) :=
    ⟨hme.kex, hme.kexSent, hme.key, hme.cipher, hme.mac, hme.ownKey⟩
  have hne : (kexInitBody peer cookie).length ≠ 0 := by
    simp only [kexInitBody, List.length_append, hcookie, cookieSz]
    omega
  rw [doKexInitNegotiate, if_neg hne, if_neg (by simp [hkeying])]
  dsimp only
  rw [← started]
  rcases hr : (negotiateKexInit (kexInitBody peer cookie)).runAt ⟨0, started me⟩ with ⟨e | u, t⟩
  · refine Or.inr ⟨fun ha => ?_, e, t.ssh, rfl⟩
    obtain ⟨t', ht'⟩ := negotiateKexInit_of_accepts hme' hpeer hcookie hsz
      ((accepts_started me peer).mpr ha)
    rw [Yields, hr] at ht'
    simp at ht'
  · obtain ⟨ha, ht⟩ := negotiateKexInit_accepts hme' hpeer hcookie hsz hr
    exact Or.inl ⟨(accepts_started me peer).mp ha, t.begin, by rw [← ht]⟩

theorem choices_comm (hp : KexPair allowNone c s) :
    chooseKex c s = chooseKex s c ∧ chooseKey c s = chooseKey s c ∧
      chooseCipher c s = chooseCipher s c ∧ chooseMac c s = chooseMac s c := by
  have hcipher : chooseCipher c s = chooseCipher s c := by
    rw [chooseCipher, chooseCipher, hp.client, hp.server, matchIdLists, matchIdLists]
  refine ⟨chooseKex_comm hp.clientLists hp.serverLists hp.client hp.server, ?_, hcipher, ?_⟩
  · rw [chooseKey, chooseKey, hp.client, hp.server, matchIdLists, matchIdLists]
  · rw [chooseMac, chooseMac, hcipher, hp.client, hp.server, matchIdLists, matchIdLists]

theorem compatible_comm (hp : KexPair allowNone c s) : Compatible c s ↔ Compatible s c := by
  obtain ⟨hkex, hkey, hcipher, hmac⟩ := choices_comm hp
  constructor
  · intro h
    exact ⟨hkex ▸ h.kexMatch, h.keyFits.symm, hkey ▸ h.keyMatch, h.cipherFits.symm,
      hcipher ▸ h.cipherMatch,
      fun ha => ⟨(h.mac (hcipher ▸ ha)).1.symm, hmac ▸ (h.mac (hcipher ▸ ha)).2⟩⟩
  · intro h
    exact ⟨hkex ▸ h.kexMatch, h.keyFits.symm, hkey ▸ h.keyMatch, h.cipherFits.symm,
      hcipher ▸ h.cipherMatch,
      fun ha => ⟨(h.mac (hcipher ▸ ha)).1.symm, hmac ▸ (h.mac (hcipher ▸ ha)).2⟩⟩

theorem strict_comm (hp : KexPair allowNone c s) :
    (afterKex c s).useStrictKex = (afterKex s c).useStrictKex := by
  have hne : c.side ≠ s.side := by simp [hp.client, hp.server]
  have hfc := strict_found_iff hp.serverLists hne
  have hfs := strict_found_iff hp.clientLists hne.symm
  rw [afterKex_useStrictKex, afterKex_useStrictKex]
  by_cases h0 : c.sessionIdSz = 0
  · have hs0 := hp.sameKex.mp h0
    simp only [h0, hs0, beq_self_eq_true, Bool.true_and] at hfc hfs
    simp only [h0, hs0, if_true, hfc, hfs]
    cases c.sendStrictKex <;> cases s.sendStrictKex <;> rfl
  · rw [if_neg h0, if_neg (fun h => h0 (hp.sameKex.mpr h)), hp.sameStrict h0]

theorem sameAlgorithms_negotiated (hp : KexPair allowNone c s) :
    SameAlgorithms (negotiated (started c) s) (negotiated (started s) c) := by
  obtain ⟨hkex, hkey, hcipher, hmac⟩ := choices_comm hp
  have halgos : chosenAlgos c s = chosenAlgos s c := by
    rw [chosenAlgos, chosenAlgos, hcipher, hmac]
  obtain ⟨hck, hcst, hch⟩ := negotiated_started c s
  obtain ⟨hsk, hsst, hsh⟩ := negotiated_started s c
  unfold SameAlgorithms
  rw [hck, hsk, hcst, hsst, hch, hsh]
  exact ⟨hkex, hkex, hkey, halgos, halgos, strict_comm hp, hp.noGuess.1.trans hp.noGuess.2.symm⟩

/-- Negotiation agreement, and exactly when: where the shared checks pass, either side must be
able to take the other's lists and first packet if the other can take its own. -/
theorem negotiation_agrees_iff {cookieC cookieS bodyC bodyS : Bytes} (hp : KexPair allowNone c s)
    (hcc : cookieC.length = cookieSz) (hcs : cookieS.length = cookieSz)
    (hbc : sendKexInitBody c cookieC = .ok bodyC) (hbs : sendKexInitBody s cookieS = .ok bodyS)
    (hszc : bodyC.length < 2 ^ 32) (hszs : bodyS.length < 2 ^ 32) :
    NegotiationAgrees (doKexInitNegotiate bodyS c) (doKexInitNegotiate bodyC s) ↔
      (Compatible c s → (Takes c s ↔ Takes s c)) := by
  have hwc := hp.clientLists.wellFormed hbc
  have hws := hp.serverLists.wellFormed hbs
  have hne : c.side ≠ s.side := by simp [hp.client, hp.server]
  have hac := accepts_iff hp.serverLists hne hp.sameKex
  have has := accepts_iff hp.clientLists hne.symm hp.sameKex.symm
  have hcomm := compatible_comm hp
  obtain rfl : kexInitBody c cookieC = bodyC := by
    rw [sendKexInitBody] at hbc
    split_ifs at hbc
    exact Except.ok.inj hbc
  obtain rfl : kexInitBody s cookieS = bodyS := by
    rw [sendKexInitBody] at hbs
    split_ifs at hbs
    exact Except.ok.inj hbs
  rcases doKexInitNegotiate_ok_iff hwc hws hp.notKeying.1 hcs hszs with
    ⟨hca, n, hcr⟩ | ⟨hca, e, ssh, hcr⟩ <;>
  rcases doKexInitNegotiate_ok_iff hws hwc hp.notKeying.2 hcc hszc with
    ⟨hsa, m, hsr⟩ | ⟨hsa, e', ssh', hsr⟩ <;>
  rw [hcr, hsr, NegotiationAgrees]
  · exact ⟨fun _ _ => ⟨fun _ => (has.mp hsa).2, fun _ => (hac.mp hca).2⟩,
      fun _ => sameAlgorithms_negotiated hp⟩
  · refine ⟨False.elim, fun h => hsa (has.mpr ?_)⟩
    obtain ⟨hc, ht⟩ := hac.mp hca
    exact ⟨hcomm.mp hc, (h hc).mp ht⟩
  · refine ⟨False.elim, fun h => hca (hac.mpr ?_)⟩
    obtain ⟨hc, ht⟩ := has.mp hsa
    exact ⟨hcomm.mpr hc, (h (hcomm.mpr hc)).mpr ht⟩
  · refine ⟨fun _ hc => ⟨fun ht => absurd (hac.mpr ⟨hc, ht⟩) hca, fun ht => ?_⟩, fun _ => trivial⟩
    exact absurd (has.mpr ⟨hcomm.mp hc, ht⟩) hsa

end Pair

theorem NegotiationAgrees.isOk_eq {rc rs : Except WsErr Nat × KexSession}
    (h : NegotiationAgrees rc rs) : rc.1.isOk = rs.1.isOk := by
  unfold NegotiationAgrees at h
  split at h
  · rename_i h1 h2
    rw [h1, h2]
    rfl
  · rename_i h1 h2
    rw [h1, h2]
    rfl
  · exact h.elim

/-- A client that offers one method any number of times, and a server for it. -/
def repeatingClient (n : Nat) : KexSession :=
  { side := .client
    algoListKex := joinNames (List.replicate n (ascii "curve25519-sha256"))
    algoListKey := some (ascii "ssh-ed25519,")
    algoListCipher := ascii "aes128-ctr"
    algoListMac := ascii "hmac-sha2-256" }

def plainServer : KexSession :=
  { side := .server
    algoListKex := ascii "curve25519-sha256"
    algoListKey := none
    algoListCipher := ascii "aes128-ctr"
    algoListMac := ascii "hmac-sha2-256"
    publicKeyAlgo := [.ed25519] }

def zeroCookie : Bytes := List.replicate cookieSz 0

theorem repeatingClient_pair {n : Nat}
    (hk : checkAlgoList false (repeatingClient n).algoListKex .kex = .ok ()) :
    KexPair false (repeatingClient n) plainServer := by
  have hkey : checkAlgoList false (ascii "ssh-ed25519,") .key = .ok () := by decide +kernel
  have hcipher : checkAlgoList false (ascii "aes128-ctr") .cipher = .ok () := by decide +kernel
  have hmac : checkAlgoList false (ascii "hmac-sha2-256") .mac = .ok () := by decide +kernel
  have hkex : checkAlgoList false (ascii "curve25519-sha256") .kex = .ok () := by decide +kernel
  have hload : LoadedKeys [] ∧ LoadedKeys [.ed25519] := by
    refine ⟨⟨by decide, by simp⟩, ⟨by decide, ?_⟩⟩
    intro id hid
    rw [List.mem_singleton.mp hid]
    decide +kernel
  refine ⟨rfl, rfl, ⟨hk, hcipher, hmac, ?_, by simp [repeatingClient], hload.1⟩,
    ⟨hkex, hcipher, hmac, by simp [plainServer], by simp [plainServer], hload.2⟩, ⟨rfl, rfl⟩,
    Iff.rfl, fun _ => rfl, ⟨rfl, rfl⟩⟩
  intro list hl
  rw [← Option.some.inj hl]
  exact hkey

theorem sendKexInitBody_repeating (n : Nat) :
    sendKexInitBody (repeatingClient n) zeroCookie = .ok (kexInitBody (repeatingClient n) zeroCookie) ∧
      sendKexInitBody plainServer zeroCookie = .ok (kexInitBody plainServer zeroCookie) := by
  simp [sendKexInitBody, repeatingClient, plainServer]

theorem negotiation_agrees_single :
    NegotiationAgrees (doKexInitNegotiate (kexInitBody plainServer zeroCookie) (repeatingClient 1))
        (doKexInitNegotiate (kexInitBody (repeatingClient 1) zeroCookie) plainServer) ↔
      (Compatible (repeatingClient 1) plainServer →
        (Takes (repeatingClient 1) plainServer ↔ Takes plainServer (repeatingClient 1))) :=
  negotiation_agrees_iff (repeatingClient_pair (by decide +kernel)) (by decide) (by decide)
    (sendKexInitBody_repeating 1).1 (sendKexInitBody_repeating 1).2 (by decide +kernel)
    (by decide +kernel)

/-- Thirty names pass the check and the client's own decoder, but with the three
pseudo-algorithms behind them they overflow the server's. -/
theorem negotiation_disagrees_repeating :
    KexPair false (repeatingClient 30) plainServer ∧
      sendKexInitBody (repeatingClient 30) zeroCookie =
        .ok (kexInitBody (repeatingClient 30) zeroCookie) ∧
      sendKexInitBody plainServer zeroCookie = .ok (kexInitBody plainServer zeroCookie) ∧
      ¬ NegotiationAgrees
        (doKexInitNegotiate (kexInitBody plainServer zeroCookie) (repeatingClient 30))
        (doKexInitNegotiate (kexInitBody (repeatingClient 30) zeroCookie) plainServer) := by
  have hok : (doKexInitNegotiate (kexInitBody plainServer zeroCookie) (repeatingClient 30)).1.isOk ≠
      (doKexInitNegotiate (kexInitBody (repeatingClient 30) zeroCookie) plainServer).1.isOk := by
    decide +kernel
  exact ⟨repeatingClient_pair (by decide +kernel), (sendKexInitBody_repeating 30).1,
    (sendKexInitBody_repeating 30).2, mt NegotiationAgrees.isOk_eq hok⟩

end WolfSsh
