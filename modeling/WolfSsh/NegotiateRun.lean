import WolfSsh.Negotiate

/-! What `DoKexInit` makes of a KEXINIT that `SendKexInit` built: when it accepts one, and which
algorithms it then chooses. -/

namespace WolfSsh

open Fallible

/-- A list with at least one name and no empty one. -/
def WellFormedList (l : Bytes) : Prop :=
  ∃ names, names ≠ [] ∧ (∀ name ∈ names, ValidName name) ∧ l = joinNames names

/-- A list is within the decoder's caps: 4096 octets, 64 names, 32 identifiers kept. -/
def ListFits (l : Bytes) : Prop := FitsCaps kexInitIdListMax (splitNames l)

instance (l : Bytes) : Decidable (ListFits l) :=
  inferInstanceAs (Decidable (FitsCaps _ _))

def listIds (l : Bytes) : List AlgoId := keptIds (splitNames l)

theorem decode_ok_iff {l : Bytes} (hl : WellFormedList l) (ids : List AlgoId) :
    decode l = .ok ids ↔ ListFits l ∧ listIds l = ids := by
  obtain ⟨names, hne, hv, rfl⟩ := hl
  have hs := splitNames_joinNames hne hv
  by_cases hf : FitsCaps kexInitIdListMax names <;>
    simp [decode, ListFits, listIds, hs, getNameListRaw_joinNames _ hv, hf]

theorem getNameList_yields_iff {buf l rest : Bytes} {idx idx' : Nat} {ids : List AlgoId}
    (h : Rest buf idx (copyNameList l ++ rest)) (hl : l.length < 2 ^ 32) :
    Yields (getNameList kexInitIdListMax buf) idx ids idx' ↔
      decode l = .ok ids ∧ idx + 4 + l.length = idx' := by
  rw [copyNameList, List.append_assoc] at h
  rw [Yields, getNameList, (getStringRef_yields h hl).runAt_bind]
  simp [decode]

theorem field_getNameList_iff {buf l rest : Bytes} {idx : Nat} {ssh : KexSession}
    {ids : List AlgoId} {t : KexInitState} (h : Rest buf idx (copyNameList l ++ rest))
    (hl : l.length < 2 ^ 32) :
    Yields (field (getNameList kexInitIdListMax buf)) ⟨idx, ssh⟩ ids t ↔
      decode l = .ok ids ∧ ⟨idx + 4 + l.length, ssh⟩ = t := by
  rw [field, yields_zoom_iff]
  simp only [getNameList_yields_iff h hl]
  constructor
  · rintro ⟨_, ⟨hd, rfl⟩, rfl⟩
    exact ⟨hd, rfl⟩
  · rintro ⟨hd, rfl⟩
    exact ⟨_, ⟨hd, rfl⟩, rfl⟩

theorem matchField_yields_iff {buf l rest : Bytes} {idx : Nat} {ssh : KexSession}
    {own : Except WsErr (List AlgoId)} {e : WsErr} {m : Match} {t : KexInitState}
    (h : Rest buf idx (copyNameList l ++ rest)) (hl : l.length < 2 ^ 32) :
    Yields (matchField buf own e) ⟨idx, ssh⟩ m t ↔
      decode l = .ok m.list ∧ own = .ok m.cannedList ∧ m.algoId ≠ .unknown ∧
        matchIdLists ssh.side m.list m.cannedList = m.algoId ∧ ⟨idx + 4 + l.length, ssh⟩ = t := by
  unfold matchField
  simp only [yields_bind_iff, field_getNameList_iff h hl, yields_ofExcept_iff, yields_get_iff,
    yields_require_iff, yields_pure_iff]
  constructor
  · rintro ⟨list, _, ⟨hd, rfl⟩, canned, _, ⟨ho, rfl⟩, _, _, ⟨rfl, rfl⟩, _, _, ⟨hm, rfl⟩, rfl, rfl⟩
    exact ⟨hd, ho, hm, rfl, rfl⟩
  · rintro ⟨hd, ho, hm, hid, rfl⟩
    refine ⟨m.list, _, ⟨hd, rfl⟩, m.cannedList, _, ⟨ho, rfl⟩, _, _, ⟨rfl, rfl⟩, (), _,
      ⟨?_, rfl⟩, ?_, rfl⟩
    · rwa [hid]
    · rw [hid]

theorem matchMacField_yields_iff {buf l rest : Bytes} {idx : Nat} {ssh : KexSession}
    {aeadMode : Bool} {macId : AlgoId} {t : KexInitState}
    (h : Rest buf idx (copyNameList l ++ rest)) (hl : l.length < 2 ^ 32) :
    Yields (matchMacField buf aeadMode) ⟨idx, ssh⟩ macId t ↔
      ∃ list, decode l = .ok list ∧ ⟨idx + 4 + l.length, ssh⟩ = t ∧
        if aeadMode then macId = .none
        else ∃ canned, decode (algoNames ssh.algoListMac) = .ok canned ∧ macId ≠ .unknown ∧
          matchIdLists ssh.side list canned = macId := by
  unfold matchMacField
  cases aeadMode with
  | true =>
    simp only [if_true, yields_bind_iff, field_getNameList_iff h hl, yields_pure_iff]
    constructor
    · rintro ⟨list, _, ⟨hd, rfl⟩, rfl, rfl⟩
      exact ⟨list, hd, rfl, rfl⟩
    · rintro ⟨list, hd, rfl, rfl⟩
      exact ⟨list, _, ⟨hd, rfl⟩, rfl, rfl⟩
  | false =>
    simp only [Bool.false_eq_true, if_false, yields_bind_iff, yields_get_iff, yields_pure_iff]
    constructor
    · rintro ⟨_, _, ⟨rfl, rfl⟩, m, _, hm, rfl, rfl⟩
      obtain ⟨hd, ho, hne, hid, rfl⟩ := (matchField_yields_iff h hl).mp hm
      exact ⟨m.list, hd, rfl, m.cannedList, ho, hne, hid⟩
    · rintro ⟨list, hd, rfl, canned, ho, hne, hid⟩
      exact ⟨_, _, ⟨rfl, rfl⟩, ⟨list, canned, macId⟩, _,
        (matchField_yields_iff h hl).mpr ⟨hd, ho, hne, hid, rfl⟩, rfl, rfl⟩

namespace KexSession

def kexNames (ssh : KexSession) : Bytes := algoNames ssh.algoListKex

/-- The key exchange names as sent, with the pseudo-algorithms. -/
def kexNamesSent (ssh : KexSession) : Bytes :=
  ssh.kexNames ++ kexAlgoNamesPlus ssh.side (ssh.sessionIdSz == 0 && ssh.sendStrictKex)

def cipherNames (ssh : KexSession) : Bytes := algoNames ssh.algoListCipher

def macNames (ssh : KexSession) : Bytes := algoNames ssh.algoListMac

end KexSession

def chooseKex (me peer : KexSession) : AlgoId :=
  matchIdLists me.side (listIds peer.kexNamesSent) (listIds me.kexNames)

def chooseKey (me peer : KexSession) : AlgoId :=
  matchIdLists me.side (listIds (keyAlgoNames peer)) (listIds (keyAlgoNames me))

def chooseCipher (me peer : KexSession) : AlgoId :=
  matchIdLists me.side (listIds peer.cipherNames) (listIds me.cipherNames)

/-- No MAC is chosen beside an AEAD cipher. -/
def chooseMac (me peer : KexSession) : AlgoId :=
  if aeadModeForId (chooseCipher me peer) then .none
  else matchIdLists me.side (listIds peer.macNames) (listIds me.macNames)

/-- The session after the key exchange methods were matched. -/
def afterKex (me peer : KexSession) : KexSession :=
  let list := listIds peer.kexNamesSent
  noteStrictKex list (noteExtInfo list (noteKexId (chooseKex me peer) me))

def afterKey (ssh peer : KexSession) : KexSession :=
  let note (hs : HandshakeInfo) := { hs with pubKeyId := chooseKey ssh peer }
  { ssh with handshake := ssh.handshake.map note }

/-- When `me` accepts the KEXINIT of `peer`. -/
structure Accepts (me peer : KexSession) : Prop where
  kexFits : ListFits peer.kexNamesSent
  ownKexFits : ListFits me.kexNames
  kexMatch : chooseKex me peer ≠ .unknown
  firstPacket : firstPacketOk (afterKex me peer)
  keyFits : ListFits (keyAlgoNames peer)
  ownKeyFits : ListFits (keyAlgoNames me)
  keyMatch : chooseKey me peer ≠ .unknown
  cipherFits : ListFits peer.cipherNames
  ownCipherFits : ListFits me.cipherNames
  cipherMatch : chooseCipher me peer ≠ .unknown
  macFits : ListFits peer.macNames
  ownMac : aeadModeForId (chooseCipher me peer) = false →
    ListFits me.macNames ∧ chooseMac me peer ≠ .unknown

/-- The algorithms of both directions: each side sends the same list for either one. -/
def chosenAlgos (me peer : KexSession) : DirectionAlgos :=
  algoIds (chooseCipher me peer) (aeadModeForId (chooseCipher me peer)) (chooseMac me peer)

/-- The session after it accepted the KEXINIT of `peer`. -/
def negotiated (me peer : KexSession) : KexSession :=
  let ssh := afterKey (afterKex me peer) peer
  let algos := chosenAlgos me peer
  { ssh with handshake := ssh.handshake.map (fun hs => { hs with self := algos, peer := algos }) }

structure WellFormedLists (ssh : KexSession) : Prop where
  kex : WellFormedList ssh.kexNames
  kexSent : WellFormedList ssh.kexNamesSent
  key : WellFormedList (keyAlgoNames ssh)
  cipher : WellFormedList ssh.cipherNames
  mac : WellFormedList ssh.macNames
  ownKey : ownKeyIds ssh = decode (keyAlgoNames ssh)

theorem update_yields_iff {f : KexSession → KexSession} {s t : KexInitState} {u : Unit} :
    Yields (update f) s u t ↔ ⟨s.begin, f s.ssh⟩ = t :=
  yields_modify_iff

theorem updateHandshake_yields_iff {f : HandshakeInfo → HandshakeInfo} {s t : KexInitState}
    {u : Unit} :
    Yields (updateHandshake f) s u t ↔
      ⟨s.begin, { s.ssh with handshake := s.ssh.handshake.map f }⟩ = t :=
  yields_modify_iff

theorem field_yields_iff {α : Type} {m : Reader α} {idx idx' : Nat} {ssh : KexSession} {a b : α}
    {t : KexInitState} (hm : Yields m idx b idx') :
    Yields (field m) ⟨idx, ssh⟩ a t ↔ b = a ∧ ⟨idx', ssh⟩ = t := by
  unfold Yields at *
  simp [field, hm]

theorem Rest.skip_list {buf l rest : Bytes} {idx : Nat} (h : Rest buf idx (copyNameList l ++ rest)) :
    Rest buf (idx + 4 + l.length) rest := by
  have hh := h.skip
  rwa [copyNameList, List.length_append, c32toa_length, ← Nat.add_assoc] at hh

theorem Rest.length_lt {buf l rest : Bytes} {idx : Nat} (h : Rest buf idx (copyNameList l ++ rest))
    (hsz : buf.length < 2 ^ 32) : l.length < 2 ^ 32 := by
  have hlen := h.length
  rw [List.length_append, copyNameList, List.length_append, c32toa_length] at hlen
  omega

/-- Matching two lists of names: both must fit, and what they have in common is chosen. -/
theorem matchField_names_iff {buf l own rest : Bytes} {idx : Nat} {ssh : KexSession} {e : WsErr}
    {m : Match} {t : KexInitState} (hl : WellFormedList l) (hown : WellFormedList own)
    (h : Rest buf idx (copyNameList l ++ rest)) (hsz : buf.length < 2 ^ 32) :
    Yields (matchField buf (decode own) e) ⟨idx, ssh⟩ m t ↔
      ListFits l ∧ ListFits own ∧ matchIdLists ssh.side (listIds l) (listIds own) ≠ .unknown ∧
        ⟨listIds l, listIds own, matchIdLists ssh.side (listIds l) (listIds own)⟩ = m ∧
        ⟨idx + 4 + l.length, ssh⟩ = t := by
  rw [matchField_yields_iff h (h.length_lt hsz), decode_ok_iff hl, decode_ok_iff hown]
  constructor
  · rintro ⟨⟨hf, hd⟩, ⟨hof, ho⟩, hne, hid, rfl⟩
    rw [hd, ho, hid]
    exact ⟨hf, hof, hne, rfl, rfl⟩
  · rintro ⟨hf, hof, hne, rfl, rfl⟩
    exact ⟨⟨hf, rfl⟩, ⟨hof, rfl⟩, hne, rfl, rfl⟩

section Stages

variable {buf rest : Bytes} {idx : Nat} {ssh me peer : KexSession} {t : KexInitState}

def kexMatch (me peer : KexSession) : Match :=
  ⟨listIds peer.kexNamesSent, listIds me.kexNames, chooseKex me peer⟩

def keyMatch (me peer : KexSession) : Match :=
  ⟨listIds (keyAlgoNames peer), listIds (keyAlgoNames me), chooseKey me peer⟩

theorem matchKex_yields_iff {m : Match} (hme : WellFormedLists me) (hpeer : WellFormedLists peer)
    (h : Rest buf idx (copyNameList peer.kexNamesSent ++ rest)) (hsz : buf.length < 2 ^ 32) :
    Yields (matchKex buf) ⟨idx, me⟩ m t ↔
      ListFits peer.kexNamesSent ∧ ListFits me.kexNames ∧ chooseKex me peer ≠ .unknown ∧
        firstPacketOk (afterKex me peer) ∧ kexMatch me peer = m ∧
        ⟨idx + 4 + peer.kexNamesSent.length, afterKex me peer⟩ = t := by
  unfold matchKex
  simp only [yields_bind_iff, yields_get_iff, yields_require_iff, yields_pure_iff,
    update_yields_iff]
  constructor
  · rintro ⟨_, _, ⟨rfl, rfl⟩, _, _, hm, _, _, rfl, _, _, ⟨rfl, rfl⟩, _, _, ⟨hfirst, rfl⟩, rfl, rfl⟩
    obtain ⟨hf, hof, hne, rfl, rfl⟩ := (matchField_names_iff hpeer.kexSent hme.kex h hsz).mp hm
    exact ⟨hf, hof, hne, hfirst, rfl, rfl⟩
  · rintro ⟨hf, hof, hne, hfirst, rfl, rfl⟩
    have hm := (matchField_names_iff (e := .matchKexAlgoE) hpeer.kexSent hme.kex h hsz).mpr
      ⟨hf, hof, hne, rfl, rfl⟩
    exact ⟨_, _, ⟨rfl, rfl⟩, kexMatch me peer, _, hm, (), _, rfl, _, _, ⟨rfl, rfl⟩, (), _,
      ⟨hfirst, rfl⟩, rfl, rfl⟩

theorem matchKey_yields_iff {m : Match} (hme : WellFormedLists ssh) (hpeer : WellFormedLists peer)
    (h : Rest buf idx (copyNameList (keyAlgoNames peer) ++ rest)) (hsz : buf.length < 2 ^ 32) :
    Yields (matchKey buf) ⟨idx, ssh⟩ m t ↔
      ListFits (keyAlgoNames peer) ∧ ListFits (keyAlgoNames ssh) ∧
        chooseKey ssh peer ≠ .unknown ∧ keyMatch ssh peer = m ∧
        ⟨idx + 4 + (keyAlgoNames peer).length, afterKey ssh peer⟩ = t := by
  unfold matchKey
  simp only [yields_bind_iff, yields_get_iff, yields_pure_iff, updateHandshake_yields_iff]
  constructor
  · rintro ⟨_, _, ⟨rfl, rfl⟩, _, _, hm, _, _, rfl, rfl, rfl⟩
    simp only [hme.ownKey] at hm
    obtain ⟨hf, hof, hne, rfl, rfl⟩ := (matchField_names_iff hpeer.key hme.key h hsz).mp hm
    exact ⟨hf, hof, hne, rfl, rfl⟩
  · rintro ⟨hf, hof, hne, rfl, rfl⟩
    have hm := (matchField_names_iff (e := .matchKeyAlgoE) hpeer.key hme.key h hsz).mpr
      ⟨hf, hof, hne, rfl, rfl⟩
    rw [← hme.ownKey] at hm
    exact ⟨_, _, ⟨rfl, rfl⟩, keyMatch ssh peer, _, hm, (), _, rfl, rfl, rfl⟩

theorem matchMacField_names_iff {macId : AlgoId} (hme : WellFormedLists ssh)
    (hpeer : WellFormedLists peer) (h : Rest buf idx (copyNameList peer.macNames ++ rest))
    (hsz : buf.length < 2 ^ 32) :
    Yields (matchMacField buf (aeadModeForId (chooseCipher ssh peer))) ⟨idx, ssh⟩ macId t ↔
      ListFits peer.macNames ∧
        (aeadModeForId (chooseCipher ssh peer) = false →
          ListFits ssh.macNames ∧ chooseMac ssh peer ≠ .unknown) ∧
        chooseMac ssh peer = macId ∧ ⟨idx + 4 + peer.macNames.length, ssh⟩ = t := by
  have hown : decode (algoNames ssh.algoListMac) = decode ssh.macNames := rfl
  rw [matchMacField_yields_iff h (h.length_lt hsz), hown]
  unfold chooseMac
  simp only [decode_ok_iff hpeer.mac, decode_ok_iff hme.mac]
  cases aeadModeForId (chooseCipher ssh peer) with
  | true =>
    simp only [if_true, Bool.true_eq_false, false_imp_iff, true_and]
    constructor
    · rintro ⟨_, ⟨hf, _⟩, rfl, rfl⟩
      exact ⟨hf, rfl, rfl⟩
    · rintro ⟨hf, rfl, rfl⟩
      exact ⟨_, ⟨hf, rfl⟩, rfl, rfl⟩
  | false =>
    simp only [Bool.false_eq_true, if_false, forall_true_left]
    constructor
    · rintro ⟨_, ⟨hf, rfl⟩, rfl, _, ⟨hof, rfl⟩, hne, rfl⟩
      exact ⟨hf, ⟨hof, hne⟩, rfl, rfl⟩
    · rintro ⟨hf, ⟨hof, hne⟩, rfl, rfl⟩
      exact ⟨_, ⟨hf, rfl⟩, rfl, _, ⟨hof, rfl⟩, hne, rfl⟩

theorem matchCiphers_yields_iff {r : DirectionAlgos × DirectionAlgos} (hme : WellFormedLists ssh)
    (hpeer : WellFormedLists peer)
    (h : Rest buf idx (copyNameList peer.cipherNames ++ (copyNameList peer.cipherNames ++
      (copyNameList peer.macNames ++ (copyNameList peer.macNames ++ rest)))))
    (hsz : buf.length < 2 ^ 32) :
    Yields (matchCiphers buf) ⟨idx, ssh⟩ r t ↔
      ListFits peer.cipherNames ∧ ListFits ssh.cipherNames ∧ chooseCipher ssh peer ≠ .unknown ∧
        ListFits peer.macNames ∧
        (aeadModeForId (chooseCipher ssh peer) = false →
          ListFits ssh.macNames ∧ chooseMac ssh peer ≠ .unknown) ∧
        (chosenAlgos ssh peer, chosenAlgos ssh peer) = r ∧
        ⟨idx + 4 + peer.cipherNames.length + 4 + peer.cipherNames.length + 4 +
          peer.macNames.length + 4 + peer.macNames.length, ssh⟩ = t := by
  have h2 := h.skip_list
  have h3 := h2.skip_list
  have h4 := h3.skip_list
  unfold matchCiphers
  simp only [yields_bind_iff, yields_get_iff, yields_pure_iff]
  constructor
  · rintro ⟨_, _, ⟨rfl, rfl⟩, _, _, hc, _, _, hs, _, _, hm, _, _, hn, rfl, rfl⟩
    obtain ⟨hf, hof, hne, rfl, rfl⟩ := (matchField_names_iff hpeer.cipher hme.cipher h hsz).mp hc
    obtain ⟨-, -, -, rfl, rfl⟩ := (matchField_names_iff hpeer.cipher hme.cipher h2 hsz).mp hs
    obtain ⟨hmf, hmac, rfl, rfl⟩ := (matchMacField_names_iff hme hpeer h3 hsz).mp hm
    obtain ⟨-, -, rfl, rfl⟩ := (matchMacField_names_iff hme hpeer h4 hsz).mp hn
    exact ⟨hf, hof, hne, hmf, hmac, rfl, rfl⟩
  · rintro ⟨hf, hof, hne, hmf, hmac, rfl, rfl⟩
    have hc := (matchField_names_iff (e := .matchEncAlgoE) hpeer.cipher hme.cipher h hsz).mpr
      ⟨hf, hof, hne, rfl, rfl⟩
    have hs := (matchField_names_iff (e := .matchEncAlgoE) hpeer.cipher hme.cipher h2 hsz).mpr
      ⟨hf, hof, hne, rfl, rfl⟩
    have hm := (matchMacField_names_iff hme hpeer h3 hsz).mpr ⟨hmf, hmac, rfl, rfl⟩
    have hn := (matchMacField_names_iff hme hpeer h4 hsz).mpr ⟨hmf, hmac, rfl, rfl⟩
    exact ⟨_, _, ⟨rfl, rfl⟩, _, _, hc, _, _, hs, _, _, hm, _, _, hn, rfl, rfl⟩

theorem matchNone_yields_iff {m : Match}
    (h : Rest buf idx (copyNameList (ascii "none") ++ rest)) :
    Yields (matchField buf (.ok [.none]) .invalidAlgoId) ⟨idx, ssh⟩ m t ↔
      ⟨[.none], [.none], .none⟩ = m ∧ ⟨idx + 4 + 4, ssh⟩ = t := by
  have hd : decode (ascii "none") = .ok [.none] := by decide +kernel
  have hlen : (ascii "none").length = 4 := by decide
  rw [matchField_yields_iff h (by rw [hlen]; decide), hd, hlen]
  have hself : matchIdLists ssh.side [.none] [.none] = .none := by
    cases ssh.side <;> decide
  constructor
  · rintro ⟨hl, ho, -, hid, rfl⟩
    rw [← Except.ok.inj hl, ← Except.ok.inj ho, hself] at hid
    rcases m with ⟨list, canned, algoId⟩
    obtain rfl : [AlgoId.none] = list := Except.ok.inj hl
    obtain rfl : [AlgoId.none] = canned := Except.ok.inj ho
    exact ⟨by rw [hid], rfl⟩
  · rintro ⟨rfl, rfl⟩
    exact ⟨rfl, rfl, by simp, hself, rfl⟩

theorem getSkip_empty_yields (h : Rest buf idx (c32toa 0 ++ rest)) :
    Yields (getSkip buf) idx () (idx + 4) :=
  @getSkip_yields buf [] rest idx h (by decide)

theorem endKexInit_yields_iff {kex key : Match} {u : Unit}
    (h : Rest buf idx (copyNameList (ascii "none") ++ (copyNameList (ascii "none") ++
      (c32toa 0 ++ (c32toa 0 ++ (0 :: c32toa 0)))))) :
    Yields (endKexInit buf kex key) ⟨idx, ssh⟩ u t ↔
      ⟨idx + 4 + 4 + 4 + 4 + 4 + 4 + 1 + 4, ssh⟩ = t := by
  have hlen : (ascii "none").length = 4 := by decide
  have h2 := h.skip_list
  have h3 := h2.skip_list
  rw [hlen] at h2 h3
  have h4 : Rest buf (idx + 4 + 4 + 4 + 4 + 4) (c32toa 0 ++ (0 :: c32toa 0)) := h3.skip_uint32
  have h5 : Rest buf (idx + 4 + 4 + 4 + 4 + 4 + 4) (0 :: c32toa 0) := h4.skip_uint32
  have h6 : Rest buf (idx + 4 + 4 + 4 + 4 + 4 + 4 + 1) (c32toa 0 ++ []) := by
    have hskip : Rest buf (idx + 4 + 4 + 4 + 4 + 4 + 4) ([0] ++ c32toa 0) := h5
    simpa using hskip.skip
  have hl1 := getSkip_empty_yields h3
  have hl2 := getSkip_empty_yields h4
  have hb := getBoolean_yields h5
  have hr := getUint32_yields h6 (by decide)
  have hsame : ({ ssh with handshake := ssh.handshake.map (fun hs =>
      { hs with ignoreNextKexMsg := hs.ignoreNextKexMsg ||
        ((0 : UInt8) != 0 && ssh.side == .server && (kex.wrongGuess || key.wrongGuess)) }) } :
      KexSession) = ssh := by
    simp
  unfold endKexInit
  simp only [yields_bind_iff, yields_get_iff, updateHandshake_yields_iff, yields_require_iff]
  constructor
  · rintro ⟨_, _, hz1, _, _, hz2, _, _, hs1, _, _, hs2, _, _, hb', _, _, ⟨rfl, rfl⟩, _, _, rfl, _, _, hr', -, rfl⟩
    obtain ⟨-, rfl⟩ := (matchNone_yields_iff h).mp hz1
    obtain ⟨-, rfl⟩ := (matchNone_yields_iff h2).mp hz2
    obtain ⟨-, rfl⟩ := (field_yields_iff hl1).mp hs1
    obtain ⟨-, rfl⟩ := (field_yields_iff hl2).mp hs2
    obtain ⟨rfl, rfl⟩ := (field_yields_iff hb).mp hb'
    simp only [hsame] at hr'
    exact ((field_yields_iff hr).mp hr').2
  · rintro rfl
    refine ⟨_, _, (matchNone_yields_iff h).mpr ⟨rfl, rfl⟩, _, _,
      (matchNone_yields_iff h2).mpr ⟨rfl, rfl⟩, _, _, (field_yields_iff hl1).mpr ⟨rfl, rfl⟩, _, _,
      (field_yields_iff hl2).mpr ⟨rfl, rfl⟩, _, _, (field_yields_iff hb).mpr ⟨rfl, rfl⟩, _, _,
      ⟨rfl, rfl⟩, (), _, rfl, 0, _, ?_, rfl, rfl⟩
    simp only [hsame]
    exact (field_yields_iff hr).mpr ⟨rfl, rfl⟩

end Stages

theorem afterKex_eq (me peer : KexSession) :
    afterKex me peer = { noteKexId (chooseKex me peer) me with
      sendExtInfo := (afterKex me peer).sendExtInfo
      useStrictKex := (afterKex me peer).useStrictKex } := by
  unfold afterKex noteStrictKex noteExtInfo
  simp only
  split_ifs <;> rfl

theorem WellFormedLists.afterKex {me : KexSession} (h : WellFormedLists me) (peer : KexSession) :
    WellFormedLists (afterKex me peer) := by
  rw [afterKex_eq]
  exact ⟨h.kex, h.kexSent, h.key, h.cipher, h.mac, h.ownKey⟩

theorem WellFormedLists.afterKey {me : KexSession} (h : WellFormedLists me) (peer : KexSession) :
    WellFormedLists (afterKey me peer) :=
  ⟨h.kex, h.kexSent, h.key, h.cipher, h.mac, h.ownKey⟩

theorem chooseKey_afterKex (me peer : KexSession) :
    chooseKey (afterKex me peer) peer = chooseKey me peer ∧
      keyAlgoNames (afterKex me peer) = keyAlgoNames me := by
  rw [afterKex_eq]
  exact ⟨rfl, rfl⟩

theorem chooseCipher_afterKey (me peer : KexSession) :
    chooseCipher (afterKey (afterKex me peer) peer) peer = chooseCipher me peer ∧
      chooseMac (afterKey (afterKex me peer) peer) peer = chooseMac me peer ∧
      chosenAlgos (afterKey (afterKex me peer) peer) peer = chosenAlgos me peer ∧
      (afterKey (afterKex me peer) peer).cipherNames = me.cipherNames ∧
      (afterKey (afterKex me peer) peer).macNames = me.macNames := by
  rw [afterKex_eq]
  exact ⟨rfl, rfl, rfl, rfl, rfl⟩

structure BodyFields (peer : KexSession) (buf : Bytes) (i₁ i₂ i₃ i₄ : Nat) : Prop where
  cookie : 0 + cookieSz ≤ buf.length ∧ i₁ = 0 + cookieSz
  kex : ∃ rest, Rest buf i₁ (copyNameList peer.kexNamesSent ++ rest)
  kexEnd : i₂ = i₁ + 4 + peer.kexNamesSent.length
  key : ∃ rest, Rest buf i₂ (copyNameList (keyAlgoNames peer) ++ rest)
  keyEnd : i₃ = i₂ + 4 + (keyAlgoNames peer).length
  ciphers : ∃ rest, Rest buf i₃ (copyNameList peer.cipherNames ++ (copyNameList peer.cipherNames ++
    (copyNameList peer.macNames ++ (copyNameList peer.macNames ++ rest))))
  ciphersEnd : i₄ = i₃ + 4 + peer.cipherNames.length + 4 + peer.cipherNames.length + 4 +
    peer.macNames.length + 4 + peer.macNames.length
  finish : Rest buf i₄ (copyNameList (ascii "none") ++ (copyNameList (ascii "none") ++
    (c32toa 0 ++ (c32toa 0 ++ (0 :: c32toa 0)))))

theorem kexInitBody_fields (peer : KexSession) {cookie : Bytes} (hcookie : cookie.length = cookieSz) :
    ∃ i₁ i₂ i₃ i₄, BodyFields peer (kexInitBody peer cookie) i₁ i₂ i₃ i₄ := by
  have h0 : Rest (kexInitBody peer cookie) 0 (cookie ++ (copyNameList peer.kexNamesSent ++
      (copyNameList (keyAlgoNames peer) ++ (copyNameList peer.cipherNames ++
      (copyNameList peer.cipherNames ++ (copyNameList peer.macNames ++
      (copyNameList peer.macNames ++ (copyNameList (ascii "none") ++
      (copyNameList (ascii "none") ++
      (c32toa 0 ++ (c32toa 0 ++ (0 :: c32toa 0)))))))))))) := rfl
  have h1 := h0.skip
  rw [hcookie] at h1
  have h2 := h1.skip_list
  have h3 := h2.skip_list
  have h4 := h3.skip_list.skip_list.skip_list.skip_list
  have hlen := h0.length
  rw [List.length_append, hcookie] at hlen
  exact ⟨_, _, _, _, ⟨by omega, rfl⟩, ⟨_, h1⟩, rfl, ⟨_, h2⟩, rfl, ⟨_, h3⟩, rfl, h4⟩

section Outcome

variable {me peer : KexSession} {cookie : Bytes} {t : KexInitState} {u : Unit}

theorem negotiateKexInit_accepts (hme : WellFormedLists me) (hpeer : WellFormedLists peer)
    (hcookie : cookie.length = cookieSz) (hsz : (kexInitBody peer cookie).length < 2 ^ 32)
    (h : Yields (negotiateKexInit (kexInitBody peer cookie)) ⟨0, me⟩ u t) :
    Accepts me peer ∧ t.ssh = negotiated me peer := by
  obtain ⟨_, _, _, _, ⟨-, rfl⟩, ⟨_, h1⟩, rfl, ⟨_, h2⟩, rfl, ⟨_, h3⟩, rfl, h4⟩ :=
    kexInitBody_fields peer hcookie
  generalize kexInitBody peer cookie = buf at h h1 h2 h3 h4 hsz
  obtain ⟨hkeyId, hkeyNames⟩ := chooseKey_afterKex me peer
  obtain ⟨hcipherId, hmacId, halgos, hcipherNames, hmacNames⟩ := chooseCipher_afterKey me peer
  unfold negotiateKexInit at h
  simp only [yields_bind_iff, yields_get_iff, yields_require_iff, yields_modify_iff,
    updateHandshake_yields_iff] at h
  obtain ⟨_, _, ⟨rfl, rfl⟩, _, _, ⟨-, rfl⟩, _, _, rfl, _, _, hkex, _, _, hkey, _, _, hciph, _, _,
    hend, rfl⟩ := h
  obtain ⟨hf, hof, hm, hfirst, rfl, rfl⟩ := (matchKex_yields_iff hme hpeer h1 hsz).mp hkex
  have hme1 := hme.afterKex peer
  obtain ⟨hkf, hkof, hkm, rfl, rfl⟩ := (matchKey_yields_iff hme1 hpeer h2 hsz).mp hkey
  obtain ⟨hcf, hcof, hcm, hmf, hmac, rfl, rfl⟩ :=
    (matchCiphers_yields_iff (hme1.afterKey peer) hpeer h3 hsz).mp hciph
  obtain rfl := (endKexInit_yields_iff h4).mp hend
  rw [hkeyNames] at hkof
  rw [hkeyId] at hkm
  rw [hcipherNames] at hcof
  rw [hcipherId] at hcm
  rw [hcipherId, hmacNames, hmacId] at hmac
  refine ⟨⟨hf, hof, hm, hfirst, hkf, hkof, hkm, hcf, hcof, hcm, hmf, hmac⟩, ?_⟩
  simp only [halgos, negotiated]
  cases me.side <;> rfl

theorem negotiateKexInit_of_accepts (hme : WellFormedLists me) (hpeer : WellFormedLists peer)
    (hcookie : cookie.length = cookieSz) (hsz : (kexInitBody peer cookie).length < 2 ^ 32)
    (ha : Accepts me peer) :
    ∃ t, Yields (negotiateKexInit (kexInitBody peer cookie)) ⟨0, me⟩ () t := by
  obtain ⟨_, _, _, _, ⟨hck, rfl⟩, ⟨_, h1⟩, rfl, ⟨_, h2⟩, rfl, ⟨_, h3⟩, rfl, h4⟩ :=
    kexInitBody_fields peer hcookie
  generalize kexInitBody peer cookie = buf at hck h1 h2 h3 h4 hsz ⊢
  obtain ⟨hkeyId, hkeyNames⟩ := chooseKey_afterKex me peer
  obtain ⟨hcipherId, hmacId, -, hcipherNames, hmacNames⟩ := chooseCipher_afterKey me peer
  have hme1 := hme.afterKex peer
  have hkex := (matchKex_yields_iff hme hpeer h1 hsz).mpr
    ⟨ha.kexFits, ha.ownKexFits, ha.kexMatch, ha.firstPacket, rfl, rfl⟩
  have hkey := (matchKey_yields_iff hme1 hpeer h2 hsz).mpr
    ⟨ha.keyFits, hkeyNames ▸ ha.ownKeyFits, hkeyId ▸ ha.keyMatch, rfl, rfl⟩
  have hciph := (matchCiphers_yields_iff (hme1.afterKey peer) hpeer h3 hsz).mpr
    ⟨ha.cipherFits, hcipherNames ▸ ha.ownCipherFits, hcipherId ▸ ha.cipherMatch, ha.macFits,
      by rw [hcipherId, hmacNames, hmacId]; exact ha.ownMac, rfl, rfl⟩
  unfold negotiateKexInit
  simp only [yields_bind_iff, yields_get_iff, yields_require_iff, yields_modify_iff,
    updateHandshake_yields_iff]
  exact ⟨_, _, _, ⟨rfl, rfl⟩, (), _, ⟨hck, rfl⟩, (), _, rfl, _, _, hkex, _, _, hkey, _, _, hciph, (),
    _, (endKexInit_yields_iff h4).mpr rfl, rfl⟩

end Outcome

end WolfSsh
