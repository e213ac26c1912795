import WolfSsh.NameList

/-! Algorithm negotiation: the KEXINIT payload a side sends, and what it takes from the peer's. -/

namespace WolfSsh

def cookieSz : Nat := 16
def msgidKexInit : UInt8 := 20

/-- What is in use, or about to be, in one direction of the transport. -/
structure DirectionAlgos where
  encryptId : AlgoId := .none
  aeadMode : Bool := false
  blockSz : Nat := minBlockSz
  macId : AlgoId := .none
  macSz : Nat := 0
  ivSz : Nat := 0
  encKeySz : Nat := 0
  macKeySz : Nat := 0
deriving DecidableEq, Repr

structure HandshakeInfo where
  kexId : AlgoId := .none
  pubKeyId : AlgoId := .none
  self : DirectionAlgos := {}
  peer : DirectionAlgos := {}
  kexInit : Bytes := []
  ignoreNextKexMsg : Bool := false
deriving DecidableEq, Repr

/-- The part of a session that key exchange negotiation reads and writes. `algoListKey` is empty
on a server that offers what its loaded keys support, `publicKeyAlgo`. -/
structure KexSession where
  side : Endpoint
  algoListKex : Bytes
  algoListKey : Option Bytes
  algoListCipher : Bytes
  algoListMac : Bytes
  publicKeyAlgo : List AlgoId := []
  privateKeyCount : Nat := 1
  sendStrictKex : Bool := true
  sessionIdSz : Nat := 0
  peerSeq : Nat := 0
  selfIsKeying : Bool := false
  peerIsKeying : Bool := false
  extInfoSent : Bool := false
  sendExtInfo : Bool := false
  useStrictKex : Bool := false
  kexId : AlgoId := .none
  handshake : Option HandshakeInfo := some {}
deriving DecidableEq, Repr

def copyNameList (names : Bytes) : Bytes := c32toa names.length ++ names

/-- The pseudo-algorithms a side appends to its list of key exchange methods. -/
def kexAlgoNamesPlus (side : Endpoint) (includeStrictKex : Bool) : Bytes :=
  match side, includeStrictKex with
  | .client, true => ascii ",ext-info-c,kex-strict-c,kex-strict-c-v00@openssh.com"
  | .client, false => ascii ",ext-info-c"
  | .server, true => ascii ",ext-info-s,kex-strict-s,kex-strict-s-v00@openssh.com"
  | .server, false => ascii ",ext-info-s"

/-- The host key names a side sends: its own list, or the names of the server's loaded keys. -/
def keyAlgoNames (ssh : KexSession) : Bytes :=
  match ssh.algoListKey, ssh.side with
  | some list, _ => algoNames list
  | none, .server => algoNames (buildNameList ssh.publicKeyAlgo)
  | none, .client => []

/-- The payload `SendKexInit` builds, after the message id and around the random cookie. -/
def kexInitBody (ssh : KexSession) (cookie : Bytes) : Bytes :=
  let plus := kexAlgoNamesPlus ssh.side (ssh.sessionIdSz == 0 && ssh.sendStrictKex)
  cookie ++
  (copyNameList (algoNames ssh.algoListKex ++ plus) ++
  (copyNameList (keyAlgoNames ssh) ++
  (copyNameList (algoNames ssh.algoListCipher) ++
  (copyNameList (algoNames ssh.algoListCipher) ++
  (copyNameList (algoNames ssh.algoListMac) ++
  (copyNameList (algoNames ssh.algoListMac) ++
  (copyNameList (ascii "none") ++
  (copyNameList (ascii "none") ++
  (c32toa 0 ++ (c32toa 0 ++ (0 :: c32toa 0)))))))))))

/-- `SendKexInit` up to the framing: the body it puts after the message id, or its refusal. -/
def sendKexInitBody (ssh : KexSession) (cookie : Bytes) : Except WsErr Bytes :=
  if ssh.side = .server ∧ ssh.privateKeyCount = 0 then .error .badArgument
  else if ssh.side = .server ∧ ssh.algoListKey = none ∧ ssh.publicKeyAlgo = [] then
    .error .badArgument
  else .ok (kexInitBody ssh cookie)

/-- What `SetLocalAlgoIds` and `SetPeerAlgoIds` store for their direction; an AEAD cipher has no
MAC of its own. -/
def algoIds (encId : AlgoId) (aeadMode : Bool) (macId : AlgoId) : DirectionAlgos :=
  let blkSz := blockSzForId encId
  if aeadMode then
    { encryptId := encId, aeadMode := true, blockSz := blkSz, encKeySz := keySzForId encId,
      ivSz := aeadNonceSz, macId := .none, macSz := blkSz, macKeySz := 0 }
  else
    { encryptId := encId, aeadMode := false, blockSz := blkSz, encKeySz := keySzForId encId,
      ivSz := blkSz, macId := macId, macSz := macSzForId macId, macKeySz := keySzForId macId }

structure KexInitState where
  begin : Nat := 0
  ssh : KexSession

abbrev KexInitM := Fallible WsErr KexInitState

def field {α : Type} (m : Reader α) : KexInitM α :=
  Fallible.zoom KexInitState.begin (fun begin s => { s with begin := begin }) m

def update (f : KexSession → KexSession) : KexInitM Unit :=
  modify (fun s => { s with ssh := f s.ssh })

def updateHandshake (f : HandshakeInfo → HandshakeInfo) : KexInitM Unit :=
  update (fun ssh => { ssh with handshake := ssh.handshake.map f })

def decode (nameList : Bytes) : Except WsErr (List AlgoId) :=
  getNameListRaw kexInitIdListMax nameList

/-- Two decoded lists, the peer's and our own, and what was chosen from them. -/
structure Match where
  list : List AlgoId
  cannedList : List AlgoId
  algoId : AlgoId

/-- The guess of a client that sends on at once is wrong unless both sides list the same
algorithm first and that one was chosen. -/
def Match.wrongGuess (m : Match) : Bool :=
  m.list.headD .unknown != m.cannedList.headD .unknown || m.list.headD .unknown != m.algoId

/-- Decode the peer's next list and our own one, and choose from them. -/
def matchField (buf : Bytes) (own : Except WsErr (List AlgoId)) (noMatch : WsErr) :
    KexInitM Match := do
  let list ← field (getNameList kexInitIdListMax buf)
  let cannedList ← Fallible.ofExcept own
  let s ← get
  let algoId := matchIdLists s.ssh.side list cannedList
  Fallible.require (algoId ≠ .unknown) noMatch
  return ⟨list, cannedList, algoId⟩

/-- A MAC list is decoded always, but matched only if the cipher needs a MAC. -/
def matchMacField (buf : Bytes) (aeadMode : Bool) : KexInitM AlgoId := do
  if aeadMode then
    let _ ← field (getNameList kexInitIdListMax buf)
    return .none
  else
    let s ← get
    let m ← matchField buf (decode (algoNames s.ssh.algoListMac)) .matchMacAlgoE
    return m.algoId

/-- The server without a list of its own takes its loaded keys as they are. -/
def ownKeyIds (ssh : KexSession) : Except WsErr (List AlgoId) :=
  match ssh.algoListKey, ssh.side with
  | none, .server => .ok ssh.publicKeyAlgo
  | none, .client => decode []
  | some list, _ => decode (algoNames list)

def extInfoId : Endpoint → AlgoId
  | .server => .extInfoC
  | .client => .extInfoS

def expectedStrict : Endpoint → List AlgoId
  | .server => [.extStrictKexC, .extPreStrictKexC]
  | .client => [.extStrictKexS, .extPreStrictKexS]

/-- Whether to send EXT_INFO follows the peer's list until one was sent. -/
def noteExtInfo (list : List AlgoId) (ssh : KexSession) : KexSession :=
  if ssh.extInfoSent then ssh
  else { ssh with
    sendExtInfo := decide (matchIdLists ssh.side list [extInfoId ssh.side] = extInfoId ssh.side) }

/-- Strict key exchange is settled by the first KEXINIT only. -/
def noteStrictKex (list : List AlgoId) (ssh : KexSession) : KexSession :=
  if ssh.sessionIdSz = 0 then
    let matched := matchIdLists ssh.side list (expectedStrict ssh.side)
    { ssh with useStrictKex := decide (matched ≠ .unknown) && ssh.sendStrictKex }
  else ssh

def noteKexId (kexId : AlgoId) (ssh : KexSession) : KexSession :=
  { ssh with
    kexId := kexId
    handshake := ssh.handshake.map (fun hs => { hs with kexId := kexId }) }

/-- Strict key exchange wants the peer's KEXINIT to be its first packet. -/
def firstPacketOk (ssh : KexSession) : Prop :=
  ¬ (ssh.sessionIdSz = 0 ∧ ssh.useStrictKex = true ∧ ssh.peerSeq ≠ 0)

instance (ssh : KexSession) : Decidable (firstPacketOk ssh) :=
  inferInstanceAs (Decidable (¬ _))

def matchKex (buf : Bytes) : KexInitM Match := do
  let s ← get
  let m ← matchField buf (decode (algoNames s.ssh.algoListKex)) .matchKexAlgoE
  update (fun ssh => noteStrictKex m.list (noteExtInfo m.list (noteKexId m.algoId ssh)))
  let t ← get
  Fallible.require (firstPacketOk t.ssh) .msgidNotAllowedE
  return m

def matchKey (buf : Bytes) : KexInitM Match := do
  let s ← get
  let m ← matchField buf (ownKeyIds s.ssh) .matchKeyAlgoE
  updateHandshake (fun hs => { hs with pubKeyId := m.algoId })
  return m

/-- The ciphers and MACs, client to server and server to client. -/
def matchCiphers (buf : Bytes) : KexInitM (DirectionAlgos × DirectionAlgos) := do
  let s ← get
  let cipher := decode (algoNames s.ssh.algoListCipher)
  let c2s ← matchField buf cipher .matchEncAlgoE
  let s2c ← matchField buf cipher .matchEncAlgoE
  let c2sAeadMode := aeadModeForId c2s.algoId
  let s2cAeadMode := aeadModeForId s2c.algoId
  let c2sMacId ← matchMacField buf c2sAeadMode
  let s2cMacId ← matchMacField buf s2cAeadMode
  return (algoIds c2s.algoId c2sAeadMode c2sMacId, algoIds s2c.algoId s2cAeadMode s2cMacId)

/-- Compression, languages, the flag for a guessed packet and the reserved word. Only a client
sends a guessed packet, so a client ignores the flag. -/
def endKexInit (buf : Bytes) (kex key : Match) : KexInitM Unit := do
  let _ ← matchField buf (.ok [.none]) .invalidAlgoId
  let _ ← matchField buf (.ok [.none]) .invalidAlgoId
  field (getSkip buf)
  field (getSkip buf)
  let kexPacketFollows ← field (getBoolean buf)
  let s ← get
  let ignore := kexPacketFollows && s.ssh.side == .server && (kex.wrongGuess || key.wrongGuess)
  updateHandshake (fun hs => { hs with ignoreNextKexMsg := hs.ignoreNextKexMsg || ignore })
  let reserved ← field (getUint32 buf)
  Fallible.require (reserved = 0) .parseE

/-- `DoKexInit` from the cookie to the reserved field. A refusal for strict key exchange, like a
failed match, makes the caller send a DISCONNECT. -/
def negotiateKexInit (buf : Bytes) : KexInitM Unit := do
  let s ← get
  Fallible.require (s.begin + cookieSz ≤ buf.length) .parseE
  modify (fun s => { s with begin := s.begin + cookieSz })
  let kex ← matchKex buf
  let key ← matchKey buf
  let (c2s, s2c) ← matchCiphers buf
  endKexInit buf kex key
  updateHandshake (fun hs =>
    match s.ssh.side with
    | .server => { hs with self := s2c, peer := c2s }
    | .client => { hs with self := c2s, peer := s2c })

/-- `DoKexInit` up to the answering KEXINIT and the exchange hash. -/
def doKexInitNegotiate (buf : Bytes) (ssh : KexSession) : Except WsErr Nat × KexSession :=
  if buf.length = 0 then (.error .badArgument, ssh)
  else if ssh.peerIsKeying then (.error .invalidStateE, ssh)
  else
    let ssh := { ssh with peerIsKeying := true, handshake := some (ssh.handshake.getD {}) }
    match (negotiateKexInit buf).runAt { ssh := ssh } with
    | (.ok _, s) => (.ok s.begin, s.ssh)
    | (.error e, s) => (.error e, s.ssh)

end WolfSsh
