import WolfSsh.Lib.CStrings
import WolfSsh.Mpint
import WolfSsh.Negotiate

/-! What each side feeds to the exchange hash, and the messages of one key exchange that it is
made from, from the version lines to the signed reply. -/

namespace WolfSsh

open Fallible (ensure)

def protoIdLimit : Nat := 255
def sshProtoSz : Nat := 8
def sshProtoEolSz : Nat := 2
def sshProtoMin : Nat := sshProtoSz + 1 + sshProtoEolSz
def maxBannerLines : Nat := 10

def sshProtoIdPrefix : Bytes := ascii "SSH-2.0-"

def validateProtoId (id : Bytes) : Bool :=
  let body := id.take (id.length - sshProtoEolSz)
  decide (sshProtoMin ≤ id.length ∧ id.length ≤ protoIdLimit) &&
  sshProtoIdPrefix.isPrefixOf id &&
  id.getD sshProtoSz 0 != 0x20 &&
  id.drop (id.length - sshProtoEolSz) == [0x0d, 0x0a] &&
  body.all (fun c => decide (0x20 ≤ c.toNat ∧ c.toNat ≤ 0x7e)) &&
  !((body.drop sshProtoSz).takeWhile (· != 0x20)).contains 0x2d

def wstrnstr (s1 s2 : Bytes) : Option Nat := CStrings.find s2 s1

/-- Where the terminator of the first line of `input` starts, and its size. At most
`protoIdLimit` octets are read for a line, a NUL ends the search in them, and a peer that stops
before the end of one has hung up. -/
def getInputLine (input : Bytes) : Except WsErr (Nat × Nat) :=
  match wstrnstr (input.take protoIdLimit) [0x0a] with
  | some lf => if 0 < lf ∧ input.getD (lf - 1) 0 = 0x0d then .ok (lf - 1, 2) else .ok (lf, 1)
  | none => if protoIdLimit ≤ input.length then .error .versionE else .error .socketErrorE

/-- `DoProtoId` on all the peer sends: the identification with its length in front, and what
follows its line. A client skips banner lines, as many as it has left. -/
def doProtoId (side : Endpoint) (banners : Nat) (input : Bytes) : Except WsErr (Bytes × Bytes) := do
  let (eol, eolSz) ← getInputLine input
  if (ascii "SSH-").isPrefixOf input then
    if sshProtoIdPrefix.isPrefixOf input then
      -- the terminator becomes a NUL, and the size is that of the C string
      let id := (input.take eol).takeWhile (· != 0)
      return (c32toa id.length ++ id, input.drop (id.length + eolSz))
    else throw .versionE
  else
    match side, banners with
    | .client, n + 1 => doProtoId side n (input.drop (eol + eolSz))
    | _, _ => throw .versionE
  termination_by structural banners

def msgidKexDhInit : UInt8 := 30
def msgidKexDhReply : UInt8 := 31
def msgidKexDhGexGroup : UInt8 := 31
def msgidKexDhGexInit : UInt8 := 32
def msgidKexDhGexReply : UInt8 := 33
def msgidKexDhGexRequest : UInt8 := 34

/-- The switch over `kexId` that both sides make: how the shared secret is agreed on, and the
ids of the last two messages. -/
structure KexMethod where
  useDh : Bool := false
  useEcdh : Bool := false
  useCurve25519 : Bool := false
  useMlKem : Bool := false
  initId : UInt8 := msgidKexDhInit
  replyId : UInt8 := msgidKexDhReply

def kexMethod : AlgoId → Option KexMethod
  | .dhGroup1Sha1 | .dhGroup14Sha1 | .dhGroup14Sha256 | .dhGroup16Sha512 =>
    some { useDh := true }
  | .dhGexSha256 =>
    some { useDh := true, initId := msgidKexDhGexInit, replyId := msgidKexDhGexReply }
  | .ecdhSha2Nistp256 | .ecdhSha2Nistp384 | .ecdhSha2Nistp521 => some { useEcdh := true }
  | .curve25519Sha256 | .curve25519Sha256Libssh => some { useCurve25519 := true }
  | .nistp256Mlkem768Sha256 | .nistp384Mlkem1024Sha384 =>
    some { useEcdh := true, useMlKem := true }
  | .curve25519Mlkem768Sha256 => some { useCurve25519 := true, useMlKem := true }
  | _ => none

def dhGenerator : Bytes := [2]

def dhPrimeGroup1 : Bytes :=
  [ 0xffffffffffffffffc90fdaa22168c234c4c6628b80dc1cd129024e088a67cc74,
    0x020bbea63b139b22514a08798e3404ddef9519b3cd3a431b302b0a6df25f1437,
    0x4fe1356d6d51c245e485b576625e7ec6f44c42e9a637ed6b0bff5cb6f406b7ed,
    0xee386bfb5a899fa5ae9f24117c4b1fe649286651ece65381ffffffffffffffff ].flatMap (Octets.be 32)

def dhPrimeGroup14 : Bytes :=
  [ 0xffffffffffffffffc90fdaa22168c234c4c6628b80dc1cd129024e088a67cc74,
    0x020bbea63b139b22514a08798e3404ddef9519b3cd3a431b302b0a6df25f1437,
    0x4fe1356d6d51c245e485b576625e7ec6f44c42e9a637ed6b0bff5cb6f406b7ed,
    0xee386bfb5a899fa5ae9f24117c4b1fe649286651ece45b3dc2007cb8a163bf05,
    0x98da48361c55d39a69163fa8fd24cf5f83655d23dca3ad961c62f356208552bb,
    0x9ed529077096966d670c354e4abc9804f1746c08ca18217c32905e462e36ce3b,
    0xe39e772c180e86039b2783a2ec07a28fb5c55df06f4c52c9de2bcbf695581718,
    0x3995497cea956ae515d2261898fa051015728e5a8aacaa68ffffffffffffffff ].flatMap (Octets.be 32)

def dhPrimeGroup16 : Bytes :=
  [ 0xffffffffffffffffc90fdaa22168c234c4c6628b80dc1cd129024e088a67cc74,
    0x020bbea63b139b22514a08798e3404ddef9519b3cd3a431b302b0a6df25f1437,
    0x4fe1356d6d51c245e485b576625e7ec6f44c42e9a637ed6b0bff5cb6f406b7ed,
    0xee386bfb5a899fa5ae9f24117c4b1fe649286651ece45b3dc2007cb8a163bf05,
    0x98da48361c55d39a69163fa8fd24cf5f83655d23dca3ad961c62f356208552bb,
    0x9ed529077096966d670c354e4abc9804f1746c08ca18217c32905e462e36ce3b,
    0xe39e772c180e86039b2783a2ec07a28fb5c55df06f4c52c9de2bcbf695581718,
    0x3995497cea956ae515d2261898fa051015728e5a8aaac42dad33170d04507a33,
    0xa85521abdf1cba64ecfb850458dbef0a8aea71575d060c7db3970f85a6e1e4c7,
    0xabf5ae8cdb0933d71e8c94e04a25619dcee3d2261ad2ee6bf12ffa06d98a0864,
    0xd87602733ec86a64521f2b18177b200cbbe117577a615d6c770988c0bad946e2,
    0x08e24fa074e5ab3143db5bfce0fd108e4b82d120a92108011a723c12a787e6d7,
    0x88719a10bdba5b2699c327186af4e23c1a946834b6150bda2583e9ca2ad44ce8,
    0xdbbbc2db04de8ef92e8efc141fbecaa6287c59474e6bc05d99b2964fa090c3a2,
    0x233ba186515be7ed1f612970cee2d7afb81bdd762170481cd0069127d5b05aa9,
    0x93b4ea988d8fddc186ffb7dc90a6c08f4df435c934063199ffffffffffffffff ].flatMap (Octets.be 32)

def maxKexKeySz : Nat := 3168
def kexFSize : Nat := 1700
def dhGexMinBits : Nat := 2048

def gexCandidates : List (Nat × Bytes) :=
  [(1024, dhPrimeGroup1), (2048, dhPrimeGroup14), (4096, dhPrimeGroup16)]

/-- The scan keeps the last candidate in the window and stops at the first that is preferred. -/
def scanGexCandidates (minBits preferredBits maxBits : Nat) :
    List (Nat × Bytes) → Option Bytes → Option Bytes
  | [], best => best
  | (bits, group) :: rest, best =>
    if bits < minBits ∨ bits > maxBits then
      scanGexCandidates minBits preferredBits maxBits rest best
    else if bits ≥ preferredBits then some group
    else scanGexCandidates minBits preferredBits maxBits rest (some group)

def selectKexDhGexGroup (minBits preferredBits maxBits : Nat) : Except WsErr Bytes :=
  let minBits := max minBits dhGexMinBits
  let maxBits := min (min maxBits (maxKexKeySz * 8)) ((kexFSize - 1) * 8)
  match scanGexCandidates minBits preferredBits maxBits gexCandidates none with
  | some group => .ok group
  | none => .error .dhSizeE

/-- A host key as the server has it loaded, flattened for the wire. -/
inductive HostKey where
  | rsa (e n : Bytes)
  | ecc (q : Bytes)
  | raw (q : Bytes)
  | cert (cert : Bytes)
deriving DecidableEq, Repr

/-- A session with what the exchange hash takes from it. `kexHash` is everything hashed since
`wc_HashInit`. -/
structure KexSide where
  ssh : KexSession
  sshProtoIdStr : Bytes
  peerProtoId : Bytes := []
  kexHash : Bytes := []
  e : Bytes := []
  dhGexMinSz : Nat := 2048
  dhGexPreferredSz : Nat := 3072
  dhGexMaxSz : Nat := 8192
  primeGroup : Option Bytes := none
  generator : Option Bytes := none
  privateKey : List (AlgoId × HostKey) := []
deriving DecidableEq, Repr

namespace KexSide

def handshake (me : KexSide) : HandshakeInfo := me.ssh.handshake.getD {}

def hashUpdate (me : KexSide) (data : Bytes) : KexSide := { me with kexHash := me.kexHash ++ data }

end KexSide

/-- What the keying code takes from the crypto library and the application: the public value of
a new key pair, the agreement on either side, the signature and its check, and the checks of a
host key and of a prime. -/
structure Primitives where
  makeKey : Except WsErr Bytes
  keyAgreeServer : Bytes → Except WsErr (Bytes × Bytes)
  keyAgreeClient : Bytes → Except WsErr Bytes
  signH : Bytes → Except WsErr Bytes
  verifyH : Bytes → Bytes → Except WsErr Unit
  publicKeyCheck : Bytes → Bool
  parsePubKey : Bytes → Bool
  isPrime : Nat → Bool

structure Payload where
  msgId : UInt8
  body : Bytes
deriving DecidableEq, Repr

def maxPacketSz : Nat := 35000

/-- The peer's DoReceive takes no larger packet. -/
def deliver (p : Payload) : Except WsErr Bytes :=
  if p.body.length + msgIdSz + padLengthSz > maxPacketSz then .error .overflowE else .ok p.body

def sendKexInit (cookie : Bytes) (me : KexSide) : Except WsErr (KexSide × Payload) := do
  let body ← sendKexInitBody me.ssh cookie
  let payloadSz := msgIdSz + body.length
  let kexInit := c32toa payloadSz ++ (msgidKexInit :: body)
  let hs := { me.handshake with kexInit := kexInit }
  let ssh := { me.ssh with selfIsKeying := true, handshake := some hs }
  return ({ me with ssh := ssh }, ⟨msgidKexInit, body⟩)

/-- The start of the exchange hash: the identifications and the KEXINITs, the client's first. -/
def hashKexInit (buf : Bytes) (me : KexSide) : KexSide :=
  let strSz := me.sshProtoIdStr.length - sshProtoEolSz
  let me := { me with kexHash := [] }
  let me := if me.ssh.side = .server then me.hashUpdate me.peerProtoId else me
  let me := me.hashUpdate (c32toa strSz)
  let me := me.hashUpdate (me.sshProtoIdStr.take strSz)
  let me :=
    if me.ssh.side = .client then
      (me.hashUpdate me.peerProtoId).hashUpdate me.handshake.kexInit
    else me
  let me := me.hashUpdate (c32toa (buf.length + 1))
  let me := me.hashUpdate [msgidKexInit]
  let me := me.hashUpdate buf
  if me.ssh.side = .server then me.hashUpdate me.handshake.kexInit else me

/-- `DoKexInit`: negotiate, answer with a KEXINIT unless one is out, and start the hash. -/
def doKexInit (buf cookie : Bytes) (me : KexSide) : Except WsErr (KexSide × Option Payload) := do
  match doKexInitNegotiate buf me.ssh with
  | (.error e, _) => throw e
  | (.ok _, ssh) =>
    let me := { me with ssh := ssh }
    if ssh.selfIsKeying then
      return (hashKexInit buf me, none)
    else
      let (me, p) ← sendKexInit cookie me
      return (hashKexInit buf me, some p)

def readAt {α : Type} (m : Reader α) (idx : Nat) : Except WsErr (α × Nat) :=
  match m.runAt idx with
  | (.ok a, i) => .ok (a, i)
  | (.error e, _) => .error e

def slice (buf : Bytes) (idx sz : Nat) : Bytes := (buf.drop idx).take sz

/-- A value that goes out as it is, with a pad if its top bit is set. -/
def msbPadded (bs : Bytes) : Bytes × Bool := (bs, bs.headD 0 &&& 0x80 != 0)

def sendKexDhGexRequest (me : KexSide) : Except WsErr (KexSide × Payload) := do
  let minSz := max me.dhGexMinSz dhGexMinBits
  ensure (minSz ≤ me.dhGexMaxSz) .dhSizeE
  let preferredSz := min (max me.dhGexPreferredSz minSz) me.dhGexMaxSz
  let body := c32toa minSz ++ (c32toa preferredSz ++ c32toa me.dhGexMaxSz)
  let me := { me with dhGexMinSz := minSz, dhGexPreferredSz := preferredSz }
  return (me, ⟨msgidKexDhGexRequest, body⟩)

def sendKexDhGexGroup (me : KexSide) : Except WsErr (KexSide × Payload) := do
  let group ← selectKexDhGexGroup me.dhGexMinSz me.dhGexPreferredSz me.dhGexMaxSz
  let body := copyMpint (msbPadded group) ++ copyMpint (msbPadded dhGenerator)
  return ({ me with primeGroup := some group }, ⟨msgidKexDhGexGroup, body⟩)

/-- The guess of a client that sent on at once is dropped, and nothing is answered. -/
def skipGuessedKexMsg (me : KexSide) : KexSide :=
  { me with ssh := { me.ssh with handshake := some { me.handshake with ignoreNextKexMsg := false } } }

def doKexDhGexRequest (buf : Bytes) (me : KexSide) : Except WsErr (KexSide × Option Payload) := do
  ensure (buf.length ≠ 0) .badArgument
  if me.handshake.ignoreNextKexMsg then
    return (skipGuessedKexMsg me, none)
  else
    let (minSz, begin) ← readAt (getUint32 buf) 0
    let (preferredSz, begin) ← readAt (getUint32 buf) begin
    let (maxSz, _) ← readAt (getUint32 buf) begin
    let (me, p) ← sendKexDhGexGroup { me with
      dhGexMinSz := minSz, dhGexPreferredSz := preferredSz, dhGexMaxSz := maxSz }
    return (me, some p)

/-- A `word32` read as an `int`. -/
def asInt (n : Nat) : Int := if n < 2 ^ 31 then n else (n : Int) - 2 ^ 32

def validateKexDhGexGroup (P : Primitives) (primeGroup generator : Bytes) (minBits maxBits : Nat) :
    Except WsErr Unit := do
  ensure (primeGroup ≠ [] ∧ generator ≠ []) .badArgument
  let maxBytes := maxBits / 8 + (if maxBits % 8 = 0 then 0 else 1)
  let adjPrimeGroupSz := primeGroup.length - (if primeGroup.headD 0 = 0 then 1 else 0)
  let adjGeneratorSz := generator.length - (if generator.headD 0 = 0 then 1 else 0)
  ensure (adjPrimeGroupSz ≤ maxBytes ∧ adjGeneratorSz ≤ adjPrimeGroupSz) .dhSizeE
  let p := Octets.value primeGroup
  let g := Octets.value generator
  ensure (asInt minBits ≤ (p.size : Int) ∧ (p.size : Int) ≤ asInt maxBits) .dhSizeE
  ensure (p % 2 = 1) .cryptoFailed
  ensure (1 < g) .cryptoFailed
  ensure (g < p - 1) .cryptoFailed
  ensure (P.isPrime p) .cryptoFailed
  ensure (P.isPrime ((p - 1) / 2)) .cryptoFailed

/-- `e` as the client sends it: an mpint, but not for Curve25519 or with ML-KEM. -/
def clientPublic (method : KexMethod) (e : Bytes) : Bytes × Bool :=
  if !method.useMlKem && !method.useCurve25519 then createMpint e else (e, false)

def sendKexDhInit (P : Primitives) (me : KexSide) : Except WsErr (KexSide × Payload) := do
  match kexMethod me.handshake.kexId with
  | none => throw .invalidAlgoId
  | some method =>
    let e ← P.makeKey
    let e := clientPublic method e
    return ({ me with e := padded e }, ⟨method.initId, copyMpint e⟩)

def doKexDhGexGroup (P : Primitives) (buf : Bytes) (me : KexSide) :
    Except WsErr (KexSide × Payload) := do
  ensure (buf.length ≠ 0) .badArgument
  let (primeGroup, begin) ← readAt (getMpint buf) 0
  ensure (primeGroup.length ≤ maxKexKeySz + 1) .dhSizeE
  let (generator, _) ← readAt (getMpint buf) begin
  validateKexDhGexGroup P primeGroup generator (max me.dhGexMinSz dhGexMinBits) me.dhGexMaxSz
  sendKexDhInit P { me with primeGroup := some primeGroup, generator := some generator }

/-- What a client sends once the KEXINITs are traded. -/
def startKex (P : Primitives) (me : KexSide) : Except WsErr (KexSide × Payload) :=
  if me.handshake.kexId = .dhGexSha256 then sendKexDhGexRequest me else sendKexDhInit P me

def getDHPrimeGroup (me : KexSide) : Except WsErr (Bytes × Bytes) :=
  match me.handshake.kexId, me.primeGroup with
  | .dhGroup1Sha1, _ => .ok (dhPrimeGroup1, dhGenerator)
  | .dhGroup14Sha1, _ | .dhGroup14Sha256, _ => .ok (dhPrimeGroup14, dhGenerator)
  | .dhGroup16Sha512, _ => .ok (dhPrimeGroup16, dhGenerator)
  | .dhGexSha256, some group => .ok (group, me.generator.getD dhGenerator)
  | .dhGexSha256, none => do
    let group ← selectKexDhGexGroup me.dhGexMinSz me.dhGexPreferredSz me.dhGexMaxSz
    return (group, dhGenerator)
  | _, _ => .error .invalidAlgoId

def primeNameForId : AlgoId → Bytes
  | .ecdsaSha2Nistp256 => ascii "nistp256"
  | .ecdsaSha2Nistp384 => ascii "nistp384"
  | .ecdsaSha2Nistp521 => ascii "nistp521"
  | .ed25519 => ascii "ed25519"
  | _ => ascii "unknown"

def sigTypeForId : AlgoId → AlgoId
  | .x509v3SshRsa => .sshRsa
  | .x509v3EcdsaSha2Nistp256 => .ecdsaSha2Nistp256
  | .x509v3EcdsaSha2Nistp384 => .ecdsaSha2Nistp384
  | .x509v3EcdsaSha2Nistp521 => .ecdsaSha2Nistp521
  | .x509v3Mldsa44 => .mldsa44
  | .x509v3Mldsa65 => .mldsa65
  | .x509v3Mldsa87 => .mldsa87
  | id => id

def pubKeyFmtId : AlgoId → AlgoId
  | .rsaSha2256 | .rsaSha2512 => .sshRsa
  | id => id

/-- The host key prepared for the hash and for the reply. -/
inductive SigKeyBlock where
  | rsa (fmtName : Bytes) (e n : Bytes × Bool)
  | ecc (fmtName primeName q : Bytes)
  | raw (fmtName q : Bytes)
  | cert (typeName der : Bytes)

def getSigningKey (pubKeyId : AlgoId) (key : HostKey) : Except WsErr SigKeyBlock :=
  let fmtId := pubKeyFmtId pubKeyId
  match fmtId, key with
  | .sshRsa, .rsa e n => .ok (.rsa (idToName fmtId) (createMpint e) (createMpint n))
  | .ecdsaSha2Nistp256, .ecc q | .ecdsaSha2Nistp384, .ecc q | .ecdsaSha2Nistp521, .ecc q =>
    .ok (.ecc (idToName fmtId) (primeNameForId pubKeyId) q)
  | .ed25519, .raw q | .mldsa44, .raw q | .mldsa65, .raw q | .mldsa87, .raw q
  | .mldsa44Es256, .raw q | .mldsa65Es256, .raw q | .mldsa87Es384, .raw q
  | .mldsa44Ed25519, .raw q | .mldsa65Ed25519, .raw q | .mldsa87Ed448, .raw q =>
    .ok (.raw (idToName fmtId) q)
  | .x509v3SshRsa, .cert c | .x509v3EcdsaSha2Nistp256, .cert c
  | .x509v3EcdsaSha2Nistp384, .cert c | .x509v3EcdsaSha2Nistp521, .cert c
  | .x509v3Mldsa44, .cert c | .x509v3Mldsa65, .cert c | .x509v3Mldsa87, .cert c =>
    .ok (.cert (idToName fmtId) c)
  | _, _ => .error .invalidAlgoId

def mpintSz (m : Bytes × Bool) : Nat := m.1.length + (padBytes m.2).length

def buildRFC6187Info (publicKeyType cert : Bytes) : Bytes :=
  c32toa (lengthSz * 2 + uint32Sz * 2 + publicKeyType.length + cert.length) ++
    (copyString publicKeyType ++ (c32toa 1 ++ (copyString cert ++ c32toa 0)))

/-- The size of the key block, its own length not counted; a certificate's block counts it. -/
def SigKeyBlock.sz : SigKeyBlock → Nat
  | .rsa fmtName e n => lengthSz * 3 + fmtName.length + mpintSz e + mpintSz n
  | .ecc fmtName primeName q => lengthSz * 3 + fmtName.length + primeName.length + q.length
  | .raw fmtName q => lengthSz * 2 + fmtName.length + q.length
  | .cert typeName der => (buildRFC6187Info typeName der).length

def SigKeyBlock.hash (b : SigKeyBlock) (me : KexSide) : KexSide :=
  match b with
  | .rsa fmtName e n =>
    ((((me.hashUpdate (c32toa b.sz)).hashUpdate (c32toa fmtName.length)).hashUpdate
      fmtName).hashUpdate (copyMpint e)).hashUpdate (copyMpint n)
  | .ecc fmtName primeName q =>
    ((((((me.hashUpdate (c32toa b.sz)).hashUpdate (c32toa fmtName.length)).hashUpdate
      fmtName).hashUpdate (c32toa primeName.length)).hashUpdate primeName).hashUpdate
      (c32toa q.length)).hashUpdate q
  | .raw fmtName q =>
    ((((me.hashUpdate (c32toa b.sz)).hashUpdate (c32toa fmtName.length)).hashUpdate
      fmtName).hashUpdate (c32toa q.length)).hashUpdate q
  | .cert typeName der => me.hashUpdate ((buildRFC6187Info typeName der).take b.sz)

/-- The host key as the reply carries it. -/
def SigKeyBlock.copy (b : SigKeyBlock) : Bytes :=
  match b with
  | .rsa fmtName e n => c32toa b.sz ++ (copyString fmtName ++ (copyMpint e ++ copyMpint n))
  | .ecc fmtName primeName q =>
    c32toa b.sz ++ (copyString fmtName ++ (copyString primeName ++ copyString q))
  | .raw fmtName q => c32toa b.sz ++ (copyString fmtName ++ copyString q)
  | .cert typeName der => buildRFC6187Info typeName der

def isGex (me : KexSide) : Prop := me.handshake.kexId = .dhGexSha256

instance (me : KexSide) : Decidable (isGex me) := inferInstanceAs (Decidable (_ = _))

/-- The updates of the hash for the bounds and the group of a group exchange. -/
def hashGex (primeGroup generator : Bytes × Bool) (me : KexSide) : KexSide :=
  let me := me.hashUpdate (c32toa me.dhGexMinSz)
  let me := me.hashUpdate (c32toa me.dhGexPreferredSz)
  let me := me.hashUpdate (c32toa me.dhGexMaxSz)
  (me.hashUpdate (copyMpint primeGroup)).hashUpdate (copyMpint generator)

def hashClientPublic (me : KexSide) : KexSide :=
  (me.hashUpdate (c32toa me.e.length)).hashUpdate me.e

/-- `f` as the server sends it: plain DH and plain ECDH encode an mpint. -/
def serverPublic (method : KexMethod) (f : Bytes) : Bytes × Bool :=
  if method.useDh || (method.useEcdh && !method.useMlKem) then createMpint f else (f, false)

def secretMpint (method : KexMethod) (k : Bytes) : Bytes × Bool :=
  if !method.useMlKem then createMpint k else (k, false)

def hashServerGex (me : KexSide) : Except WsErr KexSide :=
  if isGex me then do
    let (primeGroup, generator) ← getDHPrimeGroup me
    return hashGex (createMpint primeGroup) (createMpint generator) me
  else .ok me

/-- The client hashes the group as it came, and pads what it would not take without a pad. -/
def hashClientGex (me : KexSide) : Except WsErr KexSide :=
  if isGex me then
    match me.primeGroup, me.generator with
    | some primeGroup, some generator =>
      .ok (hashGex (msbPadded primeGroup) (msbPadded generator) me)
    | _, _ => .error .badArgument
  else .ok me

def sendKexDhReply (P : Primitives) (me : KexSide) : Except WsErr (KexSide × Payload) := do
  let pubKeyId := me.handshake.pubKeyId
  let pubKeyName := idToName (sigTypeForId pubKeyId)
  match kexMethod me.handshake.kexId with
  | none => throw .invalidAlgoId
  | some method =>
    match me.privateKey.find? (fun k => k.1 == pubKeyFmtId pubKeyId) with
    | none => throw .invalidAlgoId
    | some key =>
      let block ← getSigningKey pubKeyId key.2
      let me ← hashServerGex (block.hash me)
      let me := hashClientPublic me
      let (f, k) ← P.keyAgreeServer me.e
      let f := serverPublic method f
      let me := me.hashUpdate (copyMpint f)
      let me := me.hashUpdate (copyMpint (secretMpint method k))
      let sig ← P.signH me.kexHash
      let sigBlock := copyString pubKeyName ++ copyString sig
      return (me, ⟨method.replyId, block.copy ++ (copyMpint f ++ copyString sigBlock)⟩)

def doKexDhInit (P : Primitives) (buf : Bytes) (me : KexSide) :
    Except WsErr (KexSide × Option Payload) := do
  ensure (buf.length ≠ 0) .badArgument
  if me.handshake.ignoreNextKexMsg then
    return (skipGuessedKexMsg me, none)
  else
    let (e, _) ← readAt (getStringRef buf) 0
    ensure (e.length ≤ maxKexKeySz + 1 ∧ e.length ≠ 0) .pubkeyRejectedE
    let (me, p) ← sendKexDhReply P { me with e := e }
    return (me, some p)

/-- The name in a signature block must be the one negotiated. -/
def verifySignature (P : Primitives) (me : KexSide) (sig : Bytes) : Except WsErr Unit := do
  let (sigName, begin) ← readAt (getStringRef sig) 0
  ensure (sigName = idToName (sigTypeForId me.handshake.pubKeyId)) .parseE
  let (sigSz, begin) ← readAt (getSize sig) begin
  P.verifyH me.kexHash (slice sig begin sigSz)

/-- `KeyAgree_client` with the method that goes with it; any failure there is a crypto failure. -/
def agreeClient (P : Primitives) (me : KexSide) (f : Bytes) : Except WsErr (KexMethod × Bytes) :=
  match P.keyAgreeClient f, kexMethod me.handshake.kexId with
  | .ok k, some method => .ok (method, k)
  | _, _ => .error .cryptoFailed

def doKexDhReply (P : Primitives) (buf : Bytes) (me : KexSide) : Except WsErr KexSide := do
  ensure (buf.length ≠ 0) .badArgument
  ensure (lengthSz * 2 ≤ buf.length) .bufferE
  let (pubKeySz, begin) ← readAt (getUint32 buf) 0
  ensure (pubKeySz ≤ buf.length - lengthSz - begin) .bufferE
  let pubKey := slice buf begin pubKeySz
  ensure (P.publicKeyCheck pubKey) .pubkeyRejectedE
  -- the blob is hashed with the length that stands ahead of it
  let me ← hashClientGex (me.hashUpdate (slice buf (begin - lengthSz) (pubKeySz + lengthSz)))
  let me := hashClientPublic me
  let fIdx := begin + pubKeySz
  let (fSz, begin) ← readAt (getUint32 buf) fIdx
  ensure (fSz ≤ buf.length - begin) .parseE
  let me := me.hashUpdate (slice buf fIdx (fSz + lengthSz))
  let (sigSz, sigIdx) ← readAt (getUint32 buf) (begin + fSz)
  ensure (sigSz ≤ buf.length - sigIdx) .parseE
  ensure (P.parsePubKey pubKey) .cryptoFailed
  let (method, k) ← agreeClient P me (slice buf begin fSz)
  let me := me.hashUpdate (copyMpint (secretMpint method k))
  verifySignature P me (slice buf sigIdx sigSz)
  return me

def answered (r : KexSide × Option Payload) : Except WsErr (KexSide × Payload) :=
  match r with
  | (me, some p) => .ok (me, p)
  | (_, none) => .error .invalidStateE

/-- One side trades KEXINITs: it sends first, or it answers the peer's. Gives what it sent. -/
def tradeKexInit (starts : Bool) (cookie buf : Bytes) (me : KexSide) :
    Except WsErr (KexSide × Payload) :=
  if starts then do
    let (me, p) ← sendKexInit cookie me
    let (me, _) ← doKexInit buf cookie me
    return (me, p)
  else do
    let r ← doKexInit buf cookie me
    answered r

/-- The two messages that a group exchange has before the others. -/
def agreeGroup (P : Primitives) (c s : KexSide) (p : Payload) :
    Except WsErr (KexSide × KexSide × Payload) :=
  if isGex c then do
    let buf ← deliver p
    let r ← doKexDhGexRequest buf s
    let (s, p) ← answered r
    let buf ← deliver p
    let (c, p) ← doKexDhGexGroup P buf c
    return (c, s, p)
  else .ok (c, s, p)

/-- The messages of the negotiated method, from the client's first to the server's reply. -/
def agreeKeys (P : Primitives) (c s : KexSide) : Except WsErr (KexSide × KexSide) := do
  let (c, p) ← startKex P c
  let (c, s, p) ← agreeGroup P c s p
  let buf ← deliver p
  let r ← doKexDhInit P buf s
  let (s, p) ← answered r
  let buf ← deliver p
  let c ← doKexDhReply P buf c
  return (c, s)

end WolfSsh
