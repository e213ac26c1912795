import WolfSsh.KexHash

/-! The public-key method of user authentication: what a request holds, what a certificate puts in
the place of the key, and what each algorithm's verifier hands to the cryptography. -/

namespace WolfSsh.UserAuth

open Fallible (ensure)

abbrev msgidUserauthRequest : UInt8 := 50

/-- The strings of a request before those of its method. -/
structure AuthData where
  username : Bytes
  serviceName : Bytes
  authName : Bytes
deriving DecidableEq, Repr

/-- `WS_UserAuthData_PublicKey` as far as the server fills it. -/
structure PublicKey where
  dataToSign : Bytes
  dataToSignSz : Nat := 0
  publicKeyType : Bytes
  publicKey : Bytes
  hasSignature : Bool
  signature : Bytes
  isCert : Bool := false
  isOsshCert : Bool := false
deriving DecidableEq, Repr

/-- A signature as it is handed to the cryptography: the algorithm with the type of the key, and
the algorithm's name inside the signature. -/
structure Verification where
  alg : AlgoId
  keyType : AlgoId
  key : Bytes
  sigAlgo : Bytes
  message : Bytes
  sig : Bytes
deriving DecidableEq, Repr

/-- The certificate code and the cryptography. A certificate gives its leaf, or the parameters of
the key that it certifies. -/
structure Oracles where
  parseCertChainVerify : Bytes → Option Bytes
  parseLeafCert : Bytes → Option Bytes
  osshCert : AlgoId → Bytes → Option Bytes
  importKey : AlgoId → Bytes → Bool
  importCertKey : AlgoId → Bytes → Bool
  verify : Verification → Bool

/-- The fields of a `publickey` request after the method name. -/
structure PkRequest where
  hasSig : Bool
  pubKeyAlgo : Bytes
  pubKeyBlob : Bytes
  sig : Bytes
deriving DecidableEq, Repr

def getPkRequest (buf : Bytes) (idx : Nat) : Except WsErr (PkRequest × Nat) := do
  let (hasSig, idx) ← readAt (getBoolean buf) idx
  let (pubKeyAlgo, idx) ← readAt (getStringRef buf) idx
  let (pubKeyBlob, idx) ← readAt (getStringRef buf) idx
  let (sig, idx) ← if hasSig then readAt (getStringRef buf) idx else .ok ([], idx)
  return (⟨hasSig, pubKeyAlgo, pubKeyBlob, sig⟩, idx)

/-- The key starts with the name of its format, and a signature is the name of its algorithm and a
blob. -/
def getSigAlgo (r : PkRequest) : Except WsErr Bytes := do
  let _ ← readAt (getStringRef r.pubKeyBlob) 0
  if r.hasSig then
    let (sigAlgo, idx) ← readAt (getStringRef r.sig) 0
    let _ ← readAt (getStringRef r.sig) idx
    return sigAlgo
  else
    return []

def fillPublicKey (buf : Bytes) (r : PkRequest) : PublicKey where
  dataToSign := buf
  dataToSignSz := if r.hasSig then buf.length - r.sig.length - lengthSz else 0
  publicKeyType := r.pubKeyAlgo
  publicKey := r.pubKeyBlob
  hasSignature := r.hasSig
  signature := r.sig

def cannedKeyAlgoClient : List AlgoId :=
  [.x509v3Mldsa87, .x509v3Mldsa65, .x509v3Mldsa44, .x509v3EcdsaSha2Nistp521,
    .x509v3EcdsaSha2Nistp384, .x509v3EcdsaSha2Nistp256, .x509v3SshRsa, .mldsa87Ed448, .mldsa87Es384,
    .mldsa65Ed25519, .mldsa65Es256, .mldsa44Ed25519, .mldsa44Es256, .mldsa87, .mldsa65, .mldsa44,
    .osshCertEcdsaSha2Nistp521, .osshCertEcdsaSha2Nistp384, .osshCertEcdsaSha2Nistp256,
    .osshCertEd25519, .osshCertRsa, .ecdsaSha2Nistp521, .ecdsaSha2Nistp384, .ecdsaSha2Nistp256,
    .ed25519, .rsaSha2512, .rsaSha2256, .sshRsa]

def isX509 : AlgoId → Bool
  | .x509v3SshRsa | .x509v3EcdsaSha2Nistp256 | .x509v3EcdsaSha2Nistp384
  | .x509v3EcdsaSha2Nistp521 | .x509v3Mldsa44 | .x509v3Mldsa65 | .x509v3Mldsa87 => true
  | _ => false

def osshCertBaseId : AlgoId → AlgoId
  | .osshCertRsa => .sshRsa
  | .osshCertEcdsaSha2Nistp256 => .ecdsaSha2Nistp256
  | .osshCertEcdsaSha2Nistp384 => .ecdsaSha2Nistp384
  | .osshCertEcdsaSha2Nistp521 => .ecdsaSha2Nistp521
  | .osshCertEd25519 => .ed25519
  | _ => .unknown

/-- The algorithms with which the key of an OpenSSH certificate may sign. -/
def osshSigOk (baseTypeId sigId : AlgoId) : Bool :=
  match baseTypeId with
  | .sshRsa => sigId = .rsaSha2256 || sigId = .rsaSha2512 || sigId = .sshRsa
  | .ecdsaSha2Nistp256 | .ecdsaSha2Nistp384 | .ecdsaSha2Nistp521 => sigId = baseTypeId
  | .ed25519 => sigId = .ed25519
  | _ => false

/-- The algorithm that verifies, and the key. A request without them is refused. -/
def prepareKey (o : Oracles) (buf : Bytes) (r : PkRequest) (sigAlgo : Bytes) :
    Option (AlgoId × PublicKey) :=
  let pkTypeId := nameToId r.pubKeyAlgo
  let pk := fillPublicKey buf r
  if pkTypeId = .unknown ∨ pkTypeId ∉ cannedKeyAlgoClient then none
  else if isX509 pkTypeId then
    match if r.hasSig then o.parseCertChainVerify r.pubKeyBlob else o.parseLeafCert r.pubKeyBlob with
    | some cert => if cert = [] then none else some (pkTypeId, { pk with publicKey := cert, isCert := true })
    | none => none
  else if osshCertBaseId pkTypeId ≠ .unknown then
    match o.osshCert pkTypeId r.pubKeyBlob with
    | none => none
    | some userKeyParms =>
      let baseName := idToName (osshCertBaseId pkTypeId)
      let pk := { pk with
        publicKey := copyString baseName ++ userKeyParms
        publicKeyType := baseName
        isOsshCert := true }
      if r.hasSig then
        if osshSigOk (osshCertBaseId pkTypeId) (nameToId sigAlgo) then
          some (nameToId sigAlgo, { pk with publicKeyType := sigAlgo })
        else none
      else some (osshCertBaseId pkTypeId, pk)
  else some (pkTypeId, pk)

/-! The verifiers, up to the check of the signature itself. -/

/-- What a verifier knows of the request. -/
structure SignedRequest where
  sessionId : Bytes
  authData : AuthData
  pubKeyBlobSz : Nat
  pk : PublicKey
deriving DecidableEq, Repr

namespace SignedRequest

def checkData (q : SignedRequest) (dataToSignSz : Nat) : Bytes :=
  copyString q.sessionId ++ (msgidUserauthRequest :: q.pk.dataToSign.take dataToSignSz)

/-- The size of the signed fields, as the ML-DSA verifiers add it up. -/
def fieldsSz (q : SignedRequest) (publicKeySz : Nat) : Nat :=
  q.authData.username.length + q.authData.serviceName.length + q.authData.authName.length +
    booleanSz + q.pk.publicKeyType.length + publicKeySz + uint32Sz * 5

/-- `GetSize`, and the octets that it announces. -/
def getSized (buf : Bytes) : Reader Bytes := do
  let sz ← getSize buf
  let idx ← get
  set (idx + sz)
  return slice buf idx sz

/-- A key or a signature that has to start with the declared type. -/
def getTypeName (q : SignedRequest) (buf : Bytes) : Except WsErr (Bytes × Nat) := do
  let (typeName, i) ← readAt (getSized buf) 0
  ensure (typeName = q.pk.publicKeyType) .invalidAlgoId
  return (typeName, i)

def rsaSigTypeOk (q : SignedRequest) (sigAlgo : Bytes) : Bool :=
  sigAlgo = q.pk.publicKeyType ||
    (q.pk.publicKeyType = ascii "x509v3-ssh-rsa" &&
      (sigAlgo = ascii "ssh-rsa" || sigAlgo = ascii "rsa-sha2-256" || sigAlgo = ascii "rsa-sha2-512"))

def rsaVerification (q : SignedRequest) (alg : AlgoId) : Except WsErr Verification := do
  let (sigAlgo, i) ← readAt (getStringRef q.pk.signature) 0
  ensure (q.rsaSigTypeOk sigAlgo) .invalidAlgoId
  let (sig, _) ← readAt (getStringRef q.pk.signature) i
  return ⟨alg, .sshRsa, q.pk.publicKey, sigAlgo, q.checkData q.pk.dataToSignSz, sig⟩

def doUserAuthRequestRsa (o : Oracles) (q : SignedRequest) (alg : AlgoId) :
    Except WsErr Verification := do
  let (publicKeyType, i) ← readAt (getStringRef q.pk.publicKey) 0
  ensure (publicKeyType = ascii "ssh-rsa") .invalidAlgoId
  let (_, i) ← readAt (getMpint q.pk.publicKey) i
  let _ ← readAt (getMpint q.pk.publicKey) i
  ensure (o.importKey .sshRsa q.pk.publicKey) .cryptoFailed
  q.rsaVerification alg

def doUserAuthRequestRsaCert (o : Oracles) (q : SignedRequest) (alg : AlgoId) :
    Except WsErr Verification := do
  ensure (o.importCertKey .sshRsa q.pk.publicKey) .cryptoFailed
  q.rsaVerification alg

/-- `wcPrimeForId` for the key types. -/
def wcPrimeForId : AlgoId → AlgoId
  | .ecdsaSha2Nistp256 | .x509v3EcdsaSha2Nistp256 => .curveNistp256
  | .ecdsaSha2Nistp384 | .x509v3EcdsaSha2Nistp384 => .curveNistp384
  | .ecdsaSha2Nistp521 | .x509v3EcdsaSha2Nistp521 => .curveNistp521
  | _ => .unknown

/-- The blob of an ECDSA signature is read as two strings, from the length of the blob on. -/
def getRS (buf : Bytes) (i : Nat) : Except WsErr (Bytes × Bytes) := do
  let (_, i) ← readAt (getSize buf) i
  let (r, i) ← readAt (getStringRef buf) i
  let (s, _) ← readAt (getStringRef buf) i
  return (r, s)

def doUserAuthRequestEcc (o : Oracles) (q : SignedRequest) (alg : AlgoId) :
    Except WsErr Verification := do
  let (_, i) ← q.getTypeName q.pk.publicKey
  let keyId := nameToId q.pk.publicKeyType
  ensure (wcPrimeForId keyId ≠ .unknown) .invalidPrimeCurve
  let (curveName, i) ← readAt (getSized q.pk.publicKey) i
  ensure (curveName = primeNameForId keyId) .invalidPrimeCurve
  let _ ← readAt (getSized q.pk.publicKey) i
  ensure (o.importKey keyId q.pk.publicKey) .cryptoFailed
  let (sigAlgo, i) ← q.getTypeName q.pk.signature
  let (r, s) ← getRS q.pk.signature i
  return ⟨alg, keyId, q.pk.publicKey, sigAlgo, q.checkData q.pk.dataToSignSz, r ++ s⟩

/-- The name in the signature is read and left unused. -/
def doUserAuthRequestEccCert (o : Oracles) (q : SignedRequest) (alg : AlgoId) :
    Except WsErr Verification := do
  let keyId := sigTypeForId (nameToId q.pk.publicKeyType)
  ensure (wcPrimeForId keyId ≠ .unknown) .invalidPrimeCurve
  ensure (o.importCertKey keyId q.pk.publicKey) .cryptoFailed
  let (sigAlgo, i) ← readAt (getSized q.pk.signature) 0
  let (r, s) ← getRS q.pk.signature i
  return ⟨alg, keyId, q.pk.publicKey, sigAlgo, q.checkData q.pk.dataToSignSz, r ++ s⟩

/-- The key and the signature of the ML-DSA verifiers and the composite one. -/
def typedVerification (q : SignedRequest) (alg keyType : AlgoId) (dataToSignSz : Nat) :
    Except WsErr Verification := do
  let (sigAlgo, i) ← q.getTypeName q.pk.signature
  let (sig, _) ← readAt (getSized q.pk.signature) i
  return ⟨alg, keyType, q.pk.publicKey, sigAlgo, q.checkData dataToSignSz, sig⟩

def doUserAuthRequestMlDsa (o : Oracles) (q : SignedRequest) (isCert : Bool) (alg : AlgoId) :
    Except WsErr Verification := do
  if isCert then
    ensure (o.importCertKey (sigTypeForId alg) q.pk.publicKey) .cryptoFailed
  else
    let (_, i) ← q.getTypeName q.pk.publicKey
    let _ ← readAt (getStringRef q.pk.publicKey) i
    ensure (o.importKey alg q.pk.publicKey) .cryptoFailed
  q.typedVerification alg (sigTypeForId alg) (q.fieldsSz q.pubKeyBlobSz)

def doUserAuthRequestMlDsaComposite (o : Oracles) (q : SignedRequest) (alg : AlgoId) :
    Except WsErr Verification := do
  let (_, i) ← q.getTypeName q.pk.publicKey
  let _ ← readAt (getStringRef q.pk.publicKey) i
  ensure (o.importKey alg q.pk.publicKey) .cryptoFailed
  q.typedVerification alg alg (q.fieldsSz q.pubKeyBlobSz)

/-- The size from the wire comes first, else the sizes of the fields. -/
def doUserAuthRequestEd25519 (o : Oracles) (q : SignedRequest) : Except WsErr Verification := do
  let (_, i) ← q.getTypeName q.pk.publicKey
  let _ ← readAt (getSize q.pk.publicKey) i
  ensure (o.importKey .ed25519 q.pk.publicKey) .cryptoFailed
  let dataToSignSz :=
    if q.pk.dataToSignSz = 0 then q.fieldsSz q.pk.publicKey.length else q.pk.dataToSignSz
  q.typedVerification .ed25519 .ed25519 dataToSignSz

/-- The verifier that `DoUserAuthRequestPublicKey` picks. -/
def verification (o : Oracles) (q : SignedRequest) (alg : AlgoId) : Except WsErr Verification :=
  match alg with
  | .ed25519 => q.doUserAuthRequestEd25519 o
  | .mldsa44 | .mldsa65 | .mldsa87 => q.doUserAuthRequestMlDsa o false alg
  | .x509v3Mldsa44 | .x509v3Mldsa65 | .x509v3Mldsa87 => q.doUserAuthRequestMlDsa o true alg
  | .mldsa44Es256 | .mldsa65Es256 | .mldsa87Es384 | .mldsa44Ed25519 | .mldsa65Ed25519
  | .mldsa87Ed448 => q.doUserAuthRequestMlDsaComposite o alg
  | .sshRsa | .rsaSha2256 | .rsaSha2512 => q.doUserAuthRequestRsa o alg
  | .x509v3SshRsa => q.doUserAuthRequestRsaCert o alg
  | .ecdsaSha2Nistp256 | .ecdsaSha2Nistp384 | .ecdsaSha2Nistp521 => q.doUserAuthRequestEcc o alg
  | .x509v3EcdsaSha2Nistp256 | .x509v3EcdsaSha2Nistp384 | .x509v3EcdsaSha2Nistp521 =>
    q.doUserAuthRequestEccCert o alg
  | _ => .error .invalidAlgoId

end SignedRequest

end WolfSsh.UserAuth
