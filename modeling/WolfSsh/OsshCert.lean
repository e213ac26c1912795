import WolfSsh.Names
import WolfSsh.WireSlices

/-! OpenSSH certificates as the library reads them: the fields of the blob, the kind of certificate,
and its options. -/

namespace WolfSsh.Ossh

open Fallible Slices

def getUint64 (buf : Bytes) : Reader Nat := do
  let hi ← getUint32 buf
  let lo ← getUint32 buf
  return hi * 2 ^ 32 + lo

def osshCertBaseId : AlgoId → AlgoId
  | .osshCertRsa => .sshRsa
  | .osshCertEcdsaSha2Nistp256 => .ecdsaSha2Nistp256
  | .osshCertEcdsaSha2Nistp384 => .ecdsaSha2Nistp384
  | .osshCertEcdsaSha2Nistp521 => .ecdsaSha2Nistp521
  | .osshCertEd25519 => .ed25519
  | _ => .unknown

/-- The slices are of the blob, but for `caKeyType`, which is of the CA key. -/
structure OsshCert where
  typeId : AlgoId
  baseTypeId : AlgoId
  nonce : Slice
  userKeyParms : Slice
  serial : Nat
  certType : Nat
  keyId : Slice
  principals : Slice
  validAfter : Nat
  validBefore : Nat
  critOpts : Slice
  extensions : Slice
  caKey : Slice
  caKeyType : Slice
  signedLen : Nat
  signature : Slice
deriving DecidableEq, Repr

/-- `e` and `n`, the curve and `Q`, or `pk`. -/
def userKeyFields : AlgoId → List FieldKind
  | .sshRsa => [.mpint, .mpint]
  | .ecdsaSha2Nistp256 | .ecdsaSha2Nistp384 | .ecdsaSha2Nistp521 => [.string, .string]
  | .ed25519 => [.string]
  | _ => []

def osshSkipUserKey (baseId : AlgoId) (blob : Bytes) : Reader Unit := do
  let idx ← get
  match userKeyFields baseId with
  | [] => throw .invalidAlgoId
  | kinds =>
    let idx ← Fallible.ofExcept (getFields blob kinds idx).2
    set idx

/-- The walk over the fields of the blob. -/
def osshCertFields (typeId : AlgoId) (blob : Bytes) : Reader OsshCert := do
  let baseTypeId := osshCertBaseId typeId
  require (baseTypeId ≠ .unknown) .invalidAlgoId
  let str ← getField blob .string
  require (nameToId (str.of blob) = typeId) .invalidAlgoId
  let nonce ← getField blob .string
  let ukStart ← get
  osshSkipUserKey baseTypeId blob
  let ukEnd ← get
  let serial ← getUint64 blob
  let certType ← getUint32 blob
  let keyId ← getField blob .string
  let principals ← getField blob .string
  let validAfter ← getUint64 blob
  let validBefore ← getUint64 blob
  let critOpts ← getField blob .string
  let extensions ← getField blob .string
  let _ ← getField blob .string
  let caKey ← getField blob .string
  let caKeyType ← Fallible.ofExcept ((getField (caKey.of blob) .string).runAt 0).1
  let signedLen ← get
  let signature ← getField blob .string
  let idx ← get
  require (idx = blob.length) .parseE
  return {
    typeId, baseTypeId, nonce, userKeyParms := ⟨ukStart, ukEnd - ukStart⟩, serial, certType, keyId
    principals, validAfter, validBefore, critOpts, extensions, caKey, caKeyType, signedLen, signature }

def osshCertParse (typeId : AlgoId) (blob : Bytes) : Except WsErr OsshCert :=
  if blob = [] then .error .badArgument else ((osshCertFields typeId blob).runAt 0).1

def osshCertTypeUser : Nat := 1

def osshCertCheckType (cert : OsshCert) (blob : Bytes) : Except WsErr Unit :=
  if cert.certType ≠ osshCertTypeUser then .error .invalidAlgoId
  else
    match nameToId (cert.caKeyType.of (cert.caKey.of blob)) with
    | .sshRsa | .ecdsaSha2Nistp256 | .ecdsaSha2Nistp384 | .ecdsaSha2Nistp521 | .ed25519 => .ok ()
    | _ => .error .invalidAlgoId

/-- The order of `WMEMCMP` over the shorter size, and then of the sizes. -/
def osshNameCmp : Bytes → Bytes → Ordering
  | [], [] => .eq
  | [], _ :: _ => .lt
  | _ :: _, [] => .gt
  | a :: as, b :: bs => if a < b then .lt else if b < a then .gt else osshNameCmp as bs

/-- What the critical options restrict. An empty one is NULL, and restricts nothing. -/
structure CertOptions where
  forceCommand : Bytes := []
  sourceAddress : Bytes := []
deriving DecidableEq, Repr

/-- The data of an option is one string, which is not empty. -/
def optionValue (data : Bytes) : Except WsErr Bytes :=
  match (getStringRef data).runAt 0 with
  | (.error e, _) => .error e
  | (.ok value, di) => if value = [] ∨ di ≠ data.length then .error .parseE else .ok value

def forceCommandName : Bytes := ascii "force-command"
def sourceAddressName : Bytes := ascii "source-address"

def setOption (name data : Bytes) (o : CertOptions) : Except WsErr CertOptions :=
  if name = forceCommandName then
    (optionValue data).map fun value => { o with forceCommand := value }
  else if name = sourceAddressName then
    (optionValue data).map fun value => { o with sourceAddress := value }
  else .error .unimplementedE

theorem getStringRef_advances {buf str : Bytes} {idx idx' : Nat}
    (h : (getStringRef buf).runAt idx = (.ok str, idx')) : idx < idx' ∧ idx' ≤ buf.length := by
  obtain ⟨-, hend, hle⟩ := getStringRef_splits h
  rw [uint32Sz] at hend
  omega

/-- The loop over the critical options. No name has been read where `prevName` is empty. -/
def checkCritOpts (opts : Bytes) (idx : Nat) (prevName : Bytes) (o : CertOptions) :
    Except WsErr CertOptions :=
  if idx < opts.length then
    match _hname : (getStringRef opts).runAt idx with
    | (.error e, _) => .error e
    | (.ok name, mid) =>
      if prevName ≠ [] ∧ osshNameCmp prevName name ≠ .lt then .error .parseE
      else
        match _hdata : (getStringRef opts).runAt mid with
        | (.error e, _) => .error e
        | (.ok data, next) =>
          match setOption name data o with
          | .error e => .error e
          | .ok o => checkCritOpts opts next name o
  else .ok o
termination_by opts.length - idx
decreasing_by
  have hfirst := getStringRef_advances _hname
  have hsecond := getStringRef_advances _hdata
  omega

/-- The loop over the extensions, which are not looked into. -/
def checkExtensions (exts : Bytes) (idx : Nat) : Except WsErr Unit :=
  if idx < exts.length then
    match _hname : (getStringRef exts).runAt idx with
    | (.error e, _) => .error e
    | (.ok _, mid) =>
      match _hdata : (getStringRef exts).runAt mid with
      | (.error e, _) => .error e
      | (.ok _, next) => checkExtensions exts next
  else .ok ()
termination_by exts.length - idx
decreasing_by
  have hfirst := getStringRef_advances _hname
  have hsecond := getStringRef_advances _hdata
  omega

def osshCertCheckOptions (cert : OsshCert) (blob : Bytes) : Except WsErr CertOptions :=
  match checkCritOpts (cert.critOpts.of blob) 0 [] {} with
  | .error e => .error e
  | .ok o =>
    match checkExtensions (cert.extensions.of blob) 0 with
    | .error e => .error e
    | .ok _ => .ok o

end WolfSsh.Ossh
