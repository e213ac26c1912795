import WolfSsh.Wire

/-! The algorithm identifiers and the table that gives each its name and category, as in a build
with every algorithm switched on, and the sizes that follow from an identifier. -/

namespace WolfSsh

inductive AlgoId where
  | none | aes128Cbc | aes192Cbc | aes256Cbc | aes128Ctr | aes192Ctr | aes256Ctr | aes128Gcm
  | aes192Gcm | aes256Gcm | hmacSha1 | hmacSha196 | hmacSha2256 | hmacSha2512 | dhGroup1Sha1
  | dhGroup14Sha1 | dhGroup14Sha256 | dhGroup16Sha512 | dhGexSha256 | ecdhSha2Nistp256
  | ecdhSha2Nistp384 | ecdhSha2Nistp521 | nistp256Mlkem768Sha256 | nistp384Mlkem1024Sha384
  | curve25519Mlkem768Sha256 | curve25519Sha256 | curve25519Sha256Libssh | extInfoS | extInfoC
  | extStrictKexS | extStrictKexC | extPreStrictKexS | extPreStrictKexC | sshRsa | rsaSha2256
  | rsaSha2512 | ecdsaSha2Nistp256 | ecdsaSha2Nistp384 | ecdsaSha2Nistp521 | ed25519 | mldsa44
  | mldsa65 | mldsa87 | mldsa44Es256 | mldsa65Es256 | mldsa87Es384 | mldsa44Ed25519
  | mldsa65Ed25519 | mldsa87Ed448 | x509v3SshRsa | x509v3EcdsaSha2Nistp256
  | x509v3EcdsaSha2Nistp384 | x509v3EcdsaSha2Nistp521 | x509v3Mldsa44 | x509v3Mldsa65
  | x509v3Mldsa87 | osshCertRsa | osshCertEcdsaSha2Nistp256 | osshCertEcdsaSha2Nistp384
  | osshCertEcdsaSha2Nistp521 | osshCertEd25519 | serviceUserauth | serviceConnection
  | userauthPassword | userauthPublickey | userauthKeyboard | chantypeSession
  | chantypeTcpipForward | chantypeTcpipDirect | chantypeAuthAgent | globreqTcpipFwd
  | globreqTcpipFwdCancel | extinfoServerSigAlgs | curveNistp256 | curveNistp384
  | curveNistp521 | unknown
deriving DecidableEq, Repr

inductive AlgoType where
  | kex | key | cipher | mac | other
deriving DecidableEq, Repr

def ascii (s : String) : Bytes := s.toByteArray.data.toList

structure NameIdPair where
  id : AlgoId
  type : AlgoType
  name : Bytes

def nameIdMap : List NameIdPair :=
  [ ⟨.none, .other, ascii "none"⟩,
    ⟨.aes128Cbc, .cipher, ascii "aes128-cbc"⟩,
    ⟨.aes192Cbc, .cipher, ascii "aes192-cbc"⟩,
    ⟨.aes256Cbc, .cipher, ascii "aes256-cbc"⟩,
    ⟨.aes128Ctr, .cipher, ascii "aes128-ctr"⟩,
    ⟨.aes192Ctr, .cipher, ascii "aes192-ctr"⟩,
    ⟨.aes256Ctr, .cipher, ascii "aes256-ctr"⟩,
    ⟨.aes128Gcm, .cipher, ascii "aes128-gcm@openssh.com"⟩,
    ⟨.aes192Gcm, .cipher, ascii "aes192-gcm@openssh.com"⟩,
    ⟨.aes256Gcm, .cipher, ascii "aes256-gcm@openssh.com"⟩,
    ⟨.hmacSha1, .mac, ascii "hmac-sha1"⟩,
    ⟨.hmacSha196, .mac, ascii "hmac-sha1-96"⟩,
    ⟨.hmacSha2256, .mac, ascii "hmac-sha2-256"⟩,
    ⟨.hmacSha2512, .mac, ascii "hmac-sha2-512"⟩,
    ⟨.dhGroup1Sha1, .kex, ascii "diffie-hellman-group1-sha1"⟩,
    ⟨.dhGroup14Sha1, .kex, ascii "diffie-hellman-group14-sha1"⟩,
    ⟨.dhGroup14Sha256, .kex, ascii "diffie-hellman-group14-sha256"⟩,
    ⟨.dhGroup16Sha512, .kex, ascii "diffie-hellman-group16-sha512"⟩,
    ⟨.dhGexSha256, .kex, ascii "diffie-hellman-group-exchange-sha256"⟩,
    ⟨.ecdhSha2Nistp256, .kex, ascii "ecdh-sha2-nistp256"⟩,
    ⟨.ecdhSha2Nistp384, .kex, ascii "ecdh-sha2-nistp384"⟩,
    ⟨.ecdhSha2Nistp521, .kex, ascii "ecdh-sha2-nistp521"⟩,
    ⟨.nistp256Mlkem768Sha256, .kex, ascii "mlkem768nistp256-sha256"⟩,
    ⟨.nistp384Mlkem1024Sha384, .kex, ascii "mlkem1024nistp384-sha384"⟩,
    ⟨.curve25519Mlkem768Sha256, .kex, ascii "mlkem768x25519-sha256"⟩,
    ⟨.curve25519Sha256, .kex, ascii "curve25519-sha256"⟩,
    ⟨.curve25519Sha256Libssh, .kex, ascii "curve25519-sha256@libssh.org"⟩,
    ⟨.extInfoS, .other, ascii "ext-info-s"⟩,
    ⟨.extInfoC, .other, ascii "ext-info-c"⟩,
    ⟨.extStrictKexS, .other, ascii "kex-strict-s"⟩,
    ⟨.extStrictKexC, .other, ascii "kex-strict-c"⟩,
    ⟨.extPreStrictKexS, .other, ascii "kex-strict-s-v00@openssh.com"⟩,
    ⟨.extPreStrictKexC, .other, ascii "kex-strict-c-v00@openssh.com"⟩,
    ⟨.sshRsa, .key, ascii "ssh-rsa"⟩,
    ⟨.rsaSha2256, .key, ascii "rsa-sha2-256"⟩,
    ⟨.rsaSha2512, .key, ascii "rsa-sha2-512"⟩,
    ⟨.ecdsaSha2Nistp256, .key, ascii "ecdsa-sha2-nistp256"⟩,
    ⟨.ecdsaSha2Nistp384, .key, ascii "ecdsa-sha2-nistp384"⟩,
    ⟨.ecdsaSha2Nistp521, .key, ascii "ecdsa-sha2-nistp521"⟩,
    ⟨.ed25519, .key, ascii "ssh-ed25519"⟩,
    ⟨.mldsa44, .key, ascii "ssh-mldsa-44"⟩,
    ⟨.mldsa44Es256, .key, ascii "ssh-mldsa44-es256@wolfssl.com"⟩,
    ⟨.mldsa65Es256, .key, ascii "ssh-mldsa65-es256@wolfssl.com"⟩,
    ⟨.mldsa87Es384, .key, ascii "ssh-mldsa87-es384@wolfssl.com"⟩,
    ⟨.mldsa44Ed25519, .key, ascii "ssh-mldsa44-ed25519@openssh.com"⟩,
    ⟨.mldsa65Ed25519, .key, ascii "ssh-mldsa65-ed25519@wolfssl.com"⟩,
    ⟨.mldsa87Ed448, .key, ascii "ssh-mldsa87-ed448@wolfssl.com"⟩,
    ⟨.mldsa65, .key, ascii "ssh-mldsa-65"⟩,
    ⟨.mldsa87, .key, ascii "ssh-mldsa-87"⟩,
    ⟨.x509v3Mldsa44, .key, ascii "x509v3-ssh-mldsa-44"⟩,
    ⟨.x509v3Mldsa65, .key, ascii "x509v3-ssh-mldsa-65"⟩,
    ⟨.x509v3Mldsa87, .key, ascii "x509v3-ssh-mldsa-87"⟩,
    ⟨.x509v3SshRsa, .key, ascii "x509v3-ssh-rsa"⟩,
    ⟨.x509v3EcdsaSha2Nistp256, .key, ascii "x509v3-ecdsa-sha2-nistp256"⟩,
    ⟨.x509v3EcdsaSha2Nistp384, .key, ascii "x509v3-ecdsa-sha2-nistp384"⟩,
    ⟨.x509v3EcdsaSha2Nistp521, .key, ascii "x509v3-ecdsa-sha2-nistp521"⟩,
    ⟨.osshCertRsa, .key, ascii "ssh-rsa-cert-v01@openssh.com"⟩,
    ⟨.osshCertRsa, .key, ascii "rsa-sha2-256-cert-v01@openssh.com"⟩,
    ⟨.osshCertRsa, .key, ascii "rsa-sha2-512-cert-v01@openssh.com"⟩,
    ⟨.osshCertEcdsaSha2Nistp256, .key, ascii "ecdsa-sha2-nistp256-cert-v01@openssh.com"⟩,
    ⟨.osshCertEcdsaSha2Nistp384, .key, ascii "ecdsa-sha2-nistp384-cert-v01@openssh.com"⟩,
    ⟨.osshCertEcdsaSha2Nistp521, .key, ascii "ecdsa-sha2-nistp521-cert-v01@openssh.com"⟩,
    ⟨.osshCertEd25519, .key, ascii "ssh-ed25519-cert-v01@openssh.com"⟩,
    ⟨.serviceUserauth, .other, ascii "ssh-userauth"⟩,
    ⟨.serviceConnection, .other, ascii "ssh-connection"⟩,
    ⟨.userauthPassword, .other, ascii "password"⟩,
    ⟨.userauthPublickey, .other, ascii "publickey"⟩,
    ⟨.userauthKeyboard, .other, ascii "keyboard-interactive"⟩,
    ⟨.chantypeSession, .other, ascii "session"⟩,
    ⟨.chantypeTcpipForward, .other, ascii "forwarded-tcpip"⟩,
    ⟨.chantypeTcpipDirect, .other, ascii "direct-tcpip"⟩,
    ⟨.chantypeAuthAgent, .other, ascii "auth-agent@openssh.com"⟩,
    ⟨.globreqTcpipFwd, .other, ascii "tcpip-forward"⟩,
    ⟨.globreqTcpipFwdCancel, .other, ascii "cancel-tcpip-forward"⟩,
    ⟨.extinfoServerSigAlgs, .other, ascii "server-sig-algs"⟩,
    ⟨.curveNistp256, .other, ascii "nistp256"⟩,
    ⟨.curveNistp384, .other, ascii "nistp384"⟩,
    ⟨.curveNistp521, .other, ascii "nistp521"⟩ ]

/-- The first row of the table with this name; an unlisted name is `unknown` and of no category. -/
def nameToIdType (name : Bytes) : AlgoId × AlgoType :=
  match nameIdMap.find? (fun p => p.name == name) with
  | some p => (p.id, p.type)
  | none => (.unknown, .other)

def nameToId (name : Bytes) : AlgoId := (nameToIdType name).1

def idToName (id : AlgoId) : Bytes :=
  match nameIdMap.find? (fun p => p.id == id) with
  | some p => p.name
  | none => ascii "unknown"

def minBlockSz : Nat := 8
def aesBlockSize : Nat := 16
def aeadNonceSz : Nat := 12

def blockSzForId : AlgoId → Nat
  | .none => minBlockSz
  | .aes128Cbc | .aes192Cbc | .aes256Cbc => aesBlockSize
  | .aes128Ctr | .aes192Ctr | .aes256Ctr => aesBlockSize
  | .aes128Gcm | .aes192Gcm | .aes256Gcm => aesBlockSize
  | _ => 0

def macSzForId : AlgoId → Nat
  | .hmacSha1 => 20
  | .hmacSha196 => 12
  | .hmacSha2256 => 32
  | .hmacSha2512 => 64
  | _ => 0

def keySzForId : AlgoId → Nat
  | .hmacSha1 => 20
  | .hmacSha196 => 20
  | .hmacSha2256 => 32
  | .hmacSha2512 => 64
  | .aes128Cbc | .aes128Ctr | .aes128Gcm => 16
  | .aes192Cbc | .aes192Ctr | .aes192Gcm => 24
  | .aes256Cbc | .aes256Ctr | .aes256Gcm => 32
  | _ => 0

def aeadModeForId : AlgoId → Bool
  | .aes128Gcm | .aes192Gcm | .aes256Gcm => true
  | _ => false

/-- The category the table gives an identifier. -/
def typeOf (id : AlgoId) : AlgoType :=
  match nameIdMap.find? (fun p => p.id == id) with
  | some p => p.type
  | none => .other

theorem nameIdMap_type {p : NameIdPair} (hp : p ∈ nameIdMap) :
    p.id ≠ .unknown ∧ p.type = typeOf p.id := by
  have hall : ∀ q ∈ nameIdMap, q.id ≠ .unknown ∧ q.type = typeOf q.id := by decide +kernel
  exact hall p hp

theorem nameToIdType_type {name : Bytes} (hn : nameToId name ≠ .unknown) :
    (nameToIdType name).2 = typeOf (nameToId name) := by
  unfold nameToId nameToIdType at *
  cases hf : nameIdMap.find? (fun p => p.name == name) with
  | none => simp [hf] at hn
  | some p => exact (nameIdMap_type (List.mem_of_find?_eq_some hf)).2

end WolfSsh
