import WolfSsh.OsshCertTiles
import Mathlib.Data.List.Infix

/-! The daemon's policy for a user certificate: its CA key, its principals, its validity and the
addresses that it is good for. -/

namespace WolfSsh.Ossh

open Fallible Slices

inductive AuthRet where
  | success | failure | wsFatalError | wsBadArgument
deriving DecidableEq, Repr

def cString (bs : Bytes) : Bytes := bs.takeWhile (· ≠ 0)

def isSpace (b : UInt8) : Bool := b = 32

/-- What the daemon is told of the certificate. An empty field is NULL. -/
structure PubKeyCtx where
  caKey : Bytes
  principals : Bytes
  validAfter : Nat
  validBefore : Nat
  forceCommand : Bytes
  sourceAddress : Bytes
deriving DecidableEq, Repr

/-- `inet_pton` for IPv4 and for IPv6. -/
structure InetPton where
  v4 : Bytes → Option Bytes
  v6 : Bytes → Option Bytes

/-- What the daemon runs on. The CA file is there as far as it is configured, and is read as far as it
opens with strict modes. -/
structure Daemon where
  usrCaKeysFile : Option (Option Bytes)
  maxLineSz : Nat
  account : Bytes → Bool
  now : Nat
  peerIp : Option Bytes
  base64Decode : Bytes → Option Bytes
  inetPton : InetPton

/-! The search for the CA key. -/

/-- What `fgets` hands out one after the other: up to a newline, or as much as the buffer takes. -/
def fgetsPieces (sz : Nat) : Nat → Bytes → Bytes → List Bytes
  | _, [], [] => []
  | _, piece, [] => [piece]
  | room, piece, b :: bs =>
    if b = 10 ∨ room ≤ 1 then (piece ++ [b]) :: fgetsPieces sz (sz - 1) [] bs
    else fgetsPieces sz (room - 1) (piece ++ [b]) bs

/-- `strtok` for spaces: the token, and what is left. -/
def strtok (s : Bytes) : Option (Bytes × Bytes) :=
  match s.dropWhile isSpace with
  | [] => none
  | s => some (s.takeWhile (!isSpace ·), (s.dropWhile (!isSpace ·)).drop 1)

def authKeysTokenKeyType (type : Bytes) : Bytes :=
  if type = ascii "rsa-sha2-256" ∨ type = ascii "rsa-sha2-512" then ascii "ssh-rsa" else type

/-- `CheckAuthKeysLine` for a key that is no certificate. -/
def checkAuthKeysLine (base64Decode : Bytes → Option Bytes) (line key : Bytes) : Bool :=
  match strtok line with
  | none => false
  | some (type, rest) =>
    match strtok rest with
    | none => false
    | some (keyCandBase64, _) =>
      if ascii "-cert-v01@openssh.com" <:+: type then false
      else
        match base64Decode keyCandBase64 with
        | none => false
        | some keyCand =>
          let keyType := authKeysTokenKeyType type
          if keyCand.length < 4 then false
          else if ato32 keyCand ≠ keyType.length ∨ ato32 keyCand > keyCand.length - 4 ∨
              (keyCand.drop 4).take keyType.length ≠ keyType then false
          else keyCand = key

/-- A line without its leading spaces, unless it is empty or a comment. -/
def keyLine (piece : Bytes) : Option Bytes :=
  let current := (cString piece).dropWhile isSpace
  if current.length ≤ 1 then none
  else if current.head? = some 35 then none
  else some current

/-- `SearchKeysFile` with strict modes, for a key that is no certificate. -/
def searchKeysFile (d : Daemon) (file : Option Bytes) (key : Bytes) : AuthRet :=
  if key = [] then .wsBadArgument
  else
    match file with
    | none => .failure
    | some file =>
      let lines := (fgetsPieces d.maxLineSz (d.maxLineSz - 1) [] file).filterMap keyLine
      if lines.any fun line => checkAuthKeysLine d.base64Decode line key then .success else .failure

/-! The principals and the validity. -/

def principalLoop (p name : Bytes) (idx : Nat) : Bool :=
  if idx + uint32Sz ≤ p.length then
    let entSz := ato32 (p.drop idx)
    if entSz > p.length - (idx + uint32Sz) then false
    else if entSz = name.length ∧ (p.drop (idx + uint32Sz)).take entSz = name then true
    else principalLoop p name (idx + uint32Sz + entSz)
  else false
termination_by p.length - idx
decreasing_by
  rw [uint32Sz] at *
  omega

def osshCertCheckPrincipal (ctx : PubKeyCtx) (name : Bytes) : AuthRet :=
  if ctx.principals = [] then .failure
  else if principalLoop ctx.principals name 0 then .success
  else .failure

def osshCertCheckValidity (ctx : PubKeyCtx) (now : Nat) : AuthRet :=
  if now < ctx.validAfter ∨ now ≥ ctx.validBefore then .failure else .success

/-! The source addresses. -/

/-- The first `bits` bits of both are the same. -/
def osshPrefixMatch (a b : Bytes) (bits len : Nat) : Bool :=
  let fullBytes := bits / 8
  let remBits := bits % 8
  if bits > len * 8 then false
  else if a.take fullBytes ≠ b.take fullBytes then false
  else if remBits ≠ 0 then
    let mask : UInt8 := (0xFF : UInt8) <<< (8 - remBits).toUInt8
    (a.getD fullBytes 0 &&& mask) == (b.getD fullBytes 0 &&& mask)
  else true

def cidrEntrySz : Nat := 80

/-- The entries of the list. A comma at its end starts none. -/
def cidrEntries : Bytes → Bytes → List Bytes
  | entry, [] => [entry]
  | entry, b :: bs =>
    if b = 44 then entry :: (if bs = [] then [] else cidrEntries [] bs)
    else cidrEntries (entry ++ [b]) bs

/-- The digits of a prefix length, none above 128. -/
def cidrBits : Nat → Bytes → Option Nat
  | n, [] => some n
  | n, c :: cs =>
    if 48 ≤ c ∧ c ≤ 57 then
      let n := n * 10 + (c.toNat - 48)
      if n > 128 then none else cidrBits n cs
    else none

/-- The prefix length of an entry behind its slash, if it has one. -/
def cidrPrefix (p : Bytes) : Option (Option Nat) :=
  match p.dropWhile (· ≠ 47) with
  | [] => some none
  | [_] => none
  | _ :: pp => (cidrBits 0 pp).map some

def peerAddr (inet : InetPton) (peerIp : Bytes) : Option Bytes :=
  match inet.v4 peerIp with
  | some v4 => some v4
  | none =>
    match inet.v6 peerIp with
    | some v6 => some (if v6.take 12 = List.replicate 10 0 ++ [0xFF, 0xFF] then v6.drop 12 else v6)
    | none => none

/-- An entry that is malformed voids the list. Another one allows the peer or does not. -/
def cidrEntryAllows (inet : InetPton) (peer entry : Bytes) : Option Bool :=
  if entry.length ≥ cidrEntrySz then none
  else
    let p := cString entry
    if p = [] ∨ p.head? = some 33 then none
    else
      match cidrPrefix p with
      | none => none
      | some bits =>
        let text := p.takeWhile (· ≠ 47)
        match (inet.v4 text).or (inet.v6 text) with
        | none => none
        | some addr =>
          let bits := bits.getD (addr.length * 8)
          if bits > addr.length * 8 then none
          else if addr.length ≠ peer.length then some false
          else some (osshPrefixMatch peer addr bits addr.length)

def osshSourceAddrMatch (inet : InetPton) (list peerIp : Bytes) : Bool :=
  match peerAddr inet peerIp with
  | none => false
  | some peer =>
    let results := (if list = [] then [] else cidrEntries [] list).map (cidrEntryAllows inet peer)
    results.all Option.isSome && results.any (· = some true)

def osshCertCheckSourceAddress (inet : InetPton) (ctx : PubKeyCtx) (peerIp : Option Bytes) : AuthRet :=
  if ctx.sourceAddress = [] then .success
  else
    match peerIp with
    | none => .failure
    | some peerIp =>
      if peerIp = [] then .failure
      else if osshSourceAddrMatch inet ctx.sourceAddress peerIp then .success
      else .failure

/-- `CheckPublicKeyUnix` for a certificate. -/
def checkPublicKeyUnix (d : Daemon) (name : Bytes) (ctx : PubKeyCtx) : AuthRet :=
  if ctx.caKey = [] then .wsFatalError
  else
    match d.usrCaKeysFile with
    | none => .failure
    | some file =>
      if d.account name then
        match searchKeysFile d file ctx.caKey with
        | .success =>
          match osshCertCheckPrincipal ctx name with
          | .success =>
            match osshCertCheckValidity ctx d.now with
            | .success => osshCertCheckSourceAddress d.inetPton ctx d.peerIp
            | ret => ret
          | ret => ret
        | ret => ret
      else .wsFatalError

/-- The part of `DoUserAuthRequestPublicKey` for a certificate: what is handed to the daemon. -/
def doOsshCert (verifies : OsshCert → Bytes → Bool) (typeId : AlgoId) (blob : Bytes) :
    Except WsErr PubKeyCtx := do
  let cert ← osshCertParse typeId blob
  osshCertCheckType cert blob
  ensure (verifies cert blob) .error
  let options ← osshCertCheckOptions cert blob
  return {
    caKey := cert.caKey.of blob
    principals := cert.principals.of blob
    validAfter := cert.validAfter
    validBefore := cert.validBefore
    forceCommand := options.forceCommand
    sourceAddress := options.sourceAddress }

/-! What an accepted key, principal and address is. -/

section Policy

variable {d : Daemon} {name key file : Bytes} {ctx : PubKeyCtx}

theorem principalLoop_listed {p : Bytes} {idx : Nat} (h : principalLoop p name idx = true) :
    ∃ before rest, p.drop idx = wire (before ++ [name]) ++ rest := by
  fun_induction principalLoop p name idx with
  | case1 => simp at h
  | case2 idx hsize entSz hfits hname =>
    have hstring : p.drop idx = copyString name ++ p.drop (idx + uint32Sz + entSz) := by
      rw [← hname.2]
      exact drop_string (by omega)
    refine ⟨[], p.drop (idx + uint32Sz + entSz), ?_⟩
    rw [List.nil_append, wire_cons, show wire [] = [] from rfl, List.append_nil]
    exact hstring
  | case3 idx hsize entSz hfits hname ih =>
    obtain ⟨before, rest, hrest⟩ := ih h
    have hstring : p.drop idx = copyString ((p.drop (idx + uint32Sz)).take entSz) ++
        p.drop (idx + uint32Sz + entSz) := drop_string (by omega)
    refine ⟨(p.drop (idx + uint32Sz)).take entSz :: before, rest, ?_⟩
    rw [hstring, hrest, List.cons_append, wire_cons, List.append_assoc]
  | case4 => simp at h

theorem osshCertCheckPrincipal_ok (h : osshCertCheckPrincipal ctx name = .success) :
    ∃ before rest, ctx.principals = wire (before ++ [name]) ++ rest := by
  rw [osshCertCheckPrincipal] at h
  split at h
  · simp at h
  · split at h
    · rename_i hfound
      exact principalLoop_listed hfound
    · simp at h

theorem osshCertCheckValidity_ok {now : Nat} (h : osshCertCheckValidity ctx now = .success) :
    ctx.validAfter ≤ now ∧ now < ctx.validBefore := by
  rw [osshCertCheckValidity] at h
  split at h
  · simp at h
  · rename_i hin
    omega

theorem osshCertCheckSourceAddress_ok {inet : InetPton} {peerIp : Option Bytes}
    (h : osshCertCheckSourceAddress inet ctx peerIp = .success) (hsource : ctx.sourceAddress ≠ []) :
    ∃ ip, peerIp = some ip ∧ osshSourceAddrMatch inet ctx.sourceAddress ip = true := by
  unfold osshCertCheckSourceAddress at h
  rw [if_neg hsource] at h
  cases peerIp with
  | none => simp at h
  | some ip =>
    dsimp only at h
    split at h
    · simp at h
    · split at h
      · rename_i hmatch
        exact ⟨ip, rfl, hmatch⟩
      · simp at h

/-- The checks that a certificate meets beside the search for its CA key. -/
structure PassesOthers (d : Daemon) (name : Bytes) (ctx : PubKeyCtx) : Prop where
  account : d.account name = true
  principal : osshCertCheckPrincipal ctx name = .success
  validity : osshCertCheckValidity ctx d.now = .success
  source : osshCertCheckSourceAddress d.inetPton ctx d.peerIp = .success

/-- A certificate is accepted if its CA key is found in the file and it passes the other checks. -/
theorem checkPublicKeyUnix_iff : checkPublicKeyUnix d name ctx = .success ↔
    ∃ file, d.usrCaKeysFile = some (some file) ∧
      searchKeysFile d (some file) ctx.caKey = .success ∧ PassesOthers d name ctx := by
  have hempty : ∀ {file : Option Bytes}, searchKeysFile d file ctx.caKey = .success →
      ctx.caKey ≠ [] ∧ file ≠ none := by
    intro file hfound
    unfold searchKeysFile at hfound
    split at hfound
    · simp at hfound
    · rename_i hkey
      refine ⟨hkey, ?_⟩
      rintro rfl
      simp at hfound
  unfold checkPublicKeyUnix
  constructor
  · intro h
    split at h
    · simp at h
    · rcases hfile : d.usrCaKeysFile with _ | file
      · simp [hfile] at h
      · simp only [hfile] at h
        split at h
        · rename_i haccount
          cases hsearch : searchKeysFile d file ctx.caKey with
          | success =>
            obtain ⟨octets, rfl⟩ := Option.ne_none_iff_exists'.mp (hempty hsearch).2
            simp only [hsearch] at h
            cases hprincipal : osshCertCheckPrincipal ctx name with
            | success =>
              simp only [hprincipal] at h
              cases hvalid : osshCertCheckValidity ctx d.now with
              | success =>
                simp only [hvalid] at h
                exact ⟨octets, rfl, hsearch, haccount, hprincipal, hvalid, h⟩
              | _ => simp [hvalid] at h
            | _ => simp [hprincipal] at h
          | _ => simp [hsearch] at h
        · simp at h
  · rintro ⟨file, hfile, hsearch, haccount, hprincipal, hvalid, hsource⟩
    rw [if_neg (hempty hsearch).1, hfile]
    dsimp only
    rw [if_pos haccount, hsearch]
    dsimp only
    rw [hprincipal]
    dsimp only
    rw [hvalid]
    exact hsource

theorem osshCertCheckType_ok {cert : OsshCert} {blob : Bytes} {u : Unit}
    (h : osshCertCheckType cert blob = .ok u) : cert.certType = osshCertTypeUser := by
  unfold osshCertCheckType at h
  split at h
  · simp at h
  · rename_i htype
    exact Decidable.not_not.mp htype

/-- What the daemon is told comes from the fields of a certificate that passed its checks. -/
theorem doOsshCert_ok {verifies : OsshCert → Bytes → Bool} {typeId : AlgoId} {blob : Bytes}
    (h : doOsshCert verifies typeId blob = .ok ctx) :
    ∃ cert options, osshCertParse typeId blob = .ok cert ∧ cert.certType = osshCertTypeUser ∧
      verifies cert blob = true ∧ osshCertCheckOptions cert blob = .ok options ∧
      ctx.caKey = cert.caKey.of blob ∧ ctx.principals = cert.principals.of blob ∧
      ctx.validAfter = cert.validAfter ∧ ctx.validBefore = cert.validBefore ∧
      ctx.sourceAddress = options.sourceAddress := by
  rw [doOsshCert] at h
  obtain ⟨cert, hparse, h⟩ := ok_bind_iff.mp h
  obtain ⟨u, htype, h⟩ := ok_bind_iff.mp h
  obtain ⟨u, hverify, h⟩ := ok_bind_iff.mp h
  obtain ⟨options, hoptions, h⟩ := ok_bind_iff.mp h
  obtain rfl := ok_pure_iff.mp h
  exact ⟨cert, options, hparse, osshCertCheckType_ok htype, ok_ensure_iff.mp hverify, hoptions, rfl, rfl,
    rfl, rfl, rfl⟩

end Policy

def tinyCaKey : Bytes := copyString (ascii "ssh-ed25519") ++ copyString [7]

def tinyCaLine : Bytes := ascii "ssh-ed25519 AAAAC3NzaC1lZDI1NTE5AAAAAQc=\n"

def bobDaemon : Daemon where
  usrCaKeysFile := some (some tinyCaLine)
  maxLineSz := 900
  account name := name == ascii "bob"
  now := 5
  peerIp := some (ascii "10.0.0.1")
  base64Decode token := if token = ascii "AAAAC3NzaC1lZDI1NTE5AAAAAQc=\n" then some tinyCaKey else none
  inetPton := {
    v4 := fun text => if text = ascii "10.0.0.1" then some [10, 0, 0, 1] else none
    v6 := fun _ => none }

end WolfSsh.Ossh
