import WolfSsh.UserAuthCap

/-! What a signature is checked over: the message that each verifier of a public key puts together,
against the fields of the request, and what a granted request has been bound to. -/

namespace WolfSsh.UserAuth

open Fallible (ok_bind_iff ok_ensure_iff ok_pure_iff)

/-! What the readers have read. -/

section Readers

variable {buf str : Bytes} {i j n : Nat}

theorem getUint32_drop (h : readAt (getUint32 buf) i = .ok (n, j)) :
    buf.drop i = c32toa n ++ buf.drop j ∧ j = i + 4 := by
  simp only [readAt, getUint32, Fallible.runAt_bind, Fallible.runAt_get] at h
  by_cases hin : i < buf.length ∧ uint32Sz ≤ buf.length - i
  · simp only [if_pos hin, Fallible.runAt_bind, Fallible.runAt_set, Fallible.runAt_pure] at h
    obtain ⟨rfl, rfl⟩ := Prod.mk.inj (Except.ok.inj h)
    have hlen : 4 ≤ (buf.drop i).length := by simpa [uint32Sz] using hin.2
    refine ⟨?_, rfl⟩
    rw [c32toa_ato32 hlen, uint32Sz, ← List.drop_drop, List.take_append_drop]
  · simp [hin] at h

theorem getBoolean_drop {b : Bool} (h : readAt (getBoolean buf) i = .ok (b, j)) :
    buf.drop i = buf.getD i 0 :: buf.drop j ∧ b = (buf.getD i 0 != 0) := by
  simp only [readAt, getBoolean, Fallible.runAt_bind, Fallible.runAt_get] at h
  by_cases hin : i < buf.length
  · simp only [dif_pos hin, Fallible.runAt_bind, Fallible.runAt_set, Fallible.runAt_pure] at h
    obtain ⟨rfl, rfl⟩ := Prod.mk.inj (Except.ok.inj h)
    have hget : buf.getD i 0 = buf[i] := by simp [hin]
    rw [hget]
    exact ⟨List.drop_eq_getElem_cons hin, rfl⟩
  · simp [hin] at h

theorem getStringRef_drop (h : readAt (getStringRef buf) i = .ok (str, j)) :
    buf.drop i = copyString str ++ buf.drop j := by
  simp only [readAt, getStringRef, Fallible.runAt_bind] at h
  rcases hsz : (getUint32 buf).runAt i with ⟨e | strSz, k⟩
  · simp [hsz] at h
  · obtain ⟨hdrop, hk⟩ := getUint32_drop (show readAt (getUint32 buf) i = .ok (strSz, k) by
      rw [readAt, hsz])
    simp only [hsz, Fallible.runAt_get] at h
    by_cases hin : k ≤ buf.length ∧ strSz ≤ buf.length - k
    · simp only [if_pos hin, Fallible.runAt_bind, Fallible.runAt_set, Fallible.runAt_pure] at h
      obtain ⟨rfl, rfl⟩ := Prod.mk.inj (Except.ok.inj h)
      have hlen : ((buf.drop k).take strSz).length = strSz := by
        rw [List.length_take, List.length_drop]
        omega
      rw [copyString, hlen, hdrop, List.append_assoc, ← List.drop_drop, List.take_append_drop]
    · simp [hin] at h

theorem getSized_eq {str' : Bytes} {j' : Nat} (h : readAt (SignedRequest.getSized buf) i = .ok (str, j))
    (h' : readAt (getStringRef buf) i = .ok (str', j')) : str = str' := by
  simp only [readAt, SignedRequest.getSized, getSize, getStringRef, Fallible.runAt_bind] at h h'
  rcases hsz : (getUint32 buf).runAt i with ⟨e | strSz, k⟩
  · simp [hsz] at h
  · simp only [hsz, Fallible.runAt_get] at h h'
    by_cases hin : strSz > buf.length - k
    · simp [hin] at h
    · by_cases hin' : k ≤ buf.length ∧ strSz ≤ buf.length - k
      · simp only [if_neg hin, if_pos hin', Fallible.runAt_bind, Fallible.runAt_set,
          Fallible.runAt_pure] at h h'
        obtain ⟨rfl, -⟩ := Prod.mk.inj (Except.ok.inj h)
        obtain ⟨rfl, -⟩ := Prod.mk.inj (Except.ok.inj h')
        rfl
      · simp [hin'] at h'

end Readers

def keyTypeOf (id : AlgoId) : AlgoId := sigTypeForId (pubKeyFmtId id)

/-- The verifier adds up the sizes of the fields. -/
def fieldsCounted : AlgoId → Bool
  | .mldsa44 | .mldsa65 | .mldsa87 | .x509v3Mldsa44 | .x509v3Mldsa65 | .x509v3Mldsa87
  | .mldsa44Es256 | .mldsa65Es256 | .mldsa87Es384 | .mldsa44Ed25519 | .mldsa65Ed25519
  | .mldsa87Ed448 => true
  | _ => false

/-- The verifier leaves the name in the signature unused. -/
def nameUnused : AlgoId → Bool
  | .x509v3EcdsaSha2Nistp256 | .x509v3EcdsaSha2Nistp384 | .x509v3EcdsaSha2Nistp521 => true
  | _ => false

/-- A verification that was put together for the request `q`. -/
structure MadeFor (q : SignedRequest) (alg : AlgoId) (v : Verification) : Prop where
  key : v.key = q.pk.publicKey
  keyType : v.keyType = keyTypeOf alg
  message : v.message =
    q.checkData (if fieldsCounted alg then q.fieldsSz q.pubKeyBlobSz else q.pk.dataToSignSz)
  sigAlgo : ∀ name i, readAt (getStringRef q.pk.signature) 0 = .ok (name, i) → v.sigAlgo = name
  named : nameUnused alg = false → keyTypeOf (nameToId v.sigAlgo) = keyTypeOf alg

namespace SignedRequest

variable {o : Oracles} {q : SignedRequest} {alg : AlgoId} {v : Verification}

theorem getTypeName_ok {buf typeName : Bytes} {i : Nat} (h : q.getTypeName buf = .ok (typeName, i)) :
    readAt (getSized buf) 0 = .ok (typeName, i) ∧ typeName = q.pk.publicKeyType := by
  simp only [getTypeName, ok_bind_iff, ok_ensure_iff, ok_pure_iff] at h
  obtain ⟨⟨name, k⟩, hread, -, hname, heq⟩ := h
  obtain ⟨rfl, rfl⟩ := Prod.mk.inj heq
  exact ⟨hread, hname⟩

theorem rsaVerification_ok (htype : nameToId q.pk.publicKeyType = alg) (hrsa : keyTypeOf alg = .sshRsa)
    (hcounted : fieldsCounted alg = false) (h : q.rsaVerification alg = .ok v) : MadeFor q alg v := by
  simp only [rsaVerification, ok_bind_iff, ok_ensure_iff, ok_pure_iff] at h
  obtain ⟨⟨sigAlgo, i⟩, hread, -, hok, ⟨sig, j⟩, -, rfl⟩ := h
  refine ⟨rfl, hrsa.symm, by simp [hcounted], fun name k hname => ?_, fun _ => ?_⟩
  · rw [hread] at hname
    exact (Prod.mk.inj (Except.ok.inj hname)).1
  · rw [hrsa]
    simp only [rsaSigTypeOk, Bool.or_eq_true, Bool.and_eq_true, decide_eq_true_eq] at hok
    rcases hok with rfl | ⟨-, (rfl | rfl) | rfl⟩
    · rw [htype, hrsa]
    · change keyTypeOf (nameToId (ascii "ssh-rsa")) = .sshRsa
      decide +kernel
    · change keyTypeOf (nameToId (ascii "rsa-sha2-256")) = .sshRsa
      decide +kernel
    · change keyTypeOf (nameToId (ascii "rsa-sha2-512")) = .sshRsa
      decide +kernel

theorem typedVerification_ok {keyType : AlgoId} {dataToSignSz : Nat}
    (htype : nameToId q.pk.publicKeyType = alg) (hkey : keyType = keyTypeOf alg)
    (hsz : dataToSignSz = if fieldsCounted alg then q.fieldsSz q.pubKeyBlobSz else q.pk.dataToSignSz)
    (h : q.typedVerification alg keyType dataToSignSz = .ok v) : MadeFor q alg v := by
  simp only [typedVerification, ok_bind_iff, ok_pure_iff] at h
  obtain ⟨⟨sigAlgo, i⟩, hname, ⟨sig, j⟩, -, rfl⟩ := h
  obtain ⟨hread, rfl⟩ := getTypeName_ok hname
  exact ⟨rfl, hkey, by rw [hsz], fun name k h' => getSized_eq hread h', fun _ => by rw [htype]⟩

theorem doUserAuthRequestEcc_ok (htype : nameToId q.pk.publicKeyType = alg)
    (hecc : keyTypeOf alg = alg) (hcounted : fieldsCounted alg = false)
    (h : q.doUserAuthRequestEcc o alg = .ok v) : MadeFor q alg v := by
  simp only [doUserAuthRequestEcc, ok_bind_iff, ok_ensure_iff, ok_pure_iff] at h
  obtain ⟨_, -, _, -, _, -, _, -, _, -, _, -, ⟨sigAlgo, i⟩, hname, _, -, rfl⟩ := h
  obtain ⟨hread, rfl⟩ := getTypeName_ok hname
  exact ⟨rfl, by rw [htype, hecc], by simp [hcounted], fun name k h' => getSized_eq hread h',
    fun _ => by rw [htype]⟩

theorem doUserAuthRequestEccCert_ok (htype : nameToId q.pk.publicKeyType = alg)
    (hunused : nameUnused alg) (hecc : keyTypeOf alg = sigTypeForId alg)
    (hcounted : fieldsCounted alg = false) (h : q.doUserAuthRequestEccCert o alg = .ok v) :
    MadeFor q alg v := by
  simp only [doUserAuthRequestEccCert, ok_bind_iff, ok_ensure_iff, ok_pure_iff] at h
  obtain ⟨_, -, _, -, ⟨sigAlgo, i⟩, hread, _, -, rfl⟩ := h
  exact ⟨rfl, by rw [htype, hecc], by simp [hcounted], fun name k h' => getSized_eq hread h',
    by simp [hunused]⟩

theorem doUserAuthRequestRsa_ok (htype : nameToId q.pk.publicKeyType = alg)
    (hrsa : keyTypeOf alg = .sshRsa) (hcounted : fieldsCounted alg = false)
    (h : q.doUserAuthRequestRsa o alg = .ok v) : MadeFor q alg v := by
  simp only [doUserAuthRequestRsa, ok_bind_iff, ok_ensure_iff] at h
  obtain ⟨_, -, _, -, _, -, _, -, _, -, h⟩ := h
  exact rsaVerification_ok htype hrsa hcounted h

theorem doUserAuthRequestRsaCert_ok (htype : nameToId q.pk.publicKeyType = alg)
    (hrsa : keyTypeOf alg = .sshRsa) (hcounted : fieldsCounted alg = false)
    (h : q.doUserAuthRequestRsaCert o alg = .ok v) : MadeFor q alg v := by
  simp only [doUserAuthRequestRsaCert, ok_bind_iff, ok_ensure_iff] at h
  obtain ⟨_, -, h⟩ := h
  exact rsaVerification_ok htype hrsa hcounted h

theorem doUserAuthRequestMlDsa_ok {isCert : Bool} (htype : nameToId q.pk.publicKeyType = alg)
    (hkey : sigTypeForId alg = keyTypeOf alg) (hcounted : fieldsCounted alg)
    (h : q.doUserAuthRequestMlDsa o isCert alg = .ok v) : MadeFor q alg v := by
  have hsz : q.fieldsSz q.pubKeyBlobSz =
      if fieldsCounted alg then q.fieldsSz q.pubKeyBlobSz else q.pk.dataToSignSz := by
    rw [if_pos hcounted]
  cases isCert with
  | true =>
    simp only [doUserAuthRequestMlDsa, ok_bind_iff, ok_ensure_iff, if_true] at h
    obtain ⟨_, -, h⟩ := h
    exact typedVerification_ok htype hkey hsz h
  | false =>
    simp only [doUserAuthRequestMlDsa, ok_bind_iff, ok_ensure_iff, Bool.false_eq_true, if_false] at h
    obtain ⟨_, -, _, -, _, -, h⟩ := h
    exact typedVerification_ok htype hkey hsz h

theorem doUserAuthRequestMlDsaComposite_ok (htype : nameToId q.pk.publicKeyType = alg)
    (hkey : alg = keyTypeOf alg) (hcounted : fieldsCounted alg)
    (h : q.doUserAuthRequestMlDsaComposite o alg = .ok v) : MadeFor q alg v := by
  simp only [doUserAuthRequestMlDsaComposite, ok_bind_iff, ok_ensure_iff] at h
  obtain ⟨_, -, _, -, _, -, h⟩ := h
  exact typedVerification_ok htype hkey (by rw [if_pos hcounted]) h

theorem doUserAuthRequestEd25519_ok (htype : nameToId q.pk.publicKeyType = .ed25519)
    (hsz : q.pk.dataToSignSz ≠ 0) (h : q.doUserAuthRequestEd25519 o = .ok v) :
    MadeFor q .ed25519 v := by
  simp only [doUserAuthRequestEd25519, ok_bind_iff, ok_ensure_iff, if_neg hsz] at h
  obtain ⟨_, -, _, -, _, -, h⟩ := h
  exact typedVerification_ok htype rfl rfl h

/-- Every verifier that gets as far as the cryptography has put its message together this way. -/
theorem verification_ok (htype : nameToId q.pk.publicKeyType = alg) (hsz : q.pk.dataToSignSz ≠ 0)
    (h : q.verification o alg = .ok v) : MadeFor q alg v := by
  rw [verification.eq_def] at h
  split at h
  · exact doUserAuthRequestEd25519_ok htype hsz h
  any_goals exact doUserAuthRequestMlDsa_ok htype rfl rfl h
  any_goals exact doUserAuthRequestMlDsaComposite_ok htype rfl rfl h
  any_goals exact doUserAuthRequestRsa_ok htype rfl rfl h
  any_goals exact doUserAuthRequestEcc_ok htype rfl rfl h
  any_goals exact doUserAuthRequestEccCert_ok htype rfl rfl rfl h
  · exact doUserAuthRequestRsaCert_ok htype rfl rfl h
  · cases h

end SignedRequest

theorem osshSigOk_kind {pkTypeId sigId : AlgoId} (hbase : osshCertBaseId pkTypeId ≠ .unknown)
    (hok : osshSigOk (osshCertBaseId pkTypeId) sigId) :
    fieldsCounted sigId = false ∧ fieldsCounted pkTypeId = false ∧ nameUnused sigId = false ∧
      nameUnused pkTypeId = false := by
  generalize hb : osshCertBaseId pkTypeId = base at hbase hok
  rw [osshCertBaseId.eq_def] at hb
  split at hb
  · subst hb
    simp only [osshSigOk, Bool.or_eq_true, decide_eq_true_eq] at hok
    rcases hok with (rfl | rfl) | rfl <;> decide
  · subst hb
    obtain rfl := of_decide_eq_true hok
    decide
  · subst hb
    obtain rfl := of_decide_eq_true hok
    decide
  · subst hb
    obtain rfl := of_decide_eq_true hok
    decide
  · subst hb
    obtain rfl := of_decide_eq_true hok
    decide
  · exact absurd hb.symm hbase

theorem prepareKey_ok {o : Oracles} {buf sigAlgo : Bytes} {r : PkRequest} {alg : AlgoId}
    {pk : PublicKey} (hsig : r.hasSig) (h : prepareKey o buf r sigAlgo = some (alg, pk)) :
    nameToId pk.publicKeyType = alg ∧ pk.dataToSign = buf ∧
      pk.dataToSignSz = buf.length - r.sig.length - lengthSz ∧ pk.signature = r.sig ∧
      ((alg = nameToId r.pubKeyAlgo ∧ pk.publicKeyType = r.pubKeyAlgo) ∨
        fieldsCounted alg = false ∧ fieldsCounted (nameToId r.pubKeyAlgo) = false ∧
          nameUnused alg = false ∧ nameUnused (nameToId r.pubKeyAlgo) = false) := by
  simp only [prepareKey] at h
  split at h
  · cases h
  · split at h
    · split at h
      · split at h
        · cases h
        · obtain ⟨rfl, rfl⟩ := Prod.mk.inj (Option.some.inj h)
          exact ⟨rfl, rfl, by simp [fillPublicKey, hsig], rfl, .inl ⟨rfl, rfl⟩⟩
      · cases h
    · split at h
      · rename_i hbase
        split at h
        · cases h
        · split at h
          · rename_i hok
            obtain ⟨rfl, rfl⟩ := Prod.mk.inj (Option.some.inj h)
            exact ⟨rfl, rfl, by simp [fillPublicKey, hsig], rfl, .inr (osshSigOk_kind hbase hok)⟩
          · cases h
      · obtain ⟨rfl, rfl⟩ := Prod.mk.inj (Option.some.inj h)
        exact ⟨rfl, rfl, by simp [fillPublicKey, hsig], rfl, .inl ⟨rfl, rfl⟩⟩

/-! A request with a signature, field by field. -/

/-- `rest` is what follows the signature. -/
structure PublicKeyPacket where
  authData : AuthData
  flag : UInt8
  request : PkRequest
  sigAlgo : Bytes
  rest : Bytes
deriving DecidableEq, Repr

def readPublicKeyPacket (buf : Bytes) : Except WsErr PublicKeyPacket := do
  let (username, serviceName, idx) ← Ssh.getNames buf
  let (authName, idx) ← readAt (getStringRef buf) idx
  let (r, endIdx) ← getPkRequest buf idx
  let sigAlgo ← getSigAlgo r
  return ⟨⟨username, serviceName, authName⟩, buf.getD idx 0, r, sigAlgo, buf.drop endIdx⟩

namespace PublicKeyPacket

variable {k : PublicKeyPacket} {buf : Bytes}

/-- The fields from the user name to the key blob. -/
def fields (k : PublicKeyPacket) (authName : Bytes) (flag : UInt8) : Bytes :=
  copyString k.authData.username ++ (copyString k.authData.serviceName ++
    (copyString authName ++
      (flag :: (copyString k.request.pubKeyAlgo ++ copyString k.request.pubKeyBlob))))

/-- What the client signs by RFC 4252. -/
def signedBlob (sessionId : Bytes) (k : PublicKeyPacket) : Bytes :=
  copyString sessionId ++ (msgidUserauthRequest :: k.fields (ascii "publickey") 1)

theorem getPkRequest_drop {r : PkRequest} {i j : Nat} (h : getPkRequest buf i = .ok (r, j))
    (hsig : r.hasSig) :
    buf.drop i = buf.getD i 0 :: (copyString r.pubKeyAlgo ++ (copyString r.pubKeyBlob ++
      (copyString r.sig ++ buf.drop j))) := by
  rw [getPkRequest, ok_bind_iff] at h
  obtain ⟨⟨hasSig, i₁⟩, hbool, h⟩ := h
  cases hasSig with
  | false =>
    simp only [Bool.false_eq_true, if_false, ok_bind_iff, ok_pure_iff] at h
    obtain ⟨_, -, _, -, _, -, heq⟩ := h
    obtain ⟨rfl, -⟩ := Prod.mk.inj heq
    cases hsig
  | true =>
    simp only [if_true, ok_bind_iff, ok_pure_iff] at h
    obtain ⟨⟨algo, i₂⟩, halgo, ⟨blob, i₃⟩, hblob, ⟨sig, i₄⟩, hread, heq⟩ := h
    obtain ⟨rfl, rfl⟩ := Prod.mk.inj heq
    rw [(getBoolean_drop hbool).1, getStringRef_drop halgo, getStringRef_drop hblob,
      getStringRef_drop hread]

theorem read_layout (h : readPublicKeyPacket buf = .ok k) (hsig : k.request.hasSig) :
    buf = k.fields k.authData.authName k.flag ++ (copyString k.request.sig ++ k.rest) := by
  simp only [readPublicKeyPacket, Ssh.getNames, ok_bind_iff, ok_pure_iff] at h
  obtain ⟨_, ⟨⟨user, i₁⟩, huser, ⟨service, i₂⟩, hservice, rfl⟩, ⟨name, i₃⟩, hname, ⟨r, i₄⟩, hreq,
    sigAlgo, -, rfl⟩ := h
  have hlayout := getStringRef_drop huser
  rw [List.drop_zero, getStringRef_drop hservice, getStringRef_drop hname,
    getPkRequest_drop hreq hsig] at hlayout
  simpa [fields] using hlayout

theorem fields_length (k : PublicKeyPacket) (authName : Bytes) (flag : UInt8) :
    (k.fields authName flag).length = k.authData.username.length + k.authData.serviceName.length +
      authName.length + k.request.pubKeyAlgo.length + k.request.pubKeyBlob.length + 21 := by
  simp only [fields, copyString, List.length_append, List.length_cons, c32toa_length]
  omega

/-- The octets that follow the message id in what is verified: the fields as they stand, and as many
octets again as follow the signature unless the fields were counted. -/
theorem signed_take (h : readPublicKeyPacket buf = .ok k) (hsig : k.request.hasSig) (n : Nat) :
    buf.take ((k.fields k.authData.authName k.flag).length + n) =
      k.fields k.authData.authName k.flag ++ (copyString k.request.sig ++ k.rest).take n := by
  conv => lhs; rw [read_layout h hsig]
  rw [List.take_append, Nat.add_sub_cancel_left, List.take_of_length_le (by omega)]

theorem fields_inj {k : PublicKeyPacket} {authName extra : Bytes} {flag : UInt8} :
    k.fields authName flag ++ extra = k.fields authName 1 ↔ flag = 1 ∧ extra = [] := by
  constructor
  · intro h
    have hlen := congrArg List.length h
    rw [List.length_append, fields_length, fields_length] at hlen
    have hextra : extra = [] := List.length_eq_zero_iff.mp (by omega)
    rw [hextra, List.append_nil, fields, fields] at h
    have hcons := List.append_cancel_left (List.append_cancel_left (List.append_cancel_left h))
    exact ⟨(List.cons.inj hcons).1, hextra⟩
  · rintro ⟨rfl, rfl⟩
    rw [List.append_nil]

/-- The request holds nothing but what is to be signed and the signature, and the signature names an
algorithm of its key. -/
structure Exact (k : PublicKeyPacket) : Prop where
  flag : k.flag = 1
  rest : k.rest = [] ∨ fieldsCounted (nameToId k.request.pubKeyAlgo)
  named : nameUnused (nameToId k.request.pubKeyAlgo) →
    keyTypeOf (nameToId k.sigAlgo) = keyTypeOf (nameToId k.request.pubKeyAlgo)

variable {o : Oracles} {sessionId : Bytes} {alg : AlgoId} {pk : PublicKey} {v : Verification}

theorem message_eq (h : readPublicKeyPacket buf = .ok k) (hsig : k.request.hasSig)
    (hprep : prepareKey o buf k.request k.sigAlgo = some (alg, pk))
    (hmade : MadeFor ⟨sessionId, k.authData, k.request.pubKeyBlob.length, pk⟩ alg v) :
    v.message = copyString sessionId ++ (msgidUserauthRequest ::
      (k.fields k.authData.authName k.flag ++
        if fieldsCounted (nameToId k.request.pubKeyAlgo) then []
        else (copyString k.request.sig ++ k.rest).take k.rest.length)) := by
  obtain ⟨-, hdata, hsz, -, hkind⟩ := prepareKey_ok hsig hprep
  have hlen := congrArg List.length (read_layout h hsig)
  simp only [List.length_append, copyString, c32toa_length] at hlen
  have hcounted : fieldsCounted alg = fieldsCounted (nameToId k.request.pubKeyAlgo) := by
    rcases hkind with ⟨hid, -⟩ | ⟨halg, hid, -⟩
    · rw [hid]
    · rw [halg, hid]
  rw [hmade.message, SignedRequest.checkData, hdata, hcounted]
  by_cases hcount : fieldsCounted (nameToId k.request.pubKeyAlgo)
  · have htype : pk.publicKeyType = k.request.pubKeyAlgo := by
      rcases hkind with ⟨-, htype⟩ | ⟨-, hid, -⟩
      · exact htype
      · rw [hid] at hcount
        cases hcount
    have hfields : SignedRequest.fieldsSz ⟨sessionId, k.authData, k.request.pubKeyBlob.length, pk⟩
        k.request.pubKeyBlob.length = (k.fields k.authData.authName k.flag).length + 0 := by
      rw [fields_length]
      simp only [SignedRequest.fieldsSz, htype, booleanSz, uint32Sz]
      omega
    rw [if_pos hcount, if_pos hcount]
    dsimp only
    rw [hfields, signed_take h hsig, List.take_zero]
  · have hregion : pk.dataToSignSz =
        (k.fields k.authData.authName k.flag).length + k.rest.length := by
      rw [hsz, lengthSz]
      omega
    rw [if_neg hcount, if_neg hcount]
    dsimp only
    rw [hregion, signed_take h hsig]

theorem message_iff (h : readPublicKeyPacket buf = .ok k) (hsig : k.request.hasSig)
    (hname : k.authData.authName = ascii "publickey")
    (hprep : prepareKey o buf k.request k.sigAlgo = some (alg, pk))
    (hmade : MadeFor ⟨sessionId, k.authData, k.request.pubKeyBlob.length, pk⟩ alg v) :
    v.message = k.signedBlob sessionId ↔
      k.flag = 1 ∧ (k.rest = [] ∨ fieldsCounted (nameToId k.request.pubKeyAlgo)) := by
  rw [message_eq h hsig hprep hmade, signedBlob, List.append_cancel_left_eq, List.cons.injEq, hname]
  simp only [true_and]
  rw [fields_inj]
  by_cases hcount : fieldsCounted (nameToId k.request.pubKeyAlgo)
  · simp [hcount]
  · cases k.rest <;> simp [hcount, copyString]

theorem read_sigAlgo (h : readPublicKeyPacket buf = .ok k) (hsig : k.request.hasSig) :
    ∃ i, readAt (getStringRef k.request.sig) 0 = .ok (k.sigAlgo, i) := by
  simp only [readPublicKeyPacket, ok_bind_iff, ok_pure_iff] at h
  obtain ⟨_, -, _, -, ⟨r, _⟩, -, sigAlgo, hsigAlgo, rfl⟩ := h
  dsimp only at hsig ⊢
  simp only [getSigAlgo, hsig, if_true, ok_bind_iff, ok_pure_iff] at hsigAlgo
  obtain ⟨_, -, ⟨name, i⟩, hread, _, -, rfl⟩ := hsigAlgo
  exact ⟨i, hread⟩

theorem named_iff (h : readPublicKeyPacket buf = .ok k) (hsig : k.request.hasSig)
    (hprep : prepareKey o buf k.request k.sigAlgo = some (alg, pk))
    (hmade : MadeFor ⟨sessionId, k.authData, k.request.pubKeyBlob.length, pk⟩ alg v) :
    keyTypeOf (nameToId v.sigAlgo) = v.keyType ↔
      (nameUnused (nameToId k.request.pubKeyAlgo) →
        keyTypeOf (nameToId k.sigAlgo) = keyTypeOf (nameToId k.request.pubKeyAlgo)) := by
  obtain ⟨-, -, -, hpksig, hkind⟩ := prepareKey_ok hsig hprep
  rw [hmade.keyType]
  rcases hkind with ⟨rfl, -⟩ | ⟨-, -, hunused, hid⟩
  · by_cases hunused : nameUnused (nameToId k.request.pubKeyAlgo)
    · obtain ⟨i, hread⟩ := read_sigAlgo h hsig
      rw [hmade.sigAlgo k.sigAlgo i (by rw [hpksig]; exact hread)]
      simp [hunused]
    · simp [hunused, hmade.named (by simpa using hunused)]
  · simp [hid, hmade.named hunused]

end PublicKeyPacket

/-! From a request to its verifier, and back from `CLIENT_USERAUTH_DONE`. -/

def requestMethod (buf : Bytes) : Except WsErr AlgoId := do
  let (_, _, idx) ← Ssh.getNames buf
  let (authName, _) ← readAt (getStringRef buf) idx
  return nameToId authName

/-- The same answers, with another check of signatures. -/
def Env.verifying (env : Env) (verify : Verification → Bool) : Env :=
  { env with oracles := { env.oracles with verify := verify } }

theorem verification_verifying (env : Env) (verify : Verification → Bool) (q : SignedRequest)
    (alg : AlgoId) : SignedRequest.verification (env.verifying verify).oracles q alg =
      SignedRequest.verification env.oracles q alg := rfl

theorem prepareKey_verifying (env : Env) (verify : Verification → Bool) (buf : Bytes)
    (r : PkRequest) (sigAlgo : Bytes) : prepareKey (env.verifying verify).oracles buf r sigAlgo =
      prepareKey env.oracles buf r sigAlgo := rfl

/-- The request `k` gets as far as the check of its signature, and authenticates if that succeeds. -/
structure Reaches (env : Env) (s : Ssh) (buf : Bytes) (k : PublicKeyPacket) : Prop where
  undone : s.userauthDone = false
  parsed : readPublicKeyPacket buf = .ok k
  signed : k.request.hasSig
  method : nameToId k.authData.authName = .userauthPublickey
  service : nameToId k.authData.serviceName = .serviceConnection
  bound : (s.bindUser env k.authData.username).2.isOk
  chance : s.kbSetupPending → (s.authFailures + 1) % 2 ^ 32 < s.maxAuthAttempts
  granted : ∃ cb, env.userAuthCb = some cb ∧ cb.check = .success
  confirmed : env.resultCb
  checked : ∃ alg pk v, prepareKey env.oracles buf k.request k.sigAlgo = some (alg, pk) ∧
    SignedRequest.verification env.oracles
      ⟨s.sessionId, k.authData, k.request.pubKeyBlob.length, pk⟩ alg = .ok v

namespace Ssh

variable {s w : Ssh} {env : Env} {p : Packet} {authData : AuthData} {buf : Bytes} {idx : Nat}

theorem sendUserAuthFailureCount_done (s : Ssh) (env : Env) (no : Nat) (count : Bool) :
    (s.sendUserAuthFailureCount env no count).1.userauthDone = s.userauthDone := by
  cases count with
  | false => rfl
  | true =>
    simp only [sendUserAuthFailureCount, countUserAuthFailure, if_true]
    split <;> rfl

theorem refuse_done (s : Ssh) (env : Env) (no : Nat) (rejected : Bool) :
    (s.refuse env no rejected).1.userauthDone = s.userauthDone :=
  sendUserAuthFailureCount_done s env no true

theorem abandonKeyboard_frame (s : Ssh) :
    s.abandonKeyboard.1.sessionId = s.sessionId ∧ s.abandonKeyboard.1.userName = s.userName ∧
      s.abandonKeyboard.1.userauthDone = s.userauthDone ∧ s.abandonKeyboard.1.calls = s.calls ∧
      s.abandonKeyboard.1.verifications = s.verifications ∧
      s.abandonKeyboard.1.authId = s.authId := by
  simp only [abandonKeyboard, countUserAuthFailure]
  split
  · split <;> exact ⟨rfl, rfl, rfl, rfl, rfl, rfl⟩
  · exact ⟨rfl, rfl, rfl, rfl, rfl, rfl⟩

theorem countUserAuthFailure_isOk (s : Ssh) (no : Nat) : (s.countUserAuthFailure no).2.isOk ↔
    (s.authFailures + 1) % 2 ^ 32 < s.maxAuthAttempts := by
  rw [countUserAuthFailure]
  dsimp only
  by_cases hmax : (s.authFailures + 1) % 2 ^ 32 ≥ s.maxAuthAttempts
  · rw [if_pos hmax]
    exact ⟨by rintro ⟨⟩, fun hlt => absurd hlt (Nat.not_lt.mpr hmax)⟩
  · rw [if_neg hmax]
    exact ⟨fun _ => Nat.lt_of_not_le hmax, fun _ => rfl⟩

theorem abandonKeyboard_isOk (s : Ssh) : s.abandonKeyboard.2.isOk ↔
    (s.kbSetupPending → (s.authFailures + 1) % 2 ^ 32 < s.maxAuthAttempts) := by
  rw [abandonKeyboard]
  dsimp only
  by_cases hpend : s.kbSetupPending
  · rw [if_pos hpend, countUserAuthFailure_isOk]
    exact ⟨fun hlt _ => hlt, fun h => h hpend⟩
  · rw [if_neg hpend]
    exact ⟨fun _ h => absurd h hpend, fun _ => rfl⟩

theorem bindUser_done (s : Ssh) (env : Env) (username : Bytes) :
    (s.bindUser env username).1.userauthDone = s.userauthDone := by
  rw [bindUser]
  repeat' split
  all_goals rfl

theorem bindUser_ok {username : Bytes} (h : (s.bindUser env username).2.isOk) :
    s.bindUser env username = ({ s with userName := username, userAuthSeen := true }, .ok ()) := by
  rw [bindUser] at h ⊢
  by_cases hseen : s.userAuthSeen
  · by_cases hname : username = s.userName
    · rw [if_pos hseen, if_pos hname, hname, ← hseen]
    · simp [hseen, hname, Session.Ret.isOk] at h
  · by_cases hempty : username = []
    · simp [hseen, hempty, Session.Ret.isOk] at h
    · by_cases halloc : env.userNameAlloc
      · simp [hseen, hempty, halloc]
      · simp [hseen, hempty, halloc, Session.Ret.isOk] at h

theorem checkKey_done {r : PkRequest} {alg : AlgoId} {pk : PublicKey} {granted : Bool}
    (hs : s.userauthDone = false)
    (h : (s.checkKey env p authData r alg pk granted).1.userauthDone) :
    granted ∧ r.hasSig ∧ ∃ v, SignedRequest.verification env.oracles
        ⟨s.sessionId, authData, r.pubKeyBlob.length, pk⟩ alg = .ok v ∧
      env.oracles.verify v ∧ env.resultCb ∧ (s.checkKey env p authData r alg pk granted).1 =
        { s with verifications := v :: s.verifications, userauthDone := true } := by
  have hrefuse : ∀ u : Ssh, u.userauthDone = s.userauthDone →
      ¬ (u.refuse env p.no false).1.userauthDone := by
    intro u hu
    rw [refuse_done, hu, hs]
    exact Bool.false_ne_true
  rw [checkKey] at h ⊢
  by_cases hsig : r.hasSig
  · rw [if_pos hsig] at h ⊢
    cases hver : SignedRequest.verification env.oracles
      ⟨s.sessionId, authData, r.pubKeyBlob.length, pk⟩ alg with
    | error e =>
      rw [hver] at h
      exact absurd h (hrefuse _ rfl)
    | ok v =>
      rw [hver] at h
      dsimp only at h ⊢
      by_cases hok : env.oracles.verify v ∧ env.resultCb
      · rw [if_pos hok] at h ⊢
        cases granted with
        | true => exact ⟨rfl, hsig, v, rfl, hok.1, hok.2, rfl⟩
        | false => exact absurd h (hrefuse _ rfl)
      · rw [if_neg hok] at h
        exact absurd h (hrefuse _ rfl)
  · rw [if_neg hsig] at h
    exact absurd (hs.symm.trans h) Bool.false_ne_true

/-- The only way through the public-key method to `CLIENT_USERAUTH_DONE`. -/
theorem doUserAuthRequestPublicKey_done (hs : s.userauthDone = false)
    (h : (s.doUserAuthRequestPublicKey env p authData buf idx).1.userauthDone) :
    ∃ r j sigAlgo alg pk cb v, getPkRequest buf idx = .ok (r, j) ∧ getSigAlgo r = .ok sigAlgo ∧
      prepareKey env.oracles buf r sigAlgo = some (alg, pk) ∧
      env.userAuthCb = some cb ∧ cb.check = .success ∧ r.hasSig ∧
      SignedRequest.verification env.oracles ⟨s.sessionId, authData, r.pubKeyBlob.length, pk⟩ alg =
        .ok v ∧ env.oracles.verify v ∧ env.resultCb ∧
      (s.doUserAuthRequestPublicKey env p authData buf idx).1 =
        { s.logCall ⟨p.no, .publickey, s.userName, s.authFailures, none, 0, pk.publicKey, .success⟩ with
          verifications := v :: s.verifications
          userauthDone := true } := by
  have hrefuse : ∀ (u : Ssh) rejected, u.userauthDone = s.userauthDone →
      ¬ (u.refuse env p.no rejected).1.userauthDone := by
    intro u rejected hu
    rw [refuse_done, hu, hs]
    exact Bool.false_ne_true
  have hsame : ¬ s.userauthDone := by simp [hs]
  have hlog : ∀ c, (s.logCall c).userauthDone = false := fun _ => hs
  rw [doUserAuthRequestPublicKey] at h ⊢
  cases hreq : getPkRequest buf idx with
  | error e =>
    rw [hreq] at h
    exact absurd h hsame
  | ok parsed =>
    obtain ⟨r, j⟩ := parsed
    rw [hreq] at h
    dsimp only at h ⊢
    cases halgo : getSigAlgo r with
    | error e =>
      rw [halgo] at h
      exact absurd h hsame
    | ok sigAlgo =>
      rw [halgo] at h
      dsimp only at h ⊢
      cases hprep : prepareKey env.oracles buf r sigAlgo with
      | none =>
        rw [hprep] at h
        exact absurd h (hrefuse s false rfl)
      | some key =>
        obtain ⟨alg, pk⟩ := key
        rw [hprep] at h
        cases hcb : env.userAuthCb with
        | none =>
          rw [hcb] at h
          exact absurd h (hrefuse s false rfl)
        | some cb =>
          rw [hcb] at h
          dsimp only at h ⊢
          cases hcheck : cb.check with
          | success =>
            rw [hcheck] at h
            obtain ⟨-, hsig, v, hver, hok, hresult, heq⟩ := checkKey_done (hlog _) h
            exact ⟨r, j, sigAlgo, alg, pk, cb, v, rfl, halgo, hprep, rfl, hcheck, hsig, hver, hok,
              hresult, heq⟩
          | partialSuccess =>
            rw [hcheck] at h
            exact absurd (checkKey_done (hlog _) h).1 Bool.false_ne_true
          | wouldBlock =>
            rw [hcheck] at h
            exact absurd h hsame
          | rejected | failure | successAnother =>
            rw [hcheck] at h
            exact absurd h (hrefuse _ _ rfl)

theorem doUserAuthRequestPublicKey_granted {r : PkRequest} {j : Nat} {sigAlgo : Bytes} {alg : AlgoId}
    {pk : PublicKey} {cb : Callback} {v : Verification} (hreq : getPkRequest buf idx = .ok (r, j))
    (halgo : getSigAlgo r = .ok sigAlgo)
    (hprep : prepareKey env.oracles buf r sigAlgo = some (alg, pk)) (hcb : env.userAuthCb = some cb)
    (hcheck : cb.check = .success) (hsig : r.hasSig)
    (hver : SignedRequest.verification env.oracles
      ⟨s.sessionId, authData, r.pubKeyBlob.length, pk⟩ alg = .ok v)
    (hok : env.oracles.verify v) (hresult : env.resultCb) :
    (s.doUserAuthRequestPublicKey env p authData buf idx).1.userauthDone := by
  simp only [doUserAuthRequestPublicKey, hreq, halgo, hprep, hcb, hcheck, checkKey, hsig, if_true]
  have hsession : ∀ c, (s.logCall c).sessionId = s.sessionId := fun _ => rfl
  rw [hsession, hver]
  simp only [hok, hresult, and_self, if_true]

theorem doUserAuthRequest_publicKey {username serviceName authName : Bytes} {i j : Nat}
    (hnames : getNames buf = .ok (username, serviceName, i))
    (hservice : nameToId serviceName = .serviceConnection)
    (hname : readAt (getStringRef buf) i = .ok (authName, j))
    (hmethod : nameToId authName = .userauthPublickey)
    (hbound : (s.bindUser env username).2.isOk)
    (hchance : s.kbSetupPending → (s.authFailures + 1) % 2 ^ 32 < s.maxAuthAttempts) :
    ∃ w : Ssh, s.doUserAuthRequest env p buf =
        w.doUserAuthRequestPublicKey env p ⟨username, serviceName, authName⟩ buf j ∧
      w.sessionId = s.sessionId ∧ w.userName = username ∧ w.userauthDone = s.userauthDone ∧
      w.calls = s.calls ∧ w.verifications = s.verifications := by
  have hbuf : buf ≠ [] := by
    rintro rfl
    cases hnames
  rw [doUserAuthRequest, if_neg hbuf, hnames]
  dsimp only
  rw [if_neg (not_not.mpr hservice), hname]
  dsimp only
  rw [bindUser_ok hbound]
  simp only [Session.Ret.isOk, if_true]
  rw [doUserAuthMethod]
  have hok := (abandonKeyboard_isOk
    { s with
      userName := username
      userAuthSeen := true
      authId := nameToId authName
      authRequests := (s.authRequests + 1) % 2 ^ 32
      methodNos := p.no :: s.methodNos }).mpr hchance
  have hframe := abandonKeyboard_frame
    { s with
      userName := username
      userAuthSeen := true
      authId := nameToId authName
      authRequests := (s.authRequests + 1) % 2 ^ 32
      methodNos := p.no :: s.methodNos }
  obtain ⟨hsession, huser, hdone, hcalls, hver, hid⟩ := hframe
  refine ⟨_, ?_, hsession, huser, hdone, hcalls, hver⟩
  dsimp only at hok ⊢
  rw [if_pos hok, dispatchMethod, hid]
  dsimp only
  rw [hmethod]

/-- A request that sets `CLIENT_USERAUTH_DONE` has come to its method. -/
theorem doUserAuthRequest_done (hs : s.userauthDone = false)
    (h : (s.doUserAuthRequest env p buf).1.userauthDone) :
    ∃ username serviceName authName i j, getNames buf = .ok (username, serviceName, i) ∧
      nameToId serviceName = .serviceConnection ∧ readAt (getStringRef buf) i = .ok (authName, j) ∧
      (s.bindUser env username).2.isOk ∧
      (s.kbSetupPending → (s.authFailures + 1) % 2 ^ 32 < s.maxAuthAttempts) := by
  have hsame : ¬ s.userauthDone := by simp [hs]
  rw [doUserAuthRequest] at h
  by_cases hbuf : buf = []
  · rw [if_pos hbuf] at h
    exact absurd h hsame
  rw [if_neg hbuf] at h
  cases hnames : getNames buf with
  | error e =>
    rw [hnames] at h
    exact absurd h hsame
  | ok parsed =>
    obtain ⟨username, serviceName, i⟩ := parsed
    rw [hnames] at h
    dsimp only at h
    by_cases hservice : nameToId serviceName ≠ .serviceConnection
    · rw [if_pos hservice, refuseService] at h
      have hclear := (abandonKeyboard_frame { s with authId := .none }).2.2.1
      dsimp only at h hclear
      split at h
      · rw [sendUserAuthFailureCount_done, hclear] at h
        exact absurd h hsame
      · rw [hclear] at h
        exact absurd h hsame
    rw [if_neg hservice] at h
    cases hname : readAt (getStringRef buf) i with
    | error e =>
      rw [hname] at h
      exact absurd h hsame
    | ok parsed =>
      obtain ⟨authName, j⟩ := parsed
      rw [hname] at h
      dsimp only at h
      have hbound : (s.bindUser env username).2.isOk := by
        by_contra hnot
        rw [if_neg hnot, bindUser_done] at h
        exact hsame h
      rw [if_pos hbound, bindUser_ok hbound, doUserAuthMethod] at h
      dsimp only at h
      refine ⟨username, serviceName, authName, i, j, rfl, not_not.mp hservice, hname, hbound, ?_⟩
      refine (abandonKeyboard_isOk
        { s with
          userName := username
          userAuthSeen := true
          authId := nameToId authName
          authRequests := (s.authRequests + 1) % 2 ^ 32
          methodNos := p.no :: s.methodNos }).mp ?_
      by_contra hnot
      rw [if_neg hnot, (abandonKeyboard_frame _).2.2.1] at h
      exact hsame h

end Ssh

theorem nameToId_publickey {name : Bytes} (h : nameToId name = .userauthPublickey) :
    name = ascii "publickey" := by
  have hrows : ∀ row ∈ nameIdMap, row.id = .userauthPublickey → row.name = ascii "publickey" := by
    decide +kernel
  rw [nameToId, nameToIdType] at h
  cases hfind : nameIdMap.find? (fun row => row.name == name) with
  | none =>
    rw [hfind] at h
    cases h
  | some row =>
    rw [hfind] at h
    have hname : row.name = name := by simpa using List.find?_some hfind
    rw [← hname]
    exact hrows row (List.mem_of_find?_eq_some hfind) h

/-- What authenticates a request is bound to what was signed: the callback has granted the key that
the signature is checked against, to the user of the request, and the signature is over its fields
and names an algorithm of the key. -/
structure SignatureBound (sessionId : Bytes) (k : PublicKeyPacket) (c : Call) (v : Verification) :
    Prop where
  type : c.type = .publickey
  granted : c.result = .success
  user : c.user = k.authData.username
  key : c.key = v.key
  message : v.message = k.signedBlob sessionId
  named : keyTypeOf (nameToId v.sigAlgo) = v.keyType

/-- However signatures are checked, a public-key request is authenticated only when it is bound. -/
def BindsSigned (env : Env) (s : Ssh) (p : Packet) (buf : Bytes) : Prop :=
  ∀ verify : Verification → Bool,
    let t := (s.doUserAuthRequest (env.verifying verify) p buf).1
    requestMethod buf = .ok .userauthPublickey → s.userauthDone = false → t.userauthDone →
      ∃ k c v, readPublicKeyPacket buf = .ok k ∧ t.calls = c :: s.calls ∧
        t.verifications = v :: s.verifications ∧ verify v ∧ SignatureBound s.sessionId k c v

section Binds

variable {env : Env} {s : Ssh} {p : Packet} {buf : Bytes} {k : PublicKeyPacket}

theorem PublicKeyPacket.read_iff : readPublicKeyPacket buf = .ok k ↔
    ∃ i j l, Ssh.getNames buf = .ok (k.authData.username, k.authData.serviceName, i) ∧
      readAt (getStringRef buf) i = .ok (k.authData.authName, j) ∧
      getPkRequest buf j = .ok (k.request, l) ∧ getSigAlgo k.request = .ok k.sigAlgo ∧
      k.flag = buf.getD j 0 ∧ k.rest = buf.drop l := by
  simp only [readPublicKeyPacket, ok_bind_iff, ok_pure_iff]
  constructor
  · rintro ⟨⟨username, serviceName, i⟩, hnames, ⟨authName, j⟩, hname, ⟨r, l⟩, hreq, sigAlgo, halgo, rfl⟩
    exact ⟨i, j, l, hnames, hname, hreq, halgo, rfl, rfl⟩
  · rintro ⟨i, j, l, hnames, hname, hreq, halgo, hflag, hrest⟩
    refine ⟨_, hnames, _, hname, _, hreq, _, halgo, ?_⟩
    cases k
    dsimp only at hflag hrest
    rw [hflag, hrest]

theorem Reaches.nonzero (h : Reaches env s buf k) {pk : PublicKey} {alg : AlgoId}
    (hprep : prepareKey env.oracles buf k.request k.sigAlgo = some (alg, pk)) :
    pk.dataToSignSz ≠ 0 := by
  have hlen := congrArg List.length (PublicKeyPacket.read_layout h.parsed h.signed)
  simp only [List.length_append, copyString, c32toa_length, PublicKeyPacket.fields_length] at hlen
  rw [(prepareKey_ok h.signed hprep).2.2.1, lengthSz]
  omega

/-- A request that is authenticated has got as far as its signature, and has been granted there. -/
theorem reaches_of_done {verify : Verification → Bool}
    (hmethod : requestMethod buf = .ok .userauthPublickey) (hs : s.userauthDone = false)
    (h : (s.doUserAuthRequest (env.verifying verify) p buf).1.userauthDone) :
    ∃ k c v alg pk, Reaches env s buf k ∧
      prepareKey env.oracles buf k.request k.sigAlgo = some (alg, pk) ∧
      MadeFor ⟨s.sessionId, k.authData, k.request.pubKeyBlob.length, pk⟩ alg v ∧
      (s.doUserAuthRequest (env.verifying verify) p buf).1.calls = c :: s.calls ∧
      (s.doUserAuthRequest (env.verifying verify) p buf).1.verifications = v :: s.verifications ∧
      verify v ∧ c.type = .publickey ∧ c.result = .success ∧ c.user = k.authData.username ∧
      c.key = v.key := by
  obtain ⟨username, serviceName, authName, i, j, hnames, hservice, hname, hbound, hchance⟩ :=
    Ssh.doUserAuthRequest_done hs h
  have hid : nameToId authName = .userauthPublickey := by
    rw [requestMethod, hnames] at hmethod
    simpa only [bind, Except.bind, hname, pure, Except.pure, Except.ok.injEq] using hmethod
  obtain ⟨w, heq, hsession, huser, hdone, hcalls, hver⟩ := Ssh.doUserAuthRequest_publicKey (p := p)
    hnames hservice hname hid hbound hchance
  rw [heq] at h ⊢
  obtain ⟨r, l, sigAlgo, alg, pk, cb, v, hreq, halgo, hprep, hcb, hcheck, hsig, hv, hok, hresult, ht⟩ :=
    Ssh.doUserAuthRequestPublicKey_done (hdone.trans hs) h
  rw [prepareKey_verifying] at hprep
  rw [verification_verifying, hsession] at hv
  let k : PublicKeyPacket :=
    ⟨⟨username, serviceName, authName⟩, buf.getD j 0, r, sigAlgo, buf.drop l⟩
  have hparsed : readPublicKeyPacket buf = .ok k :=
    PublicKeyPacket.read_iff.mpr ⟨i, j, l, hnames, hname, hreq, halgo, rfl, rfl⟩
  have hreaches : Reaches env s buf k :=
    ⟨hs, hparsed, hsig, hid, hservice, hbound, hchance, ⟨cb, hcb, hcheck⟩, hresult, alg, pk, v, hprep,
      hv⟩
  have hmade := SignedRequest.verification_ok (prepareKey_ok hsig hprep).1 (hreaches.nonzero hprep) hv
  refine ⟨k, ⟨p.no, .publickey, w.userName, w.authFailures, none, 0, pk.publicKey, .success⟩, v, alg,
    pk, hreaches, hprep, hmade, ?_, ?_, hok, rfl, rfl, huser, ?_⟩
  · rw [ht, ← hcalls]
    rfl
  · rw [ht, ← hver]
  · exact hmade.key.symm

theorem Reaches.done (h : Reaches env s buf k) (p : Packet) :
    requestMethod buf = .ok .userauthPublickey ∧
      (s.doUserAuthRequest (env.verifying fun _ => true) p buf).1.userauthDone := by
  obtain ⟨i, j, l, hnames, hname, hreq, halgo, -, -⟩ := PublicKeyPacket.read_iff.mp h.parsed
  obtain ⟨alg, pk, v, hprep, hv⟩ := h.checked
  obtain ⟨cb, hcb, hcheck⟩ := h.granted
  constructor
  · rw [requestMethod, hnames]
    simp only [bind, Except.bind, hname, pure, Except.pure, h.method]
  · have hreduce : ∃ w : Ssh, s.doUserAuthRequest (env.verifying fun _ => true) p buf =
        w.doUserAuthRequestPublicKey (env.verifying fun _ => true) p k.authData buf j ∧
          w.sessionId = s.sessionId ∧ w.userName = k.authData.username ∧
          w.userauthDone = s.userauthDone ∧ w.calls = s.calls ∧ w.verifications = s.verifications :=
      Ssh.doUserAuthRequest_publicKey hnames h.service hname h.method h.bound h.chance
    obtain ⟨w, heq, hsession, -⟩ := hreduce
    rw [heq]
    rw [← hsession] at hv
    exact Ssh.doUserAuthRequestPublicKey_granted hreq halgo hprep hcb hcheck h.signed hv rfl h.confirmed

/-- A request that is not exact, and gets as far as its signature, can be authenticated unbound. -/
theorem Reaches.exact (h : Reaches env s buf k) (hbinds : BindsSigned env s p buf) : k.Exact := by
  obtain ⟨hmethod, hdone⟩ := h.done p
  obtain ⟨k₁, c₁, v₁, hparsed₁, -, hver₁, -, hbound⟩ := hbinds (fun _ => true) hmethod h.undone hdone
  obtain ⟨k₂, c₂, v₂, alg, pk, hreaches, hprep, hmade, -, hver₂, -⟩ :=
    reaches_of_done hmethod h.undone hdone
  obtain rfl : k = k₁ := Except.ok.inj (h.parsed.symm.trans hparsed₁)
  obtain rfl : k = k₂ := Except.ok.inj (h.parsed.symm.trans hreaches.parsed)
  obtain rfl : v₁ = v₂ := (List.cons.inj (hver₁.symm.trans hver₂)).1
  obtain ⟨hflag, hrest⟩ := (PublicKeyPacket.message_iff h.parsed h.signed (nameToId_publickey h.method)
    hprep hmade).mp hbound.message
  exact ⟨hflag, hrest, (PublicKeyPacket.named_iff h.parsed h.signed hprep hmade).mp hbound.named⟩

end Binds

theorem binds_signed_iff (env : Env) (s : Ssh) (p : Packet) (buf : Bytes) :
    BindsSigned env s p buf ↔ ∀ k, Reaches env s buf k → k.Exact := by
  constructor
  · intro hbinds k h
    exact h.exact hbinds
  · intro hexact verify t hmethod hs hdone
    obtain ⟨k, c, v, alg, pk, h, hprep, hmade, hcalls, hver, hok, htype, hresult, huser, hkey⟩ :=
      reaches_of_done hmethod hs hdone
    obtain ⟨hflag, hrest, hnamed⟩ := hexact k h
    refine ⟨k, c, v, h.parsed, hcalls, hver, hok, htype, hresult, huser, hkey, ?_, ?_⟩
    · exact (PublicKeyPacket.message_iff h.parsed h.signed (nameToId_publickey h.method) hprep
        hmade).mpr ⟨hflag, hrest⟩
    · exact (PublicKeyPacket.named_iff h.parsed h.signed hprep hmade).mpr hnamed

/-- A request of user `u` with an Ed25519 key and a signature, and with what follows it. -/
def ed25519Packet (rest : Bytes) : PublicKeyPacket where
  authData := ⟨ascii "u", ascii "ssh-connection", ascii "publickey"⟩
  flag := 1
  request :=
    { hasSig := true
      pubKeyAlgo := ascii "ssh-ed25519"
      pubKeyBlob := copyString (ascii "ssh-ed25519") ++ copyString (List.replicate 32 7)
      sig := copyString (ascii "ssh-ed25519") ++ copyString (List.replicate 64 9) }
  sigAlgo := ascii "ssh-ed25519"
  rest := rest

/-- One octet after the signature: the size of the signature becomes part of what is verified. -/
theorem trailing_octet_signed :
    let env : Env :=
      { userAuthCb := some { check := .success }
        oracles := { Oracles.refusing with importKey := fun _ _ => true } }
    let k := ed25519Packet [0]
    let buf := k.fields (ascii "publickey") 1 ++ (copyString k.request.sig ++ k.rest)
    ¬ BindsSigned env (start ⟨6, by decide⟩ false [1, 2, 3]).ssh ⟨0, none, false⟩ buf := by
  intro env k buf hbinds
  have hreaches : Reaches env (start ⟨6, by decide⟩ false [1, 2, 3]).ssh buf k := by
    refine ⟨rfl, by decide +kernel, rfl, by decide +kernel, by decide +kernel, by decide +kernel,
      by decide, ⟨_, rfl, rfl⟩, rfl, .ed25519, fillPublicKey buf k.request, ?_⟩
    exact ⟨_, by decide +kernel, rfl⟩
  exact absurd (hreaches.exact hbinds).rest (by decide +kernel)

end WolfSsh.UserAuth
