import WolfSsh.KexHash
import WolfSsh.WireGetters
import WolfSsh.WireSlices

/-! The block of a host key with a certificate: how it is laid out in memory, and how the chain of
certificates is found in one that was received. -/

namespace WolfSsh.Words

open Fallible

def certTypeName : AlgoId → Option Bytes
  | .x509v3SshRsa => some (ascii "x509v3-ssh-rsa")
  | .x509v3EcdsaSha2Nistp256 => some (ascii "x509v3-ecdsa-sha2-nistp256")
  | .x509v3EcdsaSha2Nistp384 => some (ascii "x509v3-ecdsa-sha2-nistp384")
  | .x509v3EcdsaSha2Nistp521 => some (ascii "x509v3-ecdsa-sha2-nistp521")
  | .x509v3Mldsa44 => some (ascii "x509v3-ssh-mldsa-44")
  | .x509v3Mldsa65 => some (ascii "x509v3-ssh-mldsa-65")
  | .x509v3Mldsa87 => some (ascii "x509v3-ssh-mldsa-87")
  | _ => none

/-- The memory written to, unless only the length is asked for, and the index in it. -/
structure Output where
  output : Option Bytes
  localIdx : UInt32
deriving DecidableEq, Repr

def Output.put (o : Output) (bs : Bytes) : Except Stop Output :=
  let localIdx := o.localIdx + .ofNat bs.length
  match o.output with
  | none => .ok ⟨none, localIdx⟩
  | some mem =>
    if o.localIdx.toNat + bs.length ≤ mem.length then
      .ok ⟨some (mem.take o.localIdx.toNat ++ bs ++ mem.drop (o.localIdx.toNat + bs.length)), localIdx⟩
    else
      .error .outside

inductive Built where
  | written (output : Bytes) (idx : UInt32)
  | lengthOnly (outputSz : UInt32)
deriving DecidableEq, Repr

def buildRFC6187Info (pubKeyId : AlgoId) (cert : Payload) (output : Option Bytes) (idx : UInt32) :
    Except Stop Built := do
  match certTypeName pubKeyId with
  | none => .error (.failed .badArgument)
  | some publicKeyType =>
    let publicKeyTypeSz : UInt32 := .ofNat publicKeyType.length
    let o ← [c32toa (4 * 2 + 4 * 2 + publicKeyTypeSz + cert.len).toNat, c32toa publicKeyTypeSz.toNat,
      publicKeyType, c32toa 1, c32toa cert.len.toNat, cert.octets, c32toa 0].foldlM Output.put
        ⟨output, idx⟩
    match o.output with
    | some out => .ok (.written out o.localIdx)
    | none => .ok (.lengthOnly (o.localIdx - idx))

/-- Where the certificates stand in the input, one after the other, and the first of them. -/
structure CertChain where
  certChain : UInt32
  certChainSz : UInt32
  certCount : UInt32
  leaf : UInt32
  leafSz : UInt32
deriving DecidableEq, Repr

/-- The loop over the certificates: the size of the chain, and the leaf. -/
def parseCerts (p : Payload) (count : UInt32) : Nat → UInt32 → UInt32 × UInt32 →
    WordReader (UInt32 × UInt32 × UInt32)
  | 0, chainSz, leaf => pure (chainSz, leaf)
  | countIdx + 1, chainSz, leaf => do
    let sz ← getSize p
    let idx ← get
    let leaf := if countIdx + 1 = count.toNat then (idx, sz) else leaf
    set (idx + sz)
    parseCerts p count countIdx (chainSz + (sz + 4)) leaf

def parseCertChain (p : Payload) : WordReader CertChain := do
  getSkip p
  let count ← getUint32 p
  if count = 0 then
    throw (.failed .fatalError)
  else
    let chain ← get
    let (chainSz, leaf, leafSz) ← parseCerts p count count.toNat 0 (0, 0)
    let ocspCount ← getUint32 p
    if ocspCount > count then
      throw (.failed .fatalError)
    else
      return ⟨chain, chainSz, count, leaf, leafSz⟩

def Payload.slice (p : Payload) (i n : UInt32) : Bytes := (p.octets.drop i.toNat).take n.toNat

/-- The chain is `certs`, in the input, and its first certificate is the leaf. -/
def CertChain.Holds (p : Payload) (c : CertChain) (certs : List Bytes) : Prop :=
  c.certChain.toNat + c.certChainSz.toNat ≤ p.len.toNat ∧
    p.slice c.certChain c.certChainSz = wire certs ∧ certs.length = c.certCount.toNat ∧
    c.certChain.toNat ≤ c.leaf.toNat ∧
    c.leaf.toNat + c.leafSz.toNat ≤ c.certChain.toNat + c.certChainSz.toNat ∧
    certs.head? = some (p.slice c.leaf c.leafSz)

section Parse

variable {p : Payload} {idx : UInt32}

theorem getSize_within (hidx : idx.toNat ≤ p.len.toNat) :
    Within p idx (getSize p) (fun v i => i.toNat = idx.toNat + 4 ∧ i.toNat + v.toNat ≤ p.len.toNat ∧
      p.octets.drop idx.toNat = c32toa v.toNat ++ p.octets.drop i.toNat) := by
  refine (getSize_follows hidx).within ?_
  rintro v n i hr ⟨rfl, hfit⟩
  obtain ⟨hdrop, hi⟩ := getSize_splits hr
  exact ⟨hi, hfit, hdrop⟩

theorem parseCerts_succ (start : Nat) {count : UInt32} {k : Nat} {chainSz : UInt32}
    {leaf : UInt32 × UInt32} {post : UInt32 × UInt32 × UInt32 → UInt32 → Prop} (hidx : idx.toNat ≤ p.len.toNat)
    (hstart : start + chainSz.toNat = idx.toNat)
    (hrest : ∀ sz i j chainSz' : UInt32, i.toNat = idx.toNat + 4 → j.toNat = i.toNat + sz.toNat →
      j.toNat ≤ p.len.toNat → start + chainSz'.toNat = j.toNat →
      p.octets.drop idx.toNat = copyString (p.slice i sz) ++ p.octets.drop j.toNat →
      Within p j (parseCerts p count k chainSz' (if k + 1 = count.toNat then (i, sz) else leaf)) post) :
    Within p idx (parseCerts p count (k + 1) chainSz leaf) post := by
  rw [parseCerts]
  refine (getSize_within hidx).bind ?_
  rintro sz i - hi ⟨hnext, hfit, hdrop⟩
  have hword := p.len.toNat_lt
  have h4 : (4 : UInt32).toNat = 4 := rfl
  have hend : (i + sz).toNat = i.toNat + sz.toNat := Word32.toNat_add_of_le hfit
  have hsz : (chainSz + (sz + 4)).toNat = chainSz.toNat + (sz.toNat + 4) := by
    have hinner : (sz + 4).toNat = sz.toNat + 4 := Word32.toNat_add (by omega)
    rw [Word32.toNat_add (by omega), hinner]
  have hlen : (p.slice i sz).length = sz.toNat := by
    rw [Payload.slice, List.length_take, List.length_drop, Payload.length_octets]
    omega
  have hcert : p.octets.drop idx.toNat = copyString (p.slice i sz) ++ p.octets.drop (i + sz).toNat := by
    rw [hdrop, copyString, hlen, List.append_assoc, hend, ← List.drop_drop, Payload.slice,
      List.take_append_drop]
  obtain ⟨j, hij, hj, hout⟩ := hrest sz i (i + sz) (chainSz + (sz + 4)) hnext hend (by omega) (by omega)
    hcert
  exact ⟨j, by omega, hj, hout⟩

theorem parseCerts_within (start : Nat) {count : UInt32} {k : Nat} {chainSz : UInt32}
    (leaf : UInt32 × UInt32) (hidx : idx.toNat ≤ p.len.toNat) (hk : k < count.toNat)
    (hstart : start + chainSz.toNat = idx.toNat) :
    Within p idx (parseCerts p count k chainSz leaf) (fun r i => r.2 = leaf ∧
      start + r.1.toNat = i.toNat ∧ ∃ certs : List Bytes, certs.length = k ∧
        p.octets.drop idx.toNat = wire certs ++ p.octets.drop i.toNat) := by
  induction k generalizing idx chainSz with
  | zero =>
    rw [parseCerts]
    exact Within.pure hidx ⟨rfl, hstart, [], rfl, rfl⟩
  | succ k ih =>
    refine parseCerts_succ start hidx hstart ?_
    rintro sz i j chainSz' - hj hle hstart' hcert
    rw [if_neg (by omega)]
    obtain ⟨l, hjl, hl, ⟨r, hrun, hleaf, hsz, certs, hcount, hdrop⟩ | hfail⟩ :=
      @ih j chainSz' hle (by omega) hstart'
    · refine ⟨l, hjl, hl, .inl ⟨r, hrun, hleaf, hsz, p.slice i sz :: certs, ?_, ?_⟩⟩
      · rw [List.length_cons, hcount]
      · rw [hcert, hdrop, wire_cons, List.append_assoc]
    · exact ⟨l, hjl, hl, .inr hfail⟩

theorem getSkip_within (hidx : idx.toNat ≤ p.len.toNat) :
    Within p idx (getSkip p) (fun _ _ => True) :=
  (getSkip_follows hidx).within fun _ _ _ _ _ => trivial

theorem getUint32_within (hidx : idx.toNat ≤ p.len.toNat) :
    Within p idx (getUint32 p) (fun _ _ => True) :=
  (getUint32_follows hidx).within fun _ _ _ _ _ => trivial

theorem parseCerts_holds {count : UInt32} (hidx : idx.toNat ≤ p.len.toNat) (hcount : count ≠ 0) :
    Within p idx (parseCerts p count count.toNat 0 (0, 0))
      (fun r _ => ∃ certs, CertChain.Holds p ⟨idx, r.1, count, r.2.1, r.2.2⟩ certs ∧ certs ≠ []) := by
  obtain ⟨k, hk⟩ : ∃ k, count.toNat = k + 1 := Nat.exists_eq_succ_of_ne_zero
    (Nat.ne_of_gt (Word32.toNat_pos.mp hcount))
  rw [hk]
  refine parseCerts_succ idx.toNat hidx rfl ?_
  rintro sz i j chainSz hi hj hle hsize hcert
  rw [if_pos hk.symm]
  obtain ⟨l, hjl, hl, ⟨r, hrun, hleaf, hend, certs, hlen, hdrop⟩ | hfail⟩ :=
    parseCerts_within idx.toNat (i, sz) hle (show k < count.toNat by omega) hsize
  · refine ⟨l, hjl, hl, .inl ⟨r, hrun, p.slice i sz :: certs, ?_, List.cons_ne_nil _ _⟩⟩
    have hwhole : p.octets.drop idx.toNat = wire (p.slice i sz :: certs) ++ p.octets.drop l.toNat := by
      rw [hcert, hdrop, wire_cons, List.append_assoc]
    have hspan : (wire (p.slice i sz :: certs)).length = r.1.toNat := by
      have := congrArg List.length hwhole
      rw [List.length_append, List.length_drop, List.length_drop, Payload.length_octets] at this
      omega
    obtain ⟨chainSz', leaf', leafSz'⟩ := r
    obtain ⟨rfl, rfl⟩ := Prod.mk.inj hleaf
    dsimp only at hend hspan ⊢
    refine ⟨by dsimp only; omega, ?_, ?_, by dsimp only; omega, by dsimp only; omega, rfl⟩
    · dsimp only
      rw [Payload.slice, hwhole, ← hspan, List.take_left]
    · dsimp only
      rw [List.length_cons, hlen, hk]
  · exact ⟨l, hjl, hl, .inr hfail⟩

theorem parseCertChain_within (hidx : idx.toNat ≤ p.len.toNat) :
    Within p idx (parseCertChain p) (fun c _ => ∃ certs, c.Holds p certs ∧ certs ≠ []) := by
  rw [parseCertChain]
  refine (getSkip_within hidx).bind ?_
  rintro ⟨⟩ i - hi -
  refine (getUint32_within hi).bind ?_
  rintro count j - hj -
  by_cases hzero : count = 0
  · rw [if_pos hzero]
    exact Within.throw hj
  · rw [if_neg hzero]
    refine Within.get ?_
    refine (parseCerts_holds hj hzero).bind ?_
    rintro ⟨chainSz, leaf, leafSz⟩ l - hl hholds
    refine (getUint32_within hl).bind ?_
    rintro ocspCount m - hm -
    by_cases hocsp : ocspCount > count
    · rw [if_pos hocsp]
      exact Within.throw hm
    · rw [if_neg hocsp]
      exact Within.pure hm hholds

end Parse

section Build

variable {o : Output} {before room : Bytes}

/-- The memory behind `before` is still free. -/
def Output.At (o : Output) (before room : Bytes) : Prop :=
  o.output = some (before ++ room) ∧ o.localIdx.toNat = before.length

theorem Output.At.put (h : o.At before room) (bs : Bytes) (hfits : bs.length ≤ room.length)
    (hword : before.length + room.length < 2 ^ 32) :
    ∃ o', o.put bs = .ok o' ∧ o'.At (before ++ bs) (room.drop bs.length) := by
  obtain ⟨hout, hidx⟩ := h
  have hin : o.localIdx.toNat + bs.length ≤ (before ++ room).length := by
    rw [hidx, List.length_append]
    omega
  have hnext : (o.localIdx + .ofNat bs.length).toNat = (before ++ bs).length := by
    have hbs : (UInt32.ofNat bs.length).toNat = bs.length := Word32.toNat_ofNat (by omega)
    rw [Word32.toNat_add (by rw [hbs]; omega), hbs, hidx, List.length_append]
  refine ⟨⟨some ((before ++ bs) ++ room.drop bs.length), o.localIdx + .ofNat bs.length⟩, ?_, rfl, hnext⟩
  rw [Output.put, hout]
  dsimp only
  rw [if_pos hin, hidx, List.take_left, ← List.drop_drop, List.drop_left]

theorem Output.At.putAll {pieces : List Bytes} (h : o.At before room)
    (hfits : pieces.flatten.length ≤ room.length) (hword : before.length + room.length < 2 ^ 32) :
    ∃ o', pieces.foldlM Output.put o = .ok o' ∧
      o'.At (before ++ pieces.flatten) (room.drop pieces.flatten.length) := by
  induction pieces generalizing o before room with
  | nil => exact ⟨o, rfl, by rwa [List.flatten_nil, List.append_nil]⟩
  | cons bs pieces ih =>
    rw [List.flatten_cons, List.length_append] at hfits
    obtain ⟨o₁, hput, h₁⟩ := h.put bs (by omega) hword
    obtain ⟨o', hputs, h'⟩ := ih h₁ (by rw [List.length_drop]; omega)
      (by rw [List.length_append, List.length_drop]; omega)
    refine ⟨o', ?_, ?_⟩
    · rw [List.foldlM_cons, hput]
      exact hputs
    · rw [List.flatten_cons, ← List.append_assoc, List.length_append, ← List.drop_drop]
      exact h'

theorem putAll_none (pieces : List Bytes) (idx : UInt32) :
    pieces.foldlM Output.put ⟨none, idx⟩ = .ok ⟨none, idx + .ofNat pieces.flatten.length⟩ := by
  induction pieces generalizing idx with
  | nil => exact congrArg (fun i => Except.ok (Output.mk none i)) (UInt32.add_zero idx).symm
  | cons bs pieces ih =>
    rw [List.foldlM_cons]
    change pieces.foldlM Output.put ⟨none, idx + .ofNat bs.length⟩ = _
    rw [ih, List.flatten_cons, List.length_append, UInt32.ofNat_add, UInt32.add_assoc]

/-- What the string of the host key holds. -/
def certBlob (publicKeyType cert : Bytes) : Bytes :=
  copyString publicKeyType ++ (c32toa 1 ++ (copyString cert ++ c32toa 0))

theorem length_certBlob (publicKeyType cert : Bytes) :
    (certBlob publicKeyType cert).length = 16 + publicKeyType.length + cert.length := by
  simp only [certBlob, copyString, List.length_append, c32toa_length]
  omega

theorem flatten_pieces {publicKeyType : Bytes} {cert : Payload}
    (hfits : 20 + publicKeyType.length + cert.len.toNat < 2 ^ 32) :
    [c32toa (4 * 2 + 4 * 2 + UInt32.ofNat publicKeyType.length + cert.len).toNat,
      c32toa (UInt32.ofNat publicKeyType.length).toNat, publicKeyType, c32toa 1,
      c32toa cert.len.toNat, cert.octets, c32toa 0].flatten
      = copyString (certBlob publicKeyType cert.octets) := by
  have hname : (UInt32.ofNat publicKeyType.length).toNat = publicKeyType.length :=
    Word32.toNat_ofNat (by omega)
  have h16 : (4 * 2 + 4 * 2 : UInt32).toNat = 16 := rfl
  have hinner : (4 * 2 + 4 * 2 + UInt32.ofNat publicKeyType.length).toNat = 16 + publicKeyType.length := by
    rw [Word32.toNat_add (by rw [h16, hname]; omega), h16, hname]
  have houter : (4 * 2 + 4 * 2 + UInt32.ofNat publicKeyType.length + cert.len).toNat
      = (certBlob publicKeyType cert.octets).length := by
    rw [Word32.toNat_add (by rw [hinner]; omega), hinner, length_certBlob, Payload.length_octets]
  rw [houter, hname, copyString]
  simp only [List.flatten_cons, List.flatten_nil, List.append_nil, certBlob, copyString,
    Payload.length_octets, List.append_assoc]

variable {pubKeyId : AlgoId} {publicKeyType : Bytes} {cert : Payload}

theorem buildRFC6187Info_length (hname : certTypeName pubKeyId = some publicKeyType)
    (hfits : 20 + publicKeyType.length + cert.len.toNat < 2 ^ 32) (idx : UInt32) :
    ∃ sz, buildRFC6187Info pubKeyId cert none idx = .ok (.lengthOnly sz) ∧
      sz.toNat = (copyString (certBlob publicKeyType cert.octets)).length := by
  refine ⟨.ofNat (copyString (certBlob publicKeyType cert.octets)).length, ?_, ?_⟩
  · rw [buildRFC6187Info, hname]
    dsimp only
    rw [putAll_none, flatten_pieces hfits]
    change Except.ok (Built.lengthOnly _) = _
    rw [UInt32.add_comm, UInt32.add_sub_cancel]
  · refine Word32.toNat_ofNat ?_
    rw [copyString, List.length_append, c32toa_length, length_certBlob, Payload.length_octets]
    omega

theorem buildRFC6187Info_written (hname : certTypeName pubKeyId = some publicKeyType)
    (hfits : 20 + publicKeyType.length + cert.len.toNat < 2 ^ 32) {idx : UInt32} {before room : Bytes}
    (hidx : idx.toNat = before.length) (hword : before.length + room.length < 2 ^ 32)
    (hroom : (copyString (certBlob publicKeyType cert.octets)).length ≤ room.length) :
    ∃ idx', buildRFC6187Info pubKeyId cert (some (before ++ room)) idx =
        .ok (.written (before ++ copyString (certBlob publicKeyType cert.octets) ++
          room.drop (copyString (certBlob publicKeyType cert.octets)).length) idx') ∧
      idx'.toNat = before.length + (copyString (certBlob publicKeyType cert.octets)).length := by
  have hat : Output.At ⟨some (before ++ room), idx⟩ before room := ⟨rfl, hidx⟩
  rw [← flatten_pieces hfits] at hroom
  obtain ⟨o', hput, hout, hidx'⟩ := hat.putAll hroom hword
  rw [flatten_pieces hfits] at hout hidx'
  refine ⟨o'.localIdx, ?_, ?_⟩
  · rw [buildRFC6187Info, hname]
    dsimp only
    rw [hput]
    change (match o'.output with
      | some out => Except.ok (Built.written out o'.localIdx)
      | none => Except.ok (Built.lengthOnly (o'.localIdx - idx))) = _
    rw [hout]
  · rw [hidx', List.length_append]

end Build

section RoundTrip

variable {p : Payload} {idx : UInt32} {rest : Bytes}

theorem le_len_of_drop {bs : Bytes} (h : p.octets.drop idx.toNat = bs) (hne : bs ≠ []) :
    idx.toNat ≤ p.len.toNat := by
  by_contra hgt
  rw [List.drop_eq_nil_of_le (by rw [Payload.length_octets]; omega)] at h
  exact hne h.symm

theorem getUint32_reads {n : Nat} (h : p.octets.drop idx.toNat = c32toa n ++ rest) (hn : n < 2 ^ 32) :
    ∃ v i, Yields (getUint32 p) idx v i ∧ v.toNat = n ∧ i.toNat = idx.toNat + 4 ∧
      p.octets.drop i.toNat = rest := by
  have hidx := le_len_of_drop h (List.append_ne_nil_of_left_ne_nil (List.ne_nil_of_length_pos (by simp)) rest)
  obtain ⟨v, i, hv, hi, hn', -⟩ := (getUint32_follows hidx).yields (getUint32_yields h hn)
  refine ⟨v, i, hv, hn', hi, ?_⟩
  rw [hi, ← List.drop_drop, h, List.drop_left' (c32toa_length n)]

theorem getSize_reads {str : Bytes} (h : p.octets.drop idx.toNat = copyString str ++ rest) :
    ∃ v i, Yields (getSize p) idx v i ∧ v.toNat = str.length ∧ i.toNat = idx.toNat + 4 ∧
      i.toNat + str.length ≤ p.len.toNat ∧ p.octets.drop i.toNat = str ++ rest := by
  rw [copyString, List.append_assoc] at h
  have hlen := congrArg List.length h
  rw [List.length_drop, Payload.length_octets, List.length_append, List.length_append,
    c32toa_length] at hlen
  have hword := p.len.toNat_lt
  have hsize : Yields (WolfSsh.getSize p.octets) idx.toNat str.length (idx.toNat + 4) := by
    refine (getUint32_yields h (by omega)).bind ?_
    have hin : ¬ str.length > p.octets.length - (idx.toNat + 4) := by
      rw [Payload.length_octets]
      omega
    simp only [Yields, runAt_bind, runAt_get, if_neg hin, runAt_pure]
  obtain ⟨v, i, hv, hi, hn, hfit⟩ := (getSize_follows (by omega)).yields hsize
  refine ⟨v, i, hv, hn, hi, hfit, ?_⟩
  rw [hi, ← List.drop_drop, h, List.drop_left' (c32toa_length str.length)]

theorem getSkip_reads {str : Bytes} (h : p.octets.drop idx.toNat = copyString str ++ rest) :
    ∃ i, Yields (getSkip p) idx () i ∧ p.octets.drop i.toNat = rest := by
  obtain ⟨v, i, hv, hn, hi, hfit, hdrop⟩ := getSize_reads h
  refine ⟨i + v, hv.bind rfl, ?_⟩
  rw [Word32.toNat_add_of_le (b := p.len) (by rwa [hn]), hn, ← List.drop_drop, hdrop, List.drop_left]

theorem parseCertChain_certBlob {publicKeyType cert : Bytes}
    (h : p.octets = certBlob publicKeyType cert) :
    ∃ c i, Yields (parseCertChain p) 0 c i ∧ c.certCount = 1 ∧ p.slice c.leaf c.leafSz = cert ∧
      i = p.len := by
  have h0 : p.octets.drop (0 : UInt32).toNat = certBlob publicKeyType cert := h
  obtain ⟨i, hskip, hi⟩ := getSkip_reads h0
  obtain ⟨count, j, hcount, hone, -, hj⟩ := getUint32_reads hi (by decide)
  obtain rfl : count = 1 := UInt32.toNat_inj.mp hone
  obtain ⟨sz, k, hsize, hsz, -, hfit, hk⟩ := getSize_reads hj
  have hnext : (k + sz).toNat = k.toNat + cert.length := by
    rw [Word32.toNat_add_of_le (b := p.len) (by rwa [hsz]), hsz]
  have hrest : p.octets.drop (k + sz).toNat = c32toa 0 ++ [] := by
    rw [hnext, ← List.drop_drop, hk, List.drop_left, List.append_nil]
  obtain ⟨ocspCount, l, hocsp, hzero, hl, hend⟩ := getUint32_reads hrest (by decide)
  have hcerts : Yields (parseCerts p 1 1 0 (0, 0)) j (0 + (sz + 4), k, sz) (k + sz) :=
    hsize.bind rfl
  refine ⟨⟨j, 0 + (sz + 4), 1, k, sz⟩, l, ?_, rfl, ?_, ?_⟩
  · rw [parseCertChain]
    refine hskip.bind (hcount.bind ?_)
    rw [if_neg (by decide)]
    refine Yields.bind (rfl : Yields get j j j) (hcerts.bind (hocsp.bind ?_))
    rw [if_neg (by rw [gt_iff_lt, UInt32.lt_iff_toNat_lt, hzero]; decide)]
    rfl
  · rw [Payload.slice, hk, hsz, List.take_left]
  · have hlen := congrArg List.length hrest
    rw [List.length_drop, Payload.length_octets, List.append_nil, c32toa_length] at hlen
    exact UInt32.toNat_inj.mp (by omega)

end RoundTrip

/-- The size of a block wraps when the certificate has nearly 2^32 octets. -/
theorem cert_block_size_wraps :
    ¬ ∀ (pubKeyId : AlgoId) (publicKeyType : Bytes) (cert : Payload) (outputSz : UInt32),
      certTypeName pubKeyId = some publicKeyType →
      buildRFC6187Info pubKeyId cert none 0 = .ok (.lengthOnly outputSz) →
      outputSz.toNat = (copyString (certBlob publicKeyType cert.octets)).length := by
  intro h
  have hlen : (0xFFFFFFFF : UInt32).toNat ≤ (List.replicate (2 ^ 32 - 1) (0 : UInt8)).length := by
    rw [List.length_replicate]
    decide
  let cert : Payload := ⟨List.replicate (2 ^ 32 - 1) 0, 0xFFFFFFFF, hlen⟩
  obtain ⟨sz, hsz⟩ : ∃ sz, buildRFC6187Info .x509v3SshRsa cert none 0 = .ok (.lengthOnly sz) := by
    rw [buildRFC6187Info]
    dsimp only [certTypeName]
    rw [putAll_none]
    exact ⟨_, rfl⟩
  have hwrong := h .x509v3SshRsa _ cert sz rfl hsz
  have hlt := sz.toNat_lt
  rw [hwrong, copyString, List.length_append, c32toa_length, length_certBlob,
    Payload.length_octets] at hlt
  have hcert : cert.len.toNat = 2 ^ 32 - 1 := rfl
  omega

/-- A certificate whose block fits its 32-bit size is laid out with sizes that add up, and comes back
out of the block. From any octets a chain is read that is inside them, or none. -/
theorem cert_block_round_trip :
    (∀ (pubKeyId : AlgoId) (publicKeyType : Bytes) (cert : Payload),
      certTypeName pubKeyId = some publicKeyType →
      20 + publicKeyType.length + cert.len.toNat < 2 ^ 32 →
      let block := copyString (certBlob publicKeyType cert.octets)
      (∀ idx, ∃ outputSz, buildRFC6187Info pubKeyId cert none idx = .ok (.lengthOnly outputSz) ∧
        outputSz.toNat = block.length) ∧
      (∀ (idx : UInt32) (before room : Bytes), idx.toNat = before.length →
        before.length + room.length < 2 ^ 32 → block.length ≤ room.length →
        ∃ idx', buildRFC6187Info pubKeyId cert (some (before ++ room)) idx =
            .ok (.written (before ++ block ++ room.drop block.length) idx') ∧
          idx'.toNat = before.length + block.length) ∧
      ∀ p : Payload, p.octets = certBlob publicKeyType cert.octets →
        ∃ c i, Yields (parseCertChain p) 0 c i ∧ c.certCount = 1 ∧
          p.slice c.leaf c.leafSz = cert.octets ∧ i = p.len) ∧
    ∀ p : Payload, ∃ (result : Except WsErr CertChain) (i : UInt32),
      (parseCertChain p).runAt 0 = (result.mapError Stop.failed, i) ∧
      i.toNat ≤ p.len.toNat ∧
      ∀ c, result = .ok c → ∃ certs, c.Holds p certs ∧ certs ≠ [] := by
  constructor
  · intro pubKeyId publicKeyType cert hname hfits
    exact ⟨buildRFC6187Info_length hname hfits,
      fun idx before room hidx hword hroom => buildRFC6187Info_written hname hfits hidx hword hroom,
      fun p hp => parseCertChain_certBlob hp⟩
  · intro p
    have hstart : (0 : UInt32).toNat ≤ p.len.toNat := Nat.zero_le _
    obtain ⟨i, -, hi, ⟨c, hrun, hholds⟩ | ⟨e, hrun⟩⟩ := parseCertChain_within hstart
    · refine ⟨.ok c, i, hrun, hi, ?_⟩
      intro c' hc'
      obtain rfl := Except.ok.inj hc'
      exact hholds
    · exact ⟨.error e, i, hrun, hi, nofun⟩

def smallCert : Payload := ⟨[0xDE, 0xAD, 0xBE, 0xEF], 4, by decide⟩

def smallBlob : Payload := ⟨certBlob (ascii "x509v3-ssh-rsa") smallCert.octets, 34, by decide⟩

/-- The size of its block, the block in a buffer with room for two octets more, and the way back. -/
theorem cert_block_round_trip_small :
    (∃ outputSz, buildRFC6187Info .x509v3SshRsa smallCert none 0 = .ok (.lengthOnly outputSz) ∧
      outputSz.toNat = 38) ∧
    (∃ idx', buildRFC6187Info .x509v3SshRsa smallCert (some ([1, 2] ++ List.replicate 40 0)) 2 =
        .ok (.written ([1, 2] ++ copyString smallBlob.octets ++ [0, 0]) idx') ∧ idx'.toNat = 40) ∧
    ∃ c i, Yields (parseCertChain smallBlob) 0 c i ∧ c.certCount = 1 ∧
      smallBlob.slice c.leaf c.leafSz = smallCert.octets ∧ i = 34 := by
  obtain ⟨hlength, hwritten, hread⟩ := cert_block_round_trip.1 .x509v3SshRsa (ascii "x509v3-ssh-rsa")
    smallCert rfl (by decide)
  exact ⟨hlength 0, hwritten 2 [1, 2] (List.replicate 40 0) rfl (by decide) (by decide),
    hread smallBlob rfl⟩

end WolfSsh.Words
