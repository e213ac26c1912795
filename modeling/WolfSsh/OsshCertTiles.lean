import WolfSsh.OsshCert

/-! The fields of a parsed certificate cover its blob, and its options are the ones that are
written in it. -/

namespace WolfSsh.Ossh

open Fallible Slices

/-! What each reader covers. -/

section Readers

variable {buf : Bytes} {i j v : Nat}

/-- The four octets before a string are its size. -/
def Counted (buf : Bytes) (s : Slice) : Prop :=
  lengthSz ≤ s.start ∧ ato32 (buf.drop (s.start - lengthSz)) = s.size

theorem getField_covers {kind : FieldKind} {s : Slice} (h : Yields (getField buf kind) i s j) :
    (s.framed lengthSz).start = i ∧ i + (s.framed lengthSz).size = j ∧ Counted buf s := by
  obtain ⟨hs, hend, -, -, -⟩ := getField_ok h
  have hstart : s.start = i + lengthSz := congrArg Slice.start hs
  have hbefore : s.start - lengthSz = i := by omega
  refine ⟨hbefore, ?_, by omega, by rw [hbefore, getField_size h]⟩
  rw [hend, Slice.framed]
  dsimp only
  omega

theorem getUint32_covers (h : Yields (getUint32 buf) i v j) : i + uint32Sz = j ∧ v = ato32 (buf.drop i) := by
  obtain ⟨hv, hend, -⟩ := getUint32_ok h
  exact ⟨hend.symm, hv⟩

/-- A `uint64` on the wire. -/
def ato64 (bs : Bytes) : Nat := ato32 bs * 2 ^ 32 + ato32 (bs.drop uint32Sz)

def uint64Sz : Nat := 8

theorem getUint64_covers (h : Yields (getUint64 buf) i v j) : i + uint64Sz = j ∧ v = ato64 (buf.drop i) := by
  rw [getUint64] at h
  obtain ⟨hi, mid, hhi, h⟩ := yields_bind_iff.mp h
  obtain ⟨lo, fin, hlo, h⟩ := yields_bind_iff.mp h
  obtain ⟨rfl, rfl⟩ := yields_pure_iff.mp h
  obtain ⟨rfl, rfl⟩ := getUint32_covers hhi
  obtain ⟨rfl, rfl⟩ := getUint32_covers hlo
  refine ⟨rfl, ?_⟩
  rw [ato64, List.drop_drop]

theorem getFields_covers {kinds : List FieldKind} {slices : List Slice}
    (h : getFields buf kinds i = (slices, .ok j)) :
    Tiles i (slices.map (Slice.framed lengthSz)) j ∧ (∀ s ∈ slices, Counted buf s) ∧
      slices.length = kinds.length := by
  induction kinds generalizing i slices with
  | nil =>
    obtain ⟨rfl, hend⟩ := Prod.mk.inj h
    exact ⟨Except.ok.inj hend, by simp, rfl⟩
  | cons kind kinds ih =>
    rw [getFields] at h
    rcases hfield : (getField buf kind).runAt i with ⟨_ | s, mid⟩
    · simp [hfield] at h
    · obtain ⟨hstart, hmid, hcounted⟩ := getField_covers hfield
      simp only [hfield, Prod.mk.injEq] at h
      obtain ⟨rfl, hend⟩ := h
      obtain ⟨htiles, hall, hcount⟩ := ih (Prod.ext rfl hend)
      exact ⟨⟨hstart, hmid ▸ htiles⟩, List.forall_mem_cons.mpr ⟨hcounted, hall⟩, by simp [hcount]⟩

theorem osshSkipUserKey_covers {baseId : AlgoId} {u : Unit} (h : Yields (osshSkipUserKey baseId buf) i u j) :
    ∃ fields : List Slice, Tiles i (fields.map (Slice.framed lengthSz)) j ∧
      (∀ s ∈ fields, Counted buf s) ∧ fields.length = (userKeyFields baseId).length := by
  rw [osshSkipUserKey] at h
  obtain ⟨idx, mid, hget, h⟩ := yields_bind_iff.mp h
  obtain ⟨rfl, rfl⟩ := yields_get_iff.mp hget
  split at h
  · simp [Yields] at h
  · rename_i kinds hkinds
    obtain ⟨fin, mid, hread, h⟩ := yields_bind_iff.mp h
    obtain ⟨hparsed, rfl⟩ := yields_ofExcept_iff.mp hread
    obtain rfl : fin = j := by simpa [Yields] using h
    obtain ⟨htiles, hcounted, hcount⟩ := getFields_covers (Prod.ext rfl hparsed)
    exact ⟨_, htiles, hcounted, hcount⟩

end Readers

/-! The whole blob. -/

/-- The fields of a certificate, the strings with their sizes, cover the blob in this order. What is
signed ends where the signature starts. -/
structure CertTiles (cert : OsshCert) (blob : Bytes) (typeName serial certType validAfter validBefore
    reserved : Slice) (userKey : List Slice) : Prop where
  tiles : Tiles 0 [typeName.framed lengthSz, cert.nonce.framed lengthSz, cert.userKeyParms, serial,
    certType, cert.keyId.framed lengthSz, cert.principals.framed lengthSz, validAfter, validBefore,
    cert.critOpts.framed lengthSz, cert.extensions.framed lengthSz, reserved.framed lengthSz,
    cert.caKey.framed lengthSz, cert.signature.framed lengthSz] blob.length
  counted : ∀ s ∈ [typeName, cert.nonce, cert.keyId, cert.principals, cert.critOpts, cert.extensions,
    reserved, cert.caKey, cert.signature] ++ userKey, Counted blob s ∧ s.Inside blob.length
  typeName : nameToId (typeName.of blob) = cert.typeId ∧ cert.baseTypeId = osshCertBaseId cert.typeId
  userKey : Tiles cert.userKeyParms.start (userKey.map (Slice.framed lengthSz))
    (cert.userKeyParms.start + cert.userKeyParms.size) ∧
    userKey.length = (userKeyFields cert.baseTypeId).length
  serial : serial.size = uint64Sz ∧ cert.serial = ato64 (blob.drop serial.start)
  certType : certType.size = uint32Sz ∧ cert.certType = ato32 (blob.drop certType.start)
  validAfter : validAfter.size = uint64Sz ∧ cert.validAfter = ato64 (blob.drop validAfter.start)
  validBefore : validBefore.size = uint64Sz ∧ cert.validBefore = ato64 (blob.drop validBefore.start)
  caKeyType : Counted (cert.caKey.of blob) cert.caKeyType ∧
    cert.caKeyType.Inside (cert.caKey.of blob).length
  signedLen : cert.signedLen = (cert.signature.framed lengthSz).start

theorem osshCertParse_tiles {typeId : AlgoId} {blob : Bytes} {cert : OsshCert}
    (h : osshCertParse typeId blob = .ok cert) :
    ∃ typeName serial certType validAfter validBefore reserved userKey,
      CertTiles cert blob typeName serial certType validAfter validBefore reserved userKey := by
  rw [osshCertParse] at h
  split at h
  · simp at h
  · rcases hrun : (osshCertFields typeId blob).runAt 0 with ⟨e | c, fin⟩
    · simp [hrun] at h
    · obtain rfl : c = cert := by simpa [hrun] using h
      have hall : Yields (osshCertFields typeId blob) 0 c fin := hrun
      rw [osshCertFields] at hall
      obtain ⟨u, i, hbase, hall⟩ := yields_bind_iff.mp hall
      obtain ⟨-, rfl⟩ := yields_require_iff.mp hbase
      obtain ⟨typeName, i1, htypeName, hall⟩ := yields_bind_iff.mp hall
      obtain ⟨u, i, hname, hall⟩ := yields_bind_iff.mp hall
      obtain ⟨hnamed, rfl⟩ := yields_require_iff.mp hname
      obtain ⟨nonce, i2, hnonce, hall⟩ := yields_bind_iff.mp hall
      obtain ⟨ukStart, i, hget, hall⟩ := yields_bind_iff.mp hall
      obtain ⟨rfl, rfl⟩ := yields_get_iff.mp hget
      obtain ⟨u, i3, hskip, hall⟩ := yields_bind_iff.mp hall
      obtain ⟨ukEnd, i, hget, hall⟩ := yields_bind_iff.mp hall
      obtain ⟨rfl, rfl⟩ := yields_get_iff.mp hget
      obtain ⟨serial, i4, hserial, hall⟩ := yields_bind_iff.mp hall
      obtain ⟨certType, i5, hcertType, hall⟩ := yields_bind_iff.mp hall
      obtain ⟨keyId, i6, hkeyId, hall⟩ := yields_bind_iff.mp hall
      obtain ⟨principals, i7, hprincipals, hall⟩ := yields_bind_iff.mp hall
      obtain ⟨validAfter, i8, hafter, hall⟩ := yields_bind_iff.mp hall
      obtain ⟨validBefore, i9, hbefore, hall⟩ := yields_bind_iff.mp hall
      obtain ⟨critOpts, i10, hcrit, hall⟩ := yields_bind_iff.mp hall
      obtain ⟨extensions, i11, hexts, hall⟩ := yields_bind_iff.mp hall
      obtain ⟨reserved, i12, hreserved, hall⟩ := yields_bind_iff.mp hall
      obtain ⟨caKey, i13, hca, hall⟩ := yields_bind_iff.mp hall
      obtain ⟨caKeyType, i, hcaType, hall⟩ := yields_bind_iff.mp hall
      obtain ⟨hcaRead, rfl⟩ := yields_ofExcept_iff.mp hcaType
      obtain ⟨signedLen, i, hget, hall⟩ := yields_bind_iff.mp hall
      obtain ⟨rfl, rfl⟩ := yields_get_iff.mp hget
      obtain ⟨signature, i14, hsig, hall⟩ := yields_bind_iff.mp hall
      obtain ⟨idx, i, hget, hall⟩ := yields_bind_iff.mp hall
      obtain ⟨rfl, rfl⟩ := yields_get_iff.mp hget
      obtain ⟨u, i, hend, hall⟩ := yields_bind_iff.mp hall
      obtain ⟨hwhole, rfl⟩ := yields_require_iff.mp hend
      obtain ⟨rfl, rfl⟩ := yields_pure_iff.mp hall
      obtain ⟨userKey, hkeyTiles, hkeyCounted, hkeyCount⟩ := osshSkipUserKey_covers hskip
      obtain ⟨hs0, he0, hc0⟩ := getField_covers htypeName
      obtain ⟨hs1, he1, hc1⟩ := getField_covers hnonce
      obtain ⟨he3, hv3⟩ := getUint64_covers hserial
      obtain ⟨he4, hv4⟩ := getUint32_covers hcertType
      obtain ⟨hs5, he5, hc5⟩ := getField_covers hkeyId
      obtain ⟨hs6, he6, hc6⟩ := getField_covers hprincipals
      obtain ⟨he7, hv7⟩ := getUint64_covers hafter
      obtain ⟨he8, hv8⟩ := getUint64_covers hbefore
      obtain ⟨hs9, he9, hc9⟩ := getField_covers hcrit
      obtain ⟨hs10, he10, hc10⟩ := getField_covers hexts
      obtain ⟨hs11, he11, hc11⟩ := getField_covers hreserved
      obtain ⟨hs12, he12, hc12⟩ := getField_covers hca
      obtain ⟨hs13, he13, hc13⟩ := getField_covers hsig
      have hkeyEnd : i2 + (i3 - i2) = i3 := by
        have hle := hkeyTiles.le
        omega
      refine ⟨typeName, ⟨i3, uint64Sz⟩, ⟨i4, uint32Sz⟩, ⟨i7, uint64Sz⟩, ⟨i8, uint64Sz⟩, reserved, userKey, ?_⟩
      constructor
      · simp only [Tiles]
        omega
      · have hkeyInside : ∀ s ∈ userKey, s.Inside blob.length := by
          intro s hs
          have hframed := hkeyTiles.inside _ (List.mem_map_of_mem hs)
          rw [Slice.Inside, Slice.framed] at hframed
          rw [Slice.Inside]
          dsimp only at hframed
          omega
        refine List.forall_mem_append.mpr ⟨?_, fun s hs => ⟨hkeyCounted s hs, hkeyInside s hs⟩⟩
        simp only [List.forall_mem_cons]
        exact ⟨⟨hc0, getField_inside htypeName⟩, ⟨hc1, getField_inside hnonce⟩,
          ⟨hc5, getField_inside hkeyId⟩, ⟨hc6, getField_inside hprincipals⟩,
          ⟨hc9, getField_inside hcrit⟩, ⟨hc10, getField_inside hexts⟩,
          ⟨hc11, getField_inside hreserved⟩, ⟨hc12, getField_inside hca⟩,
          ⟨hc13, getField_inside hsig⟩, List.forall_mem_nil _⟩
      · exact ⟨hnamed, rfl⟩
      · exact ⟨hkeyEnd.symm ▸ hkeyTiles, hkeyCount⟩
      · exact ⟨rfl, hv3⟩
      · exact ⟨rfl, hv4⟩
      · exact ⟨rfl, hv7⟩
      · exact ⟨rfl, hv8⟩
      · rcases htype : (getField (caKey.of blob) .string).runAt 0 with ⟨_ | s, mid⟩
        · simp [htype] at hcaRead
        · obtain rfl : s = caKeyType := by simpa [htype] using hcaRead
          exact ⟨(getField_covers htype).2.2, getField_inside htype⟩
      · exact hs13.symm

/-! The critical options. -/

section Options

variable {opts name data prevName : Bytes} {o o' : CertOptions} {idx : Nat}

theorem osshNameCmp_lt_iff {a b : Bytes} : osshNameCmp a b = .lt ↔ a < b := by
  induction a generalizing b with
  | nil =>
    cases b with
    | nil => simp [osshNameCmp]
    | cons b bs => simp [osshNameCmp]
  | cons a as ih =>
    cases b with
    | nil => simp [osshNameCmp]
    | cons b bs =>
      rw [osshNameCmp, List.cons_lt_cons_iff]
      split
      · rename_i hab
        simp [hab]
      · rename_i hab
        split
        · rename_i hba
          have hne : a ≠ b := fun h => hab (h ▸ hba)
          simp [hab, hne]
        · rename_i hba
          have heq : a = b := UInt8.le_antisymm (UInt8.not_lt.mp hba) (UInt8.not_lt.mp hab)
          rw [ih]
          simp [heq]

theorem optionValue_ok {value : Bytes} (h : optionValue data = .ok value) :
    data = copyString value ∧ value ≠ [] := by
  rw [optionValue] at h
  rcases hread : (getStringRef data).runAt 0 with ⟨_ | v, di⟩
  · simp [hread] at h
  · simp only [hread] at h
    split at h
    · simp at h
    · rename_i hfits
      rw [not_or, Decidable.not_not] at hfits
      obtain rfl := Except.ok.inj h
      obtain ⟨hsplit, -, -⟩ := getStringRef_splits hread
      rw [hfits.2, List.drop_length, List.append_nil, List.drop_zero] at hsplit
      exact ⟨hsplit, hfits.1⟩

theorem setOption_ok (h : setOption name data o = .ok o') :
    ∃ value, data = copyString value ∧ value ≠ [] ∧
      ((name = forceCommandName ∧ o' = { o with forceCommand := value }) ∨
        (name = sourceAddressName ∧ o' = { o with sourceAddress := value })) := by
  rw [setOption] at h
  split at h
  · rename_i hname
    rcases hvalue : optionValue data with _ | value
    · simp [hvalue, Except.map] at h
    · obtain ⟨hdata, hne⟩ := optionValue_ok hvalue
      have ho : { o with forceCommand := value } = o' := by simpa [hvalue, Except.map] using h
      exact ⟨value, hdata, hne, .inl ⟨hname, ho.symm⟩⟩
  · split at h
    · rename_i hname
      rcases hvalue : optionValue data with _ | value
      · simp [hvalue, Except.map] at h
      · obtain ⟨hdata, hne⟩ := optionValue_ok hvalue
        have ho : { o with sourceAddress := value } = o' := by simpa [hvalue, Except.map] using h
        exact ⟨value, hdata, hne, .inr ⟨hname, ho.symm⟩⟩
    · simp at h

/-- Options that are written out in full: each has a known name and a value that is not empty, and the
names ascend. -/
structure OptionsFormed (octets : Bytes) (fields : List (Bytes × Bytes)) : Prop where
  octets : octets = fields.flatMap fun f => copyString f.1 ++ copyString (copyString f.2)
  known : ∀ f ∈ fields, f.1 = forceCommandName ∨ f.1 = sourceAddressName
  value : ∀ f ∈ fields, f.2 ≠ []
  ascending : (fields.map Prod.fst).Pairwise (· < ·)

/-- What is kept of the source addresses is the value that is there. -/
structure Written (octets : Bytes) (fields : List (Bytes × Bytes)) (o o' : CertOptions) : Prop
    extends OptionsFormed octets fields where
  present : ∀ v, (sourceAddressName, v) ∈ fields → o'.sourceAddress = v
  absent : (∀ f ∈ fields, f.1 ≠ sourceAddressName) → o'.sourceAddress = o.sourceAddress

theorem checkCritOpts_ok (h : checkCritOpts opts idx prevName o = .ok o') (hidx : idx ≤ opts.length) :
    ∃ fields, Written (opts.drop idx) fields o o' ∧
      (prevName ≠ [] → ∀ f ∈ fields, prevName < f.1) := by
  fun_induction checkCritOpts opts idx prevName o with
  | case1 => simp at h
  | case2 => simp at h
  | case3 => simp at h
  | case4 => simp at h
  | case5 idx prevName o hlt name mid hname hcmp data next hdata o₁ hset ih =>
    obtain ⟨hfirst, -, -⟩ := getStringRef_splits hname
    obtain ⟨hsecond, -, hnext⟩ := getStringRef_splits hdata
    obtain ⟨fields, hw, hafter⟩ := ih h hnext
    obtain ⟨value, rfl, hvalue, hoption⟩ := setOption_ok hset
    have hnameNe : name ≠ [] := by
      rcases hoption with ⟨rfl, -⟩ | ⟨rfl, -⟩ <;> decide
    have hbehind : ∀ f ∈ fields, name < f.1 := hafter hnameNe
    refine ⟨(name, value) :: fields, ⟨⟨?_, ?_, ?_, ?_⟩, ?_, ?_⟩, ?_⟩
    · rw [hfirst, hsecond, hw.octets, List.flatMap_cons, List.append_assoc]
    · exact List.forall_mem_cons.mpr ⟨hoption.imp And.left And.left, hw.known⟩
    · exact List.forall_mem_cons.mpr ⟨hvalue, hw.value⟩
    · rw [List.map_cons, List.pairwise_cons, List.forall_mem_map]
      exact ⟨hbehind, hw.ascending⟩
    · intro v hv
      rcases List.mem_cons.mp hv with hv | hv
      · obtain ⟨hsource, rfl⟩ := Prod.mk.inj hv
        have hnone : ∀ f ∈ fields, f.1 ≠ sourceAddressName := by
          intro f hf heq
          exact List.lt_irrefl _ (heq.trans hsource ▸ hbehind f hf)
        rcases hoption with ⟨hforce, -⟩ | ⟨-, rfl⟩
        · exact absurd (hsource.trans hforce) (by decide)
        · exact hw.absent hnone
      · exact hw.present v hv
    · intro hnone
      obtain ⟨hnot, hrest⟩ := List.forall_mem_cons.mp hnone
      rcases hoption with ⟨-, rfl⟩ | ⟨hsource, -⟩
      · exact hw.absent hrest
      · exact absurd hsource hnot
    · intro hprev
      have hlt : prevName < name := by
        rw [← osshNameCmp_lt_iff]
        by_contra hnot
        exact hcmp ⟨hprev, hnot⟩
      exact List.forall_mem_cons.mpr ⟨hlt, fun f hf => List.lt_trans hlt (hbehind f hf)⟩
  | case6 idx prevName o hend =>
    obtain rfl := Except.ok.inj h
    have hdone : opts.drop idx = [] := List.drop_eq_nil_of_le (Nat.le_of_not_lt hend)
    exact ⟨[], ⟨⟨hdone, nofun, nofun, List.Pairwise.nil⟩, nofun, fun _ => rfl⟩, fun _ => nofun⟩

theorem osshCertCheckOptions_ok {cert : OsshCert} {blob : Bytes} (h : osshCertCheckOptions cert blob = .ok o) :
    ∃ fields, Written (cert.critOpts.of blob) fields {} o := by
  rw [osshCertCheckOptions] at h
  rcases hcrit : checkCritOpts (cert.critOpts.of blob) 0 [] {} with _ | o₁
  · simp [hcrit] at h
  · simp only [hcrit] at h
    split at h
    · simp at h
    · obtain rfl := Except.ok.inj h
      obtain ⟨fields, hw, -⟩ := checkCritOpts_ok hcrit (Nat.zero_le _)
      exact ⟨fields, hw⟩

end Options

end WolfSsh.Ossh
