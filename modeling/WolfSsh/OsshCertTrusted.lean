import WolfSsh.AuthorizedKeys

/-! Which certificates the daemon accepts, and which of them a CA key of its file stands behind. -/

namespace WolfSsh.Ossh

/-- The blob is a user certificate that a listed CA key signed, with options that are formed and known.
It is for this user, at this time, and for this peer if it restricts its addresses. -/
def Authorised (d : Daemon) (verifies : OsshCert → Bytes → Bool) (typeId : AlgoId)
    (blob name : Bytes) : Prop :=
  ∃ cert options, osshCertParse typeId blob = .ok cert ∧ cert.certType = osshCertTypeUser ∧
    verifies cert blob = true ∧ OptionsFormed (cert.critOpts.of blob) options ∧
    (∃ file, d.usrCaKeysFile = some (some file) ∧
      ∃ line ∈ fileLines file, LineLists d.base64Decode (cString line) (cert.caKey.of blob)) ∧
    (∃ before rest, cert.principals.of blob = wire (before ++ [name]) ++ rest) ∧
    (cert.validAfter ≤ d.now ∧ d.now < cert.validBefore) ∧
    ∀ value, (sourceAddressName, value) ∈ options → ∃ peerIp, d.peerIp = some peerIp ∧
      osshSourceAddrMatch d.inetPton value peerIp = true

/-- No fragment of a line that does not fit the buffer lists the key, or a whole line does. -/
def WholeLines (d : Daemon) (file key : Bytes) : Prop :=
  (∀ line ∈ fileLines file, d.maxLineSz - 1 ≤ line.length →
    ∀ x ∈ fragments d line, ¬ LineLists d.base64Decode (cString x) key) ∨
  ∃ line ∈ fileLines file, LineLists d.base64Decode (cString line) key

/-- A key that the scan finds stands on a whole line, under that condition and no other. -/
theorem wholeLines_iff {d : Daemon} (hdecode : Base64Text d.base64Decode) {file key : Bytes} :
    (searchKeysFile d (some file) key = .success →
      ∃ line ∈ fileLines file, LineLists d.base64Decode (cString line) key) ↔
      WholeLines d file key := by
  rw [searchKeysFile_cString_iff hdecode]
  constructor
  · intro hsound
    by_cases hlists : ∃ line ∈ fileLines file, LineLists d.base64Decode (cString line) key
    · exact .inr hlists
    · left
      intro line hline _ x hx hlistsx
      exact hlists (hsound ⟨line, hline, x, hx, hlistsx⟩)
  · rintro (hnone | hwhole) ⟨line, hline, x, hx, hlists⟩
    · by_cases hlong : d.maxLineSz - 1 ≤ line.length
      · exact absurd hlists (hnone line hline hlong x hx)
      · have hfits := @exists_fragment_short d file
          (fun x => LineLists d.base64Decode (cString x) key) not_lineLists_nil line hline
          (Nat.not_le.mp hlong)
        exact ⟨line, hline, hfits.mp ⟨x, hx, hlists⟩⟩
    · exact hwhole

/-- A certificate that parses has its fields cover the blob. One that is accepted is authorised, unless
its CA key stands in a fragment of an overlong line only. -/
theorem ossh_cert_authorised (d : Daemon) (hdecode : Base64Text d.base64Decode)
    (verifies : OsshCert → Bytes → Bool) (typeId : AlgoId) (blob name : Bytes) :
    ((∀ cert, osshCertParse typeId blob = .ok cert →
        ∃ typeName serial certType validAfter validBefore reserved userKey,
          CertTiles cert blob typeName serial certType validAfter validBefore reserved userKey) ∧
      ∀ ctx, doOsshCert verifies typeId blob = .ok ctx → checkPublicKeyUnix d name ctx = .success →
        Authorised d verifies typeId blob name) ↔
      ∀ ctx file, doOsshCert verifies typeId blob = .ok ctx → d.usrCaKeysFile = some (some file) →
        PassesOthers d name ctx → WholeLines d file ctx.caKey := by
  constructor
  · rintro ⟨-, hsound⟩ ctx file hctx hfile hothers
    refine (wholeLines_iff hdecode).mp fun hsearch => ?_
    obtain ⟨cert, kept, hparse, -, -, -, hca, -⟩ := doOsshCert_ok hctx
    obtain ⟨cert', options, hparse', -, -, -, ⟨file', hfile', hlisted⟩, -⟩ :=
      hsound ctx hctx (checkPublicKeyUnix_iff.mpr ⟨file, hfile, hsearch, hothers⟩)
    obtain rfl := Except.ok.inj (hparse'.symm.trans hparse)
    obtain rfl := Option.some.inj (Option.some.inj (hfile'.symm.trans hfile))
    rw [hca]
    exact hlisted
  · intro hcond
    refine ⟨fun cert hcert => osshCertParse_tiles hcert, fun ctx hctx haccepted => ?_⟩
    obtain ⟨cert, kept, hparse, htype, hverify, hoptions, hca, hprincipals, hafter, hbefore, hsource⟩ :=
      doOsshCert_ok hctx
    obtain ⟨options, hw⟩ := osshCertCheckOptions_ok hoptions
    obtain ⟨file, hfile, hsearch, hothers⟩ := checkPublicKeyUnix_iff.mp haccepted
    have hlisted := (wholeLines_iff hdecode).mpr (hcond ctx file hctx hfile hothers) hsearch
    refine ⟨cert, options, hparse, htype, hverify, hw.toOptionsFormed, ⟨file, hfile, hca ▸ hlisted⟩,
      hprincipals ▸ osshCertCheckPrincipal_ok hothers.principal, ?_, fun value hvalue => ?_⟩
    · rw [← hafter, ← hbefore]
      exact osshCertCheckValidity_ok hothers.validity
    · have hkept : ctx.sourceAddress = value := hsource.trans (hw.present value hvalue)
      have hne : ctx.sourceAddress ≠ [] := by
        rw [hkept]
        exact hw.value _ hvalue
      rw [← hkept]
      exact osshCertCheckSourceAddress_ok hothers.source hne

def caDaemon (file : Bytes) : Daemon := { tinyDaemon with usrCaKeysFile := some (some file) }

/-- A certificate for bob from the address of the peer, valid from 1 to 9. -/
def bobCert : Bytes :=
  copyString (ascii "ssh-ed25519-cert-v01@openssh.com") ++ (copyString [] ++ (copyString [3] ++
    (c32toa 0 ++ (c32toa 0 ++ (c32toa 1 ++ (copyString [] ++ (copyString (copyString (ascii "bob")) ++
    (c32toa 0 ++ (c32toa 1 ++ (c32toa 0 ++ (c32toa 9 ++
    (copyString (copyString sourceAddressName ++ copyString (copyString (ascii "10.0.0.1"))) ++
    (copyString [] ++ (copyString [] ++ (copyString tinyCaKey ++ copyString [2])))))))))))))))

def bobCtx : PubKeyCtx where
  caKey := tinyCaKey
  principals := copyString (ascii "bob")
  validAfter := 1
  validBefore := 9
  forceCommand := []
  sourceAddress := ascii "10.0.0.1"

theorem ossh_cert_authorised_bob :
    Authorised (caDaemon tinyKeysFile) (fun _ _ => true) .osshCertEd25519 bobCert (ascii "bob") := by
  refine ((ossh_cert_authorised (caDaemon tinyKeysFile) tinyDaemon_base64 (fun _ _ => true)
    .osshCertEd25519 bobCert (ascii "bob")).mpr ?_).2 bobCtx (by decide +kernel) (by decide +kernel)
  intro ctx file _ hfile _
  obtain rfl := Option.some.inj (Option.some.inj hfile)
  left
  intro line hline hlong x hx
  obtain ⟨hself, hword⟩ := tinyKeysFile_fragments hline hlong hx
  rw [hself]
  exact not_lineLists_of_word hword

/-- The end of a long comment in the CA file stands for a trusted CA key. -/
theorem comment_certifies :
    ¬ ∀ (d : Daemon) (verifies : OsshCert → Bytes → Bool) (typeId : AlgoId) (blob name : Bytes)
      (ctx : PubKeyCtx), Base64Text d.base64Decode → doOsshCert verifies typeId blob = .ok ctx →
      checkPublicKeyUnix d name ctx = .success → Authorised d verifies typeId blob name := by
  intro h
  have hlines : fileLines longComment = [longComment.dropLast, []] := by decide +kernel
  have hfirst : (Words.words isSpace (cString longComment.dropLast)).head?.bind List.head? = some 35 := by
    decide +kernel
  obtain ⟨cert, options, -, -, -, -, ⟨file, hfile, line, hline, type, keyBase64, fields, hwords, hcomment,
    -⟩, -⟩ := h (caDaemon longComment) (fun _ _ => true) .osshCertEd25519 bobCert (ascii "bob") bobCtx
      tinyDaemon_base64 (by decide +kernel) (by decide +kernel)
  obtain rfl := Option.some.inj (Option.some.inj hfile)
  rw [hlines] at hline
  rcases List.mem_pair.mp hline with rfl | rfl
  · rw [hwords] at hfirst
    exact hcomment hfirst
  · simp [cString] at hwords

end WolfSsh.Ossh
