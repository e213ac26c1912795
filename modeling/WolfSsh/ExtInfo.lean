import WolfSsh.KexOrder

/-! When a server sends EXT_INFO. -/

namespace WolfSsh.Session

/-- A step that bundles neither NEWKEYS nor EXT_INFO and decides nothing about EXT_INFO. -/
structure Quiet (s t : Ssh) : Prop where
  sendExtInfo : t.sendExtInfo = s.sendExtInfo
  extInfoSent : t.extInfoSent = s.extInfoSent
  firstOffer : t.firstOffer = s.firstOffer
  bundled : ∃ new, t.bundled = new ++ s.bundled ∧
    ∀ b ∈ new, b.msg ≠ msgidNewKeys ∧ b.msg ≠ msgidExtInfo

namespace Quiet

variable {s t u : Ssh}

theorem of_eq (h1 : t.sendExtInfo = s.sendExtInfo) (h2 : t.extInfoSent = s.extInfoSent)
    (h3 : t.firstOffer = s.firstOffer) (h4 : t.bundled = s.bundled) : Quiet s t :=
  ⟨h1, h2, h3, [], h4, by simp⟩

theorem refl (s : Ssh) : Quiet s s := of_eq rfl rfl rfl rfl

theorem trans (h : Quiet s t) (h' : Quiet t u) : Quiet s u := by
  obtain ⟨new, heq, hnew⟩ := h.bundled
  obtain ⟨new', heq', hnew'⟩ := h'.bundled
  refine ⟨h'.sendExtInfo.trans h.sendExtInfo, h'.extInfoSent.trans h.extInfoSent,
    h'.firstOffer.trans h.firstOffer, new' ++ new, by rw [heq', heq, List.append_assoc], ?_⟩
  intro b hb
  rw [List.mem_append] at hb
  exact hb.elim (hnew' b) (hnew b)

theorem bundlePacket {msg : Nat} (hmsg : msg ≠ msgidNewKeys ∧ msg ≠ msgidExtInfo) (s : Ssh) :
    Quiet s (s.bundlePacket msg) :=
  ⟨rfl, rfl, rfl, [⟨msg, s.seq, s.useStrictKex⟩], rfl, by simpa using hmsg⟩

theorem sendDisconnect (bundles : Bool) (s : Ssh) : Quiet s (s.sendDisconnect bundles) := by
  have hover : Quiet s { s with disconnected := true } := of_eq rfl rfl rfl rfl
  cases bundles with
  | false => exact hover
  | true => exact hover.trans (bundlePacket (by decide) _)

theorem sendKexInit (sent : Sent) (s : Ssh) : Quiet s (s.sendKexInit sent).1 := by
  have hneed : Quiet s s.needHandshake := of_eq rfl rfl rfl rfl
  have hbundle := hneed.trans
    (bundlePacket (show msgidKexInit ≠ msgidNewKeys ∧ msgidKexInit ≠ msgidExtInfo by decide) _)
  unfold Ssh.sendKexInit
  split
  · exact refl s
  · exact hneed
  · exact hbundle
  · exact hbundle.trans (of_eq rfl rfl rfl rfl)

theorem iterate {f : Ssh → Ssh} (hf : ∀ s, Quiet s (f s)) (n : Nat) (s : Ssh) :
    Quiet s (f^[n] s) := by
  induction n generalizing s with
  | zero => exact refl s
  | succ n ih =>
    rw [Function.iterate_succ_apply]
    exact (hf s).trans (ih (f s))

theorem sendPendingChannelWindowAdjust (adjusts : Nat) (ret : Ret) (s : Ssh) :
    Quiet s (s.sendPendingChannelWindowAdjust adjusts ret).1 := by
  rw [Ssh.sendPendingChannelWindowAdjust]
  split
  · exact refl s
  · exact iterate (bundlePacket (by decide)) adjusts s

theorem disconnectOn (errs : List WsErr) (bundles : Bool) {r : Ssh × Ret} (h : Quiet s r.1) :
    Quiet s (Ssh.disconnectOn errs bundles r).1 := by
  rw [Ssh.disconnectOn]
  split
  · exact h
  · split
    · exact h.trans (sendDisconnect bundles r.1)
    · exact h

theorem saveSessionId (hSz : Nat) (s : Ssh) : Quiet s (s.saveSessionId hSz) := by
  rw [Ssh.saveSessionId]
  split
  · exact of_eq rfl rfl rfl rfl
  · exact refl s

theorem skipGuessedKexMsg (s : Ssh) : Quiet s s.skipGuessedKexMsg := by
  rw [Ssh.skipGuessedKexMsg]
  split <;> exact of_eq rfl rfl rfl rfl

theorem sendKexDhGexGroup (env : KexSendEnv) (s : Ssh) : Quiet s (s.sendKexDhGexGroup env).1 := by
  rw [Ssh.sendKexDhGexGroup]
  split
  · exact refl s
  · rw [Ssh.sendKexMsg]
    split
    · exact refl s
    · have hexpect : ∀ u : Ssh, Quiet u (u.expect msgidKexDhGexInit) :=
        fun u => of_eq rfl rfl rfl rfl
      exact (bundlePacket (by decide) s).trans (hexpect _)

theorem doKexDhGexRequest (len : Nat) (parse : Option WsErr) (send : KexSendEnv) (s : Ssh) :
    Quiet s (s.doKexDhGexRequest len parse send).1 := by
  unfold Ssh.doKexDhGexRequest
  split
  · exact refl s
  · split
    · exact refl s
    · split
      · exact skipGuessedKexMsg s
      · split
        · exact refl s
        · exact sendKexDhGexGroup send s

theorem bundleAll {msgs : List Nat} (hmsgs : ∀ msg ∈ msgs, msg ≠ msgidNewKeys ∧ msg ≠ msgidExtInfo)
    (s : Ssh) : Quiet s (s.bundleAll msgs) := by
  induction msgs generalizing s with
  | nil => exact refl s
  | cons msg msgs ih =>
    have hmsg := hmsgs msg (by simp)
    have hrest := ih (fun m hm => hmsgs m (List.mem_cons_of_mem msg hm)) (s.bundlePacket msg)
    exact (bundlePacket hmsg s).trans hrest

theorem runEffects (fx : Effects) (s : Ssh) : Quiet s (s.runEffects fx) := by
  have hmsgs : ∀ msg ∈ fx.sends.map Subtype.val, msg ≠ msgidNewKeys ∧ msg ≠ msgidExtInfo := by
    intro msg hmsg
    obtain ⟨m, -, rfl⟩ := List.mem_map.mp hmsg
    exact m.2.2
  have hrest : ∀ u : Ssh, Quiet u
      { u with
        disconnected := u.disconnected || fx.ends
        clientState := fx.clientState.getD u.clientState
        serverState := fx.serverState.getD u.serverState } := fun u => of_eq rfl rfl rfl rfl
  exact (bundleAll hmsgs s).trans (hrest _)

theorem doNewKeys (len : Nat) (cipher : Option WsErr) (adjusts : Nat) (ret : Ret) (s : Ssh) :
    Quiet s (s.doNewKeys len cipher adjusts ret).1 := by
  rcases doNewKeys_cases len cipher adjusts ret s with heq | ⟨-, -, heq⟩
  · rw [heq]
    exact refl s
  · rw [heq]
    have hdone : Quiet s { s with peerKeying := false, handshake := none } := of_eq rfl rfl rfl rfl
    exact hdone.trans (sendPendingChannelWindowAdjust _ _ _)

theorem doKexInitAnswer (env : KexInitEnv) (s : Ssh) : Quiet s (s.doKexInitAnswer env).1 := by
  have hsend : Quiet s (if s.selfKeying then (s, .ok ()) else s.sendKexInit env.send).1 := by
    split
    · exact refl s
    · exact sendKexInit env.send s
  unfold Ssh.doKexInitAnswer
  generalize (if s.selfKeying then (s, .ok ()) else s.sendKexInit env.send : Ssh × Ret) = r at hsend ⊢
  obtain ⟨t, ret⟩ := r
  dsimp only at hsend ⊢
  split
  iterate 2
    split
    · exact hsend
    · split
      · dsimp only
        split <;> exact hsend.trans (of_eq rfl rfl rfl rfl)
      · exact hsend.trans (of_eq rfl rfl rfl rfl)
  · exact hsend

theorem doKexInitRest (env : KexInitEnv) (s : Ssh) : Quiet s (s.doKexInitRest env).1 := by
  have hguess : Quiet s (if env.wrongGuess ∧ s.side = .server then
      s.updHandshake fun hs => { hs with ignoreNextKexMsg := true } else s) := by
    split
    · exact of_eq rfl rfl rfl rfl
    · exact refl s
  rw [Ssh.doKexInitRest]
  split
  · exact refl s
  · dsimp only
    split
    · exact hguess
    · exact hguess.trans (doKexInitAnswer env _)

theorem doKexInitStrict (env : KexInitEnv) (s : Ssh) : Quiet s (s.doKexInitStrict env).1 := by
  have hmark : ∀ b : Bool, Quiet s { s with useStrictKex := b } := fun _ => of_eq rfl rfl rfl rfl
  rw [Ssh.doKexInitStrict]
  split
  · dsimp only
    split
    · exact (hmark _).trans (sendDisconnect _ _)
    · exact (hmark _).trans (doKexInitRest env _)
  · exact doKexInitRest env s

end Quiet

def HasNewKeys (bundled : List Bundled) : Prop := ∃ b ∈ bundled, b.msg = msgidNewKeys
deriving Decidable

theorem hasNewKeys_old {bundled older : List Bundled}
    (h : ∃ new, bundled = new ++ older ∧ ∀ b ∈ new, b.msg ≠ msgidNewKeys ∧ b.msg ≠ msgidExtInfo)
    (hnew : HasNewKeys bundled) : HasNewKeys older := by
  obtain ⟨new, rfl, hother⟩ := h
  obtain ⟨b, hb, hmsg⟩ := hnew
  rw [List.mem_append] at hb
  exact hb.elim (fun hb => absurd hmsg (hother b hb).1) fun hb => ⟨b, hb, hmsg⟩

/-- The latest packet is the first NEWKEYS, and no EXT_INFO came before it. -/
def EndsInFirstNewKeys (bundled : List Bundled) : Prop :=
  ∃ newKeys older, bundled = newKeys :: older ∧ newKeys.msg = msgidNewKeys ∧
    ∀ b ∈ older, b.msg ≠ msgidNewKeys ∧ b.msg ≠ msgidExtInfo

/-- Every EXT_INFO was bundled right after the first NEWKEYS. -/
def ExtInfoInPlace : List Bundled → Prop
  | [] => True
  | b :: older => (b.msg = msgidExtInfo → EndsInFirstNewKeys older) ∧ ExtInfoInPlace older

theorem ExtInfoInPlace.append {new old : List Bundled} (h : ExtInfoInPlace old)
    (hnew : ∀ b ∈ new, b.msg ≠ msgidNewKeys ∧ b.msg ≠ msgidExtInfo) :
    ExtInfoInPlace (new ++ old) := by
  induction new with
  | nil => exact h
  | cons b new ih =>
    refine ⟨fun hb => absurd hb (hnew b (by simp)).2, ih fun c hc => hnew c ?_⟩
    exact List.mem_cons_of_mem b hc

structure ExtInv (s : Ssh) : Prop where
  place : ExtInfoInPlace s.bundled
  unsent : s.extInfoSent = false → ∀ b ∈ s.bundled, b.msg ≠ msgidExtInfo
  pending : s.sendExtInfo → s.extInfoSent = false
  offered : (∃ b ∈ s.bundled, b.msg = msgidExtInfo) → s.firstOffer = some true

theorem ExtInv.quiet {s t : Ssh} (h : ExtInv s) (hq : Quiet s t) : ExtInv t := by
  obtain ⟨new, heq, hnew⟩ := hq.bundled
  refine ⟨?_, ?_, ?_, ?_⟩
  · rw [heq]
    exact h.place.append hnew
  · rw [heq, hq.extInfoSent]
    intro hs b hb
    rw [List.mem_append] at hb
    exact hb.elim (fun hb => (hnew b hb).2) (h.unsent hs b)
  · rw [hq.extInfoSent, hq.sendExtInfo]
    exact h.pending
  · rw [heq, hq.firstOffer]
    rintro ⟨b, hb, hmsg⟩
    rw [List.mem_append] at hb
    exact hb.elim (fun hb => absurd hmsg (hnew b hb).2) fun hb => h.offered ⟨b, hb, hmsg⟩

/-! What keeps a server from replying. -/

/-- There is no method to reply by: no handshake, or one whose KEXINIT has not been read. -/
def NoMethod (s : Ssh) : Prop := ∀ id ∈ s.handshake.map Handshake.kexId, kexMethod id = none

def ExpectsNewKeys (s : Ssh) : Prop := s.handshake.map Handshake.expectMsgId = some msgidNewKeys

theorem NoMethod.same {s t : Ssh} (h : NoMethod s)
    (ht : t.handshake.map Handshake.kexId = s.handshake.map Handshake.kexId) : NoMethod t := by
  rw [NoMethod, ht]
  exact h

theorem NoMethod.needHandshake {s : Ssh} (h : NoMethod s) : NoMethod s.needHandshake := by
  cases hhs : s.handshake with
  | none =>
    intro id hid
    obtain rfl : AlgoId.none = id := by simpa [Ssh.needHandshake, hhs] using hid
    rfl
  | some hs => exact h.same (by simp [Ssh.needHandshake, hhs])

/-- What a step leaves standing of a handshake that no reply comes from. -/
structure Withholds (s t : Ssh) : Prop where
  noMethod : NoMethod s → NoMethod t
  expects : ExpectsNewKeys s → ExpectsNewKeys t

theorem Withholds.of_eq {s t : Ssh} (h : t.handshake = s.handshake) : Withholds s t := by
  refine ⟨fun hno => hno.same (by rw [h]), fun hexpects => ?_⟩
  rw [ExpectsNewKeys, h]
  exact hexpects

theorem Withholds.sendKexInit (sent : Sent) (s : Ssh) : Withholds s (s.sendKexInit sent).1 := by
  cases hhs : s.handshake with
  | none =>
    refine ⟨fun hno => ?_, fun hexpects => ?_⟩
    · have hneed := hno.needHandshake
      unfold Ssh.sendKexInit
      split
      · exact hno
      · exact hneed
      · exact hneed.same rfl
      · exact hneed.same rfl
    · rw [ExpectsNewKeys, hhs] at hexpects
      cases hexpects
  | some hs => exact .of_eq ((sendKexInit_handshake hhs sent).trans hhs.symm)

/-! A KEXINIT decides whether EXT_INFO is to be sent. -/

/-- A KEXINIT whose method is chosen decides about EXT_INFO; any other one leaves the exchange
without a method. -/
structure Offers (env : KexInitEnv) (s t : Ssh) : Prop where
  extInfoSent : t.extInfoSent = s.extInfoSent
  bundled : ∃ new, t.bundled = new ++ s.bundled ∧
    ∀ b ∈ new, b.msg ≠ msgidNewKeys ∧ b.msg ≠ msgidExtInfo
  decides :
    (t.sendExtInfo = s.sendExtInfo ∧ t.firstOffer = s.firstOffer ∧ (NoMethod s → NoMethod t)) ∨
    (t.peerKeying ∧ env.kexList = none ∧ env.kexId ≠ .unknown ∧
      t.sendExtInfo = (if s.extInfoSent then s.sendExtInfo else env.extInfo) ∧
      t.firstOffer = s.firstOffer.or (some env.extInfo))

theorem Offers.sendDisconnect {env : KexInitEnv} {s t : Ssh} (h : Offers env s t) (bundles : Bool) :
    Offers env s (t.sendDisconnect bundles) := by
  have hq := Quiet.sendDisconnect bundles t
  have hf := Frame.sendDisconnect bundles t
  obtain ⟨new, heq, hnew⟩ := h.bundled
  obtain ⟨new', heq', hnew'⟩ := hq.bundled
  refine ⟨hq.extInfoSent.trans h.extInfoSent, ⟨new' ++ new, by rw [heq', heq, List.append_assoc], ?_⟩,
    ?_⟩
  · intro b hb
    rw [List.mem_append] at hb
    exact hb.elim (hnew' b) (hnew b)
  · rw [hq.sendExtInfo, hq.firstOffer, hf.peerKeying]
    refine h.decides.imp_left fun ⟨hsend, hfirst, hmethod⟩ => ⟨hsend, hfirst, fun hno => ?_⟩
    exact (hmethod hno).same (by rw [sendDisconnect_handshake])

theorem doKexInitLists_offers (env : KexInitEnv) {s : Ssh} (hkeying : s.peerKeying) :
    Offers env s (s.doKexInitLists env).1 := by
  rw [Ssh.doKexInitLists]
  split
  · exact ⟨rfl, ⟨[], rfl, by simp⟩, .inl ⟨rfl, rfl, id⟩⟩
  · rename_i hlist
    split
    · exact ⟨rfl, ⟨[], rfl, by simp⟩, .inl ⟨rfl, rfl, id⟩⟩
    · rename_i hmethod
      have hkey : ∀ t : Ssh, t.peerKeying → (t.doKexInitStrict env).1.peerKeying := by
        intro t ht
        rcases (doKexInitStrict_frame env ht).strict with ⟨heq, -⟩ | ⟨hk, -⟩
        · exact heq.trans ht
        · exact hk
      have hq := Quiet.doKexInitStrict env
        { s.updHandshake fun hs => { hs with kexId := env.kexId } with
          kexId := env.kexId
          sendExtInfo := if s.extInfoSent then s.sendExtInfo else env.extInfo
          firstOffer := s.firstOffer.or (some env.extInfo) }
      exact ⟨hq.extInfoSent, hq.bundled,
        .inr ⟨hkey _ hkeying, hlist, hmethod, hq.sendExtInfo, hq.firstOffer⟩⟩

theorem doKexInit_offers (len : Nat) (env : KexInitEnv) (s : Ssh) :
    Offers env s (s.doKexInit len env).1 := by
  have hsame : Offers env s s := ⟨rfl, ⟨[], rfl, by simp⟩, .inl ⟨rfl, rfl, id⟩⟩
  have hlists : Offers env s
      (Ssh.doKexInitLists env { s.needHandshake with peerKeying := true }).1 := by
    obtain ⟨hsent, hbundled, hdecides⟩ :=
      doKexInitLists_offers env (s := { s.needHandshake with peerKeying := true }) rfl
    refine ⟨hsent, hbundled, hdecides.imp_left fun ⟨hsend, hfirst, hmethod⟩ => ?_⟩
    exact ⟨hsend, hfirst, fun hno => hmethod (hno.needHandshake.same rfl)⟩
  rw [Ssh.doKexInit]
  split
  · exact hsame
  · split
    · exact hsame
    · dsimp only
      split
      · exact hlists.sendDisconnect _
      · exact hlists

theorem ExtInv.offers {s t : Ssh} {env : KexInitEnv} (h : ExtInv s) (ho : Offers env s t) :
    ExtInv t := by
  obtain ⟨new, heq, hnew⟩ := ho.bundled
  refine ⟨?_, ?_, ?_, ?_⟩
  · rw [heq]
    exact h.place.append hnew
  · rw [heq, ho.extInfoSent]
    intro hs b hb
    rw [List.mem_append] at hb
    exact hb.elim (fun hb => (hnew b hb).2) (h.unsent hs b)
  · rw [ho.extInfoSent]
    rcases ho.decides with ⟨hsend, -⟩ | ⟨-, -, -, hsend, -⟩
    · rw [hsend]
      exact h.pending
    · rw [hsend]
      cases hsent : s.extInfoSent with
      | true =>
        intro hs
        have hpending := h.pending (by simpa using hs)
        rw [hsent] at hpending
        cases hpending
      | false => exact fun _ => rfl
  · rintro ⟨b, hb, hmsg⟩
    rw [heq, List.mem_append] at hb
    have hfirst := hb.elim (fun hb => absurd hmsg (hnew b hb).2) fun hb => h.offered ⟨b, hb, hmsg⟩
    rcases ho.decides with ⟨-, hf, -⟩ | ⟨-, -, -, -, hf⟩
    · rw [hf, hfirst]
    · rw [hf, hfirst]
      rfl

/-! The reply of the exchange, with NEWKEYS and EXT_INFO after it. -/

/-- A server is still waiting for the peer's NEWKEYS, so nothing but NEWKEYS is bundled. -/
theorem sendNewKeys_bundled (env : NewKeysEnv) {s : Ssh} (hkeying : s.peerKeying) :
    ((s.sendNewKeys env).1 = s ∧ env.bundle.isSome ∧ (s.sendNewKeys env).2.isOk = false) ∨
      (env.bundle = none ∧
        (s.sendNewKeys env).1.sendExtInfo = s.sendExtInfo ∧
        (s.sendNewKeys env).1.extInfoSent = s.extInfoSent ∧
        (s.sendNewKeys env).1.firstOffer = s.firstOffer ∧
        (s.sendNewKeys env).1.bundled = ⟨msgidNewKeys, s.seq, s.useStrictKex⟩ :: s.bundled ∧
        ((s.sendNewKeys env).2.isOk → env.cipher = none ∧ env.send.isOk)) := by
  have hseq : ∀ t : Ssh, t = (if (s.bundlePacket msgidNewKeys).useStrictKex then
        { s.bundlePacket msgidNewKeys with seq := 0 } else s.bundlePacket msgidNewKeys) →
      t.sendExtInfo = s.sendExtInfo ∧ t.extInfoSent = s.extInfoSent ∧
        t.firstOffer = s.firstOffer ∧
        t.bundled = ⟨msgidNewKeys, s.seq, s.useStrictKex⟩ :: s.bundled ∧ t.peerKeying := by
    rintro t rfl
    split <;> exact ⟨rfl, rfl, rfl, rfl, hkeying⟩
  obtain ⟨h1, h2, h3, h4, h5⟩ := hseq _ rfl
  rw [Ssh.sendNewKeys]
  split
  · rename_i e hbundle
    exact .inl ⟨rfl, by simp [hbundle], rfl⟩
  · rename_i hbundle
    right
    dsimp only
    generalize (if (s.bundlePacket msgidNewKeys).useStrictKex then
        { s.bundlePacket msgidNewKeys with seq := 0 } else s.bundlePacket msgidNewKeys : Ssh) = t at *
    split
    · exact ⟨hbundle, h1, h2, h3, h4, fun hnot => by cases hnot⟩
    · rename_i hcipher
      have hadjust : Ssh.sendPendingChannelWindowAdjust env.adjusts env.adjustRet
          { t with selfKeying := false } = ({ t with selfKeying := false }, .ok ()) := by
        rw [Ssh.sendPendingChannelWindowAdjust, if_pos (by simp [Ssh.isKeying, h5])]
      rw [hadjust]
      refine ⟨hbundle, h1, h2, h3, h4, fun hok => ⟨hcipher, ?_⟩⟩
      by_contra hsend
      rw [if_neg hsend] at hok
      exact hsend hok

def Sent.bundles : Sent → Bool
  | .unbundled _ => false
  | .purged _ | .queued _ => true

/-- The exchange succeeds, NEWKEYS goes out without a block, and EXT_INFO can be bundled. -/
def ReachesExtInfo (env : KexDhEnv) : Prop :=
  env.parse = none ∧ env.hash = none ∧ env.signature = none ∧ env.keys = none ∧
    env.bundle = none ∧ env.newKeys.bundle = none ∧ env.newKeys.cipher = none ∧
      env.newKeys.send.isOk ∧ env.extInfo.bundles
deriving Decidable

/-- EXT_INFO would follow the first NEWKEYS, and the first KEXINIT asked for it. -/
def FirstExchange (s : Ssh) : Prop := ¬ HasNewKeys s.bundled ∧ s.firstOffer = some true
deriving Decidable

theorem FirstExchange.quiet {s t : Ssh} (h : FirstExchange s) (hq : Quiet s t) :
    FirstExchange t :=
  ⟨fun hnew => h.1 (hasNewKeys_old hq.bundled hnew), hq.firstOffer.trans h.2⟩

theorem bundleExtInfo_ext {s : Ssh} (hplace : ExtInfoInPlace s.bundled)
    (hfirst : EndsInFirstNewKeys s.bundled) (hoffer : s.firstOffer = some true) :
    ExtInv s.bundleExtInfo := by
  refine ⟨⟨fun _ => hfirst, hplace⟩, ?_, ?_, fun _ => hoffer⟩
  · intro hnot
    cases hnot
  · intro hnot
    cases hnot

theorem ExtInv.newKeys {s t : Ssh} (h : ExtInv s) (h1 : t.sendExtInfo = s.sendExtInfo)
    (h2 : t.extInfoSent = s.extInfoSent) (h3 : t.firstOffer = s.firstOffer)
    (h4 : t.bundled = ⟨msgidNewKeys, s.seq, s.useStrictKex⟩ :: s.bundled) : ExtInv t := by
  have hne : ¬ msgidNewKeys = msgidExtInfo := by decide
  refine ⟨?_, ?_, ?_, ?_⟩
  · rw [h4]
    exact ⟨fun hnot => absurd hnot hne, h.place⟩
  · rw [h2, h4]
    intro hs b hb
    rw [List.mem_cons] at hb
    rcases hb with rfl | hb
    · exact hne
    · exact h.unsent hs b hb
  · rw [h1, h2]
    exact h.pending
  · rw [h3, h4]
    rintro ⟨b, hb, hmsg⟩
    rw [List.mem_cons] at hb
    rcases hb with rfl | hb
    · exact absurd hmsg hne
    · exact h.offered ⟨b, hb, hmsg⟩

theorem kexMethod_reply_other {id : AlgoId} {method : KexMethod} (h : kexMethod id = some method) :
    method.replyId.toNat ≠ msgidNewKeys ∧ method.replyId.toNat ≠ msgidExtInfo := by
  rw [kexMethod_replyId h]
  split <;> decide

theorem sendKexDhReplyBundle_ext (env : KexDhEnv) {method : KexMethod}
    (hmsg : method.replyId.toNat ≠ msgidNewKeys ∧ method.replyId.toNat ≠ msgidExtInfo)
    (hparse : env.parse = none) (hhash : env.hash = none) (hsig : env.signature = none)
    (hkeys : env.keys = none) {s : Ssh} (h : ExtInv s) (hkeying : s.peerKeying)
    (hfirst : s.sendExtInfo → ReachesExtInfo env → FirstExchange s) :
    ExtInv (s.sendKexDhReplyBundle env method).1 := by
  rw [Ssh.sendKexDhReplyBundle]
  split
  · exact h
  · rename_i hbundle
    have hreply : Quiet s ((s.bundlePacket method.replyId.toNat).expect msgidNewKeys) :=
      (Quiet.bundlePacket hmsg s).trans (.of_eq rfl rfl rfl rfl)
    have hk : ((s.bundlePacket method.replyId.toNat).expect msgidNewKeys).peerKeying := hkeying
    have hinv := h.quiet hreply
    have hfirst' := fun hsend hreach => (hfirst (hreply.sendExtInfo ▸ hsend) hreach).quiet hreply
    generalize (s.bundlePacket method.replyId.toNat).expect msgidNewKeys = t at *
    dsimp only
    rcases sendNewKeys_bundled env.newKeys hk with ⟨heq, -, hok⟩ | ⟨hnew, h1, h2, h3, h4, hok⟩
    · rw [if_neg (by simp [hok]), heq]
      exact hinv
    · have hnext := hinv.newKeys h1 h2 h3 h4
      split
      · rename_i hsend
        obtain ⟨hcipher, hsent⟩ := hok hsend.1
        have hbundled : env.extInfo.bundles →
            ExtInv (t.sendNewKeys env.newKeys).1.bundleExtInfo := by
          intro hext
          have hpending := h1 ▸ hsend.2
          obtain ⟨hnone, hoffer⟩ := hfirst' hpending
            ⟨hparse, hhash, hsig, hkeys, hbundle, hnew, hcipher, hsent, hext⟩
          refine bundleExtInfo_ext hnext.place ⟨_, _, h4, rfl, fun b hb => ⟨?_, ?_⟩⟩
            (h3.trans hoffer)
          · exact fun hmsg => hnone ⟨b, hb, hmsg⟩
          · exact hinv.unsent (hinv.pending hpending) b hb
        unfold Ssh.sendExtInfoMsg
        cases hcase : env.extInfo with
        | unbundled e => exact hnext
        | purged e => exact hbundled (by rw [hcase]; rfl)
        | queued ret => exact hbundled (by rw [hcase]; rfl)
      · exact hnext

theorem sendKexDhReply_ext (env : KexDhEnv) (kexId : AlgoId) (hparse : env.parse = none) {s : Ssh}
    (h : ExtInv s) (hkeying : s.peerKeying)
    (hfirst : s.sendExtInfo → ReachesExtInfo env → FirstExchange s) :
    ExtInv (s.sendKexDhReply env kexId).1 := by
  rw [Ssh.sendKexDhReply]
  split
  · exact h
  · rename_i method hmethod
    split
    · exact h
    · rename_i hhash
      have hsaved := Quiet.saveSessionId env.hSz s
      have hk : (s.saveSessionId env.hSz).peerKeying :=
        (Frame.saveSessionId env.hSz s).peerKeying.trans hkeying
      have hinv := h.quiet hsaved
      have hfirst' := fun hsend hreach => (hfirst (hsaved.sendExtInfo ▸ hsend) hreach).quiet hsaved
      generalize s.saveSessionId env.hSz = t at *
      rw [Ssh.sendKexDhReplyHashed]
      split
      · exact hinv
      · rename_i hsig
        split
        · exact hinv
        · rename_i hkeys
          have hderived : Quiet t (t.updHandshake fun hs => { hs with keysDerived := true }) :=
            .of_eq rfl rfl rfl rfl
          exact sendKexDhReplyBundle_ext env (kexMethod_reply_other hmethod) hparse hhash hsig hkeys (hinv.quiet hderived) hk
            fun hsend hreach => (hfirst' hsend hreach).quiet hderived

theorem doKexDhInit_ext (len : Nat) (env : KexDhEnv) {s : Ssh} (h : ExtInv s)
    (hkeying : s.peerKeying) (hfirst : s.sendExtInfo → ReachesExtInfo env → FirstExchange s) :
    ExtInv (s.doKexDhInit len env).1 := by
  rw [Ssh.doKexDhInit]
  split
  · exact h
  · split
    · exact h
    · split
      · exact h.quiet (Quiet.skipGuessedKexMsg s)
      · refine ExtInv.quiet (s := Prod.fst _) ?_ (Quiet.disconnectOn _ _ (Quiet.refl _))
        split
        · exact h
        · rename_i hparse
          have hdone : Quiet s { s with clientState := .kexDhInitDone } := .of_eq rfl rfl rfl rfl
          exact sendKexDhReply_ext env _ hparse (h.quiet hdone) hkeying
            fun hsend hreach => (hfirst hsend hreach).quiet hdone

/-! After a reply that bundles NEWKEYS, the server waits for the peer's. -/

structure Replied (s t : Ssh) : Prop where
  sendExtInfo : t.sendExtInfo → s.sendExtInfo
  firstOffer : t.firstOffer = s.firstOffer
  newKeys : HasNewKeys t.bundled → HasNewKeys s.bundled ∨ ExpectsNewKeys t

theorem Quiet.replied {s t : Ssh} (h : Quiet s t) : Replied s t :=
  ⟨fun hsend => h.sendExtInfo ▸ hsend, h.firstOffer, fun hnew => .inl (hasNewKeys_old h.bundled hnew)⟩

theorem Replied.of_quiet {s t u : Ssh} (hq : Quiet s t) (h : Replied t u) : Replied s u where
  sendExtInfo := fun hsend => hq.sendExtInfo ▸ h.sendExtInfo hsend
  firstOffer := h.firstOffer.trans hq.firstOffer
  newKeys := fun hnew => (h.newKeys hnew).imp_left (hasNewKeys_old hq.bundled)

theorem Replied.disconnectOn {s : Ssh} {r : Ssh × Ret} (h : Replied s r.1) (errs : List WsErr)
    (bundles : Bool) : Replied s (Ssh.disconnectOn errs bundles r).1 := by
  have hq := Quiet.disconnectOn errs bundles (Quiet.refl r.1)
  have hw : Withholds r.1 (Ssh.disconnectOn errs bundles r).1 :=
    .of_eq (disconnectOn_handshake errs bundles r)
  refine ⟨fun hsend => h.sendExtInfo (hq.sendExtInfo ▸ hsend), hq.firstOffer.trans h.firstOffer, ?_⟩
  exact fun hnew => (h.newKeys (hasNewKeys_old hq.bundled hnew)).imp_right hw.expects

theorem sendKexDhReplyBundle_replied (env : KexDhEnv) {method : KexMethod}
    (hmsg : method.replyId.toNat ≠ msgidNewKeys ∧ method.replyId.toNat ≠ msgidExtInfo) {s : Ssh}
    (hhs : s.handshake.isSome) (hkeying : s.peerKeying) :
    Replied s (s.sendKexDhReplyBundle env method).1 := by
  rw [Ssh.sendKexDhReplyBundle]
  split
  · exact (Quiet.refl s).replied
  · have hreply : Quiet s ((s.bundlePacket method.replyId.toNat).expect msgidNewKeys) :=
      (Quiet.bundlePacket hmsg s).trans (.of_eq rfl rfl rfl rfl)
    have hexpects : ExpectsNewKeys ((s.bundlePacket method.replyId.toNat).expect msgidNewKeys) := by
      obtain ⟨hs, hhs⟩ := Option.isSome_iff_exists.mp hhs
      simp [ExpectsNewKeys, Ssh.expect, Ssh.bundlePacket, hhs]
    have hk : ((s.bundlePacket method.replyId.toNat).expect msgidNewKeys).peerKeying := hkeying
    refine .of_quiet hreply ?_
    generalize (s.bundlePacket method.replyId.toNat).expect msgidNewKeys = t at *
    dsimp only
    rcases sendNewKeys_bundled env.newKeys hk with ⟨heq, -, hok⟩ | ⟨-, h1, -, h3, -, -⟩
    · rw [if_neg (by simp [hok]), heq]
      exact (Quiet.refl t).replied
    · have hnext : ExpectsNewKeys (t.sendNewKeys env.newKeys).1 := by
        rw [ExpectsNewKeys, sendNewKeys_handshake]
        exact hexpects
      have hsent : Replied t (t.sendNewKeys env.newKeys).1 :=
        ⟨fun hsend => h1 ▸ hsend, h3, fun _ => .inr hnext⟩
      split
      · have hext : Replied t (t.sendNewKeys env.newKeys).1.bundleExtInfo := by
          refine ⟨?_, h3, fun _ => .inr hnext⟩
          intro hnot
          cases hnot
        unfold Ssh.sendExtInfoMsg
        split
        · exact hsent
        · exact hext
        · exact hext
      · exact hsent

theorem sendKexDhReply_replied (env : KexDhEnv) (kexId : AlgoId) {s : Ssh}
    (hhs : s.handshake.isSome) (hkeying : s.peerKeying) :
    Replied s (s.sendKexDhReply env kexId).1 := by
  rw [Ssh.sendKexDhReply]
  split
  · exact (Quiet.refl s).replied
  · rename_i method hmethod
    split
    · exact (Quiet.refl s).replied
    · have hsaved : Quiet s (s.saveSessionId env.hSz) := Quiet.saveSessionId env.hSz s
      have hhs' : (s.saveSessionId env.hSz).handshake.isSome := by
        rw [saveSessionId_handshake]
        exact hhs
      have hk : (s.saveSessionId env.hSz).peerKeying :=
        (Frame.saveSessionId env.hSz s).peerKeying.trans hkeying
      refine .of_quiet hsaved ?_
      generalize s.saveSessionId env.hSz = t at *
      rw [Ssh.sendKexDhReplyHashed]
      split
      · exact (Quiet.refl t).replied
      · split
        · exact (Quiet.refl t).replied
        · have hderived : Quiet t (t.updHandshake fun hs => { hs with keysDerived := true }) :=
            .of_eq rfl rfl rfl rfl
          refine .of_quiet hderived ?_
          refine sendKexDhReplyBundle_replied env (kexMethod_reply_other hmethod) ?_ hk
          simpa [Ssh.updHandshake] using hhs'

theorem doKexDhInit_replied (len : Nat) (env : KexDhEnv) {s : Ssh} (hkeying : s.peerKeying) :
    Replied s (s.doKexDhInit len env).1 := by
  rw [Ssh.doKexDhInit]
  split
  · exact (Quiet.refl s).replied
  · rename_i hs hhs
    split
    · exact (Quiet.refl s).replied
    · split
      · exact (Quiet.skipGuessedKexMsg s).replied
      · refine Replied.disconnectOn ?_ _ _
        split
        · exact (Quiet.refl s).replied
        · have hdone : Quiet s { s with clientState := .kexDhInitDone } := .of_eq rfl rfl rfl rfl
          exact .of_quiet hdone (sendKexDhReply_replied env _ (by simp [hhs]) hkeying)

theorem doKexDhInit_noMethod (len : Nat) (env : KexDhEnv) {s : Ssh} (hno : NoMethod s) :
    Quiet s (s.doKexDhInit len env).1 := by
  rw [Ssh.doKexDhInit]
  split
  · exact .refl s
  · rename_i hs hhs
    split
    · exact .refl s
    · split
      · exact .skipGuessedKexMsg s
      · refine .disconnectOn _ _ ?_
        split
        · exact .refl s
        · rw [Ssh.sendKexDhReply, hno hs.kexId (by rw [hhs]; rfl)]
          exact .of_eq rfl rfl rfl rfl

/-! The method of an exchange stays. -/

theorem RearmsIn.kexId {side : Endpoint} {next : Nat} {s t : Ssh} {hs : Handshake}
    (hhs : s.handshake = some hs) (h : RearmsIn side next hs t) :
    t.handshake.map Handshake.kexId = s.handshake.map Handshake.kexId := by
  obtain ⟨hs', hhs', hrearms⟩ := h
  rw [hhs', hhs, Option.map_some, Option.map_some, hrearms.kexId]

theorem skipGuessedKexMsg_kexId (s : Ssh) :
    s.skipGuessedKexMsg.handshake.map Handshake.kexId = s.handshake.map Handshake.kexId := by
  rw [Ssh.skipGuessedKexMsg]
  split <;> simp [Ssh.expectClientKexMsg, Ssh.updHandshake, Function.comp_def]

theorem doKexDhInit_kexId (len : Nat) (env : KexDhEnv) (s : Ssh) :
    (s.doKexDhInit len env).1.handshake.map Handshake.kexId =
      s.handshake.map Handshake.kexId := by
  cases hhs : s.handshake with
  | none =>
    rw [Ssh.doKexDhInit, hhs]
    exact congrArg _ hhs
  | some hs =>
    cases hignore : hs.ignoreNextKexMsg with
    | false => rw [(doKexDhInit_rearms len env hhs hignore).kexId hhs, hhs]
    | true =>
      rw [Ssh.doKexDhInit, hhs]
      dsimp only
      split
      · exact congrArg _ hhs
      · exact (skipGuessedKexMsg_kexId s).trans (congrArg _ hhs)

theorem doKexDhGexRequest_kexId (len : Nat) (parse : Option WsErr) (send : KexSendEnv) (s : Ssh) :
    (s.doKexDhGexRequest len parse send).1.handshake.map Handshake.kexId =
      s.handshake.map Handshake.kexId := by
  cases hhs : s.handshake with
  | none =>
    unfold Ssh.doKexDhGexRequest
    rw [hhs]
    exact congrArg _ hhs
  | some hs =>
    cases hignore : hs.ignoreNextKexMsg with
    | false => rw [(doKexDhGexRequest_rearms len parse send hhs hignore).kexId hhs, hhs]
    | true =>
      unfold Ssh.doKexDhGexRequest
      rw [hhs]
      dsimp only
      split
      · exact congrArg _ hhs
      · exact (skipGuessedKexMsg_kexId s).trans (congrArg _ hhs)

theorem runEffects_handshake (fx : Effects) (s : Ssh) :
    (s.runEffects fx).handshake = s.handshake :=
  bundleAll_handshake _ s

/-! A server's runs. -/

theorem isMessageAllowed_quiet {s t : Ssh} {msg : Nat} (h : isMessageAllowed s msg = some t) :
    Quiet s t := by
  rcases isMessageAllowed_eq h with rfl | ⟨-, -, -, rfl⟩
  · exact Quiet.refl _
  · exact .of_eq rfl rfl rfl rfl

theorem isMessageAllowed_noMethod {s t : Ssh} {msg : Nat} (h : isMessageAllowed s msg = some t)
    (hno : NoMethod s) : NoMethod t := by
  rcases isMessageAllowed_eq h with rfl | ⟨-, -, -, rfl⟩
  · exact hno
  · exact hno.same (by simp [Ssh.expect, Function.comp_def])

/-- The gate lets in nothing but the NEWKEYS that is expected. -/
theorem ExpectsNewKeys.letIn {s t : Ssh} {msg : Nat} (h : ExpectsNewKeys s)
    (hkex : KexLetIn s msg t) (hmsg : msg ≠ msgidKexInit) : msg = msgidNewKeys := by
  obtain ⟨hs, hhs, hexpect⟩ := Option.map_eq_some_iff.mp h
  cases hkex with
  | kexInit _ hinit _ => exact absurd hinit hmsg
  | expected _ hmeets =>
    obtain ⟨hs', hhs', hexpect'⟩ := hmeets.2.1
    rw [hhs, Option.some.injEq] at hhs'
    rw [← hexpect', ← hhs', hexpect]
  | unguarded _ _ _ hnone _ =>
    rw [Ssh.ExpectsNone, hhs, Option.map_some, hexpect] at hnone
    cases hnone

/-- What a server does with a message that is let in. -/
inductive ServerDispatch (msg : Nat) (env : PacketEnv) (s : Ssh) : Ssh → Prop where
  | kexInit (hmsg : msg = msgidKexInit) :
    ServerDispatch msg env s (s.doKexInit env.len env.kexInit).1
  | kexDhInit (hmsg : msg = msgidKexDhInit ∨ msg = msgidKexDhGexInit) :
    ServerDispatch msg env s (s.doKexDhInit env.len env.kexDh).1
  | quiet {t : Ssh} (hmsg : msg ≠ msgidKexInit) (hq : Quiet s t) (hno : NoMethod s → NoMethod t)
    (hclosed : t.peerKeying = s.peerKeying ∨ NoMethod t)
    (hsame : msg < 20 ∨ 49 < msg → t.handshake = s.handshake) : ServerDispatch msg env s t

theorem dispatch_server (msg : Nat) (env : PacketEnv) {s : Ssh}
    (hconnect : s.connectState = .begin)
    (hreply : msg ≠ msgidKexDhReply ∧ msg ≠ msgidKexDhGexReply) :
    ServerDispatch msg env s (s.dispatch msg env) := by
  have hkept : ∀ {t : Ssh}, msg ≠ msgidKexInit → Quiet s t → t.peerKeying = s.peerKeying →
      t.handshake = s.handshake → ServerDispatch msg env s t := by
    intro t hmsg hq hkeying heq
    exact .quiet hmsg hq (fun hno => hno.same (by rw [heq])) (.inl hkeying) fun _ => heq
  unfold Ssh.dispatch
  split
  · rename_i hmsg
    exact hkept (hmsg ▸ by decide) (.of_eq rfl rfl rfl rfl) rfl rfl
  · split
    · rename_i hmsg
      have hbegin := (doKexInit_frame env.len env.kexInit s).connectState.trans hconnect
      rw [Ssh.kexInitCase]
      dsimp only
      rw [if_neg (by rw [hbegin]; simp)]
      exact .kexInit hmsg
    · rename_i hinit
      split
      · rename_i hmsg
        have hout : ¬ (msg < 20 ∨ 49 < msg) := hmsg ▸ by decide
        rcases doNewKeys_cases env.len env.newKeys.cipher env.newKeys.adjusts env.newKeys.adjustRet s
          with heq | ⟨-, -, heq⟩
        · rw [heq]
          exact .quiet hinit (.refl s) id (.inl rfl) fun _ => rfl
        · have hnone : NoMethod (s.doNewKeys env.len env.newKeys.cipher env.newKeys.adjusts
              env.newKeys.adjustRet).1 := by
            rw [heq, NoMethod, sendPendingChannelWindowAdjust_handshake]
            simp
          exact .quiet hinit (.doNewKeys _ _ _ _ s) (fun _ => hnone) (.inr hnone)
            fun h => absurd h hout
      · split
        · rename_i hmsg
          exact .kexDhInit hmsg
        · rw [if_neg hreply.1, if_neg hreply.2]
          split
          · rename_i hmsg
            have hout : ¬ (msg < 20 ∨ 49 < msg) := hmsg ▸ by decide
            exact .quiet hinit (.doKexDhGexRequest _ _ _ s)
              (fun hno => hno.same (doKexDhGexRequest_kexId _ _ _ s))
              (.inl (Frame.doKexDhGexRequest _ _ _ s).peerKeying) fun h => absurd h hout
          · split
            · exact hkept hinit (.runEffects _ s) (Frame.runEffects _ s).peerKeying
                (runEffects_handshake _ s)
            · split
              · exact hkept hinit (.bundlePacket (by decide) s) rfl rfl
              · exact hkept hinit (.refl s) rfl rfl

/-- The peer has sent a NEWKEYS in the exchange that is open, or was the last one. -/
def HadNewKeys (r : Run) : Prop := ∃ d ∈ exchange r.dispatched, d.msg = msgidNewKeys
deriving Decidable

/-- No KEXDH_INIT or GEX_INIT is answered, or it comes after a NEWKEYS of the peer. -/
inductive Barred (r : Run) : Prop where
  | ended (h : r.ssh.disconnected)
  | noMethod (h : NoMethod r.ssh)
  | expects (h : ExpectsNewKeys r.ssh)
  | newKeys (h : HadNewKeys r)

theorem Barred.withholds {r r' : Run} (h : Barred r)
    (hended : r.ssh.disconnected → r'.ssh.disconnected) (hw : Withholds r.ssh r'.ssh)
    (heq : r'.dispatched = r.dispatched) : Barred r' := by
  cases h with
  | ended h => exact .ended (hended h)
  | noMethod h => exact .noMethod (hw.noMethod h)
  | expects h => exact .expects (hw.expects h)
  | newKeys h =>
    refine .newKeys ?_
    rw [HadNewKeys, heq]
    exact h

/-- A KEXINIT that is read as far as its method opens an exchange. -/
def Opens (r : Run) (msg : Nat) (env : KexInitEnv) : Prop :=
  msg = msgidKexInit ∧ r.ssh.disconnected = false ∧ r.ssh.peerKeying = false ∧
    env.kexList = none ∧ env.kexId ≠ .unknown
deriving Decidable

/-- What a step must meet as long as no EXT_INFO is out: a KEXINIT that offers it is the first one
or comes after one that did, and before NEWKEYS; and no second KEXDH_INIT comes after a NEWKEYS that
was refused. -/
def InFirstExchange (r : Run) : Event → Prop
  | .packet msg env => (∀ b ∈ r.ssh.bundled, b.msg ≠ msgidExtInfo) →
    (Opens r msg env.kexInit → env.kexInit.extInfo →
      ¬ HasNewKeys r.ssh.bundled ∧ r.ssh.firstOffer ≠ some false) ∧
    (msg = msgidKexDhInit ∨ msg = msgidKexDhGexInit → r.ssh.disconnected = false →
      r.ssh.peerKeying → r.ssh.firstOffer = some true → ReachesExtInfo env.kexDh → ¬ HadNewKeys r)
  | _ => True

instance (r : Run) (e : Event) : Decidable (InFirstExchange r e) :=
  match e with
  | .packet msg env => inferInstanceAs (Decidable ((∀ b ∈ r.ssh.bundled, b.msg ≠ msgidExtInfo) →
      (Opens r msg env.kexInit → env.kexInit.extInfo →
        ¬ HasNewKeys r.ssh.bundled ∧ r.ssh.firstOffer ≠ some false) ∧
      (msg = msgidKexDhInit ∨ msg = msgidKexDhGexInit → r.ssh.disconnected = false →
        r.ssh.peerKeying → r.ssh.firstOffer = some true → ReachesExtInfo env.kexDh →
          ¬ HadNewKeys r)))
  | .sendKexInit _ | .connectKex _ | .effects _ | .acceptState _ | .connectState _ =>
    inferInstanceAs (Decidable True)

/-- A server, which has no connect state, with EXT_INFO in place. Where EXT_INFO is due, the first
KEXINIT offered it, and after NEWKEYS no reply comes before the next KEXINIT. -/
structure ServerExt (r : Run) : Prop where
  side : r.ssh.side = .server
  connect : r.ssh.connectState = .begin
  ext : ExtInv r.ssh
  closed : r.ssh.peerKeying = false → NoMethod r.ssh
  due : r.ssh.sendExtInfo →
    r.ssh.firstOffer = some true ∧ (HasNewKeys r.ssh.bundled → Barred r)

theorem ServerExt.quiet {r : Run} (h : ServerExt r) {t : Ssh} (hf : Frame r.ssh t)
    (hq : Quiet r.ssh t) (hw : Withholds r.ssh t) : ServerExt { r with ssh := t } where
  side := hf.side.trans h.side
  connect := hf.connectState.trans h.connect
  ext := h.ext.quiet hq
  closed := fun hkeying => hw.noMethod (h.closed (hf.peerKeying ▸ hkeying))
  due := by
    intro hsend
    obtain ⟨hfirst, hbarred⟩ := h.due (hq.sendExtInfo ▸ hsend)
    refine ⟨hq.firstOffer.trans hfirst, fun hnew => ?_⟩
    exact (hbarred (hasNewKeys_old hq.bundled hnew)).withholds hf.ended hw rfl

theorem ServerExt.consume {r : Run} (h : ServerExt r) (msg : Nat) (done : Bool) :
    ServerExt (r.consume msg done) := by
  have hext : ∀ u : Ssh, Quiet r.ssh u → ExtInv u := fun u hq => h.ext.quiet hq
  have hdue : ∀ r' : Run, r'.ssh.disconnected = r.ssh.disconnected →
      r'.ssh.handshake = r.ssh.handshake → r'.dispatched = r.dispatched → Barred r → Barred r' := by
    intro r' hover hhs heq hbarred
    exact hbarred.withholds (fun hended => hover.trans hended) (.of_eq hhs) heq
  rw [Run.consume]
  split
  · exact ⟨h.side, h.connect, hext _ (.of_eq rfl rfl rfl rfl), h.closed,
      fun hsend => (h.due hsend).imp_right fun hb hnew => hdue _ rfl rfl rfl (hb hnew)⟩
  · exact ⟨h.side, h.connect, hext _ (.of_eq rfl rfl rfl rfl), h.closed,
      fun hsend => (h.due hsend).imp_right fun hb hnew => hdue _ rfl rfl rfl (hb hnew)⟩

abbrev Run.afterDispatch (r : Run) (msg : Nat) (env : PacketEnv) (s t : Ssh) : Run :=
  { r with
    ssh := t
    dispatched := Run.dispatchOf msg env s :: r.dispatched }

theorem Barred.dispatch {r : Run} (h : Barred r) {msg : Nat} (env : PacketEnv) {s t : Ssh}
    (hgate : isMessageAllowed r.ssh msg = some s) (hmsg : msg ≠ msgidKexInit)
    (hended : s.disconnected → t.disconnected) (hno : NoMethod s → NoMethod t)
    (hsame : msg < 20 ∨ 49 < msg → t.handshake = s.handshake) :
    Barred (r.afterDispatch msg env s t) := by
  cases h with
  | ended h => exact .ended (hended ((isMessageAllowed_frame hgate).ended h))
  | noMethod h => exact .noMethod (hno (isMessageAllowed_noMethod hgate h))
  | expects h =>
    by_cases hout : msg < 20 ∨ 49 < msg
    · refine .expects ?_
      rw [ExpectsNewKeys, hsame hout, isMessageAllowed_other hgate hout]
      exact h
    · have hnew := h.letIn (isMessageAllowed_kex hgate (by omega) (by omega)) hmsg
      have hmem : Run.dispatchOf msg env s ∈ exchange (Run.dispatchOf msg env s :: r.dispatched) := by
        have hbounds : 20 < msg ∧ msg ≤ 49 := hnew ▸ by decide
        rw [exchange_cons hbounds.1 hbounds.2]
        exact List.mem_cons_self
      exact .newKeys ⟨_, hmem, hnew⟩
  | newKeys h =>
    obtain ⟨d, hd, hnew⟩ := h
    refine .newKeys ⟨d, ?_, hnew⟩
    change d ∈ exchange (Run.dispatchOf msg env s :: r.dispatched)
    rw [exchange, if_neg (show ¬ (Run.dispatchOf msg env s).msg = msgidKexInit from hmsg)]
    split
    · exact List.mem_cons_of_mem _ hd
    · exact hd

theorem ServerExt.dispatchKexInit {r : Run} (h : ServerExt r) {env : PacketEnv}
    (hclean : InFirstExchange r (.packet msgidKexInit env)) (hlive : r.ssh.disconnected = false)
    (hkeying : r.ssh.peerKeying = false) :
    ServerExt (r.afterDispatch msgidKexInit env r.ssh
      (r.ssh.doKexInit env.len env.kexInit).1) := by
  have hoffers := doKexInit_offers env.len env.kexInit r.ssh
  have hframe := doKexInit_frame env.len env.kexInit r.ssh
  have hext := h.ext.offers hoffers
  refine ⟨hframe.side.trans h.side, hframe.connectState.trans h.connect, hext, ?_, ?_⟩
  · intro hopen
    rcases hoffers.decides with ⟨-, -, hmethod⟩ | ⟨hk, -⟩
    · exact hmethod (h.closed hkeying)
    · exact absurd hk (by simpa using hopen)
  · intro hsend
    rcases hoffers.decides with ⟨hsame, hfirst, hmethod⟩ | ⟨-, hlist, hmethod, hset, hfirst⟩
    · obtain ⟨hdue, -⟩ := h.due (hsame ▸ hsend)
      exact ⟨hfirst.trans hdue, fun _ => .noMethod (hmethod (h.closed hkeying))⟩
    · have hunsent : r.ssh.extInfoSent = false := hoffers.extInfoSent.symm.trans (hext.pending hsend)
      have hoffer : env.kexInit.extInfo := by
        dsimp only at hsend
        rw [hset, hunsent] at hsend
        simpa using hsend
      obtain ⟨hnone, hold⟩ := (hclean (h.ext.unsent hunsent)).1
        ⟨rfl, hlive, hkeying, hlist, hmethod⟩ hoffer
      refine ⟨?_, fun hnew => absurd (hasNewKeys_old hoffers.bundled hnew) hnone⟩
      dsimp only
      rw [hfirst, hoffer]
      cases hcase : r.ssh.firstOffer with
      | none => rfl
      | some offer =>
        cases offer with
        | false => exact absurd hcase hold
        | true => rfl

theorem ServerExt.dispatchKexDhInit {r : Run} (h : ServerExt r) {msg : Nat} {env : PacketEnv}
    (hmsg : msg = msgidKexDhInit ∨ msg = msgidKexDhGexInit)
    (hclean : InFirstExchange r (.packet msg env)) (hlive : r.ssh.disconnected = false) {s : Ssh}
    (hgate : isMessageAllowed r.ssh msg = some s) :
    ServerExt (r.afterDispatch msg env s (s.doKexDhInit env.len env.kexDh).1) := by
  have hq := isMessageAllowed_quiet hgate
  have hgateFrame := isMessageAllowed_frame hgate
  have hf := hgateFrame.trans (Frame.doKexDhInit env.len env.kexDh s)
  have hbounds : 20 < msg ∧ msg ≤ 49 := by
    rcases hmsg with rfl | rfl <;> decide
  have hinit : msg ≠ msgidKexInit := by
    rcases hmsg with rfl | rfl <;> decide
  have hkex := isMessageAllowed_kex hgate (by omega) hbounds.2
  have hkeying : r.ssh.peerKeying := by
    cases hkex with
    | kexInit _ hmsg' _ => exact absurd hmsg' hinit
    | expected _ hmeets => exact hmeets.1
    | unguarded _ hkeying _ _ _ => exact hkeying
  have hcarry : Barred r →
      Barred (r.afterDispatch msg env s (s.doKexDhInit env.len env.kexDh).1) :=
    fun hb => hb.dispatch env hgate hinit (Frame.doKexDhInit env.len env.kexDh s).ended
      (fun hno => hno.same (doKexDhInit_kexId env.len env.kexDh s)) (by omega)
  have hreplied := doKexDhInit_replied env.len env.kexDh (hgateFrame.peerKeying.trans hkeying)
  refine ⟨hf.side.trans h.side, hf.connectState.trans h.connect, ?_, ?_, ?_⟩
  · have hinv := h.ext.quiet hq
    by_cases hno : NoMethod s
    · exact hinv.quiet (doKexDhInit_noMethod env.len env.kexDh hno)
    · refine doKexDhInit_ext _ _ hinv (hgateFrame.peerKeying.trans hkeying) fun hsend hreach => ?_
      obtain ⟨hfirst, hbarred⟩ := h.due (hq.sendExtInfo ▸ hsend)
      have hunsent := h.ext.pending (hq.sendExtInfo ▸ hsend)
      refine FirstExchange.quiet ⟨fun hnew => ?_, hfirst⟩ hq
      cases hbarred hnew with
      | ended hover => simp [hlive] at hover
      | noMethod hmethod => exact hno (isMessageAllowed_noMethod hgate hmethod)
      | expects hexpects =>
        have hnew := hexpects.letIn hkex hinit
        rcases hmsg with rfl | rfl <;> cases hnew
      | newKeys hhad => exact (hclean (h.ext.unsent hunsent)).2 hmsg hlive hkeying hfirst hreach hhad
  · intro hnot
    exact absurd (hf.peerKeying.trans hkeying) (by simpa using hnot)
  · intro hsend
    obtain ⟨hfirst, hbarred⟩ := h.due (hq.sendExtInfo ▸ hreplied.sendExtInfo hsend)
    refine ⟨(hreplied.firstOffer.trans hq.firstOffer).trans hfirst, fun hnew => ?_⟩
    rcases hreplied.newKeys hnew with hold | hexpects
    · exact hcarry (hbarred (hasNewKeys_old hq.bundled hold))
    · exact .expects hexpects

theorem ServerExt.dispatch {r : Run} (h : ServerExt r) {msg : Nat} {env : PacketEnv}
    (hclean : InFirstExchange r (.packet msg env)) {s : Ssh}
    (hgate : isMessageAllowed r.ssh msg = some s) (hlive : s.disconnected → msg = msgidDisconnect) :
    ServerExt (r.afterDispatch msg env s (s.dispatch msg env)) := by
  have hq := isMessageAllowed_quiet hgate
  have hframe := isMessageAllowed_frame hgate
  have hopen : msg ≠ msgidDisconnect → r.ssh.disconnected = false := by
    intro hmsg
    cases hover : r.ssh.disconnected with
    | false => rfl
    | true => exact absurd (hlive (hframe.ended hover)) hmsg
  have hreply := isMessageAllowed_noReply h.side hgate
  have hkept : (s.dispatch msg env).side = s.side ∧
      (s.dispatch msg env).connectState = s.connectState ∧
      (s.disconnected → (s.dispatch msg env).disconnected) := by
    cases dispatch_effect msg env s with
    | frame hf _ _ => exact ⟨hf.side, hf.connectState, hf.ended⟩
    | kexInit _ hf => exact ⟨hf.side, hf.connectState, hf.ended⟩
    | newKeys _ _ hf => exact ⟨hf.side, hf.connectState, hf.ended⟩
  have hcases := dispatch_server msg env (hframe.connectState.trans h.connect) hreply
  generalize s.dispatch msg env = t at *
  cases hcases with
  | kexInit hmsg =>
    subst hmsg
    cases isMessageAllowed_kex hgate (by decide) (by decide) with
    | kexInit hkeying _ heq =>
      subst heq
      exact h.dispatchKexInit hclean (hopen (by decide)) hkeying
    | expected hne _ => exact absurd rfl hne
    | unguarded _ _ hne _ _ => exact absurd rfl hne
  | kexDhInit hmsg =>
    exact h.dispatchKexDhInit hmsg hclean (hopen (by rcases hmsg with rfl | rfl <;> decide)) hgate
  | quiet hmsg hquiet hno hclosed hsame =>
    have hall := hq.trans hquiet
    refine ⟨(hkept.1.trans hframe.side).trans h.side,
      (hkept.2.1.trans hframe.connectState).trans h.connect, h.ext.quiet hall, ?_, ?_⟩
    · intro hk
      rcases hclosed with heq | hnone
      · exact hno (isMessageAllowed_noMethod hgate
          (h.closed ((hframe.peerKeying.symm.trans heq.symm).trans hk)))
      · exact hnone
    · intro hsend
      obtain ⟨hfirst, hbarred⟩ := h.due (hall.sendExtInfo ▸ hsend)
      refine ⟨hall.firstOffer.trans hfirst, fun hnew => ?_⟩
      exact (hbarred (hasNewKeys_old hall.bundled hnew)).dispatch env hgate hmsg hkept.2.2 hno hsame

theorem ServerExt.handle {r : Run} (h : ServerExt r) {msg : Nat} {env : PacketEnv}
    (hclean : InFirstExchange r (.packet msg env)) {s : Ssh}
    (hgate : isMessageAllowed r.ssh msg = some s) (hlive : s.disconnected → msg = msgidDisconnect) :
    ServerExt (Run.handle msg env s r) := by
  have hnext := h.dispatch hclean hgate hlive
  rw [Run.handle]
  split
  · exact hnext
  · exact hnext.consume _ _

theorem ServerExt.over {r : Run} (h : ServerExt r) {msg : Nat} {s : Ssh}
    (hgate : isMessageAllowed r.ssh msg = some s) (hover : s.disconnected) :
    ServerExt { r with ssh := s } := by
  have hq := isMessageAllowed_quiet hgate
  have hframe := isMessageAllowed_frame hgate
  refine ⟨hframe.side.trans h.side, hframe.connectState.trans h.connect, h.ext.quiet hq, ?_, ?_⟩
  · exact fun hk => isMessageAllowed_noMethod hgate (h.closed (hframe.peerKeying ▸ hk))
  · intro hsend
    exact ⟨hq.firstOffer.trans (h.due (hq.sendExtInfo ▸ hsend)).1, fun _ => .ended hover⟩

theorem ServerExt.doPacket {r : Run} (h : ServerExt r) {msg : Nat} {env : PacketEnv}
    (hclean : InFirstExchange r (.packet msg env)) : ServerExt (r.doPacket msg env) := by
  rw [Run.doPacket]
  split
  · split
    · split
      · exact h
      · exact h.quiet (Frame.sendDisconnect _ _) (Quiet.sendDisconnect _ _)
          (.of_eq (sendDisconnect_handshake _ _))
    · split
      · exact h.consume _ _
      · exact (h.quiet (Frame.bundlePacket (by decide) _)
          (Quiet.bundlePacket (by decide) _) (.of_eq rfl)).consume _ _
  · rename_i s hgate
    split
    · rename_i hover
      exact (h.over hgate hover.1).consume _ _
    · rename_i hopen
      refine h.handle hclean hgate fun hover => ?_
      by_contra hmsg
      exact hopen ⟨hover, hmsg⟩

theorem ServerExt.call {r : Run} (h : ServerExt r) {f : Ssh → Ssh} (hf : Frame r.ssh (f r.ssh))
    (hq : Quiet r.ssh (f r.ssh)) (hw : Withholds r.ssh (f r.ssh)) : ServerExt (r.call f) := by
  rw [Run.call]
  split
  · exact h
  · exact h.quiet hf hq hw

theorem ServerExt.step {r : Run} {e : Event} (h : ServerExt r) (hclean : InFirstExchange r e) :
    ServerExt (r.step e) := by
  cases e with
  | packet msg env => exact h.doPacket hclean
  | sendKexInit sent =>
    exact h.call (f := fun ssh => (ssh.sendKexInit sent).1) (Frame.sendKexInit sent _)
      (Quiet.sendKexInit sent _) (Withholds.sendKexInit sent _)
  | connectKex env =>
    have hclient : r.ssh.connectKex env = r.ssh := by
      rw [Ssh.connectKex, if_neg (by simp [h.side])]
    refine h.call (Frame.connectKex env _) ?_ ?_
    · rw [hclient]
      exact Quiet.refl _
    · exact .of_eq (by rw [hclient])
  | effects fx =>
    exact h.call (Frame.runEffects fx _) (Quiet.runEffects fx _)
      (.of_eq (runEffects_handshake fx _))
  | acceptState st =>
    have hsame : ServerExt { r with ssh := { r.ssh with acceptState := st } } := by
      refine ⟨h.side, h.connect, h.ext.quiet (.of_eq rfl rfl rfl rfl), h.closed, fun hsend => ?_⟩
      exact (h.due hsend).imp_right fun hb hnew => (hb hnew).withholds id (.of_eq rfl) rfl
    exact hsame
  | connectState st =>
    rw [Run.step, Ssh.setConnectState, if_neg (by simp [h.side])]
    exact h

/-- The place of EXT_INFO among the packets of a server, the latest first: right after the first
NEWKEYS, once at most, and only if the first KEXINIT offered it. -/
structure ExtInfoOnce (r : Run) : Prop where
  place : ExtInfoInPlace r.ssh.bundled
  once : (r.ssh.bundled.filter fun b => b.msg = msgidExtInfo).length ≤ 1
  offered : (∃ b ∈ r.ssh.bundled, b.msg = msgidExtInfo) → r.ssh.firstOffer = some true

theorem ExtInfoInPlace.once {bundled : List Bundled} (h : ExtInfoInPlace bundled) :
    (bundled.filter fun b => b.msg = msgidExtInfo).length ≤ 1 := by
  induction bundled with
  | nil => simp
  | cons b older ih =>
    by_cases hb : b.msg = msgidExtInfo
    · obtain ⟨newKeys, rest, rfl, hnew, hrest⟩ := h.1 hb
      have hnone : (newKeys :: rest).filter (fun b => decide (b.msg = msgidExtInfo)) = [] := by
        rw [List.filter_eq_nil_iff]
        intro c hc
        rw [List.mem_cons] at hc
        rcases hc with rfl | hc
        · simp [hnew]
        · simpa using (hrest c hc).2
      rw [List.filter_cons_of_pos (by simpa using hb), hnone]
      simp
    · rw [List.filter_cons_of_neg (by simpa using hb)]
      exact ih h.2

theorem start_ext (sendStrictKex : Bool) : ServerExt (start .server sendStrictKex) where
  side := rfl
  connect := rfl
  ext := ⟨trivial, by simp [start], by simp [start], by simp [start]⟩
  closed := fun _ => by simp [start, NoMethod]
  due := by simp [start]

/-- An exchange whose KEXINIT offers EXT_INFO or not, and whose NEWKEYS is sent with `send`. -/
def extInfoExchange (offer : Bool) (send : Ret) : List Event :=
  [ .packet msgidKexInit { len := 100, kexInit := { kexId := .curve25519Sha256, extInfo := offer } },
    .packet msgidKexDhInit { len := 36, kexDh := { newKeys := { send := send } } },
    .packet msgidNewKeys {} ]

def extInfoRekey (send : Ret) : List Event :=
  extInfoExchange true send ++ extInfoExchange true (.ok ())

theorem ExtInfoInPlace.newKeys_not_mem {bundled : List Bundled} (h : ExtInfoInPlace bundled)
    {msgs : List Nat} (hmsgs : bundled.map Bundled.msg = msgidExtInfo :: msgidNewKeys :: msgs) :
    msgidNewKeys ∉ msgs := by
  cases bundled with
  | nil => cases hmsgs
  | cons b older =>
    rw [List.map_cons, List.cons.injEq] at hmsgs
    obtain ⟨newKeys, rest, rfl, -, hrest⟩ := h.1 hmsgs.1
    rw [List.map_cons, List.cons.injEq] at hmsgs
    rw [← hmsgs.2.2]
    intro hmem
    obtain ⟨c, hc, hmsg⟩ := List.mem_map.mp hmem
    exact (hrest c hc).1 hmsg

end WolfSsh.Session
