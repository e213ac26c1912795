import WolfSsh.KexSession

/-! Strict key exchange: what a session consumes before the peer's first NEWKEYS, and how the
sequence numbers start again after a NEWKEYS in either direction. -/

namespace WolfSsh.Session

/-- After an entry that restarts the count the next number is 0; `next` is the number of the entry
that comes next, and the list has the latest entry first. -/
def Restarts {α : Type} (restart : α → Bool) (number : α → Nat) : List α → Nat → Prop
  | [], _ => True
  | a :: older, next => (restart a → next = 0) ∧ Restarts restart number older (number a)

theorem Restarts.cons {α : Type} {restart : α → Bool} {number : α → Nat} {as : List α} {a : α}
    {next : Nat} (h : Restarts restart number as (number a)) (ha : restart a → next = 0) :
    Restarts restart number (a :: as) next :=
  ⟨ha, h⟩

/-- A NEWKEYS that is bundled under strict KEX. -/
def Bundled.restarts (b : Bundled) : Bool := b.msg = msgidNewKeys && b.strict

/-- A NEWKEYS that has installed keys under strict KEX. -/
def Consumed.restarts (c : Consumed) : Bool := c.installs && c.strict

def Ssh.SeqRestarts (ssh : Ssh) : Prop := Restarts Bundled.restarts Bundled.seq ssh.bundled ssh.seq

def Run.PeerSeqRestarts (r : Run) : Prop :=
  Restarts Consumed.restarts Consumed.peerSeq r.consumed r.ssh.peerSeq

theorem kexMethod_msgs {id : AlgoId} {method : KexMethod} (h : kexMethod id = some method) :
    (method.initId.toNat = if id = .dhGexSha256 then msgidKexDhGexInit else msgidKexDhInit) ∧
      method.initId.toNat ≠ msgidNewKeys ∧ method.replyId.toNat ≠ msgidNewKeys := by
  cases id <;> simp [kexMethod] at h <;> subst h <;> decide

/-- What no handler but those of KEXINIT and NEWKEYS changes. -/
structure Frame (s t : Ssh) : Prop where
  side : t.side = s.side
  kexId : t.kexId = s.kexId
  connectState : t.connectState = s.connectState
  sendStrictKex : t.sendStrictKex = s.sendStrictKex
  useStrictKex : t.useStrictKex = s.useStrictKex
  peerKeying : t.peerKeying = s.peerKeying
  initialKexDone : t.initialKexDone = s.initialKexDone
  peerSeq : t.peerSeq = s.peerSeq
  ended : s.disconnected → t.disconnected
  seq : s.SeqRestarts → t.SeqRestarts

namespace Frame

variable {s t u : Ssh}

theorem refl (s : Ssh) : Frame s s := ⟨rfl, rfl, rfl, rfl, rfl, rfl, rfl, rfl, id, id⟩

theorem trans (h : Frame s t) (h' : Frame t u) : Frame s u where
  side := h'.side.trans h.side
  kexId := h'.kexId.trans h.kexId
  connectState := h'.connectState.trans h.connectState
  sendStrictKex := h'.sendStrictKex.trans h.sendStrictKex
  useStrictKex := h'.useStrictKex.trans h.useStrictKex
  peerKeying := h'.peerKeying.trans h.peerKeying
  initialKexDone := h'.initialKexDone.trans h.initialKexDone
  peerSeq := h'.peerSeq.trans h.peerSeq
  ended := fun ho => h'.ended (h.ended ho)
  seq := fun hs => h'.seq (h.seq hs)

theorem bundlePacket {msg : Nat} (hmsg : msg ≠ msgidNewKeys) (s : Ssh) :
    Frame s (s.bundlePacket msg) := by
  refine ⟨rfl, rfl, rfl, rfl, rfl, rfl, rfl, rfl, id, fun hs => ?_⟩
  exact Restarts.cons hs (by simp [Bundled.restarts, hmsg])

theorem iterate {f : Ssh → Ssh} (hf : ∀ s, Frame s (f s)) (n : Nat) (s : Ssh) :
    Frame s (f^[n] s) := by
  induction n generalizing s with
  | zero => exact refl s
  | succ n ih =>
    rw [Function.iterate_succ_apply]
    exact (hf s).trans (ih (f s))

theorem sendDisconnect (bundles : Bool) (s : Ssh) : Frame s (s.sendDisconnect bundles) := by
  have hover : Frame s { s with disconnected := true } := ⟨rfl, rfl, rfl, rfl, rfl, rfl, rfl, rfl, fun _ => rfl, id⟩
  cases bundles with
  | false => exact hover
  | true => exact hover.trans (bundlePacket (by decide) _)

theorem updHandshake (f : Handshake → Handshake) (s : Ssh) : Frame s (s.updHandshake f) :=
  ⟨rfl, rfl, rfl, rfl, rfl, rfl, rfl, rfl, id, id⟩

theorem expect (msg : Nat) (s : Ssh) : Frame s (s.expect msg) := ⟨rfl, rfl, rfl, rfl, rfl, rfl, rfl, rfl, id, id⟩

theorem needHandshake (s : Ssh) : Frame s s.needHandshake := ⟨rfl, rfl, rfl, rfl, rfl, rfl, rfl, rfl, id, id⟩

theorem saveSessionId (hSz : Nat) (s : Ssh) : Frame s (s.saveSessionId hSz) := by
  rw [Ssh.saveSessionId]
  split
  · exact ⟨rfl, rfl, rfl, rfl, rfl, rfl, rfl, rfl, id, id⟩
  · exact refl s

theorem sendKexInit (sent : Sent) (s : Ssh) : Frame s (s.sendKexInit sent).1 := by
  have hbundle := (needHandshake s).trans (bundlePacket (show msgidKexInit ≠ msgidNewKeys by decide) _)
  unfold Ssh.sendKexInit
  split
  · exact refl s
  · exact needHandshake s
  · exact hbundle
  · exact hbundle.trans ⟨rfl, rfl, rfl, rfl, rfl, rfl, rfl, rfl, id, id⟩

theorem sendPendingChannelWindowAdjust (adjusts : Nat) (ret : Ret) (s : Ssh) :
    Frame s (s.sendPendingChannelWindowAdjust adjusts ret).1 := by
  rw [Ssh.sendPendingChannelWindowAdjust]
  split
  · exact refl s
  · exact iterate (bundlePacket (by decide)) adjusts s

/-- The number that follows a strict NEWKEYS is set before anything else is bundled. -/
theorem bundleNewKeys (s : Ssh) :
    let t := s.bundlePacket msgidNewKeys
    Frame s (if t.useStrictKex then { t with seq := 0 } else t) := by
  intro t
  split
  · exact ⟨rfl, rfl, rfl, rfl, rfl, rfl, rfl, rfl, id, fun hs => Restarts.cons hs fun _ => rfl⟩
  · rename_i hstrict
    have hrestarts : (Bundled.mk msgidNewKeys s.seq s.useStrictKex).restarts = false := by
      simpa [Bundled.restarts, t, Ssh.bundlePacket] using hstrict
    exact ⟨rfl, rfl, rfl, rfl, rfl, rfl, rfl, rfl, id, fun hs => Restarts.cons hs (by simp [hrestarts])⟩

theorem sendNewKeys (env : NewKeysEnv) (s : Ssh) : Frame s (s.sendNewKeys env).1 := by
  rw [Ssh.sendNewKeys]
  split
  · exact refl s
  · have hnew := bundleNewKeys s
    dsimp only at hnew ⊢
    split
    · exact hnew
    · refine hnew.trans (Frame.trans ?_ (sendPendingChannelWindowAdjust env.adjusts env.adjustRet _))
      exact ⟨rfl, rfl, rfl, rfl, rfl, rfl, rfl, rfl, id, id⟩

theorem sendExtInfoMsg (sent : Sent) (s : Ssh) : Frame s (s.sendExtInfoMsg sent).1 := by
  have hbundle : Frame s s.bundleExtInfo :=
    (bundlePacket (show msgidExtInfo ≠ msgidNewKeys by decide) s).trans
      ⟨rfl, rfl, rfl, rfl, rfl, rfl, rfl, rfl, id, id⟩
  unfold Ssh.sendExtInfoMsg
  split
  · exact refl s
  · exact hbundle
  · exact hbundle

theorem sendKexDhReplyBundle (env : KexDhEnv) {method : KexMethod}
    (hmsg : method.replyId.toNat ≠ msgidNewKeys) (s : Ssh) :
    Frame s (s.sendKexDhReplyBundle env method).1 := by
  rw [Ssh.sendKexDhReplyBundle]
  split
  · exact refl s
  · have hnew := ((bundlePacket hmsg s).trans (expect msgidNewKeys _)).trans
      (sendNewKeys env.newKeys _)
    dsimp only
    split
    · exact hnew.trans (sendExtInfoMsg env.extInfo _)
    · exact hnew

theorem sendKexDhReplyHashed (env : KexDhEnv) {method : KexMethod}
    (hmsg : method.replyId.toNat ≠ msgidNewKeys) (s : Ssh) :
    Frame s (s.sendKexDhReplyHashed env method).1 := by
  rw [Ssh.sendKexDhReplyHashed]
  split
  · exact refl s
  · split
    · exact refl s
    · exact (updHandshake _ s).trans (sendKexDhReplyBundle env hmsg _)

theorem sendKexDhReply (env : KexDhEnv) (kexId : AlgoId) (s : Ssh) :
    Frame s (s.sendKexDhReply env kexId).1 := by
  rw [Ssh.sendKexDhReply]
  split
  · exact refl s
  · rename_i method hmethod
    split
    · exact refl s
    · exact (saveSessionId env.hSz s).trans
        (sendKexDhReplyHashed env (kexMethod_msgs hmethod).2.2 _)

theorem disconnectOn (errs : List WsErr) (bundles : Bool) {r : Ssh × Ret} (h : Frame s r.1) :
    Frame s (Ssh.disconnectOn errs bundles r).1 := by
  rw [Ssh.disconnectOn]
  split
  · exact h
  · split
    · exact h.trans (sendDisconnect bundles r.1)
    · exact h

theorem expectClientKexMsg (s : Ssh) : Frame s s.expectClientKexMsg := updHandshake _ s

theorem skipGuessedKexMsg (s : Ssh) : Frame s s.skipGuessedKexMsg := by
  rw [Ssh.skipGuessedKexMsg]
  split
  · exact (updHandshake _ s).trans (expectClientKexMsg _)
  · exact updHandshake _ s

theorem doKexDhInit (len : Nat) (env : KexDhEnv) (s : Ssh) : Frame s (s.doKexDhInit len env).1 := by
  rw [Ssh.doKexDhInit]
  split
  · exact refl s
  · split
    · exact refl s
    · split
      · exact skipGuessedKexMsg s
      · apply disconnectOn
        split
        · exact refl s
        · refine Frame.trans ?_ (sendKexDhReply env _ _)
          exact ⟨rfl, rfl, rfl, rfl, rfl, rfl, rfl, rfl, id, id⟩

theorem sendKexMsg (env : KexSendEnv) {msg : Nat} (hmsg : msg ≠ msgidNewKeys) (expected : Nat)
    (s : Ssh) : Frame s (s.sendKexMsg env msg expected).1 := by
  rw [Ssh.sendKexMsg]
  split
  · exact refl s
  · exact (bundlePacket hmsg s).trans (expect expected _)

theorem sendKexDhGexRequest (env : KexSendEnv) (s : Ssh) : Frame s (s.sendKexDhGexRequest env).1 := by
  rw [Ssh.sendKexDhGexRequest]
  split
  · exact refl s
  · exact sendKexMsg env (by decide) _ s

theorem sendKexDhGexGroup (env : KexSendEnv) (s : Ssh) : Frame s (s.sendKexDhGexGroup env).1 := by
  rw [Ssh.sendKexDhGexGroup]
  split
  · exact refl s
  · exact sendKexMsg env (by decide) _ s

theorem sendKexDhInit (env : KexSendEnv) (s : Ssh) : Frame s (s.sendKexDhInit env).1 := by
  rw [Ssh.sendKexDhInit]
  split
  · exact refl s
  · split
    · exact refl s
    · rename_i method hmethod
      exact sendKexMsg env (kexMethod_msgs hmethod).2.1 _ s

theorem sendFirstKexMsg (env : KexSendEnv) (s : Ssh) : Frame s (s.sendFirstKexMsg env).1 := by
  rw [Ssh.sendFirstKexMsg]
  split
  · exact refl s
  · split
    · exact sendKexDhGexRequest env s
    · exact sendKexDhInit env s

theorem connectKex (env : KexSendEnv) (s : Ssh) : Frame s (s.connectKex env) := by
  rw [Ssh.connectKex]
  split
  · exact sendFirstKexMsg env s
  · exact refl s

theorem doKexDhGexRequest (len : Nat) (parse : Option WsErr) (send : KexSendEnv) (s : Ssh) :
    Frame s (s.doKexDhGexRequest len parse send).1 := by
  unfold Ssh.doKexDhGexRequest
  split
  · exact refl s
  · split
    · exact refl s
    · split
      · exact skipGuessedKexMsg s
      · split
        · exact refl s
        · exact sendKexDhGexGroup send s

theorem doKexDhGexGroup (len : Nat) (parse : Option WsErr) (send : KexSendEnv) (bundles : Bool)
    (s : Ssh) : Frame s (s.doKexDhGexGroup len parse send bundles).1 := by
  unfold Ssh.doKexDhGexGroup
  apply disconnectOn
  split
  · exact refl s
  · split
    · exact refl s
    · exact sendKexDhInit send s

theorem doKexDhReplyHashed (env : KexDhEnv) (s : Ssh) : Frame s (s.doKexDhReplyHashed env).1 := by
  have hid := saveSessionId env.hSz s
  rw [Ssh.doKexDhReplyHashed]
  dsimp only
  split
  · exact hid
  · split
    · exact hid.trans (updHandshake _ _)
    · exact ((hid.trans (updHandshake _ _)).trans (updHandshake _ _)).trans
        ((expect _ _).trans (sendNewKeys _ _))

theorem doKexDhReply (len : Nat) (env : KexDhEnv) (s : Ssh) :
    Frame s (s.doKexDhReply len env).1 := by
  rw [Ssh.doKexDhReply]
  split
  · exact refl s
  · apply disconnectOn
    split
    · exact refl s
    · split
      · exact refl s
      · exact doKexDhReplyHashed env s

theorem kexDhReplyCase (env : PacketEnv) (s : Ssh) : Frame s (s.kexDhReplyCase env).1 := by
  rw [Ssh.kexDhReplyCase]
  split
  · exact refl s
  · split
    · exact doKexDhGexGroup _ _ _ _ s
    · exact doKexDhReply _ _ s

theorem bundleAll {msgs : List Nat} (hmsgs : msgidNewKeys ∉ msgs) (s : Ssh) :
    Frame s (s.bundleAll msgs) := by
  induction msgs generalizing s with
  | nil => exact refl s
  | cons msg msgs ih =>
    rw [List.mem_cons, not_or] at hmsgs
    exact (bundlePacket (Ne.symm hmsgs.1) s).trans (ih hmsgs.2 _)

theorem runEffects (fx : Effects) (s : Ssh) : Frame s (s.runEffects fx) := by
  have hmsgs : msgidNewKeys ∉ fx.sends.map Subtype.val := by
    intro h
    obtain ⟨msg, -, hmsg⟩ := List.mem_map.mp h
    exact msg.2.2.1 hmsg
  have hover : ∀ s : Ssh, Frame s
      { s with
        disconnected := s.disconnected || fx.ends
        clientState := fx.clientState.getD s.clientState
        serverState := fx.serverState.getD s.serverState } := by
    intro s
    exact ⟨rfl, rfl, rfl, rfl, rfl, rfl, rfl, rfl, fun h => by simp [h], id⟩
  exact (bundleAll hmsgs s).trans (hover _)

theorem doKexInitAnswer (env : KexInitEnv) (s : Ssh) : Frame s (s.doKexInitAnswer env).1 := by
  have hsend : Frame s (if s.selfKeying then (s, .ok ()) else s.sendKexInit env.send).1 := by
    split
    · exact refl s
    · exact sendKexInit env.send s
  unfold Ssh.doKexInitAnswer
  generalize (if s.selfKeying then (s, .ok ()) else s.sendKexInit env.send : Ssh × Ret) = r at hsend ⊢
  obtain ⟨t, ret⟩ := r
  have hserver : Frame t { t with clientState := .kexInitDone } := ⟨rfl, rfl, rfl, rfl, rfl, rfl, rfl, rfl, id, id⟩
  dsimp only at hsend ⊢
  split
  iterate 2
    split
    · exact hsend
    · split
      · dsimp only
        split
        · exact hsend.trans hserver
        · exact (hsend.trans hserver).trans (expectClientKexMsg _)
      · exact hsend.trans ⟨rfl, rfl, rfl, rfl, rfl, rfl, rfl, rfl, id, id⟩
  · exact hsend

theorem doKexInitRest (env : KexInitEnv) (s : Ssh) : Frame s (s.doKexInitRest env).1 := by
  have hguess : Frame s (if env.wrongGuess ∧ s.side = .server then
      s.updHandshake fun hs => { hs with ignoreNextKexMsg := true } else s) := by
    split
    · exact updHandshake _ s
    · exact refl s
  rw [Ssh.doKexInitRest]
  split
  · exact refl s
  · dsimp only
    split
    · exact hguess
    · exact hguess.trans (doKexInitAnswer env _)

end Frame

/-- What a KEXINIT may change: from then on the peer is keying, and if that turned strict KEX on the
packet was the peer's first, or the session is over. -/
structure KexInitFrame (s t : Ssh) : Prop where
  side : t.side = s.side
  connectState : t.connectState = s.connectState
  initialKexDone : t.initialKexDone = s.initialKexDone
  peerSeq : t.peerSeq = s.peerSeq
  ended : s.disconnected → t.disconnected
  seq : s.SeqRestarts → t.SeqRestarts
  strict : (t.peerKeying = s.peerKeying ∧ t.useStrictKex = s.useStrictKex) ∨
    (t.peerKeying ∧ (t.useStrictKex → s.useStrictKex ∨ s.peerSeq = 0 ∨ t.disconnected))

theorem Frame.kexInit {s t : Ssh} (h : Frame s t) : KexInitFrame s t :=
  ⟨h.side, h.connectState, h.initialKexDone, h.peerSeq, h.ended, h.seq,
    .inl ⟨h.peerKeying, h.useStrictKex⟩⟩

theorem KexInitFrame.trans {s t u : Ssh} (h : KexInitFrame s t) (h' : Frame t u) :
    KexInitFrame s u where
  side := h'.side.trans h.side
  connectState := h'.connectState.trans h.connectState
  initialKexDone := h'.initialKexDone.trans h.initialKexDone
  peerSeq := h'.peerSeq.trans h.peerSeq
  ended := fun ho => h'.ended (h.ended ho)
  seq := fun hs => h'.seq (h.seq hs)
  strict := by
    rw [h'.peerKeying, h'.useStrictKex]
    refine h.strict.imp_right fun ⟨hkeying, hstrict⟩ => ⟨hkeying, fun hu => ?_⟩
    exact (hstrict hu).imp_right (Or.imp_right h'.ended)

theorem doKexInitStrict_frame (env : KexInitEnv) {s : Ssh} (hkeying : s.peerKeying) :
    KexInitFrame s (s.doKexInitStrict env).1 := by
  rw [Ssh.doKexInitStrict]
  split
  · dsimp only
    have hmark : ∀ b : Bool, (b → s.peerSeq = 0) → KexInitFrame s { s with useStrictKex := b } :=
      fun b hb => ⟨rfl, rfl, rfl, rfl, id, id, .inr ⟨hkeying, fun hu => .inr (.inl (hb hu))⟩⟩
    split
    · have hover := Frame.sendDisconnect env.disconnectBundles
        { s with useStrictKex := env.strictMarker && s.sendStrictKex }
      have hend : ∀ (b : Bool) (u : Ssh), (u.sendDisconnect b).disconnected := by
        intro b u
        cases b <;> rfl
      exact ⟨hover.side, hover.connectState, hover.initialKexDone, hover.peerSeq, hover.ended, hover.seq,
        .inr ⟨hover.peerKeying.trans hkeying, fun _ => .inr (.inr (hend _ _))⟩⟩
    · rename_i hfirst
      refine (hmark _ fun hb => ?_).trans (Frame.doKexInitRest env _)
      by_contra hseq
      exact hfirst ⟨hb, hseq⟩
  · exact (Frame.doKexInitRest env s).kexInit

theorem doKexInitLists_frame (env : KexInitEnv) {s : Ssh} (hkeying : s.peerKeying) :
    KexInitFrame s (s.doKexInitLists env).1 := by
  rw [Ssh.doKexInitLists]
  split
  · exact (Frame.refl s).kexInit
  · split
    · exact (Frame.refl s).kexInit
    · obtain ⟨h1, h2, h3, h4, h5, h6, h7⟩ := doKexInitStrict_frame env
        (s := { s.updHandshake fun hs => { hs with kexId := env.kexId } with
          kexId := env.kexId
          sendExtInfo := if s.extInfoSent then s.sendExtInfo else env.extInfo
          firstOffer := s.firstOffer.or (some env.extInfo) }) hkeying
      exact ⟨h1, h2, h3, h4, h5, h6, h7⟩

theorem doKexInit_frame (len : Nat) (env : KexInitEnv) (s : Ssh) :
    KexInitFrame s (s.doKexInit len env).1 := by
  rw [Ssh.doKexInit]
  split
  · exact (Frame.refl s).kexInit
  · split
    · exact (Frame.refl s).kexInit
    · obtain ⟨h1, h2, h3, h4, h5, h6, h7⟩ := doKexInitLists_frame env
        (s := { s.needHandshake with peerKeying := true }) rfl
      have hopen : KexInitFrame s
          (Ssh.doKexInitLists env { s.needHandshake with peerKeying := true }).1 := by
        refine ⟨h1, h2, h3, h4, h5, h6, .inr ?_⟩
        rcases h7 with ⟨hk, hu⟩ | h
        · exact ⟨hk, fun hstrict => .inl (hu ▸ hstrict)⟩
        · exact h
      dsimp only
      split
      · exact hopen.trans (Frame.sendDisconnect _ _)
      · exact hopen

theorem kexInitCase_frame (env : PacketEnv) (s : Ssh) : KexInitFrame s (s.kexInitCase env) := by
  have h := doKexInit_frame env.len env.kexInit s
  rw [Ssh.kexInitCase]
  dsimp only
  split
  · exact h.trans (Frame.sendFirstKexMsg env.send _)
  · exact h

theorem doNewKeys_cases (len : Nat) (cipher : Option WsErr) (adjusts : Nat) (ret : Ret) (s : Ssh) :
    (s.doNewKeys len cipher adjusts ret).1 = s ∨
      (s.handshake.isSome ∧ s.selfKeying = false ∧
        (s.doNewKeys len cipher adjusts ret).1 = (Ssh.sendPendingChannelWindowAdjust adjusts ret
          { s with peerKeying := false, handshake := none }).1) := by
  unfold Ssh.doNewKeys
  split
  · exact .inl rfl
  · rename_i hargs
    split
    · exact .inl rfl
    · rename_i hself
      split
      · exact .inl rfl
      · refine .inr ⟨?_, by simpa using hself, rfl⟩
        rw [not_or] at hargs
        simpa [Option.isSome_iff_ne_none] using hargs.1

theorem sendPendingChannelWindowAdjust_handshake (adjusts : Nat) (ret : Ret) (s : Ssh) :
    (s.sendPendingChannelWindowAdjust adjusts ret).1.handshake = s.handshake := by
  rw [Ssh.sendPendingChannelWindowAdjust]
  split
  · rfl
  · induction adjusts generalizing s with
    | zero => rfl
    | succ n ih =>
      dsimp only
      rw [Function.iterate_succ_apply]
      exact ih (s.bundlePacket msgidChannelWindowAdjust) (by assumption)

/-- What the dispatch of a packet does to strict KEX: a KEXINIT opens an exchange, a NEWKEYS may
close it, and no other message touches what the transcript is about. -/
inductive Effect (msg : Nat) (s t : Ssh) : Prop where
  | frame (h : Frame s t) (hmsg : msg ≠ msgidKexInit) (hdone : Run.newKeysDone msg s t = false)
  | kexInit (hmsg : msg = msgidKexInit) (h : KexInitFrame s t)
  | newKeys (hmsg : msg = msgidNewKeys) (hdone : Run.newKeysDone msg s t)
    (h : Frame { s with peerKeying := false } t)

theorem dispatch_effect (msg : Nat) (env : PacketEnv) (s : Ssh) :
    Effect msg s (s.dispatch msg env) := by
  have hframe : ∀ {t : Ssh}, Frame s t → msg ≠ msgidKexInit → msg ≠ msgidNewKeys →
      Effect msg s t := by
    intro t ht hinit hnew
    exact .frame ht hinit (by simp [Run.newKeysDone, hnew])
  unfold Ssh.dispatch
  split
  · rename_i hmsg
    subst hmsg
    exact hframe ⟨rfl, rfl, rfl, rfl, rfl, rfl, rfl, rfl, fun _ => rfl, id⟩ (by decide) (by decide)
  · split
    · rename_i hmsg
      exact .kexInit hmsg (kexInitCase_frame env s)
    · rename_i hinit
      split
      · rename_i hmsg
        rcases doNewKeys_cases env.len env.newKeys.cipher env.newKeys.adjusts env.newKeys.adjustRet s
          with heq | ⟨hsome, -, heq⟩
        · rw [heq]
          refine .frame (Frame.refl s) hinit ?_
          rw [Run.newKeysDone]
          cases s.handshake <;> simp
        · rw [heq]
          refine .newKeys hmsg ?_ ?_
          · simp [Run.newKeysDone, hmsg, hsome, sendPendingChannelWindowAdjust_handshake]
          · refine Frame.trans ?_ (Frame.sendPendingChannelWindowAdjust _ _ _)
            exact ⟨rfl, rfl, rfl, rfl, rfl, rfl, rfl, rfl, id, id⟩
      · rename_i hnew
        refine hframe ?_ hinit hnew
        repeat' split
        · exact Frame.doKexDhInit _ _ s
        · exact Frame.kexDhReplyCase env s
        · exact Frame.doKexDhReply _ _ s
        · exact Frame.doKexDhGexRequest _ _ _ s
        · exact Frame.runEffects _ s
        · exact Frame.bundlePacket (by decide) s
        · exact Frame.refl s

/-- A packet of the key exchange that leaves the window of strict KEX open. -/
def KexTraffic (c : Consumed) : Prop :=
  c.installs = false ∧ (c.msg = msgidNewKeys ∨ MsgidlimitTransKex c.msg)

/-- One KEXINIT under the number 0 and then the key exchange; the packets before it are as many as
bring a 32-bit counter back to 0. -/
def Transcript (consumed : List Consumed) : Prop :=
  ∃ rest first older, consumed = rest ++ first :: older ∧ older.length % 2 ^ 32 = 0 ∧
    first.msg = msgidKexInit ∧ first.peerSeq = 0 ∧ ∀ c ∈ rest, KexTraffic c

/-- The NEWKEYS that first installs keys, and the transcript before it if it came under strict
KEX. -/
def Closed (consumed : List Consumed) : Prop :=
  ∃ later newKeys before, consumed = later ++ newKeys :: before ∧ newKeys.msg = msgidNewKeys ∧
    newKeys.installs ∧ (∀ c ∈ before, c.installs = false) ∧ (newKeys.strict → Transcript before)

theorem Transcript.cons {consumed : List Consumed} (h : Transcript consumed) {c : Consumed}
    (hc : KexTraffic c) : Transcript (c :: consumed) := by
  obtain ⟨rest, first, older, rfl, hlen, hfirst, hseq, hrest⟩ := h
  refine ⟨c :: rest, first, older, rfl, hlen, hfirst, hseq, ?_⟩
  intro d hd
  rw [List.mem_cons] at hd
  rcases hd with rfl | hd
  · exact hc
  · exact hrest d hd

theorem Closed.cons {consumed : List Consumed} (h : Closed consumed) (c : Consumed) :
    Closed (c :: consumed) := by
  obtain ⟨later, newKeys, before, rfl, h⟩ := h
  exact ⟨c :: later, newKeys, before, rfl, h⟩

structure Inv (r : Run) : Prop where
  seq : r.ssh.SeqRestarts
  peerSeq : r.PeerSeqRestarts
  counted : r.ssh.initialKexDone = false → r.ssh.peerSeq = r.consumed.length % 2 ^ 32
  fresh : r.ssh.initialKexDone = false → ∀ c ∈ r.consumed, c.installs = false
  quiet : r.ssh.initialKexDone = false → r.ssh.peerKeying = false → r.ssh.useStrictKex = false
  window : r.ssh.initialKexDone = false → r.ssh.useStrictKex →
    r.ssh.disconnected ∨ Transcript r.consumed
  closed : r.ssh.initialKexDone → Closed r.consumed
  ended : ∀ d ∈ r.dispatched, d.ended → d.msg = msgidDisconnect

namespace Inv

variable {r : Run}

theorem frame (h : Inv r) {t : Ssh} (ht : Frame r.ssh t) : Inv { r with ssh := t } where
  seq := ht.seq h.seq
  peerSeq := by
    rw [Run.PeerSeqRestarts, ht.peerSeq]
    exact h.peerSeq
  counted := by
    rw [ht.initialKexDone, ht.peerSeq]
    exact h.counted
  fresh := by
    rw [ht.initialKexDone]
    exact h.fresh
  quiet := by
    rw [ht.initialKexDone, ht.peerKeying, ht.useStrictKex]
    exact h.quiet
  window := by
    rw [ht.initialKexDone, ht.useStrictKex]
    exact fun hi hs => (h.window hi hs).imp_left ht.ended
  closed := by
    rw [ht.initialKexDone]
    exact h.closed
  ended := h.ended

theorem dispatch (h : Inv r) {d : Dispatched} (hd : d.ended → d.msg = msgidDisconnect) :
    Inv { r with dispatched := d :: r.dispatched } where
  seq := h.seq
  peerSeq := h.peerSeq
  counted := h.counted
  fresh := h.fresh
  quiet := h.quiet
  window := h.window
  closed := h.closed
  ended := by
    intro e he
    rw [List.mem_cons] at he
    rcases he with rfl | he
    · exact hd
    · exact h.ended e he

theorem consume (h : Inv r) {msg : Nat}
    (hmsg : r.ssh.initialKexDone = false → r.ssh.useStrictKex →
      r.ssh.disconnected ∨ msg = msgidNewKeys ∨ MsgidlimitTransKex msg) :
    Inv (r.consume msg false) where
  seq := h.seq
  peerSeq := Restarts.cons h.peerSeq (by simp [Consumed.restarts])
  counted := by
    intro hi
    have hcounted := h.counted hi
    simp only [Run.consume, List.length_cons, Bool.false_eq_true, if_false]
    omega
  fresh := by
    intro hi c hc
    change c ∈ _ :: r.consumed at hc
    rw [List.mem_cons] at hc
    rcases hc with rfl | hc
    · rfl
    · exact h.fresh hi c hc
  quiet := h.quiet
  window := by
    intro hi hs
    rcases h.window hi hs with hover | htranscript
    · exact .inl hover
    · exact (hmsg hi hs).imp_right fun hkex => htranscript.cons ⟨rfl, hkex⟩
  closed := fun hi => (h.closed hi).cons _
  ended := h.ended

theorem consumeKexInit (h : Inv r) (hkeying : r.ssh.peerKeying = false) {t : Ssh}
    (ht : KexInitFrame r.ssh t) : Inv (Run.consume msgidKexInit false { r with ssh := t }) where
  seq := ht.seq h.seq
  peerSeq := by
    refine Restarts.cons ?_ (by simp [Consumed.restarts])
    dsimp only
    rw [ht.peerSeq]
    exact h.peerSeq
  counted := by
    intro hi
    have hcounted := h.counted (ht.initialKexDone ▸ hi)
    have hpeerSeq := ht.peerSeq
    simp only [Run.consume, List.length_cons, Bool.false_eq_true, if_false]
    omega
  fresh := by
    intro hi c hc
    change c ∈ _ :: r.consumed at hc
    rw [List.mem_cons] at hc
    rcases hc with rfl | hc
    · rfl
    · exact h.fresh (ht.initialKexDone ▸ hi) c hc
  quiet := by
    intro hi hk
    change t.initialKexDone = false at hi
    rw [ht.initialKexDone] at hi
    have hquiet := h.quiet hi hkeying
    rcases ht.strict with ⟨-, heq⟩ | ⟨hkeying', -⟩
    · exact heq.trans hquiet
    · exact absurd hkeying' (by simpa [Run.consume] using hk)
  window := by
    intro hi hs
    change t.initialKexDone = false at hi
    rw [ht.initialKexDone] at hi
    have hquiet := h.quiet hi hkeying
    change t.useStrictKex at hs
    rcases ht.strict with ⟨-, heq⟩ | ⟨-, hstrict⟩
    · simp [heq, hquiet] at hs
    · rcases hstrict hs with hold | hseq | hover
      · simp [hquiet] at hold
      · refine .inr ⟨[], _, r.consumed, rfl, ?_, rfl, ht.peerSeq.trans hseq, by simp⟩
        rw [← h.counted hi, hseq]
      · exact .inl hover
  closed := by
    intro hi
    change t.initialKexDone at hi
    exact (h.closed (ht.initialKexDone ▸ hi)).cons _
  ended := h.ended

theorem consumeNewKeys (h : Inv r) (hover : r.ssh.disconnected = false) {t : Ssh}
    (ht : Frame { r.ssh with peerKeying := false } t) :
    Inv (Run.consume msgidNewKeys true { r with ssh := t }) where
  seq := ht.seq h.seq
  peerSeq := by
    refine Restarts.cons ?_ ?_
    · dsimp only
      rw [ht.peerSeq]
      exact h.peerSeq
    · intro hstrict
      have hstrict' : t.useStrictKex := by simpa [Consumed.restarts] using hstrict
      simp [Run.consume, hstrict']
  counted := by
    intro hi
    simp [Run.consume] at hi
  fresh := by
    intro hi
    simp [Run.consume] at hi
  quiet := by
    intro hi
    simp [Run.consume] at hi
  window := by
    intro hi
    simp [Run.consume] at hi
  closed := by
    intro _
    cases hi : r.ssh.initialKexDone with
    | true => exact (h.closed hi).cons _
    | false =>
      refine ⟨[], _, r.consumed, rfl, rfl, rfl, h.fresh hi, ?_⟩
      intro hstrict
      change t.useStrictKex at hstrict
      have hwindow := h.window hi (ht.useStrictKex ▸ hstrict)
      rw [hover] at hwindow
      simpa using hwindow
  ended := h.ended

end Inv

theorem Meets.frame {s t : Ssh} {msg : Nat} (h : Meets s msg t) : Frame s t := by
  obtain ⟨-, -, -, rfl⟩ := h
  exact Frame.expect _ s

theorem isMessageAllowed_frame {s t : Ssh} {msg : Nat} (h : isMessageAllowed s msg = some t) :
    Frame s t := by
  rcases isMessageAllowed_eq h with rfl | hmeets
  · exact Frame.refl _
  · exact hmeets.frame

theorem dispatch_disconnect {msg : Nat} (hmsg : msg = msgidDisconnect) (env : PacketEnv) (s : Ssh) :
    (s.dispatch msg env).disconnected := by
  subst hmsg
  rfl

theorem handle_inv {r : Run} (h : Inv r) {msg : Nat} (env : PacketEnv) {s : Ssh}
    (hgate : isMessageAllowed r.ssh msg = some s) (hlive : s.disconnected → msg = msgidDisconnect) :
    Inv (Run.handle msg env s r) := by
  have hs := h.frame (isMessageAllowed_frame hgate)
  have hd : (Run.dispatchOf msg env s).ended →
      (Run.dispatchOf msg env s).msg = msgidDisconnect := hlive
  have hend := fun (hmsg : msg = msgidDisconnect) => dispatch_disconnect hmsg env s
  rw [Run.handle]
  have heffect := dispatch_effect msg env s
  generalize s.dispatch msg env = t at *
  cases heffect with
  | frame ht hinit hdone =>
    have hinv := (hs.frame ht).dispatch hd
    rw [hdone]
    split
    · exact hinv
    · refine hinv.consume ?_
      intro hi hu
      have hframe := (isMessageAllowed_frame hgate).trans ht
      have hallowed := isMessageAllowed_strict hgate (hframe.useStrictKex ▸ hu)
        (hframe.initialKexDone ▸ hi)
      rcases hallowed with hmsg | hmsg | hmsg
      · exact .inl (hend hmsg)
      · exact absurd hmsg hinit
      · exact .inr hmsg
  | kexInit hmsg ht =>
    subst hmsg
    have hkeying : s.peerKeying = false := by
      cases isMessageAllowed_kex hgate (by decide) (by decide) with
      | kexInit hkeying _ heq => exact heq ▸ hkeying
      | expected hmsg _ => exact absurd rfl hmsg
      | unguarded _ _ hmsg _ _ => exact absurd rfl hmsg
    rw [if_neg fun hpending => absurd hpending.2.1 (by decide)]
    exact (hs.dispatch hd).consumeKexInit hkeying ht
  | newKeys hmsg hdone ht =>
    subst hmsg
    have hover : s.disconnected = false := by
      cases hover : s.disconnected with
      | false => rfl
      | true => exact absurd (hlive hover) (by decide)
    rw [if_neg fun hpending => absurd hpending.2.1 (by decide), hdone]
    exact (hs.dispatch hd).consumeNewKeys hover ht

theorem doPacket_inv {r : Run} (h : Inv r) (msg : Nat) (env : PacketEnv) :
    Inv (r.doPacket msg env) := by
  rw [Run.doPacket]
  split
  · split
    · split
      · exact h
      · exact h.frame (Frame.sendDisconnect _ _)
    · rename_i hrefused
      simp only [not_or, not_and, Bool.not_eq_true] at hrefused
      have hopen : r.ssh.initialKexDone = false → r.ssh.useStrictKex → False := by
        intro hi hu
        exact hrefused.1 hu (by simp [hi])
      split
      · exact h.consume fun hi hu => (hopen hi hu).elim
      · exact (h.frame (Frame.bundlePacket (by decide) _)).consume fun hi hu =>
          (hopen hi hu).elim
  · rename_i s hgate
    split
    · rename_i hover
      exact (h.frame (isMessageAllowed_frame hgate)).consume fun _ _ => .inl hover.1
    · rename_i hlive
      refine handle_inv h env hgate fun hover => ?_
      by_contra hmsg
      exact hlive ⟨hover, hmsg⟩

theorem call_inv {r : Run} (h : Inv r) {f : Ssh → Ssh} (hf : ∀ s, Frame s (f s)) :
    Inv (r.call f) := by
  rw [Run.call]
  split
  · exact h
  · exact h.frame (hf r.ssh)

theorem step_inv {r : Run} (h : Inv r) (e : Event) : Inv (r.step e) := by
  cases e with
  | packet msg env => exact doPacket_inv h msg env
  | sendKexInit sent => exact call_inv h (Frame.sendKexInit sent)
  | connectKex env => exact call_inv h (Frame.connectKex env)
  | effects fx => exact call_inv h (Frame.runEffects fx)
  | acceptState st =>
    exact ⟨h.seq, h.peerSeq, h.counted, h.fresh, h.quiet, h.window, h.closed, h.ended⟩
  | connectState st =>
    rw [Run.step, Ssh.setConnectState]
    split
    · exact ⟨h.seq, h.peerSeq, h.counted, h.fresh, h.quiet, h.window, h.closed, h.ended⟩
    · exact h

theorem start_inv (side : Endpoint) (sendStrictKex : Bool) : Inv (start side sendStrictKex) where
  seq := trivial
  peerSeq := trivial
  counted := fun _ => rfl
  fresh := by simp [start]
  quiet := fun _ _ => rfl
  window := by simp [start]
  closed := by simp [start]
  ended := by simp [start]

theorem reachable_inv {side : Endpoint} {sendStrictKex : Bool} {es : List Event} {r : Run}
    (hr : r ∈ Runs.states Run.step (start side sendStrictKex) es) : Inv r :=
  @Runs.invariant Run Event Run.step (fun _ _ => True) Inv (fun _ e h _ => step_inv h e) _
    (start_inv side sendStrictKex) es (fun _ _ => trivial) r hr

/-! A session that is over. -/

/-- The session is over, and nothing but a DISCONNECT has been dispatched since `old`. -/
def OverSince (old : List Dispatched) (r : Run) : Prop :=
  r.ssh.disconnected ∧ ∃ new, r.dispatched = new ++ old ∧ ∀ d ∈ new, d.msg = msgidDisconnect

theorem OverSince.consume {old : List Dispatched} {r : Run} (h : OverSince old r) (msg : Nat)
    (done : Bool) : OverSince old (r.consume msg done) := by
  rw [Run.consume]
  cases done <;> exact h

theorem OverSince.handle {old : List Dispatched} {r : Run} (h : OverSince old r) {msg : Nat}
    (hmsg : msg = msgidDisconnect) (env : PacketEnv) (s : Ssh) :
    OverSince old (r.handle msg env s) := by
  obtain ⟨-, new, hnew, hdisc⟩ := h
  have hend := dispatch_disconnect hmsg env s
  have hover : OverSince old { r with
      ssh := s.dispatch msg env
      dispatched := Run.dispatchOf msg env s :: r.dispatched } := by
    refine ⟨hend, Run.dispatchOf msg env s :: new, by simp [hnew], ?_⟩
    intro d hd
    rw [List.mem_cons] at hd
    rcases hd with rfl | hd
    · exact hmsg
    · exact hdisc d hd
  rw [Run.handle]
  split
  · exact hover
  · exact hover.consume _ _

theorem OverSince.step {old : List Dispatched} {r : Run} (h : OverSince old r) (e : Event) :
    OverSince old (r.step e) := by
  cases e with
  | packet msg env =>
    rw [Run.step, Run.doPacket]
    split
    · split
      · rw [if_pos h.1]
        exact h
      · rw [if_pos (.inl h.1)]
        exact h.consume _ _
    · rename_i s hgate
      have hover : s.disconnected := (isMessageAllowed_frame hgate).ended h.1
      have hnext : OverSince old { r with ssh := s } := ⟨hover, h.2⟩
      split
      · exact hnext.consume _ _
      · rename_i hmsg
        refine h.handle ?_ env s
        by_contra hne
        exact hmsg ⟨hover, hne⟩
  | sendKexInit sent =>
    rw [Run.step, Run.call, if_pos h.1]
    exact h
  | connectKex env =>
    rw [Run.step, Run.call, if_pos h.1]
    exact h
  | effects fx =>
    rw [Run.step, Run.call, if_pos h.1]
    exact h
  | acceptState st => exact h
  | connectState st =>
    rw [Run.step, Ssh.setConnectState]
    split <;> exact h

theorem overSince_run {r : Run} (h : r.ssh.disconnected) {es : List Event} {t : Run}
    (ht : t ∈ Runs.states Run.step r es) : OverSince r.dispatched t :=
  @Runs.invariant Run Event Run.step (fun _ _ => True) (OverSince r.dispatched)
    (fun _ e h _ => h.step e) r ⟨h, [], rfl, by simp⟩ es (fun _ _ => trivial) t ht

/-! The transcript. -/

theorem sendDisconnect_over (bundles : Bool) (s : Ssh) : (s.sendDisconnect bundles).disconnected := by
  cases bundles <;> rfl

/-- While the window of strict KEX is open, a packet from outside the key exchange ends the
session. -/
theorem doPacket_ends {r : Run} (h : Inv r) (hstrict : r.ssh.useStrictKex)
    (hinitial : r.ssh.initialKexDone = false) {msg : Nat} (env : PacketEnv)
    (hmsg : ¬ (msg = msgidNewKeys ∨ MsgidlimitTransKex msg)) :
    (r.doPacket msg env).ssh.disconnected ∧
      (msg ≠ msgidDisconnect → (r.doPacket msg env).consumed = r.consumed) := by
  have hkeying : r.ssh.peerKeying := by
    by_contra hkeying
    have := h.quiet hinitial (by simpa using hkeying)
    simp [this] at hstrict
  rw [Run.doPacket]
  split
  · rw [if_pos (.inl ⟨hstrict, by simp [hinitial]⟩)]
    split
    · rename_i hover
      exact ⟨hover, fun _ => rfl⟩
    · exact ⟨sendDisconnect_over _ _, fun _ => rfl⟩
  · rename_i s hgate
    rcases isMessageAllowed_strict hgate hstrict hinitial with hdisc | hinit | hkex
    · rw [if_neg fun hne => hne.2 hdisc]
      refine ⟨?_, fun hne => absurd hdisc hne⟩
      have hend := dispatch_disconnect hdisc env s
      rw [Run.handle]
      split
      · exact hend
      · rw [Run.consume]
        split <;> exact hend
    · subst hinit
      cases isMessageAllowed_kex hgate (by decide) (by decide) with
      | kexInit hnot _ _ => simp [hnot] at hkeying
      | expected hne _ => exact absurd rfl hne
      | unguarded _ _ hne _ _ => exact absurd rfl hne
    · exact absurd hkex hmsg

/-- One KEXINIT under the number 0, and after it nothing but the key exchange. -/
def InitialExchange (consumed : List Consumed) : Prop :=
  ∃ rest first, consumed = rest ++ [first] ∧ first.msg = msgidKexInit ∧ first.peerSeq = 0 ∧
    ∀ c ∈ rest, KexTraffic c

theorem Transcript.initialExchange {consumed : List Consumed} (h : Transcript consumed)
    (hlen : consumed.length < 2 ^ 32) : InitialExchange consumed := by
  obtain ⟨rest, first, older, rfl, hmod, hfirst, hseq, hrest⟩ := h
  rw [List.length_append, List.length_cons] at hlen
  have hnil : older = [] := List.eq_nil_of_length_eq_zero (by omega)
  subst hnil
  exact ⟨rest, first, rfl, hfirst, hseq, hrest⟩

/-- What strict KEX holds in a state of a session. -/
structure StrictKex (r : Run) : Prop where
  window : r.ssh.useStrictKex → r.ssh.initialKexDone = false → r.ssh.disconnected = false →
    r.consumed.length < 2 ^ 32 → InitialExchange r.consumed
  closed : r.ssh.initialKexDone → ∃ later newKeys before,
    r.consumed = later ++ newKeys :: before ∧ newKeys.msg = msgidNewKeys ∧ newKeys.installs ∧
      (newKeys.strict → before.length < 2 ^ 32 → InitialExchange before)
  ends : r.ssh.useStrictKex → r.ssh.initialKexDone = false → ∀ msg env,
    ¬ (msg = msgidNewKeys ∨ MsgidlimitTransKex msg) → (r.doPacket msg env).ssh.disconnected ∧
      (msg ≠ msgidDisconnect → (r.doPacket msg env).consumed = r.consumed)
  ended : r.ssh.disconnected → ∀ es, ∀ t ∈ Runs.states Run.step r es, OverSince r.dispatched t
  peerSeq : r.PeerSeqRestarts
  seq : r.ssh.SeqRestarts

/-- A server's key exchange under strict KEX, and a packet after it. -/
def serverExchange : List Event :=
  [ .sendKexInit (.queued (.ok ())),
    .packet msgidKexInit { len := 100, kexInit := { kexId := .curve25519Sha256, strictMarker := true } },
    .packet msgidKexDhInit { len := 36 },
    .packet msgidNewKeys {},
    .packet 2 { len := 4 } ]

end WolfSsh.Session
