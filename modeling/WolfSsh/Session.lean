import WolfSsh.KexHash

/-! The session as the packet gate sees it: the states of `wolfSSH_accept` and `wolfSSH_connect`,
the keying flags, the key exchange under way, and which message ids are let through when. -/

namespace WolfSsh.Session

inductive AcceptState where
  | begin | serverVersionSent | clientVersionDone | serverKexInitSent | keyed
  | clientUserauthRequestDone | serverUserauthAcceptSent | clientUserauthDone | serverUserauthSent
  | serverChannelAcceptSent | clientSessionEstablished | initScpTransfer | initSftp | initAgent
deriving DecidableEq, Repr

inductive ConnectState where
  | begin | clientVersionSent | serverVersionDone | clientKexInitSent | serverKexInitDone
  | clientKexDhInitSent | keyed | clientUserauthRequestSent | serverUserauthRequestDone
  | clientUserauthSent | serverUserauthAcceptDone | clientChannelOpenSessionSent
  | serverChannelOpenSessionDone | clientChannelAgentRequestSent
  | clientChannelTerminalRequestSent | clientChannelRequestSent | serverChannelRequestDone
  | clientAgentRequestSent | serverAgentRequestDone | done
deriving DecidableEq, Repr

inductive ClientState where
  | begin | versionDone | kexInitDone | kexDhInitDone | userauthRequestDone | userauthDone
  | channelOpenDone | done
deriving DecidableEq, Repr

inductive ServerState where
  | begin | versionDone | kexInitDone | userauthRequestDone | userauthAcceptDone
  | channelOpenDone | done
deriving DecidableEq, Repr

/-- The enumerators' values, which the source compares. -/
abbrev AcceptState.val (s : AcceptState) : Nat := s.ctorIdx
abbrev ConnectState.val (s : ConnectState) : Nat := s.ctorIdx
abbrev ClientState.val (s : ClientState) : Nat := s.ctorIdx
abbrev ServerState.val (s : ServerState) : Nat := s.ctorIdx

abbrev msgidNone : Nat := 0
abbrev msgidDisconnect : Nat := 1
abbrev msgidUnimplemented : Nat := 3
abbrev msgidServiceRequest : Nat := 5
abbrev msgidServiceAccept : Nat := 6
abbrev msgidExtInfo : Nat := 7
abbrev msgidKexInit : Nat := 20
abbrev msgidNewKeys : Nat := 21
abbrev msgidKexDhInit : Nat := 30
abbrev msgidKexDhReply : Nat := 31
abbrev msgidKexDhGexGroup : Nat := 31
abbrev msgidKexDhGexInit : Nat := 32
abbrev msgidKexDhGexReply : Nat := 33
abbrev msgidKexDhGexRequest : Nat := 34
abbrev msgidUserauthRequest : Nat := 50
abbrev msgidUserauthInfoResponse : Nat := 61
abbrev msgidGlobalRequest : Nat := 80
abbrev msgidChannelWindowAdjust : Nat := 93

abbrev MsgidlimitTransGen (msg : Nat) : Prop := 1 ≤ msg ∧ msg ≤ 19
abbrev MsgidlimitTransKex (msg : Nat) : Prop := 30 ≤ msg ∧ msg ≤ 49
abbrev MsgidlimitTrans (msg : Nat) : Prop := 1 ≤ msg ∧ msg ≤ 49
abbrev MsgidlimitAuth (msg : Nat) : Prop := 50 ≤ msg ∧ msg ≤ 79
abbrev MsgidlimitPostUserauth (msg : Nat) : Prop := 80 ≤ msg

/-- `HandshakeInfo` as far as the order of an exchange goes. The last two fields say whether
`GenerateKeys` has filled the key blocks and whether the host signature has been verified. -/
structure Handshake where
  expectMsgId : Nat := msgidNone
  kexId : AlgoId := .none
  ignoreNextKexMsg : Bool := false
  keysDerived : Bool := false
  hostVerified : Bool := false
deriving DecidableEq, Repr

/-- A packet handed to `BundlePacket`, with its sequence number and whether strict KEX was in force
when it was. -/
structure Bundled where
  msg : Nat
  seq : Nat
  strict : Bool
deriving DecidableEq, Repr

structure Ssh where
  side : Endpoint
  acceptState : AcceptState := .begin
  connectState : ConnectState := .begin
  clientState : ClientState := .begin
  serverState : ServerState := .begin
  selfKeying : Bool := false
  peerKeying : Bool := false
  handshake : Option Handshake := none
  kexId : AlgoId := .none
  sessionIdSz : Nat := 0
  sendStrictKex : Bool
  useStrictKex : Bool := false
  initialKexDone : Bool := false
  sendExtInfo : Bool := false
  extInfoSent : Bool := false
  disconnected : Bool := false
  seq : Nat := 0
  peerSeq : Nat := 0
  /-- What has been bundled, the latest first. -/
  bundled : List Bundled := []
  /-- Whether the first KEXINIT whose KEX algorithms matched offered EXT_INFO. -/
  firstOffer : Option Bool := none
deriving DecidableEq, Repr

def Ssh.isKeying (ssh : Ssh) : Bool := ssh.selfKeying || ssh.peerKeying

def Ssh.expect (msg : Nat) (ssh : Ssh) : Ssh :=
  { ssh with handshake := ssh.handshake.map fun hs => { hs with expectMsgId := msg } }

/-- What the part of the gate that watches the key exchange comes to: a verdict, or the rest of the
gate decides. -/
inductive KexGate where
  | refuse
  | letIn (ssh : Ssh)
  | pass
deriving DecidableEq, Repr

/-- The block under "Is KEX complete?", the same on both sides. -/
def kexGate (ssh : Ssh) (msg : Nat) : KexGate :=
  if ssh.peerKeying then
    if msg = msgidKexInit then .refuse
    else
      match ssh.handshake with
      | some hs =>
        if hs.expectMsgId ≠ msgidNone then
          if msg ≠ hs.expectMsgId then .refuse else .letIn (ssh.expect msgidNone)
        else .pass
      | none => .pass
  else if msg = msgidKexInit then .letIn ssh
  else .refuse

/-- The tests of `IsMessageAllowedServer` after the key exchange's. -/
def serverStateGate (acceptState : AcceptState) (msg : Nat) : Bool :=
  if MsgidlimitAuth msg ∧ acceptState.val < AcceptState.clientUserauthRequestDone.val then false
  else if acceptState.val < AcceptState.keyed.val ∧ msg > msgidKexDhGexRequest then false
  else if acceptState.val < AcceptState.serverUserauthSent.val then
    if MsgidlimitPostUserauth msg then false
    else !(msg > msgidUserauthRequest && msg != msgidUserauthInfoResponse)
  else !(msgidUserauthRequest ≤ msg && msg < msgidGlobalRequest)

def isMessageAllowedServer (ssh : Ssh) (msg : Nat) : Option Ssh :=
  if msg = msgidServiceAccept ∨ msg = msgidKexDhReply ∨ msg = msgidKexDhGexReply then none
  else if msg = msgidServiceRequest then
    if ssh.peerKeying then none
    else if ssh.acceptState = .keyed then some ssh else none
  else if MsgidlimitTransGen msg then some ssh
  else
    match if MsgidlimitTrans msg then kexGate ssh msg else .pass with
    | .refuse => none
    | .letIn ssh => some ssh
    | .pass => if serverStateGate ssh.acceptState msg then some ssh else none

def clientStateGate (connectState : ConnectState) (msg : Nat) : Bool :=
  if connectState.val < ConnectState.serverUserauthAcceptDone.val then
    if MsgidlimitPostUserauth msg then false
    else if MsgidlimitAuth msg then
      !(connectState.val < ConnectState.clientUserauthSent.val)
    else false
  else if MsgidlimitPostUserauth msg then true
  else false

def isMessageAllowedClient (ssh : Ssh) (msg : Nat) : Option Ssh :=
  if msg = msgidServiceRequest ∨ msg = msgidUserauthRequest ∨ msg = msgidUserauthInfoResponse ∨
      msg = msgidKexDhInit ∨ msg = msgidKexDhGexInit ∨ msg = msgidKexDhGexRequest then none
  else if msg = msgidServiceAccept then
    if ssh.peerKeying then none
    else if ssh.connectState = .clientUserauthRequestSent then some ssh else none
  else if MsgidlimitTransGen msg then some ssh
  else
    match if MsgidlimitTrans msg then kexGate ssh msg else .pass with
    | .refuse => none
    | .letIn ssh => some ssh
    | .pass => if clientStateGate ssh.connectState msg then some ssh else none

/-- Until the peer's NEWKEYS lands, strict KEX lets only these in. -/
def StrictAllowed (msg : Nat) : Prop :=
  msg = msgidDisconnect ∨ msg = msgidKexInit ∨ msg = msgidNewKeys ∨ MsgidlimitTransKex msg
deriving Decidable

/-- `IsMessageAllowed` on receipt: the session after a message that is let in, its expectation met,
or `none`. -/
def isMessageAllowed (ssh : Ssh) (msg : Nat) : Option Ssh :=
  if ssh.useStrictKex ∧ ¬ ssh.initialKexDone ∧ ¬ StrictAllowed msg then none
  else
    match ssh.side with
    | .server => isMessageAllowedServer ssh msg
    | .client => isMessageAllowedClient ssh msg

/-- `MsgIdKnown`, with keyboard-interactive switched on. -/
def msgIdKnown (msg : Nat) : Bool :=
  msg ∈ [1, 2, 3, 4, 5, 6, 7, 20, 21, 30, 31, 32, 33, 34, 50, 51, 52, 53, 60, 61, 80, 81, 82, 90,
    91, 92, 93, 94, 95, 96, 97, 98, 99, 100]

/-! What is let in, and what it does to the session. -/

/-- The gate's only mark on the session is the expectation that a message of the key exchange
meets. -/
def Meets (ssh : Ssh) (msg : Nat) (ssh' : Ssh) : Prop :=
  ssh.peerKeying ∧ (∃ hs, ssh.handshake = some hs ∧ hs.expectMsgId = msg) ∧ msg ≠ msgidNone ∧
    ssh' = ssh.expect msgidNone

def Ssh.ExpectsNone (ssh : Ssh) : Prop :=
  (ssh.handshake.map Handshake.expectMsgId).getD msgidNone = msgidNone
deriving Decidable

theorem kexGate_letIn {ssh ssh' : Ssh} {msg : Nat} (h : kexGate ssh msg = .letIn ssh') :
    (ssh.peerKeying = false ∧ msg = msgidKexInit ∧ ssh' = ssh) ∨
      (msg ≠ msgidKexInit ∧ Meets ssh msg ssh') := by
  rw [kexGate] at h
  split at h
  · rename_i hkeying
    split at h
    · cases h
    · rename_i hmsg
      split at h
      · rename_i hs hhs
        split at h
        · rename_i hexpect
          split at h
          · cases h
          · rename_i heq
            obtain rfl : msg = hs.expectMsgId := by simpa using heq
            cases h
            exact .inr ⟨hmsg, hkeying, ⟨hs, hhs, rfl⟩, hexpect, rfl⟩
        · cases h
      · cases h
  · rename_i hkeying
    split at h
    · rename_i hmsg
      cases h
      exact .inl ⟨by simpa using hkeying, hmsg, rfl⟩
    · cases h

theorem kexGate_pass {ssh : Ssh} {msg : Nat} (h : kexGate ssh msg = .pass) :
    ssh.peerKeying ∧ msg ≠ msgidKexInit ∧ ssh.ExpectsNone := by
  rw [kexGate] at h
  split at h
  · rename_i hkeying
    split at h
    · cases h
    · rename_i hmsg
      refine ⟨hkeying, hmsg, ?_⟩
      split at h
      · rename_i hs hhs
        split at h
        · split at h <;> cases h
        · rename_i hexpect
          simpa [Ssh.ExpectsNone, hhs] using hexpect
      · rename_i hhs
        simp [Ssh.ExpectsNone, hhs]
  · split at h <;> cases h

/-- How a message of the key exchange gets past the gate. -/
inductive KexLetIn (ssh : Ssh) (msg : Nat) (ssh' : Ssh) : Prop where
  | kexInit (hkeying : ssh.peerKeying = false) (hmsg : msg = msgidKexInit) (heq : ssh' = ssh)
  | expected (hmsg : msg ≠ msgidKexInit) (hmeets : Meets ssh msg ssh')
  | unguarded (hside : ssh.side = .server) (hkeying : ssh.peerKeying) (hmsg : msg ≠ msgidKexInit)
    (hnone : ssh.ExpectsNone) (heq : ssh' = ssh)

theorem kexGate_kexLetIn {ssh ssh' : Ssh} {msg : Nat} (h : kexGate ssh msg = .letIn ssh') :
    KexLetIn ssh msg ssh' := by
  obtain ⟨hkeying, hmsg, heq⟩ | ⟨hmsg, hmeets⟩ := kexGate_letIn h
  · exact .kexInit hkeying hmsg heq
  · exact .expected hmsg hmeets

theorem isMessageAllowedServer_kex {ssh ssh' : Ssh} {msg : Nat} (hside : ssh.side = .server)
    (h : isMessageAllowedServer ssh msg = some ssh') (hlo : 20 ≤ msg) (hhi : msg ≤ 49) :
    KexLetIn ssh msg ssh' := by
  rw [isMessageAllowedServer] at h
  split at h
  · cases h
  · rw [if_neg (show ¬ msg = 5 by omega), if_neg (by omega), if_pos (by omega)] at h
    split at h
    · cases h
    · rename_i hgate
      cases h
      exact kexGate_kexLetIn hgate
    · rename_i hgate
      obtain ⟨hkeying, hmsg, hnone⟩ := kexGate_pass hgate
      split at h
      · cases h
        exact .unguarded hside hkeying hmsg hnone rfl
      · cases h

theorem isMessageAllowedClient_kex {ssh ssh' : Ssh} {msg : Nat}
    (h : isMessageAllowedClient ssh msg = some ssh') (hlo : 20 ≤ msg) (hhi : msg ≤ 49) :
    KexLetIn ssh msg ssh' := by
  rw [isMessageAllowedClient] at h
  split at h
  · cases h
  · rw [if_neg (show ¬ msg = 6 by omega), if_neg (by omega), if_pos (by omega)] at h
    split at h
    · cases h
    · rename_i hgate
      cases h
      exact kexGate_kexLetIn hgate
    · have hstate : clientStateGate ssh.connectState msg = false := by
        rw [clientStateGate]
        split
        · rw [if_neg (by omega), if_neg (by omega)]
        · rw [if_neg (by omega)]
      rw [hstate] at h
      cases h

theorem isMessageAllowed_kex {ssh ssh' : Ssh} {msg : Nat} (h : isMessageAllowed ssh msg = some ssh')
    (hlo : 20 ≤ msg) (hhi : msg ≤ 49) : KexLetIn ssh msg ssh' := by
  rw [isMessageAllowed] at h
  split at h
  · cases h
  · split at h
    · rename_i hside
      exact isMessageAllowedServer_kex hside h hlo hhi
    · exact isMessageAllowedClient_kex h hlo hhi

theorem isMessageAllowed_noReply {ssh ssh' : Ssh} {msg : Nat} (hside : ssh.side = .server)
    (h : isMessageAllowed ssh msg = some ssh') :
    msg ≠ msgidKexDhReply ∧ msg ≠ msgidKexDhGexReply := by
  rw [isMessageAllowed, hside] at h
  split at h
  · cases h
  · dsimp only at h
    rw [isMessageAllowedServer] at h
    split at h
    · cases h
    · rename_i hnever
      rw [not_or, not_or] at hnever
      exact hnever.2

theorem isMessageAllowedServer_other {ssh ssh' : Ssh} {msg : Nat}
    (h : isMessageAllowedServer ssh msg = some ssh') (hmsg : msg < 20 ∨ 49 < msg) : ssh' = ssh := by
  rw [isMessageAllowedServer] at h
  split at h
  · cases h
  · split at h
    · split at h
      · cases h
      · split at h <;> cases h
        rfl
    · split at h
      · cases h
        rfl
      · rename_i hgen
        rw [if_neg (show ¬ MsgidlimitTrans msg by omega)] at h
        dsimp only at h
        split at h <;> cases h
        rfl

theorem isMessageAllowedClient_other {ssh ssh' : Ssh} {msg : Nat}
    (h : isMessageAllowedClient ssh msg = some ssh') (hmsg : msg < 20 ∨ 49 < msg) : ssh' = ssh := by
  rw [isMessageAllowedClient] at h
  split at h
  · cases h
  · split at h
    · split at h
      · cases h
      · split at h <;> cases h
        rfl
    · split at h
      · cases h
        rfl
      · rename_i hgen
        rw [if_neg (show ¬ MsgidlimitTrans msg by omega)] at h
        dsimp only at h
        split at h <;> cases h
        rfl

theorem isMessageAllowed_other {ssh ssh' : Ssh} {msg : Nat}
    (h : isMessageAllowed ssh msg = some ssh') (hmsg : msg < 20 ∨ 49 < msg) : ssh' = ssh := by
  rw [isMessageAllowed] at h
  split at h
  · cases h
  · split at h
    · exact isMessageAllowedServer_other h hmsg
    · exact isMessageAllowedClient_other h hmsg

theorem isMessageAllowed_strict {ssh ssh' : Ssh} {msg : Nat}
    (h : isMessageAllowed ssh msg = some ssh') (hstrict : ssh.useStrictKex)
    (hinitial : ssh.initialKexDone = false) : StrictAllowed msg := by
  rw [isMessageAllowed] at h
  split at h
  · cases h
  · rename_i hnot
    by_contra hmsg
    exact hnot ⟨hstrict, by simp [hinitial], hmsg⟩

theorem isMessageAllowed_eq {ssh ssh' : Ssh} {msg : Nat}
    (h : isMessageAllowed ssh msg = some ssh') : ssh' = ssh ∨ Meets ssh msg ssh' := by
  by_cases hmsg : msg < 20 ∨ 49 < msg
  · exact .inl (isMessageAllowed_other h hmsg)
  · cases isMessageAllowed_kex h (by omega) (by omega) with
    | kexInit _ _ heq => exact .inl heq
    | expected _ hmeets => exact .inr hmeets
    | unguarded _ _ _ _ heq => exact .inl heq

end WolfSsh.Session
