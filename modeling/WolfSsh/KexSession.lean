import WolfSsh.Session
import WolfSsh.Lib.Runs

/-! `DoPacket` and the handlers of the key exchange. What the octets of a packet decode to, and what
the cryptography, the callbacks and the transport answer, come in with each packet. -/

namespace WolfSsh.Session

abbrev Ret := Except WsErr Unit

def Ret.isOk : Ret → Bool
  | .ok _ => true
  | .error _ => false

namespace Ssh

def bundlePacket (msg : Nat) (ssh : Ssh) : Ssh :=
  { ssh with
    bundled := ⟨msg, ssh.seq, ssh.useStrictKex⟩ :: ssh.bundled
    seq := (ssh.seq + 1) % 2 ^ 32 }

/-- `SendDisconnect` marks the session over before the send. -/
def sendDisconnect (bundles : Bool) (ssh : Ssh) : Ssh :=
  let ssh := { ssh with disconnected := true }
  if bundles then ssh.bundlePacket msgidDisconnect else ssh

def updHandshake (f : Handshake → Handshake) (ssh : Ssh) : Ssh :=
  { ssh with handshake := ssh.handshake.map f }

/-- `HandshakeInfoNew` where there is none yet. -/
def needHandshake (ssh : Ssh) : Ssh := { ssh with handshake := some (ssh.handshake.getD {}) }

end Ssh

/-- How a send went: nothing was bundled, the packet was bundled and purged again, or it is sent or
queued. -/
inductive Sent where
  | unbundled (e : WsErr)
  | purged (e : WsErr)
  | queued (ret : Ret)
deriving Repr

namespace Ssh

/-- The checks of the host keys come before the handshake is made. -/
def sendKexInit (sent : Sent) (ssh : Ssh) : Ssh × Ret :=
  match sent with
  | .unbundled .badArgument => (ssh, .error .badArgument)
  | .unbundled e => (ssh.needHandshake, .error e)
  | .purged e => (ssh.needHandshake.bundlePacket msgidKexInit, .error e)
  | .queued ret => ({ ssh.needHandshake.bundlePacket msgidKexInit with selfKeying := true }, ret)

end Ssh

/-- What `SendNewKeys` meets: the bundle, the cipher, the send, and the window adjusts that the end
of the exchange lets out. -/
structure NewKeysEnv where
  bundle : Option WsErr := none
  cipher : Option WsErr := none
  send : Ret := .ok ()
  adjusts : Nat := 0
  adjustRet : Ret := .ok ()
deriving Repr

namespace Ssh

/-- `SendPendingChannelWindowAdjust` waits for both sides to be done. -/
def sendPendingChannelWindowAdjust (adjusts : Nat) (ret : Ret) (ssh : Ssh) : Ssh × Ret :=
  if ssh.isKeying then (ssh, .ok ())
  else ((bundlePacket msgidChannelWindowAdjust)^[adjusts] ssh, ret)

def sendNewKeys (env : NewKeysEnv) (ssh : Ssh) : Ssh × Ret :=
  match env.bundle with
  | some e => (ssh, .error e)
  | none =>
    let ssh := ssh.bundlePacket msgidNewKeys
    let ssh := if ssh.useStrictKex then { ssh with seq := 0 } else ssh
    match env.cipher with
    | some e => (ssh, .error e)
    | none =>
      let (ssh, adjustRet) := sendPendingChannelWindowAdjust env.adjusts env.adjustRet
        { ssh with selfKeying := false }
      (ssh, if env.send.isOk then adjustRet else env.send)

end Ssh

/-- A KEXINIT as `DoKexInit` reads it: up to the KEX algorithms, the strict marker, the other lists,
the guess, the reserved field; then its own KEXINIT, if it has to send one, and the hash. -/
structure KexInitEnv where
  kexList : Option WsErr := none
  kexId : AlgoId := .unknown
  extInfo : Bool := false
  strictMarker : Bool := false
  disconnectBundles : Bool := true
  lists : Option WsErr := none
  wrongGuess : Bool := false
  reserved : Option WsErr := none
  send : Sent := .queued (.ok ())
  hash : Option WsErr := none
deriving Repr

def isKexMatchError : Ret → Bool
  | .error .matchKexAlgoE | .error .matchKeyAlgoE | .error .matchEncAlgoE
  | .error .matchMacAlgoE => true
  | _ => false

def firstKexMsg (kexId : AlgoId) : Nat :=
  if kexId = .dhGexSha256 then msgidKexDhGexRequest else msgidKexDhInit

namespace Ssh

def expectClientKexMsg (ssh : Ssh) : Ssh :=
  ssh.updHandshake fun hs => { hs with expectMsgId := firstKexMsg hs.kexId }

def ignoresNext (ssh : Ssh) : Bool := (ssh.handshake.map Handshake.ignoreNextKexMsg).getD false

/-- The last block of `DoKexInit`. -/
def doKexInitAnswer (env : KexInitEnv) (ssh : Ssh) : Ssh × Ret :=
  let (ssh, sendRet) := if ssh.selfKeying then (ssh, .ok ()) else ssh.sendKexInit env.send
  match sendRet with
  | .ok _ | .error .wantWrite =>
    match env.hash with
    | some e => (ssh, .error e)
    | none =>
      match ssh.side with
      | .server =>
        let ssh := { ssh with clientState := .kexInitDone }
        (if ssh.ignoresNext then ssh else ssh.expectClientKexMsg, sendRet)
      | .client => ({ ssh with serverState := .kexInitDone }, sendRet)
  | .error e => (ssh, .error e)

/-- From the server host key algorithms to the reserved field. -/
def doKexInitRest (env : KexInitEnv) (ssh : Ssh) : Ssh × Ret :=
  match env.lists with
  | some e => (ssh, .error e)
  | none =>
    let ssh := if env.wrongGuess ∧ ssh.side = .server then
      ssh.updHandshake fun hs => { hs with ignoreNextKexMsg := true } else ssh
    match env.reserved with
    | some e => (ssh, .error e)
    | none => ssh.doKexInitAnswer env

/-- The strict KEX marker counts in the initial KEXINIT only, which must be the peer's first
packet. -/
def doKexInitStrict (env : KexInitEnv) (ssh : Ssh) : Ssh × Ret :=
  if ssh.sessionIdSz = 0 then
    let ssh := { ssh with useStrictKex := env.strictMarker && ssh.sendStrictKex }
    if ssh.useStrictKex ∧ ssh.peerSeq ≠ 0 then
      (ssh.sendDisconnect env.disconnectBundles, .error .msgidNotAllowedE)
    else ssh.doKexInitRest env
  else ssh.doKexInitRest env

def doKexInitLists (env : KexInitEnv) (ssh : Ssh) : Ssh × Ret :=
  match env.kexList with
  | some e => (ssh, .error e)
  | none =>
    if env.kexId = .unknown then (ssh, .error .matchKexAlgoE)
    else
      let ssh := { ssh.updHandshake fun hs => { hs with kexId := env.kexId } with
        kexId := env.kexId
        sendExtInfo := if ssh.extInfoSent then ssh.sendExtInfo else env.extInfo
        firstOffer := ssh.firstOffer.or (some env.extInfo) }
      ssh.doKexInitStrict env

def doKexInit (len : Nat) (env : KexInitEnv) (ssh : Ssh) : Ssh × Ret :=
  if len = 0 then (ssh, .error .badArgument)
  else if ssh.peerKeying then (ssh, .error .invalidStateE)
  else
    let (ssh, ret) := doKexInitLists env { ssh.needHandshake with peerKeying := true }
    (if isKexMatchError ret then ssh.sendDisconnect env.disconnectBundles else ssh, ret)

end Ssh

/-- What a key exchange message decodes to and what the cryptography makes of it, in the order in
which `DoKexDhInit` with `SendKexDhReply`, or `DoKexDhReply`, meet it. -/
structure KexDhEnv where
  parse : Option WsErr := none
  hash : Option WsErr := none
  signature : Option WsErr := none
  keys : Option WsErr := none
  bundle : Option WsErr := none
  newKeys : NewKeysEnv := {}
  extInfo : Sent := .queued (.ok ())
  disconnectBundles : Bool := true
  hSz : Nat := 32
deriving Repr

namespace Ssh

/-- The exchange hash becomes the session id if there is none. -/
def saveSessionId (hSz : Nat) (ssh : Ssh) : Ssh :=
  if ssh.sessionIdSz = 0 then { ssh with sessionIdSz := hSz } else ssh

def bundleExtInfo (ssh : Ssh) : Ssh :=
  { ssh.bundlePacket msgidExtInfo with sendExtInfo := false, extInfoSent := true }

/-- `SendExtInfoServer`. -/
def sendExtInfoMsg (sent : Sent) (ssh : Ssh) : Ssh × Ret :=
  match sent with
  | .unbundled e => (ssh, .error e)
  | .purged e => (ssh.bundleExtInfo, .error e)
  | .queued ret => (ssh.bundleExtInfo, ret)

/-- `SendKexDhReply` from the bundle of the reply on. -/
def sendKexDhReplyBundle (env : KexDhEnv) (method : KexMethod) (ssh : Ssh) : Ssh × Ret :=
  match env.bundle with
  | some e => (ssh, .error e)
  | none =>
    let ssh := (ssh.bundlePacket method.replyId.toNat).expect msgidNewKeys
    let (ssh, ret) := ssh.sendNewKeys env.newKeys
    if ret.isOk ∧ ssh.sendExtInfo then ssh.sendExtInfoMsg env.extInfo else (ssh, ret)

/-- `SendKexDhReply` from the signature on. -/
def sendKexDhReplyHashed (env : KexDhEnv) (method : KexMethod) (ssh : Ssh) : Ssh × Ret :=
  match env.signature with
  | some e => (ssh, .error e)
  | none =>
    match env.keys with
    | some e => (ssh, .error e)
    | none =>
      (ssh.updHandshake fun hs => { hs with keysDerived := true }).sendKexDhReplyBundle env method

def sendKexDhReply (env : KexDhEnv) (kexId : AlgoId) (ssh : Ssh) : Ssh × Ret :=
  match kexMethod kexId with
  | none => (ssh, .error .invalidAlgoId)
  | some method =>
    match env.hash with
    | some e => (ssh, .error e)
    | none => (ssh.saveSessionId env.hSz).sendKexDhReplyHashed env method

/-- A rejected key exchange input aborts with a disconnect. -/
def disconnectOn (errs : List WsErr) (bundles : Bool) (r : Ssh × Ret) : Ssh × Ret :=
  match r.2 with
  | .ok _ => r
  | .error e => if e ∈ errs then (r.1.sendDisconnect bundles, r.2) else r

def skipGuessedKexMsg (ssh : Ssh) : Ssh :=
  let ssh := ssh.updHandshake fun hs => { hs with ignoreNextKexMsg := false }
  if ssh.side = .server then ssh.expectClientKexMsg else ssh

def doKexDhInit (len : Nat) (env : KexDhEnv) (ssh : Ssh) : Ssh × Ret :=
  match ssh.handshake with
  | none => (ssh, .error .badArgument)
  | some hs =>
    if len = 0 then (ssh, .error .badArgument)
    else if hs.ignoreNextKexMsg then (ssh.skipGuessedKexMsg, .ok ())
    else
      disconnectOn [.cryptoFailed, .pubkeyRejectedE] env.disconnectBundles
        (match env.parse with
        | some e => (ssh, .error e)
        | none => sendKexDhReply env hs.kexId { ssh with clientState := .kexDhInitDone })

end Ssh

/-- What `SendKexDhInit`, `SendKexDhGexRequest` and `SendKexDhGexGroup` meet on the way to their
bundle, and the send after it. -/
structure KexSendEnv where
  bundle : Option WsErr := none
  send : Ret := .ok ()
deriving Repr

namespace Ssh

/-- A bundle, what is expected next, and a send. -/
def sendKexMsg (env : KexSendEnv) (msg expected : Nat) (ssh : Ssh) : Ssh × Ret :=
  match env.bundle with
  | some e => (ssh, .error e)
  | none => ((ssh.bundlePacket msg).expect expected, env.send)

def sendKexDhGexRequest (env : KexSendEnv) (ssh : Ssh) : Ssh × Ret :=
  match ssh.handshake with
  | none => (ssh, .error .badArgument)
  | some _ => ssh.sendKexMsg env msgidKexDhGexRequest msgidKexDhGexGroup

def sendKexDhGexGroup (env : KexSendEnv) (ssh : Ssh) : Ssh × Ret :=
  match ssh.handshake with
  | none => (ssh, .error .badArgument)
  | some _ => ssh.sendKexMsg env msgidKexDhGexGroup msgidKexDhGexInit

def sendKexDhInit (env : KexSendEnv) (ssh : Ssh) : Ssh × Ret :=
  match ssh.handshake with
  | none => (ssh, .error .badArgument)
  | some hs =>
    match kexMethod hs.kexId with
    | none => (ssh, .error .invalidAlgoId)
    | some method => ssh.sendKexMsg env method.initId.toNat method.replyId.toNat

/-- The client's opening of the exchange, in `wolfSSH_connect` and after a rekey's KEXINIT. -/
def sendFirstKexMsg (env : KexSendEnv) (ssh : Ssh) : Ssh × Ret :=
  match ssh.handshake with
  | none => (ssh, .error .fatalError)
  | some hs =>
    if hs.kexId = .dhGexSha256 then ssh.sendKexDhGexRequest env else ssh.sendKexDhInit env

def doKexDhGexRequest (len : Nat) (parse : Option WsErr) (send : KexSendEnv) (ssh : Ssh) :
    Ssh × Ret :=
  match ssh.handshake with
  | none => (ssh, .error .badArgument)
  | some hs =>
    if len = 0 then (ssh, .error .badArgument)
    else if hs.ignoreNextKexMsg then (ssh.skipGuessedKexMsg, .ok ())
    else
      match parse with
      | some e => (ssh, .error e)
      | none => ssh.sendKexDhGexGroup send

def doKexDhGexGroup (len : Nat) (parse : Option WsErr) (send : KexSendEnv) (bundles : Bool)
    (ssh : Ssh) : Ssh × Ret :=
  disconnectOn [.cryptoFailed, .dhSizeE] bundles
    (if ssh.handshake.isNone ∨ len = 0 then (ssh, .error .badArgument)
    else
      match parse with
      | some e => (ssh, .error e)
      | none => ssh.sendKexDhInit send)

/-- `DoKexDhReply` from the exchange hash on. -/
def doKexDhReplyHashed (env : KexDhEnv) (ssh : Ssh) : Ssh × Ret :=
  let ssh := ssh.saveSessionId env.hSz
  match env.signature with
  | some e => (ssh, .error e)
  | none =>
    let ssh := ssh.updHandshake fun hs => { hs with hostVerified := true }
    match env.keys with
    | some e => (ssh, .error e)
    | none =>
      let ssh := ssh.updHandshake fun hs => { hs with keysDerived := true }
      (ssh.expect msgidNewKeys).sendNewKeys env.newKeys

def doKexDhReply (len : Nat) (env : KexDhEnv) (ssh : Ssh) : Ssh × Ret :=
  if ssh.handshake.isNone ∨ len = 0 then (ssh, .error .badArgument)
  else
    disconnectOn [.cryptoFailed, .pubkeyRejectedE] env.disconnectBundles
      (match env.parse with
      | some e => (ssh, .error e)
      | none =>
        match env.hash with
        | some e => (ssh, .error e)
        | none => ssh.doKexDhReplyHashed env)

/-- `DoNewKeys`: `none` for the cipher is a key that could be set. -/
def doNewKeys (len : Nat) (cipher : Option WsErr) (adjusts : Nat) (adjustRet : Ret) (ssh : Ssh) :
    Ssh × Ret :=
  if ssh.handshake.isNone ∨ len ≠ 0 then (ssh, .error .badArgument)
  else if ssh.selfKeying then (ssh, .error .invalidStateE)
  else
    match cipher with
    | some e => (ssh, .error e)
    | none =>
      sendPendingChannelWindowAdjust adjusts adjustRet
        { ssh with peerKeying := false, handshake := none }

end Ssh

/-- What a handler that takes no part in the key exchange may do to the session. Only a user
authentication answers `WS_AUTH_PENDING`. -/
structure Effects where
  sends : List { msg : Nat // msg ≠ msgidKexInit ∧ msg ≠ msgidNewKeys ∧ msg ≠ msgidExtInfo } := []
  ends : Bool := false
  clientState : Option ClientState := none
  serverState : Option ServerState := none
  authPending : Bool := false

namespace Ssh

def bundleAll (msgs : List Nat) (ssh : Ssh) : Ssh := msgs.foldl (fun ssh msg => ssh.bundlePacket msg) ssh

def runEffects (fx : Effects) (ssh : Ssh) : Ssh :=
  let ssh := ssh.bundleAll (fx.sends.map Subtype.val)
  { ssh with
    disconnected := ssh.disconnected || fx.ends
    clientState := fx.clientState.getD ssh.clientState
    serverState := fx.serverState.getD ssh.serverState }

end Ssh

/-- All that the handlers may meet when a packet is dispatched. -/
structure PacketEnv where
  len : Nat := 0
  kexInit : KexInitEnv := {}
  kexDh : KexDhEnv := {}
  parse : Option WsErr := none
  send : KexSendEnv := {}
  newKeys : NewKeysEnv := {}
  effects : Effects := {}
  unimplemented : Bool := true
  disconnectBundles : Bool := true

namespace Ssh

/-- A client whose session is up opens the exchange of a rekey at once, unless the KEXINIT could
not be matched. -/
def kexInitCase (env : PacketEnv) (ssh : Ssh) : Ssh :=
  let (ssh, ret) := ssh.doKexInit env.len env.kexInit
  if !isKexMatchError ret ∧ ssh.isKeying ∧ ssh.connectState = .serverChannelRequestDone then
    (ssh.sendFirstKexMsg env.send).1
  else ssh

def kexDhReplyCase (env : PacketEnv) (ssh : Ssh) : Ssh × Ret :=
  match ssh.handshake with
  | none => (ssh, .error .memoryE)
  | some hs =>
    if hs.kexId = .dhGexSha256 then
      ssh.doKexDhGexGroup env.len env.parse env.send env.disconnectBundles
    else ssh.doKexDhReply env.len env.kexDh

/-- The switch of `DoPacket`. -/
def dispatch (msg : Nat) (env : PacketEnv) (ssh : Ssh) : Ssh :=
  if msg = msgidDisconnect then { ssh with disconnected := true }
  else if msg = msgidKexInit then ssh.kexInitCase env
  else if msg = msgidNewKeys then
    (ssh.doNewKeys env.len env.newKeys.cipher env.newKeys.adjusts env.newKeys.adjustRet).1
  else if msg = msgidKexDhInit ∨ msg = msgidKexDhGexInit then (ssh.doKexDhInit env.len env.kexDh).1
  else if msg = msgidKexDhReply then (ssh.kexDhReplyCase env).1
  else if msg = msgidKexDhGexReply then (ssh.doKexDhReply env.len env.kexDh).1
  else if msg = msgidKexDhGexRequest then (ssh.doKexDhGexRequest env.len env.parse env.send).1
  else if msgIdKnown msg then ssh.runEffects env.effects
  else if env.unimplemented then ssh.bundlePacket msgidUnimplemented
  else ssh

end Ssh

structure Consumed where
  msg : Nat
  peerSeq : Nat
  strict : Bool
  installs : Bool
deriving DecidableEq, Repr

/-- A packet that reached the switch. `skipped` is a wrong guess, and `keys` what a NEWKEYS has
copied: whether the keys had been derived, and the host signature verified. -/
structure Dispatched where
  msg : Nat
  ended : Bool
  skipped : Bool
  keys : Option (Bool × Bool)
deriving DecidableEq, Repr

/-- A session with what it has consumed and dispatched, the latest first. -/
structure Run where
  ssh : Ssh
  consumed : List Consumed := []
  dispatched : List Dispatched := []
deriving DecidableEq, Repr

namespace Run

/-- The end of `DoPacket`, which steps over the packet. -/
def consume (msg : Nat) (newKeysDone : Bool) (r : Run) : Run :=
  let consumed := ⟨msg, r.ssh.peerSeq, r.ssh.useStrictKex, newKeysDone⟩ :: r.consumed
  if newKeysDone then
    { r with
      ssh := { r.ssh with
        peerSeq := if r.ssh.useStrictKex then 0 else (r.ssh.peerSeq + 1) % 2 ^ 32
        initialKexDone := true }
      consumed := consumed }
  else
    { r with
      ssh := { r.ssh with peerSeq := (r.ssh.peerSeq + 1) % 2 ^ 32 }
      consumed := consumed }

/-- A message that opens an exchange, after a wrong guess. -/
def skips (ssh : Ssh) (msg len : Nat) : Bool :=
  (msg = msgidKexDhInit ∨ msg = msgidKexDhGexInit ∨ msg = msgidKexDhGexRequest) ∧ len ≠ 0 ∧
    ssh.ignoresNext

/-- Whether the NEWKEYS has installed its keys, which frees the handshake. -/
def newKeysDone (msg : Nat) (before after : Ssh) : Bool :=
  msg = msgidNewKeys && before.handshake.isSome && after.handshake.isNone

def dispatchOf (msg : Nat) (env : PacketEnv) (before : Ssh) : Dispatched where
  msg := msg
  ended := before.disconnected
  skipped := skips before msg env.len
  keys :=
    if msg = msgidNewKeys ∧ env.len = 0 ∧ before.selfKeying = false then
      before.handshake.map fun hs => (hs.keysDerived, hs.hostVerified)
    else none

/-- The dispatch of a packet that is let in. A pending user authentication keeps its packet. -/
def handle (msg : Nat) (env : PacketEnv) (ssh : Ssh) (r : Run) : Run :=
  let ssh' := ssh.dispatch msg env
  let r : Run := { r with
    ssh := ssh'
    dispatched := dispatchOf msg env ssh :: r.dispatched }
  if msgIdKnown msg ∧ 50 ≤ msg ∧ env.effects.authPending then r
  else r.consume msg (newKeysDone msg ssh ssh')

def doPacket (msg : Nat) (env : PacketEnv) (r : Run) : Run :=
  match isMessageAllowed r.ssh msg with
  | none =>
    if (r.ssh.useStrictKex ∧ ¬ r.ssh.initialKexDone) ∨ msgIdKnown msg ∨
        MsgidlimitPostUserauth msg then
      if r.ssh.disconnected then r
      else { r with ssh := r.ssh.sendDisconnect env.disconnectBundles }
    else if r.ssh.disconnected ∨ env.unimplemented = false then r.consume msg false
    else { r with ssh := r.ssh.bundlePacket msgidUnimplemented : Run }.consume msg false
  | some ssh =>
    if ssh.disconnected ∧ msg ≠ msgidDisconnect then { r with ssh := ssh : Run }.consume msg false
    else handle msg env ssh r

end Run

namespace Ssh

/-! What `wolfSSH_connect` does, which only a client calls. -/

def connectKex (env : KexSendEnv) (ssh : Ssh) : Ssh :=
  if ssh.side = .client then (ssh.sendFirstKexMsg env).1 else ssh

def setConnectState (st : ConnectState) (ssh : Ssh) : Ssh :=
  if ssh.side = .client then { ssh with connectState := st } else ssh

end Ssh

/-- What happens to a session: a packet, or a call of the application. The states that
`wolfSSH_accept` and `wolfSSH_connect` go through are left free here. -/
inductive Event where
  | packet (msg : Nat) (env : PacketEnv)
  | sendKexInit (sent : Sent)
  | connectKex (env : KexSendEnv)
  | effects (fx : Effects)
  | acceptState (st : AcceptState)
  | connectState (st : ConnectState)

namespace Run

/-- Every call that sends stops at a session that is over. -/
def call (f : Ssh → Ssh) (r : Run) : Run :=
  if r.ssh.disconnected then r else { r with ssh := f r.ssh }

def step (r : Run) : Event → Run
  | .packet msg env => r.doPacket msg env
  | .sendKexInit sent => r.call fun ssh => (ssh.sendKexInit sent).1
  | .connectKex env => r.call fun ssh => ssh.connectKex env
  | .effects fx => r.call fun ssh => ssh.runEffects fx
  | .acceptState st => { r with ssh := { r.ssh with acceptState := st } }
  | .connectState st => { r with ssh := r.ssh.setConnectState st }

end Run

/-- A session as `SshInit` leaves it. -/
def start (side : Endpoint) (sendStrictKex : Bool) : Run :=
  { ssh := { side := side, sendStrictKex := sendStrictKex } }

end WolfSsh.Session
