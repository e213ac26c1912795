import WolfSsh.Wire

/-! The receive window of the channels of a session: what data charges to it, what reads credit,
and how the credit gets to the peer through the output buffer that all packets share. -/

namespace WolfSsh.Window

inductive IoSend where
  | sent (n : Nat)
  | wantWrite | isr | connRst | connClose | timeout | general
deriving DecidableEq, Repr

/-- A packet in the output buffer: the channel and the amount if it is a WINDOW_ADJUST, and how
many of its octets are still to go. -/
structure OutPacket where
  adjust : Option (Nat × Nat) := none
  left : Nat
deriving DecidableEq, Repr

/-- The packets that are out once `n` more octets are, and those that are not. -/
def takeSent : Nat → List OutPacket → List OutPacket × List OutPacket
  | _, [] => ([], [])
  | n, p :: ps =>
    if p.left ≤ n then
      let (went, out) := takeSent (n - p.left) ps
      (p :: went, out)
    else ([], { p with left := p.left - n } :: ps)

structure Flush where
  ret : Except WsErr Unit
  went : List OutPacket
  out : List OutPacket
  io : List IoSend

/-- The loop of `SendPacketFlush` on the answers of the callback. A callback that answers no more
blocks. Only a general error discards the buffer. -/
def sendPacketFlush : List IoSend → List OutPacket → Flush
  | io, [] => ⟨.ok (), [], [], io⟩
  | [], out => ⟨.error .wantWrite, [], out, []⟩
  | .sent n :: io, out =>
    let (went, out) := takeSent n out
    let r := sendPacketFlush io out
    { r with went := went ++ r.went }
  | .isr :: io, out => sendPacketFlush io out
  | .wantWrite :: io, out => ⟨.error .wantWrite, [], out, io⟩
  | .connRst :: io, out => ⟨.error .socketErrorE, [], out, io⟩
  | .connClose :: io, out => ⟨.error .socketErrorE, [], out, io⟩
  | .timeout :: io, out => ⟨.error .socketErrorE, [], out, io⟩
  | .general :: io, _ => ⟨.error .socketErrorE, [], [], io⟩

structure ChanBuffer where
  idx : Nat := 0
  length : Nat := 0
  bufferSz : Nat := 0
deriving DecidableEq, Repr

def ChanBuffer.unread (b : ChanBuffer) : Nat := b.length - b.idx

/-- `GrowBuffer` by nothing: the unread octets move to the front. -/
def ChanBuffer.compact (b : ChanBuffer) : ChanBuffer :=
  if 0 < b.length then { b with length := b.unread, idx := 0 } else b

structure Channel where
  channel : Nat
  windowSz : Nat
  maxPacketSz : Nat
  inputBuffer : ChanBuffer := {}
  extDataBuffer : ChanBuffer := {}
  pendingWindowAdjust : Nat := 0
deriving DecidableEq, Repr

/-- The session, with a record of what happened to it: the packets that are out, the data of the
peer that it took or dropped, and the initial window of every channel it opened. -/
structure Session where
  channelList : List Channel := []
  nextChannel : Nat := 0
  outputBuffer : List OutPacket := []
  isKeying : Bool := false
  disconnected : Bool := false
  wire : List OutPacket := []
  taken : List (Nat × Nat) := []
  opened : List (Nat × Nat) := []
deriving DecidableEq, Repr

/-- What a step takes from outside when it sends: whether the packet can be bundled and its size
on the wire, the answers of the callback, and the size of the KEXINIT if the highwater callback
starts a rekey after a complete flush. -/
structure SendEnv where
  bundles : Bool := true
  packetSz : Nat := 32
  io : List IoSend := []
  rekeys : Option Nat := none
deriving DecidableEq, Repr

def uint32Max : Nat := 2 ^ 32 - 1
def channelExtendedDataStderr : Nat := 1

namespace Session

def channelFind (ssh : Session) (id : Nat) : Option Channel :=
  ssh.channelList.find? (fun ch => ch.channel == id)

def put (ssh : Session) (ch : Channel) : Session :=
  { ssh with channelList := ssh.channelList.map (fun c => if c.channel = ch.channel then ch else c) }

def purgePacket (ssh : Session) : Session := { ssh with outputBuffer := [] }

def flushed (ssh : Session) (r : Flush) : Session :=
  { ssh with outputBuffer := r.out, wire := ssh.wire ++ r.went }

def queue (ssh : Session) (p : OutPacket) : Session :=
  { ssh with outputBuffer := ssh.outputBuffer ++ [p] }

/-- `SendKexInit` from the highwater callback: keying starts once its packet is out or queued. -/
def sendKexInit (io : List IoSend) (packetSz : Nat) (ssh : Session) : Except WsErr Unit × Session :=
  let ssh := ssh.queue { left := packetSz }
  let r := sendPacketFlush io ssh.outputBuffer
  let ssh := ssh.flushed r
  match r.ret with
  | .ok _ | .error .wantWrite => (r.ret, { ssh with isKeying := true })
  | .error _ => (r.ret, ssh.purgePacket)

/-- `wolfSSH_SendPacket`: a complete flush is followed by the highwater check, which fires on no
dead session. -/
def sendPacket (env : SendEnv) (ssh : Session) : Except WsErr Unit × Session :=
  let r := sendPacketFlush env.io ssh.outputBuffer
  let ssh := ssh.flushed r
  match r.ret, env.rekeys with
  | .ok _, some sz => if ssh.disconnected then (.ok (), ssh) else ssh.sendKexInit r.io sz
  | .ok _, none => (.ok (), ssh)
  | .error e, _ => (.error e, ssh)

/-- The result, and whether the packet got into the output buffer. -/
def sendChannelWindowAdjust (env : SendEnv) (id bytesToAdd : Nat) (ssh : Session) :
    Except WsErr Unit × Bool × Session :=
  if env.bundles then
    let (ret, ssh) := (ssh.queue ⟨some (id, bytesToAdd), env.packetSz⟩).sendPacket env
    (ret, true, ssh)
  else (.error .memoryE, false, ssh)

def channelCreditWindow (env : SendEnv) (ch : Channel) (amount : Nat) (ssh : Session) :
    Except WsErr Unit × Session :=
  if amount > uint32Max - ch.pendingWindowAdjust then (.error .overflowE, ssh)
  else
    let total := ch.pendingWindowAdjust + amount
    if total = 0 then (.ok (), ssh)
    else if ssh.isKeying || ssh.disconnected then
      (.ok (), ssh.put { ch with pendingWindowAdjust := total })
    else
      let (ret, bundled, ssh) := sendChannelWindowAdjust env ch.channel total
        (ssh.put { ch with pendingWindowAdjust := 0 })
      if !bundled || ret matches .error .socketErrorE then
        (ret, ssh.put { ch with pendingWindowAdjust := total })
      else (ret, ssh)

/-- The channel after it took `dataSz` octets. -/
def channelPutData (ch : Channel) (dataSz : Nat) : Except WsErr Channel :=
  let b := ch.inputBuffer
  if dataSz > ch.windowSz then .error .error
  else if b.length < b.bufferSz ∧ b.length + dataSz ≤ b.bufferSz then
    .ok { ch with
      inputBuffer := { b with length := b.length + dataSz }
      windowSz := ch.windowSz - dataSz }
  else .error .overflowE

def take (ssh : Session) (id dataSz : Nat) : Session :=
  { ssh with taken := (id, dataSz) :: ssh.taken }

/-- Refused data ends the session and counts for nothing. -/
def doChannelData (id dataSz : Nat) (ssh : Session) : Except WsErr Unit × Session :=
  match ssh.channelFind id with
  | none => (.error .error, ssh)
  | some ch =>
    if dataSz > ch.maxPacketSz then (.error .overflowE, ssh)
    else
      match channelPutData ch dataSz with
      | .error e => (.error e, ssh)
      | .ok ch => (.ok (), (ssh.put ch).take id dataSz)

/-- Data for a channel that the session steps over: sent by the peer, and charged to no window. -/
def dropData (id dataSz : Nat) (ssh : Session) : Session :=
  if (ssh.channelFind id).isSome then ssh.take id dataSz else ssh

/-- `AppendBuffer`: the read part goes, the new octets come after the unread ones. -/
def appendBuffer (b : ChanBuffer) (dataSz : Nat) : ChanBuffer :=
  { b with idx := 0, length := b.unread + dataSz }

def doChannelExtendedData (env : SendEnv) (id dataTypeCode dataSz : Nat) (ssh : Session) :
    Except WsErr Unit × Session :=
  match ssh.channelFind id with
  | none => (.error .error, ssh)
  | some ch =>
    if dataSz > ch.maxPacketSz then (.error .overflowE, ssh)
    else if dataSz > ch.windowSz then (.error .overflowE, ssh)
    else if dataTypeCode = channelExtendedDataStderr then
      let ch := { ch with
        extDataBuffer := appendBuffer ch.extDataBuffer dataSz
        windowSz := ch.windowSz - dataSz }
      (.ok (), (ssh.put ch).take id dataSz)
    else (ssh.take id dataSz).channelCreditWindow env ch dataSz

/-- `_UpdateChannelWindow`: make room once the buffer is half full or the window is used up. -/
def updateChannelWindow (env : SendEnv) (ch : Channel) (ssh : Session) : Session :=
  let b := ch.inputBuffer
  if b.length > b.bufferSz / 2 ∨ ch.windowSz = 0 then
    let bytesToAdd := b.idx
    let ch := { ch with inputBuffer := b.compact }
    let ssh := ((ssh.put ch).channelCreditWindow env ch bytesToAdd).2
    match ssh.channelFind ch.channel with
    | none => ssh
    | some ch => ssh.put { ch with windowSz := ch.windowSz + bytesToAdd }
  else ssh.put ch

/-- `_BufferTake`: the read index moves over what is read. -/
def bufferTake (b : ChanBuffer) (sz : Nat) : ChanBuffer := { b with idx := b.idx + sz }

def channelRead (env : SendEnv) (id bufSz : Nat) (ssh : Session) : Session :=
  match ssh.channelFind id with
  | none => ssh
  | some ch =>
    let sz := min bufSz ch.inputBuffer.unread
    let ch := { ch with inputBuffer := bufferTake ch.inputBuffer sz }
    ssh.updateChannelWindow env ch

/-- A drained buffer for extended data starts over. -/
def shrunk (b : ChanBuffer) : ChanBuffer :=
  if b.idx = b.length then { b with idx := 0, length := 0 } else b

def channelReadExt (env : SendEnv) (id bufSz : Nat) (ssh : Session) : Session :=
  match ssh.channelFind id with
  | none => ssh
  | some ch =>
    let sz := min bufSz ch.extDataBuffer.unread
    if 0 < sz then
      let ch := { ch with
        extDataBuffer := shrunk (bufferTake ch.extDataBuffer sz)
        windowSz := ch.windowSz + sz }
      ((ssh.put ch).channelCreditWindow env ch sz).2
    else ssh

/-- One turn of the loop in `SendPendingChannelWindowAdjust`. -/
def creditPending (env : SendEnv) (id : Nat) (ssh : Session) : Session :=
  match ssh.channelFind id with
  | none => ssh
  | some ch =>
    if ssh.isKeying || ch.pendingWindowAdjust = 0 then ssh
    else (ssh.channelCreditWindow env ch 0).2

def channelNew (initialWindowSz maxPacketSz : Nat) (ssh : Session) : Session :=
  { ssh with
    channelList := ssh.channelList ++ [
      { channel := ssh.nextChannel, windowSz := initialWindowSz, maxPacketSz := maxPacketSz,
        inputBuffer := { bufferSz := initialWindowSz } }]
    nextChannel := ssh.nextChannel + 1
    opened := (ssh.nextChannel, initialWindowSz) :: ssh.opened }

/-- Any other sender: some purge the output buffer when the send fails for good. -/
def sendOther (env : SendEnv) (purges : Bool) (ssh : Session) : Session :=
  if env.bundles then
    match (ssh.queue { left := env.packetSz }).sendPacket env with
    | (.ok _, ssh) | (.error .wantWrite, ssh) => ssh
    | (.error _, ssh) => if purges then ssh.purgePacket else ssh
  else if purges then ssh.purgePacket else ssh

end Session

inductive Event where
  | channelNew (initialWindowSz maxPacketSz : Nat)
  | channelRemove (id : Nat)
  | channelData (id dataSz : Nat)
  | channelExtendedData (id dataTypeCode dataSz : Nat) (env : SendEnv)
  | channelRead (id bufSz : Nat) (env : SendEnv)
  | channelReadExt (id bufSz : Nat) (env : SendEnv)
  | creditPending (id : Nat) (env : SendEnv)
  | keying (isKeying : Bool)
  | disconnect
  | sendOther (purges : Bool) (env : SendEnv)
  | sendPacket (env : SendEnv)
deriving DecidableEq, Repr

/-- `DoPacket` dispatches no data once the session is disconnected. -/
def step (ssh : Session) : Event → Session
  | .channelNew initialWindowSz maxPacketSz => ssh.channelNew initialWindowSz maxPacketSz
  | .channelRemove id =>
    { ssh with channelList := ssh.channelList.filter (fun ch => ch.channel != id) }
  | .channelData id dataSz =>
    if ssh.disconnected then ssh.dropData id dataSz else (ssh.doChannelData id dataSz).2
  | .channelExtendedData id dataTypeCode dataSz env =>
    if ssh.disconnected then ssh.dropData id dataSz
    else (ssh.doChannelExtendedData env id dataTypeCode dataSz).2
  | .channelRead id bufSz env => ssh.channelRead env id bufSz
  | .channelReadExt id bufSz env => ssh.channelReadExt env id bufSz
  | .creditPending id env => ssh.creditPending env id
  | .keying isKeying => { ssh with isKeying := isKeying }
  | .disconnect => { ssh with disconnected := true }
  | .sendOther purges env => ssh.sendOther env purges
  | .sendPacket env => (ssh.sendPacket env).2

end WolfSsh.Window
