import WolfSsh.Window

/-! The send window of the channels of a session: how much of the caller's data a call frames, what
becomes of it in the output buffer, and what the call answers. -/

namespace WolfSsh.SendWindow

/-- What the send callback answers. A count beyond the whole buffer is `beyond`. -/
inductive IoSend where
  | sent (n : Nat)
  | beyond
  | wantWrite | isr | connRst | connClose | timeout | general
deriving DecidableEq, Repr

inductive SendErr where
  | rekeying | invalidChanid | eof | windowFull | memoryE | overflowE | bufferE | wantWrite
  | socketErrorE | sendOobReadE
  | other (code : Nat)
deriving DecidableEq, Repr

/-- An octet of the output. One of channel data tells the call that framed it. -/
abbrev Octet := Option (Nat × UInt8)

structure Flush where
  ret : Except SendErr Unit
  went : List Octet
  out : List Octet

/-- The loop of `SendPacketFlush` on the answers of the callback. A callback that answers no more
blocks. Only a general error discards the buffer. -/
def sendPacketFlush : List IoSend → List Octet → Flush
  | _, [] => ⟨.ok (), [], []⟩
  | [], b :: out => ⟨.error .wantWrite, [], b :: out⟩
  | .sent n :: io, b :: out =>
    let r := sendPacketFlush io ((b :: out).drop n)
    { r with went := (b :: out).take n ++ r.went }
  | .beyond :: _, b :: out => ⟨.error .sendOobReadE, [], b :: out⟩
  | .isr :: io, b :: out => sendPacketFlush io (b :: out)
  | .wantWrite :: _, b :: out => ⟨.error .wantWrite, [], b :: out⟩
  | .connRst :: _, b :: out => ⟨.error .socketErrorE, [], b :: out⟩
  | .connClose :: _, b :: out => ⟨.error .socketErrorE, [], b :: out⟩
  | .timeout :: _, b :: out => ⟨.error .socketErrorE, [], b :: out⟩
  | .general :: _, _ :: _ => ⟨.error .socketErrorE, [], []⟩

/-- What the highwater callback does: it may send a KEXINIT of some size, and it answers what it
likes. A positive answer is no success. -/
structure HighwaterCall where
  kexInit : Option (Nat × List IoSend) := none
  ret : Except SendErr Nat := .ok 0

/-- What a send takes from outside: the answers of the send callback, and the call of the highwater
callback if a mark is found passed after a complete flush. -/
structure SendEnv where
  io : List IoSend := []
  highwater : Option HighwaterCall := none

/-- `adjusts` and `framed` record the credit that was taken and the data that was framed. -/
structure Channel where
  channel : Nat
  peerWindowSz : Nat
  peerMaxPacketSz : Nat
  maxPacketSz : Nat
  eofTxd : Bool := false
  initialWindowSz : Nat
  adjusts : List Nat := []
  framed : Bytes := []
deriving DecidableEq, Repr

/-- The session, with the octets that are on the wire and the number of calls so far. -/
structure Session where
  channelList : List Channel := []
  outputBuffer : List Octet := []
  isKeying : Bool := false
  disconnected : Bool := false
  wire : List Octet := []
  calls : Nat := 0
deriving DecidableEq, Repr

def uint32Max : Nat := 2 ^ 32 - 1

namespace Session

def channelFind (ssh : Session) (id : Nat) : Option Channel :=
  ssh.channelList.find? (fun ch => ch.channel == id)

def put (ssh : Session) (ch : Channel) : Session :=
  { ssh with channelList := ssh.channelList.map (fun c => if c.channel = ch.channel then ch else c) }

def flushed (ssh : Session) (r : Flush) : Session :=
  { ssh with outputBuffer := r.out, wire := ssh.wire ++ r.went }

def queue (ssh : Session) (octets : List Octet) : Session :=
  { ssh with outputBuffer := ssh.outputBuffer ++ octets }

/-- `SendKexInit` from the callback: keying starts once its packet is out or queued. -/
def sendKexInit (sz : Nat) (io : List IoSend) (ssh : Session) : Session :=
  let ssh := ssh.queue (List.replicate sz none)
  let r := sendPacketFlush io ssh.outputBuffer
  let ssh := ssh.flushed r
  match r.ret with
  | .ok _ | .error .wantWrite => { ssh with isKeying := true }
  | .error _ => { ssh with outputBuffer := [] }

/-- A dead session makes no call. -/
def highwaterCheck (call : Option HighwaterCall) (ssh : Session) : Except SendErr Nat × Session :=
  match call with
  | none => (.ok 0, ssh)
  | some call =>
    if ssh.disconnected then (.ok 0, ssh)
    else
      match call.kexInit with
      | none => (call.ret, ssh)
      | some (sz, io) => (call.ret, ssh.sendKexInit sz io)

def sendPacket (env : SendEnv) (ssh : Session) : Except SendErr Nat × Session :=
  let r := sendPacketFlush env.io ssh.outputBuffer
  match r.ret with
  | .ok _ => (ssh.flushed r).highwaterCheck env.highwater
  | .error e => (.error e, ssh.flushed r)

end Session

def packetHeadSz : Nat := lengthSz + padLengthSz

/-- The octets of a packet with channel data: the header, the data, the padding and the MAC. -/
def frame (call headSz tailSz : Nat) (data : Bytes) : List Octet :=
  List.replicate headSz none ++ (data.map (fun b => some (call, b)) ++ List.replicate tailSz none)

/-- What one call takes from outside: for the flush of earlier output and for its own packet, and
whether the packet can be prepared and bundled. -/
structure CallEnv where
  early : SendEnv := {}
  late : SendEnv := {}
  bundles : Bool := true
  tailSz : Nat := 0

def Channel.bound (ch : Channel) : Nat := min (min ch.peerWindowSz ch.peerMaxPacketSz) ch.maxPacketSz

/-- The packet is framed, so a blocked flush still took the data. -/
def taken (dataSz : Nat) : Except SendErr Nat → Except SendErr Nat
  | .ok 0 => .ok dataSz
  | .error .wantWrite => .ok dataSz
  | ret => ret

namespace Session

/-- The packet is in the output buffer and charged to the window. -/
def charged (ssh : Session) (headSz tailSz : Nat) (ch : Channel) (data : Bytes) : Session :=
  (ssh.queue (frame ssh.calls headSz tailSz data)).put
    { ch with peerWindowSz := ch.peerWindowSz - data.length, framed := ch.framed ++ data }

/-- The part of a call that follows the flush of earlier output. -/
def frameData (headSz : Nat) (env : CallEnv) (id : Nat) (data : Bytes) (ssh : Session) :
    Except SendErr Nat × Session :=
  if ssh.isKeying then (.error .rekeying, ssh)
  else
    match ssh.channelFind id with
    | none => (.error .invalidChanid, ssh)
    | some ch =>
      if ch.eofTxd then (.error .eof, ssh)
      else if ch.peerWindowSz = 0 then (.error .windowFull, ssh)
      else if ch.bound = 0 ∧ data.length ≠ 0 then (.error .windowFull, ssh)
      else if env.bundles then
        let data := data.take ch.bound
        let (ret, ssh) := (ssh.charged headSz env.tailSz ch data).sendPacket env.late
        (taken data.length ret, ssh)
      else (.error .memoryE, ssh)

/-- What `SendChannelData` and `SendChannelExtendedData` do with a header of this size. -/
def sendData (headSz : Nat) (env : CallEnv) (id : Nat) (data : Bytes) (ssh : Session) :
    Except SendErr Nat × Session :=
  let ssh := { ssh with calls := ssh.calls + 1 }
  if ssh.isKeying then (.error .rekeying, ssh)
  else if ssh.outputBuffer = [] then ssh.frameData headSz env id data
  else
    match ssh.sendPacket env.early with
    | (.ok 0, ssh) => ssh.frameData headSz env id data
    | (ret, ssh) => (ret, ssh)

def sendChannelData : CallEnv → Nat → Bytes → Session → Except SendErr Nat × Session :=
  sendData (packetHeadSz + msgIdSz + uint32Sz + lengthSz)

def sendChannelExtendedData : CallEnv → Nat → Bytes → Session → Except SendErr Nat × Session :=
  sendData (packetHeadSz + msgIdSz + uint32Sz + uint32Sz + lengthSz)

/-- The two words of the message are the channel and the octets that it adds. -/
def doChannelWindowAdjust (buf : Bytes) (ssh : Session) : Except SendErr Unit × Session :=
  if buf.length < uint32Sz + uint32Sz then (.error .bufferE, ssh)
  else
    let bytesToAdd := ato32 (buf.drop uint32Sz)
    match ssh.channelFind (ato32 buf) with
    | none => (.error .invalidChanid, ssh)
    | some ch =>
      if bytesToAdd > uint32Max - ch.peerWindowSz then (.error .overflowE, ssh)
      else
        (.ok (), ssh.put { ch with
          peerWindowSz := ch.peerWindowSz + bytesToAdd
          adjusts := ch.adjusts ++ [bytesToAdd] })

end Session

/-- What happens to a session: the calls that send channel data, the messages about a window, and
what else bears on them. -/
inductive Event where
  | data (env : CallEnv) (id : Nat) (data : Bytes)
  | extendedData (env : CallEnv) (id : Nat) (data : Bytes)
  | windowAdjust (buf : Bytes)
  | opened (id : Nat) (peerWindowSz peerMaxPacketSz maxPacketSz : UInt32)
  | closed (id : Nat)
  | eof (id : Nat)
  | keying (isKeying : Bool)
  | disconnected
  | queued (size : Nat)
  | flushed (env : SendEnv)

def Session.step (ssh : Session) : Event → Session
  | .data env id data => (ssh.sendChannelData env id data).2
  | .extendedData env id data => (ssh.sendChannelExtendedData env id data).2
  | .windowAdjust buf => (ssh.doChannelWindowAdjust buf).2
  | .opened id peerWindowSz peerMaxPacketSz maxPacketSz =>
    if (ssh.channelFind id).isSome then ssh
    else
      { ssh with channelList := ssh.channelList ++ [{
          channel := id
          peerWindowSz := peerWindowSz.toNat
          peerMaxPacketSz := peerMaxPacketSz.toNat
          maxPacketSz := maxPacketSz.toNat
          initialWindowSz := peerWindowSz.toNat }] }
  | .closed id => { ssh with channelList := ssh.channelList.filter (fun ch => ch.channel != id) }
  | .eof id =>
    match ssh.channelFind id with
    | none => ssh
    | some ch => ssh.put { ch with eofTxd := true }
  | .keying isKeying => { ssh with isKeying := isKeying }
  | .disconnected => { ssh with disconnected := true }
  | .queued size => ssh.queue (List.replicate size none)
  | .flushed env => (ssh.sendPacket env).2

end WolfSsh.SendWindow
