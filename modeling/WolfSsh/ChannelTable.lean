import WolfSsh.Wire
import WolfSsh.Lib.FreshIds
import WolfSsh.Lib.Runs

/-! The list of a session's channels: opening, confirming, removing, and the senders that look a
channel up again by the peer's id. -/

namespace WolfSsh.ChannelTable

abbrev Ret := Except WsErr Unit

structure Channel where
  channel : Nat
  peerChannel : Nat := 0
  openConfirmed : Bool := false
  eofTxd : Bool := false
  closeTxd : Bool := false
deriving DecidableEq, Repr

/-- `WS_CHANNEL_ID_SELF` and `WS_CHANNEL_ID_PEER`. -/
inductive ChannelId where
  | self | peer
deriving DecidableEq, Repr

def Channel.id (c : Channel) : ChannelId → Nat
  | .self => c.channel
  | .peer => c.peerChannel

/-- The two messages that are sent once, and the flag for each. -/
inductive Txd where
  | eof | close
deriving DecidableEq, Repr

def Channel.txd (c : Channel) : Txd → Bool
  | .eof => c.eofTxd
  | .close => c.closeTxd

def Channel.setTxd (txd : Txd) (c : Channel) : Channel :=
  match txd with
  | .eof => { c with eofTxd := true }
  | .close => { c with closeTxd := true }

/-- The channels being opened are not on the list yet, the latest first; a callback may open one
while another is being opened. `hangs` is a search for an id that never ends. -/
structure Ssh where
  channelList : List Channel := []
  channelListSz : Nat := 0
  nextChannel : Nat := 0
  opening : List Channel := []
  hangs : Bool := false
deriving DecidableEq, Repr

namespace Ssh

def channelFind (id : Nat) (side : ChannelId) (ssh : Ssh) : Option Channel :=
  (ssh.channelList.take ssh.channelListSz).find? fun c => c.id side = id

/-- The id that `ChannelNew` takes. The counter has 32 bits, so a search that has gone round once
goes on for ever. -/
def freshChannel (ssh : Ssh) : Option Nat :=
  FreshIds.search (2 ^ 32) (fun id => (ssh.channelFind id .self).isSome) (2 ^ 32) ssh.nextChannel

def channelNew (ssh : Ssh) : Ssh :=
  match ssh.freshChannel with
  | none => { ssh with hangs := true }
  | some id =>
    { ssh with nextChannel := (id + 1) % 2 ^ 32, opening := { channel := id } :: ssh.opening }

def updatePeer (peerChannelId : Nat) (c : Channel) : Channel :=
  { c with peerChannel := peerChannelId, openConfirmed := true }

def channelAppend (c : Channel) (ssh : Ssh) : Ssh :=
  if ssh.channelList = [] then { ssh with channelList := [c], channelListSz := 1 }
  else
    { ssh with
      channelList := ssh.channelList ++ [c]
      channelListSz := (ssh.channelListSz + 1) % 2 ^ 32 }

def channelRemove (id : Nat) (side : ChannelId) (ssh : Ssh) : Ssh × Ret :=
  match ssh.channelFind id side with
  | none => (ssh, .error .invalidChanid)
  | some _ =>
    ({ ssh with
        channelList := ssh.channelList.eraseP fun c => c.id side = id
        channelListSz := ssh.channelListSz - 1 }, .ok ())

/-- Through the pointer that a lookup has found. -/
def update (id : Nat) (side : ChannelId) (f : Channel → Channel) (ssh : Ssh) : Ssh :=
  { ssh with
    channelList := ssh.channelList.replaceF fun c => if c.id side = id then some (f c) else none }

end Ssh

/-- What a sender meets: the gate of `IsMessageAllowed`, then the bundle, the send, and whether
output is still queued after it. -/
structure SendEnv where
  allowed : Option WsErr := none
  bundle : Option WsErr := none
  send : Ret := .ok ()
  pending : Bool := false
deriving Repr

/-- A packet that is sent or queued counts as sent. A socket error counts only if it left output
queued. -/
def SendEnv.commits (env : SendEnv) : Bool := env.send != .error .socketErrorE || env.pending

/-! The senders look the channel up again, by the peer's id: `side` is `.peer` in the source. With
`.self` they find the channel they are called for. -/

namespace Ssh

section Senders

variable (side : ChannelId)

/-- What `SendChannelEof` and `SendChannelClose` share. -/
def sendChannelTxd (txd : Txd) (env : SendEnv) (id : Nat) (ssh : Ssh) : Ssh × Ret :=
  match ssh.channelFind id side with
  | none => (ssh, .error .invalidChanid)
  | some c =>
    if c.txd txd then (ssh, .ok ())
    else
      match env.bundle with
      | some e => (ssh, .error e)
      | none => (if env.commits then ssh.update id side (Channel.setTxd txd) else ssh, env.send)

def sendChannelEof (env : SendEnv) (id : Nat) (ssh : Ssh) : Ssh × Ret :=
  match env.allowed with
  | some e => (ssh, .error e)
  | none => ssh.sendChannelTxd side .eof env id

def sendChannelClose (env : SendEnv) (id : Nat) (ssh : Ssh) : Ssh × Ret :=
  ssh.sendChannelTxd side .close env id

/-- `SendChannelExit`, and `SendChannelEow` to a peer that is OpenSSH: a request that sets no
flag. -/
def sendChannelRequest (env : SendEnv) (id : Nat) (ssh : Ssh) : Ret :=
  match ssh.channelFind id side with
  | none => .error .invalidChanid
  | some _ =>
    match env.bundle with
    | some e => .error e
    | none => env.send

def sendChannelEow (env : SendEnv) (clientOpenSSH : Bool) (id : Nat) (ssh : Ssh) : Ret :=
  if clientOpenSSH then ssh.sendChannelRequest side env id else .ok ()

end Senders

end Ssh

/-- What a call meets before its sends, and each of them. -/
structure CallEnv where
  ended : Bool := false
  keying : Bool := false
  clientOpenSSH : Bool := false
  eof : SendEnv := {}
  exit : SendEnv := {}
  eow : SendEnv := {}
  close : SendEnv := {}
  /-- Whether `ssh->error` is `WS_WANT_WRITE` after the EOF and after the exit status. -/
  eofBlocks : Bool := false
  exitBlocks : Bool := false

namespace Ssh

def andThen (next : Ssh → Ssh × Ret) (r : Ssh × Ret) : Ssh × Ret :=
  match r.2 with
  | .ok _ => next r.1
  | .error _ => r

/-- A call that is handed the channel with the local id `id`. -/
def withChannel (id : Nat) (f : Channel → Ssh × Ret) (ssh : Ssh) : Ssh × Ret :=
  match ssh.channelFind id .self with
  | none => (ssh, .error .badArgument)
  | some c => f c

/-- A blocked send does not stop `wolfSSH_shutdown`. -/
def goesOn (blocks : Bool) (ret : Ret) : Bool :=
  match ret with
  | .ok _ => true
  | .error e => blocks && e != .badArgument

section Calls

variable (side : ChannelId)

def streamSendEof (env : CallEnv) (ssh : Ssh) : Ssh × Ret :=
  if env.ended then (ssh, .error .fatalError)
  else
    match ssh.channelList with
    | [] => (ssh, .error .badArgument)
    | c :: _ =>
      if env.keying then (ssh, .error .rekeying)
      else if c.openConfirmed = false then (ssh, .error .channelNotConf)
      else ssh.sendChannelEof side env.eof (c.id side)

def streamExit (env : CallEnv) (ssh : Ssh) : Ssh × Ret :=
  if env.ended then (ssh, .error .fatalError)
  else
    match ssh.channelList with
    | [] => (ssh, .error .badArgument)
    | c :: _ =>
      match ssh.sendChannelRequest side env.exit (c.id side) with
      | .error e => (ssh, .error e)
      | .ok _ =>
        match ssh.sendChannelEow side env.eow env.clientOpenSSH (c.id side) with
        | .error e => (ssh, .error e)
        | .ok _ =>
          andThen (sendChannelClose side env.close (c.id side))
            (ssh.sendChannelEof side env.eof (c.id side))

def channelExit (env : CallEnv) (id : Nat) (ssh : Ssh) : Ssh × Ret :=
  ssh.withChannel id fun c =>
    if env.ended then (ssh, .error .fatalError)
    else if c.openConfirmed = false then (ssh, .error .channelNotConf)
    else
      andThen (sendChannelClose side env.close (c.id side))
        (ssh.sendChannelEof side env.eof (c.id side))

def channelSendEof (env : CallEnv) (id : Nat) (ssh : Ssh) : Ssh × Ret :=
  ssh.withChannel id fun c =>
    if env.ended then (ssh, .error .fatalError)
    else if env.keying then (ssh, .error .rekeying)
    else if c.openConfirmed = false then (ssh, .error .channelNotConf)
    else ssh.sendChannelEof side env.eof (c.id side)

/-- `wolfSSH_shutdown` up to the wait for the peer's close. -/
def shutdown (env : CallEnv) (ssh : Ssh) : Ssh × Ret :=
  match ssh.channelList with
  | [] => (ssh, .error .badArgument)
  | c :: _ =>
    if env.ended ∨ c.closeTxd then (ssh, .ok ())
    else
      let (ssh, ret) := ssh.sendChannelEof side env.eof (c.id side)
      if goesOn env.eofBlocks ret then
        let ret := ssh.sendChannelRequest side env.exit (c.id side)
        if goesOn env.exitBlocks ret then ssh.sendChannelClose side env.close (c.id side)
        else (ssh, ret)
      else (ssh, ret)

end Calls

/-! The handlers. What the callbacks do to the list comes before them, as calls of its own. -/

def doChannelOpenConf (id peerChannelId : Nat) (ssh : Ssh) : Ssh × Ret :=
  match ssh.channelFind id .self with
  | none => (ssh, .error .invalidChanid)
  | some c =>
    if c.openConfirmed then (ssh, .error .invalidStateE)
    else (ssh.update id .self (updatePeer peerChannelId), .ok ())

def doChannelOpenFail (callback : Ret) (id : Nat) (ssh : Ssh) : Ssh × Ret :=
  match ssh.channelFind id .self with
  | none => (ssh, .error .invalidChanid)
  | some c =>
    if c.openConfirmed then (ssh, .error .invalidStateE)
    else
      match callback with
      | .error e => (ssh, .error e)
      | .ok _ =>
        match ssh.channelRemove id .self with
        | (ssh, .ok _) => (ssh, .error .chanopenFailed)
        | (ssh, .error e) => (ssh, .error e)

/-- The EOF and the close that answer a peer's close; both go whatever the first comes to. -/
def answerClose (side : ChannelId) (env : CallEnv) (c : Channel) (ssh : Ssh) : Ssh × Ret :=
  if c.closeTxd = false ∧ c.openConfirmed then
    let (ssh, eofRet) := ssh.sendChannelEof side env.eof (c.id side)
    let (ssh, ret) := ssh.sendChannelClose side env.close (c.id side)
    (ssh, if ret = .ok () then eofRet else ret)
  else (ssh, .ok ())

def doChannelClose (side : ChannelId) (env : CallEnv) (id : Nat) (ssh : Ssh) : Ssh × Ret :=
  match ssh.channelFind id .self with
  | none => (ssh, .error .invalidChanid)
  | some c =>
    let (ssh, ret) := ssh.answerClose side env c
    if ret = .ok () ∨ ret = .error .wantWrite then
      match ssh.channelRemove id .self with
      | (ssh, .ok _) => (ssh, .error .channelClosed)
      | (ssh, .error e) => (ssh, .error e)
    else (ssh, ret)

end Ssh

/-- What happens to the list. A channel is opened in two steps: `ChannelNew`, confirmed at once if
the peer asked for it, then it is appended or deleted. -/
inductive Event where
  | openNew (peer : Option Nat)
  | openDone (append : Bool)
  | openConf (id peerChannelId : Nat)
  | openFail (callback : Ret) (id : Nat)
  | close (env : CallEnv) (id : Nat)
  | free (id : Nat)
  | streamSendEof (env : CallEnv)
  | streamExit (env : CallEnv)
  | channelExit (env : CallEnv) (id : Nat)
  | channelSendEof (env : CallEnv) (id : Nat)
  | shutdown (env : CallEnv)

namespace Ssh

def openNew (peer : Option Nat) (ssh : Ssh) : Ssh :=
  let opened := ssh.channelNew
  match opened.hangs, peer with
  | false, some peerChannelId =>
    match opened.opening with
    | c :: rest => { opened with opening := updatePeer peerChannelId c :: rest }
    | [] => opened
  | _, _ => opened

def openDone (append : Bool) (ssh : Ssh) : Ssh :=
  match ssh.opening with
  | [] => ssh
  | c :: rest =>
    let ssh := { ssh with opening := rest }
    if append then ssh.channelAppend c else ssh

/-- What an event does, and what its call or handler returns. -/
def call (side : ChannelId) (ssh : Ssh) : Event → Ssh × Ret
  | .openNew peer => (ssh.openNew peer, .ok ())
  | .openDone append => (ssh.openDone append, .ok ())
  | .openConf id peerChannelId => ssh.doChannelOpenConf id peerChannelId
  | .openFail callback id => ssh.doChannelOpenFail callback id
  | .close env id => ssh.doChannelClose side env id
  | .free id => ssh.channelRemove id .self
  | .streamSendEof env => ssh.streamSendEof side env
  | .streamExit env => ssh.streamExit side env
  | .channelExit env id => ssh.channelExit side env id
  | .channelSendEof env id => ssh.channelSendEof side env id
  | .shutdown env => ssh.shutdown side env

def step (ssh : Ssh) (e : Event) : Ssh := (ssh.call .peer e).1

end Ssh

end WolfSsh.ChannelTable
