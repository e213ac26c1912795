import WolfSsh.NameList
import WolfSsh.Lib.Runs

/-! The requests on the channels of a session: the parse, the application's verdicts, the grant of a
shell, an exec or a subsystem, the reply, and where `wolfSSH_accept` goes with a granted command. -/

namespace WolfSsh.SessionRequest

abbrev Ret := Except WsErr Unit

inductive SessionType where
  | unknown | shell | exec | subsystem | terminal
deriving DecidableEq, Repr

/-- An id may be used again once its channel is gone; `serial` numbers the channels of the session
and is not in the source. -/
structure Channel where
  serial : Nat
  channel : Nat
  peerChannel : Nat
  sessionType : SessionType := .unknown
  command : Option Bytes := none
  commandSz : Nat := 0
  sessionGranted : Bool := false
  ptyReq : Bool := false
deriving DecidableEq, Repr

structure Terminal where
  widthChar : Nat := 0
  heightRows : Nat := 0
  widthPixels : Nat := 0
  heightPixels : Nat := 0
deriving DecidableEq, Repr

/-- A CHANNEL_SUCCESS or CHANNEL_FAILURE as it was bundled. -/
structure Reply where
  success : Bool
  peerChannel : Nat
deriving DecidableEq, Repr

/-- A granted request: the channel it was granted on, its type and the command it carried. -/
structure Grant where
  serial : Nat
  sessionType : SessionType
  command : Option Bytes
deriving DecidableEq, Repr

/-- `done` is `clientState` at `CLIENT_DONE`. `serials`, `sent` and `grants` are the history. -/
structure Ssh where
  side : Endpoint := .server
  channelList : List Channel := []
  done : Bool := false
  terminal : Terminal := {}
  modes : Option Bytes := none
  exitStatus : Nat := 0
  useAgent : Bool := false
  serials : Nat := 0
  sent : List Reply := []
  grants : List Grant := []
deriving DecidableEq, Repr

/-- What a request callback returns, and the channels it frees. -/
structure Answer where
  verdict : Int
  freed : List Nat := []
deriving DecidableEq, Repr

/-- What a request meets: the callbacks that are registered, with their answers, the other settings
of the application, whether allocations succeed, and how the reply's bundle and send end. -/
structure Env where
  channelReqAnyCb : Option Answer := none
  channelReqCb : SessionType → Option Answer := fun _ => none
  appChannels : Bool := false
  termResizeCb : Option Int := none
  agentCb : Bool := false
  memory : Bool := true
  bundle : Option WsErr := none
  send : Ret := .ok ()

namespace Ssh

def channelFind (id : Nat) (ssh : Ssh) : Option Channel :=
  ssh.channelList.find? fun c => c.channel = id

/-- Through the pointer that a lookup has found. -/
def update (id : Nat) (f : Channel → Channel) (ssh : Ssh) : Ssh :=
  { ssh with channelList := ssh.channelList.map fun c => if c.channel = id then f c else c }

/-- `wolfSSH_ChannelFree` on each. -/
def free (ids : List Nat) (ssh : Ssh) : Ssh :=
  { ssh with channelList := ssh.channelList.filter fun c => c.channel ∉ ids }

/-- `ChannelNew` and `ChannelAppend`. An id that is in use is never taken. -/
def opened (id peerChannel : Nat) (ssh : Ssh) : Ssh :=
  match ssh.channelFind id with
  | some _ => ssh
  | none =>
    { ssh with
      serials := ssh.serials + 1
      channelList := ssh.channelList ++ [{ serial := ssh.serials, channel := id, peerChannel }] }

/-- Up to the send, which may leave the packet queued. -/
def sendChannelSuccess (env : Env) (channelId : Nat) (success : Bool) (ssh : Ssh) : Ssh × Ret :=
  match ssh.channelFind channelId with
  | none => (ssh, .error .invalidChanid)
  | some c =>
    match env.bundle with
    | some e => (ssh, .error e)
    | none => ({ ssh with sent := ssh.sent ++ [⟨success, c.peerChannel⟩] }, env.send)

def setTerminalSize (t : Terminal) (ssh : Ssh) : Ssh :=
  { ssh with
    terminal :=
      { widthChar := min t.widthChar 65535
        heightRows := min t.heightRows 65535
        widthPixels := min t.widthPixels 65535
        heightPixels := min t.heightPixels 65535 } }

end Ssh

/-- What the handling of a request leaves: the session, `ret` and `rej`. -/
structure Handled where
  ssh : Ssh
  ret : Ret := .ok ()
  rej : Bool := false
deriving DecidableEq

def hasCommand (sessionType : SessionType) : Bool := sessionType != .shell

/-- The command of an exec or a subsystem; a shell request carries none. -/
def sessionCommand (memory : Bool) (sessionType : SessionType) (buf : Bytes) :
    Reader (Option Bytes) :=
  if hasCommand sessionType then do
    let command ← getStringAlloc memory buf
    return some command
  else
    return none

/-- What the application says to a request that got as far as the channel. -/
def sessionVerdict (env : Env) (sessionType : SessionType) (granted : Bool) : Answer :=
  if granted then { verdict := 0 }
  else
    match env.channelReqCb sessionType with
    | some answer => answer
    | none => { verdict := if env.appChannels then 1 else 0 }

/-- The fields as the callback reads them. -/
def Channel.ask (sessionType : SessionType) (command : Option Bytes) (c : Channel) : Channel :=
  match command with
  | some cmd => { c with command := some cmd, commandSz := cmd.length, sessionType }
  | none => { c with sessionType }

def Channel.putBack (sessionType prevType : SessionType) (c : Channel) : Channel :=
  if hasCommand sessionType then { c with command := none, commandSz := 0, sessionType := prevType }
  else { c with sessionType := prevType }

def Channel.grant (c : Channel) : Channel := { c with sessionGranted := true }

def doChannelRequestSession (env : Env) (channel : Channel) (sessionType : SessionType)
    (granted : Bool) (buf : Bytes) (idx : Nat) (ssh : Ssh) : Handled :=
  match ((sessionCommand env.memory sessionType buf).runAt idx).1 with
  | .error e => { ssh, ret := .error e }
  | .ok command =>
    if channel.sessionGranted then { ssh, rej := true }
    else
      let answer := sessionVerdict env sessionType granted
      let asked := (ssh.update channel.channel (Channel.ask sessionType command)).free answer.freed
      match asked.channelFind channel.channel with
      | none => { ssh := asked, rej := answer.verdict != 0 }
      | some c =>
        if answer.verdict = 0 then
          { ssh :=
              { asked.update c.channel Channel.grant with
                done := true
                grants := asked.grants ++ [⟨c.serial, sessionType, command⟩] } }
        else
          { ssh := asked.update c.channel (Channel.putBack sessionType channel.sessionType)
            rej := true }

structure Request where
  channelId : Nat
  type : Bytes
  wantReply : Bool
deriving DecidableEq, Repr

def getRequest (buf : Bytes) : Reader Request := do
  let channelId ← getUint32 buf
  let type ← getStringRef buf
  let wantReply ← getBoolean buf
  return ⟨channelId, type, wantReply⟩

def envRequest (buf : Bytes) : Reader Unit := do
  let _ ← getString 32 buf
  let _ ← getString 32 buf

def windowSize (buf : Bytes) : Reader Terminal := do
  let widthChar ← getUint32 buf
  let heightRows ← getUint32 buf
  let widthPixels ← getUint32 buf
  let heightPixels ← getUint32 buf
  return { widthChar, heightRows, widthPixels, heightPixels }

def ptyRequest (memory : Bool) (buf : Bytes) : Reader (Terminal × Bytes) := do
  let _ ← getString 32 buf
  let size ← windowSize buf
  let modes ← getStringAlloc memory buf
  return (size, modes)

/-- The signal, the flag for a core dump, the message and its language tag. -/
def exitSignal (buf : Bytes) : Reader Unit := do
  let _ ← getString 32 buf
  let _ ← getBoolean buf
  let _ ← getString 32 buf
  let _ ← getString 32 buf

def termResize (env : Env) : Ret :=
  match env.termResizeCb with
  | some ret => if ret = 0 then .ok () else .error .fatalError
  | none => .ok ()

def ptyReq (env : Env) (channel : Channel) (buf : Bytes) (idx : Nat) (ssh : Ssh) : Handled :=
  match ((ptyRequest env.memory buf).runAt idx).1 with
  | .error e => { ssh, ret := .error e }
  | .ok (size, modes) =>
    let marked := { ssh with modes := some modes }.update channel.channel
      fun c => { c with ptyReq := true }
    { ssh := marked.setTerminalSize size, ret := termResize env }

def windowChange (env : Env) (channel : Channel) (buf : Bytes) (idx : Nat) (ssh : Ssh) : Handled :=
  match ((windowSize buf).runAt idx).1 with
  | .error e => { ssh, ret := .error e }
  | .ok size =>
    if channel.ptyReq then { ssh := ssh.setTerminalSize size, ret := termResize env }
    else { ssh, rej := true }

def parsed (r : Reader Unit) (idx : Nat) (ssh : Ssh) : Handled := { ssh, ret := (r.runAt idx).1 }

def exitStatus (buf : Bytes) (idx : Nat) (ssh : Ssh) : Handled :=
  match ((getUint32 buf).runAt idx).1 with
  | .error e => { ssh, ret := .error e }
  | .ok status => { ssh := { ssh with exitStatus := status } }

/-- The requests that set a session up. -/
def sessionTypeOf (type : Bytes) : Option SessionType :=
  if type = ascii "shell" then some .shell
  else if type = ascii "exec" then some .exec
  else if type = ascii "subsystem" then some .subsystem
  else none

def handle (env : Env) (channel : Channel) (type : Bytes) (granted : Bool) (buf : Bytes)
    (idx : Nat) (ssh : Ssh) : Handled :=
  if type = ascii "env" then parsed (envRequest buf) idx ssh
  else
    match sessionTypeOf type with
    | some sessionType => doChannelRequestSession env channel sessionType granted buf idx ssh
    | none =>
      if type = ascii "pty-req" then ptyReq env channel buf idx ssh
      else if type = ascii "window-change" then windowChange env channel buf idx ssh
      else if type = ascii "exit-status" then exitStatus buf idx ssh
      else if type = ascii "exit-signal" then parsed (exitSignal buf) idx ssh
      else if type = ascii "auth-agent-req@openssh.com" then
        { ssh := if env.agentCb then { ssh with useAgent := true } else ssh }
      else { ssh, rej := !granted }

/-- A client refuses what sets a session up. Then the generic callback is asked: the session after
it, whether it refused and whether it accepted. -/
def askAny (env : Env) (type : Bytes) (ssh : Ssh) : Ssh × Bool × Bool :=
  if ssh.side = .client ∧ ((sessionTypeOf type).isSome ∨ type = ascii "pty-req") then
    (ssh, true, false)
  else
    match env.channelReqAnyCb with
    | none => (ssh, false, false)
    | some answer =>
      (ssh.free answer.freed, decide (answer.verdict = 2), decide (answer.verdict = 1))

/-- The requests that get no reply, whatever they ask for. -/
def unanswered (type : Bytes) : Bool :=
  decide (type = ascii "exit-status" ∨ type = ascii "exit-signal" ∨ type = ascii "window-change")

def Request.handled (env : Env) (buf : Bytes) (idx : Nat) (ssh : Ssh) (r : Request) : Handled :=
  match ssh.channelFind r.channelId with
  | none => { ssh, ret := .error .invalidChanid }
  | some _ =>
    match askAny env r.type ssh with
    | (ssh, rej, granted) =>
      match rej, ssh.channelFind r.channelId with
      | false, some channel => handle env channel r.type granted buf idx ssh
      | _, _ => { ssh, rej }

def Request.asks (ssh : Ssh) (r : Request) : Bool :=
  r.wantReply && !((ssh.channelFind r.channelId).isSome && unanswered r.type)

def doChannelRequest (env : Env) (buf : Bytes) (idx : Nat) (ssh : Ssh) : Ssh × Ret :=
  match (getRequest buf).runAt idx with
  | (.error e, _) => (ssh, .error e)
  | (.ok r, begin) =>
    let h := r.handled env buf begin ssh
    if r.asks ssh then
      match h.ssh.sendChannelSuccess env r.channelId (decide (h.ret = .ok ()) && !h.rej) with
      | (after, .ok _) => (after, h.ret)
      | (after, .error e) => (after, .error e)
    else (h.ssh, h.ret)

/-! Where `wolfSSH_accept` goes once a session is granted. -/

inductive Divert where
  | scp | sftp
deriving DecidableEq, Repr

def channelCommandIsScp (c : Channel) : Bool :=
  match c.command with
  | none => false
  | some cmd =>
    decide (3 ≤ c.commandSz ∧ cmd.take 3 = ascii "scp" ∧
      (c.commandSz = 3 ∨ cmd[3]? = some 0x20) ∧ 0 ∉ cmd.take c.commandSz)

/-- The subsystem by its name as a C string. -/
def channelCommandIsSftp (c : Channel) : Bool :=
  match c.command with
  | none => false
  | some cmd =>
    decide (c.sessionType = .subsystem ∧ c.commandSz = 4 ∧
      cmd.takeWhile (· ≠ 0) = ascii "sftp")

/-- The test in `ACCEPT_SERVER_CHANNEL_ACCEPT_SENT`, and the command it goes by. -/
def acceptDivert (ssh : Ssh) : Option (Divert × Option Bytes) :=
  match ssh.done, ssh.channelList with
  | true, c :: _ =>
    if c.sessionGranted && channelCommandIsScp c then some (.scp, c.command)
    else if c.sessionGranted && channelCommandIsSftp c then some (.sftp, c.command)
    else none
  | _, _ => none

/-- What happens to the channels of a session. -/
inductive Event where
  | opened (id peerChannel : Nat)
  | removed (id : Nat)
  | request (env : Env) (buf : Bytes) (idx : Nat)

def step (ssh : Ssh) : Event → Ssh
  | .opened id peerChannel => ssh.opened id peerChannel
  | .removed id => ssh.free [id]
  | .request env buf idx => (doChannelRequest env buf idx ssh).1

end WolfSsh.SessionRequest
