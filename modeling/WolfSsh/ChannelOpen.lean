import WolfSsh.ChannelIntegrity
import Mathlib.Logic.Function.Basic

/-! The opens of a session and their answers: when the caller that bundled a CHANNEL_OPEN puts its
channel on the list, and what the peer's answer finds there. -/

namespace WolfSsh.ChannelOpen

open ChannelTable (Ssh Channel CallEnv Ret)

/-- Who opens a channel: `wolfSSH_connect`, `wolfSSH_ChannelFwdNewLocal`,
`wolfSSH_ChannelFwdNewRemote`, the agent open of a server, and `DoChannelOpen` for the peer. -/
inductive Opener where
  | connect | fwdNewLocal | fwdNewRemote | agent
  | doChannelOpen (peerChannelId : Nat)
deriving DecidableEq, Repr

/-- What keeps an open from being bundled: the forward's memory, `PreparePacket` or
`BundlePacket`. -/
abbrev BundleErr := { e : WsErr // e ≠ .wantWrite ∧ e ≠ .wantRead }

/-- A call that made a channel and has not returned. -/
structure Call where
  opener : Opener
  bundle : Option BundleErr := none

/-- What the flush of the send, the highwater check after it and the callback of the opener come to;
`accepted` is the verdict on a peer's open. -/
structure Ending where
  flush : Ret := .ok ()
  highwater : Ret := .ok ()
  fwdCb : Ret := .ok ()
  accepted : Bool := true

def Ending.sendPacket (r : Ending) : Ret :=
  match r.flush with
  | .ok _ => r.highwater
  | .error e => .error e

def Ending.sendPacketDelivered (r : Ending) : Bool :=
  decide (r.flush = .ok ()) || decide (r.sendPacket = .error .wantWrite)

/-- `SendChannelOpen`, from the bundle on. -/
def Call.sendChannelOpen (call : Call) (r : Ending) : Ret :=
  match call.bundle with
  | some e => .error e.val
  | none => r.sendPacket

/-- Whether the opener appends the channel; else it deletes it. -/
def Call.appends (call : Call) (r : Ending) : Bool :=
  match call.opener with
  | .connect =>
    decide (call.sendChannelOpen r = .ok () ∨ call.sendChannelOpen r = .error .wantWrite ∨
      call.sendChannelOpen r = .error .wantRead)
  | .fwdNewLocal => decide (call.sendChannelOpen r = .ok ())
  | .fwdNewRemote => decide (call.sendChannelOpen r = .ok () ∧ r.fwdCb = .ok ())
  | .agent => decide (call.bundle = none) && r.sendPacketDelivered
  | .doChannelOpen _ => r.accepted

/-- What became of the last channel with an id: its open was never bundled, or is not answered, or
was confirmed; it is over with the peer's failure or close or the application's free; or the peer
opened it. -/
inductive Phase where
  | unsent | waiting | confirmed | ended | peers
deriving DecidableEq, Repr

def Call.phase (call : Call) : Phase :=
  match call.opener, call.bundle with
  | .doChannelOpen _, _ => .peers
  | _, none => .waiting
  | _, some _ => .unsent

/-- The session with the calls that are opening a channel, the latest first, and the phases. -/
structure Session where
  ssh : Ssh := {}
  calls : List Call := []
  phase : Nat → Phase := fun _ => .unsent

/-- What happens to the channels. A callback may do any of it while a channel is being opened. -/
inductive Event where
  | openBegin (call : Call)
  | openEnd (r : Ending)
  | openConf (id peerChannelId : Nat)
  | openFail (callback : Ret) (id : Nat)
  | close (env : CallEnv) (id : Nat)
  | free (id : Nat)
  | streamSendEof (env : CallEnv)
  | streamExit (env : CallEnv)
  | channelExit (env : CallEnv) (id : Nat)
  | channelSendEof (env : CallEnv) (id : Nat)
  | shutdown (env : CallEnv)

namespace Session

def setPhase (s : Session) (id : Nat) (phase : Phase) : Session :=
  { s with phase := Function.update s.phase id phase }

def moves (s : Session) (id : Nat) (before : List Phase) (after : Phase) : Session :=
  if s.phase id ∈ before then s.setPhase id after else s

def peer : Opener → Option Nat
  | .doChannelOpen peerChannelId => some peerChannelId
  | .connect | .fwdNewLocal | .fwdNewRemote | .agent => none

def openBegin (s : Session) (call : Call) : Session :=
  let ssh := s.ssh.openNew (peer call.opener)
  match s.ssh.freshChannel with
  | none => { s with ssh := ssh }
  | some id => { s with ssh := ssh, calls := call :: s.calls }.setPhase id call.phase

def openEnd (s : Session) (r : Ending) : Session :=
  match s.calls with
  | [] => s
  | call :: calls => { s with ssh := s.ssh.openDone (call.appends r), calls := calls }

/-- The application frees a channel that it finds on the list. -/
def free (s : Session) (id : Nat) : Session :=
  match s.ssh.channelRemove id .self with
  | (ssh, .ok _) => { s with ssh := ssh }.setPhase id .ended
  | (_, .error _) => s

def step (s : Session) : Event → Session
  | .openBegin call => s.openBegin call
  | .openEnd r => s.openEnd r
  | .openConf id peerChannelId =>
    { s with ssh := (s.ssh.doChannelOpenConf id peerChannelId).1 }.moves id [.waiting] .confirmed
  | .openFail callback id =>
    { s with ssh := (s.ssh.doChannelOpenFail callback id).1 }.moves id [.waiting, .confirmed] .ended
  | .close env id =>
    { s with ssh := (s.ssh.doChannelClose .peer env id).1 }.moves id [.confirmed] .ended
  | .free id => s.free id
  | .streamSendEof env => { s with ssh := (s.ssh.streamSendEof .peer env).1 }
  | .streamExit env => { s with ssh := (s.ssh.streamExit .peer env).1 }
  | .channelExit env id => { s with ssh := (s.ssh.channelExit .peer env id).1 }
  | .channelSendEof env id => { s with ssh := (s.ssh.channelSendEof .peer env id).1 }
  | .shutdown env => { s with ssh := (s.ssh.shutdown .peer env).1 }

end Session

/-- The ids on the list, and those of the channels that are being opened. -/
def listed (ssh : Ssh) : List Nat := ssh.channelList.map Channel.channel

def opening (ssh : Ssh) : List Nat := ssh.opening.map Channel.channel

/-- The results of the send and of the callback after which an opener keeps the channel of an open
that was bundled. -/
def Delivered (r : Ending) : Opener → Prop
  | .connect => (r.flush = .ok () ∧ (r.highwater = .ok () ∨ r.highwater = .error .wantWrite ∨
      r.highwater = .error .wantRead)) ∨ r.flush = .error .wantWrite ∨ r.flush = .error .wantRead
  | .fwdNewLocal => r.flush = .ok () ∧ r.highwater = .ok ()
  | .fwdNewRemote => r.flush = .ok () ∧ r.highwater = .ok () ∧ r.fwdCb = .ok ()
  | .agent => r.flush = .ok () ∨ r.flush = .error .wantWrite
  | .doChannelOpen _ => True

/-- What a step must meet. The send of an open that was bundled is delivered; the list does not
outgrow its size; an id search does not come upon a channel that is still being opened, and the
peer does not answer or close one; nor does it close a channel before it answers the open. -/
def Faithful (s : Session) : Event → Prop
  | .openBegin _ => ∀ id ∈ s.ssh.freshChannel, id ∉ opening s.ssh
  | .openEnd r => ∀ call ∈ s.calls.head?,
    s.ssh.channelList.length + 1 < 2 ^ 32 ∧ (call.bundle = none → Delivered r call.opener)
  | .openConf id _ | .openFail _ id => id ∉ opening s.ssh
  | .close _ id => id ∉ opening s.ssh ∧ s.phase id ≠ .waiting
  | _ => True

/-- Every channel that is open on the wire has its channel, on the list or in the call that is opening
it; an answer to an open finds it; and what is on the list was opened on the wire. -/
structure Kept (s : Session) : Prop where
  found : ∀ id, s.phase id = .waiting ∨ s.phase id = .confirmed →
    id ∈ listed s.ssh ∨ id ∈ opening s.ssh
  answered : ∀ id, s.phase id = .waiting → id ∉ opening s.ssh → ∀ peerChannelId,
    (s.ssh.doChannelOpenConf id peerChannelId).2 ≠ .error .invalidChanid ∧
      (s.ssh.doChannelOpenFail (.ok ()) id).2 ≠ .error .invalidChanid
  bundled : ∀ id ∈ listed s.ssh, s.phase id ≠ .unsent

end WolfSsh.ChannelOpen
