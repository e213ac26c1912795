import WolfSsh.Wire

/-! The remote forwards of a client: its registrations, the queue of want-reply global requests that
await the peer's answer, and the requests that are inside their own send. -/

namespace WolfSsh.FwdRemote

def maxFwdReplies : Nat := 1024

/-- `WOLFSSH_FWD_REMOTE`, a registration. -/
structure Remote where
  bindAddr : Bytes
  bindPort : Nat
  portPending : Bool := false
  confirmed : Bool := false
deriving DecidableEq, Repr

/-- `WOLFSSH_FWD_REPLY`, a slot of the queue. Its `id` stands for its address. -/
structure Reply where
  id : Nat
  entry : Option Nat := none
  bindAddr : Option Bytes := none
  bindPort : Nat := 0
  port : Nat := 0
  isCancel : Bool := false
  uncommitted : Bool := true
  answered : Bool := false
  success : Bool := false
deriving DecidableEq, Repr

structure Pending where
  id : Nat
  entry : Option Nat := none
  found : Option Nat := none
  reply : Option Nat := none
  isCancel : Bool := false
deriving DecidableEq, Repr

/-- What a session keeps about its remote forwards. The registrations are allocated at addresses that
are not used again; `parked` are the slots that were answered while their senders held them. -/
structure Ssh where
  client : Bool := true
  heap : Nat → Option Remote := fun _ => none
  fwdRemoteList : List Nat := []
  fwdReply : List Reply := []
  fwdReplyTail : Option Nat := none
  fwdReplyCount : Nat := 0
  parked : List Reply := []
  fwdPending : List Pending := []
  next : Nat := 0

structure Alloc where
  entry : Bool := true
  bindAddr : Bool := true
  reply : Bool := true
deriving DecidableEq, Repr

def Remote.isAt (r : Remote) (bindAddr : Bytes) (bindPort : Nat) : Bool :=
  !r.portPending && r.bindPort == bindPort && r.bindAddr == bindAddr

namespace Ssh

def setRemote (entry : Nat) (f : Remote → Remote) (ssh : Ssh) : Ssh :=
  { ssh with heap := fun i => if i = entry then (ssh.heap i).map f else ssh.heap i }

def fwdReplyVoid (entry : Nat) (ssh : Ssh) : Ssh :=
  { ssh with fwdReply := ssh.fwdReply.map fun r =>
      if r.entry = some entry then { r with entry := none } else r }

def fwdReplyRebind (stale entry : Nat) (ssh : Ssh) : Ssh :=
  { ssh with fwdReply := ssh.fwdReply.map fun r =>
      if r.entry = some stale then { r with entry := some entry } else r }

def fwdPendingPush (pend : Pending) (ssh : Ssh) : Ssh :=
  { ssh with fwdPending := pend :: ssh.fwdPending }

def fwdPendingPop (pend : Nat) (ssh : Ssh) : Ssh :=
  { ssh with fwdPending := ssh.fwdPending.eraseP fun p => p.id == pend }

def fwdPendingVoid (entry : Nat) (ssh : Ssh) : Ssh :=
  { ssh with fwdPending := ssh.fwdPending.map fun p =>
      { p with
        entry := if p.entry = some entry then none else p.entry
        found := if p.found = some entry then none else p.found } }

def fwdPendingRebind (stale entry : Nat) (ssh : Ssh) : Ssh :=
  { ssh with fwdPending := ssh.fwdPending.map fun p =>
      { p with found := if p.found = some stale then some entry else p.found } }

/-- The registration stands at that bind. -/
def standsAt (ssh : Ssh) (bindAddr : Bytes) (bindPort : Nat) (entry : Nat) : Bool :=
  (ssh.heap entry).any fun r => r.isAt bindAddr bindPort

def fwdPendingFind (bindAddr : Bytes) (bindPort : Nat) (ssh : Ssh) : Option Nat :=
  (ssh.fwdPending.filterMap Pending.entry).find? (ssh.standsAt bindAddr bindPort)

/-- The registration is freed, so nothing may name it any more. -/
def fwdRemoteUnlink (entry : Nat) (ssh : Ssh) : Ssh :=
  let ssh := { ssh with fwdRemoteList := ssh.fwdRemoteList.erase entry }
  let ssh := (ssh.fwdReplyVoid entry).fwdPendingVoid entry
  { ssh with heap := fun i => if i = entry then none else ssh.heap i }

/-- A slot still in its send window names the forward by its bind. -/
def fwdReplyNames (ssh : Ssh) (reply : Reply) (entry : Nat) : Bool :=
  reply.entry == some entry ||
    (reply.uncommitted && reply.bindAddr.any fun addr => ssh.standsAt addr reply.bindPort entry)

def fwdReplyNewest (entry : Nat) (ssh : Ssh) : Option Reply :=
  (ssh.fwdReply.filter fun r => ssh.fwdReplyNames r entry).getLast?

def fwdReplyHasSetup (entry : Nat) (ssh : Ssh) : Bool :=
  ssh.fwdReply.any fun r => !r.isCancel && ssh.fwdReplyNames r entry

def fwdRemoteFind (bindAddr : Bytes) (bindPort : Nat) (ssh : Ssh) : Option Nat :=
  ssh.fwdRemoteList.find? (ssh.standsAt bindAddr bindPort)

def isConfirmed (ssh : Ssh) (entry : Nat) : Bool := (ssh.heap entry).any Remote.confirmed

/-- The registrations that stand where the peer's reply put this one are stale. -/
def foldDuplicates (entry : Nat) (bindAddr : Bytes) (bindPort : Nat) (ssh : Ssh) : Ssh :=
  ssh.fwdRemoteList.foldl (fun ssh dup =>
    if dup ≠ entry ∧ ssh.standsAt bindAddr bindPort dup then
      ((ssh.fwdReplyRebind dup entry).fwdPendingRebind dup entry).fwdRemoteUnlink dup
    else ssh) ssh

def fwdRemoteSettle (entry : Option Nat) (isCancel success : Bool) (port : Nat) (ssh : Ssh) : Ssh :=
  match entry with
  | none => ssh
  | some entry =>
    if isCancel then
      if !success then
        if !ssh.isConfirmed entry && !ssh.fwdReplyHasSetup entry then ssh.fwdRemoteUnlink entry
        else ssh
      else if ssh.fwdReplyHasSetup entry then
        ssh.setRemote entry fun r => { r with confirmed := false }
      else ssh.fwdRemoteUnlink entry
    else if !success then
      if !ssh.isConfirmed entry && (ssh.fwdReplyNewest entry).isNone then ssh.fwdRemoteUnlink entry
      else ssh
    else
      match ssh.heap entry with
      | none => ssh
      | some r =>
        if r.portPending then
          if port = 0 ∨ port > 65535 then ssh.fwdRemoteUnlink entry
          else
            ((ssh.setRemote entry fun r => { r with bindPort := port, portPending := false }
              ).foldDuplicates entry r.bindAddr port).setRemote entry
                fun r => { r with confirmed := true }
        else ssh.setRemote entry fun r => { r with confirmed := true }

/-- A queue is a list from its head on; its tail is where the next slot is put. -/
def enqueue (reply : Reply) (ssh : Ssh) : Ssh :=
  { ssh with
    fwdReply :=
      match ssh.fwdReplyTail with
      | none => [reply]
      | some tail =>
        ssh.fwdReply.takeWhile (fun r => r.id != tail) ++
          (ssh.fwdReply.find? fun r => r.id == tail).toList ++ [reply]
    fwdReplyTail := some reply.id
    fwdReplyCount := ssh.fwdReplyCount + 1 }

/-- The slot that `FwdReplyNew` makes. -/
def newReply (isCancel : Bool) (bindAddr : Option Bytes) (bindPort : Nat) (ssh : Ssh) : Reply :=
  { id := ssh.next, isCancel := isCancel, bindAddr := bindAddr, bindPort := bindPort }

def fwdReplyNew (isCancel : Bool) (bindAddr : Option Bytes) (bindPort : Nat) (ssh : Ssh) : Ssh :=
  { ssh.enqueue (ssh.newReply isCancel bindAddr bindPort) with next := ssh.next + 1 }

def fwdReplyUnqueue (reply : Nat) (ssh : Ssh) : Ssh :=
  if ssh.fwdReply.any fun r => r.id == reply then
    { ssh with
      fwdReply := ssh.fwdReply.eraseP fun r => r.id == reply
      fwdReplyTail :=
        if ssh.fwdReplyTail = some reply then
          ((ssh.fwdReply.takeWhile fun r => r.id != reply).getLast?).map Reply.id
        else ssh.fwdReplyTail
      fwdReplyCount := ssh.fwdReplyCount - 1 }
  else ssh

/-- There is nothing to match on until the peer's reply names the port it bound. -/
def fwdRemoteNew (bindAddr : Bytes) (bindPort : Nat) (ssh : Ssh) : Ssh :=
  { ssh with
    heap := fun i => if i = ssh.next then
        some { bindAddr := bindAddr, bindPort := bindPort, portPending := bindPort == 0 }
      else ssh.heap i
    next := ssh.next + 1 }

/-- A repeat setup of a registered bind reuses that registration; port 0 always makes a new one. -/
def fwdRemotePrepare (bindAddr : Bytes) (bindPort : Nat) (wantReply isCancel : Bool) (alloc : Alloc)
    (ssh : Ssh) : Except WsErr (Ssh × Pending) :=
  if wantReply ∧ ssh.fwdReplyCount ≥ maxFwdReplies then .error .resourceE
  else
    let found := (ssh.fwdRemoteFind bindAddr bindPort).or (ssh.fwdPendingFind bindAddr bindPort)
    let isNew := !isCancel && found.isNone
    if isNew ∧ !(alloc.entry && alloc.bindAddr) then .error .memoryE
    else if wantReply ∧ !alloc.reply then .error .memoryE
    else
      let entry := if isNew then some ssh.next else none
      let ssh := if isNew then ssh.fwdRemoteNew bindAddr bindPort else ssh
      let reply := if wantReply then some ssh.next else none
      let ssh := if wantReply then ssh.fwdReplyNew isCancel (some bindAddr) bindPort else ssh
      let pend := Pending.mk ssh.next entry found reply isCancel
      .ok ({ ssh with next := ssh.next + 1 }.fwdPendingPush pend, pend)

def fwdReplyPrepare (alloc : Alloc) (ssh : Ssh) : Except WsErr (Ssh × Pending) :=
  if ssh.fwdReplyCount ≥ maxFwdReplies then .error .resourceE
  else if !alloc.reply then .error .memoryE
  else
    let reply := ssh.next
    let ssh := ssh.fwdReplyNew false none 0
    let pend := Pending.mk ssh.next none none (some reply) false
    .ok ({ ssh with next := ssh.next + 1 }.fwdPendingPush pend, pend)

/-- Two registrations at one bind become one; the one that stands there is the target. -/
def foldCommitted (entry : Nat) (ssh : Ssh) : Ssh × Nat :=
  match ssh.heap entry with
  | none => (ssh, entry)
  | some r =>
    if r.portPending then ({ ssh with fwdRemoteList := ssh.fwdRemoteList ++ [entry] }, entry)
    else
      match ssh.fwdRemoteFind r.bindAddr r.bindPort with
      | some dup => ((ssh.fwdReplyRebind entry dup).fwdRemoteUnlink entry, dup)
      | none => ({ ssh with fwdRemoteList := ssh.fwdRemoteList ++ [entry] }, entry)

/-- Links the new registration, if there is one, and answers what the request names. -/
def commitEntry (pend : Pending) (ssh : Ssh) : Ssh × Option Nat :=
  match pend.entry with
  | some entry =>
    let (ssh, target) := ssh.foldCommitted entry
    (ssh, some target)
  | none => (ssh, pend.found)

/-- The slot is settled if the peer answered it mid-send, and else names its forward from here on. -/
def commitReply (reply : Nat) (target : Option Nat) (ssh : Ssh) : Ssh :=
  match ssh.parked.find? fun r => r.id == reply with
  | some r =>
    { ssh.fwdRemoteSettle target r.isCancel r.success r.port with
      parked := ssh.parked.eraseP fun r => r.id == reply }
  | none =>
    { ssh with fwdReply := ssh.fwdReply.map fun r =>
        if r.id = reply then { r with entry := target, bindAddr := none, uncommitted := false }
        else r }

/-- Without a reply the request is the last word on its forward. -/
def commitNoReply (isCancel : Bool) (target : Nat) (ssh : Ssh) : Ssh :=
  if isCancel then ssh.fwdRemoteUnlink target
  else (ssh.fwdReplyVoid target).setRemote target fun r => { r with confirmed := true }

def fwdPendingCommit (pend : Pending) (ssh : Ssh) : Ssh :=
  let (ssh, target) := (ssh.fwdPendingPop pend.id).commitEntry pend
  match pend.reply, target with
  | some reply, target => ssh.commitReply reply target
  | none, some target => ssh.commitNoReply pend.isCancel target
  | none, none => ssh

def discardEntry (ssh : Ssh) : Option Nat → Ssh
  | some entry => ssh.fwdRemoteUnlink entry
  | none => ssh

def discardReply (ssh : Ssh) : Option Nat → Ssh
  | some reply =>
    if ssh.parked.any fun r => r.id == reply then
      { ssh with parked := ssh.parked.eraseP fun r => r.id == reply }
    else ssh.fwdReplyUnqueue reply
  | none => ssh

def fwdPendingDiscard (pend : Pending) (ssh : Ssh) : Ssh :=
  ((ssh.fwdPendingPop pend.id).discardEntry pend.entry).discardReply pend.reply

/-- Pairs an answer with the oldest request; one that is inside its own send keeps the verdict. -/
def fwdRemoteReply (success : Bool) (body : Bytes) (ssh : Ssh) : Ssh :=
  match ssh.fwdReply with
  | [] => ssh
  | reply :: rest =>
    let port := if success ∧ body.length ≥ uint32Sz then ato32 body else 0
    let ssh := { ssh with
      fwdReply := rest
      fwdReplyTail := if rest = [] then none else ssh.fwdReplyTail
      fwdReplyCount := ssh.fwdReplyCount - 1 }
    if reply.uncommitted then
      { ssh with parked :=
          { reply with answered := true, success := success, port := port } :: ssh.parked }
    else ssh.fwdRemoteSettle reply.entry reply.isCancel success port

end Ssh

/-- What a request finds besides the session's forwards. -/
structure Env where
  disconnected : Bool := false
  isKeying : Bool := false
  alloc : Alloc := {}
  bundled : Bool := true
deriving DecidableEq, Repr

namespace Ssh

def fwdRemoteSetup (bindAddr : Bytes) (bindPort : Nat) (wantReply : Int) (env : Env) (ssh : Ssh) :
    Except WsErr (Ssh × Pending) :=
  if bindPort > 65535 then .error .badArgument
  else if wantReply ≠ 0 ∧ wantReply ≠ 1 then .error .badArgument
  else if bindPort = 0 ∧ wantReply = 0 then .error .badArgument
  else if !ssh.client then .error .badArgument
  else if env.disconnected then .error .fatalError
  else if env.isKeying then .error .rekeying
  else ssh.fwdRemotePrepare bindAddr bindPort (wantReply != 0) false env.alloc

def fwdRemoteCancel (bindAddr : Bytes) (bindPort : Nat) (wantReply : Int) (env : Env) (ssh : Ssh) :
    Except WsErr (Ssh × Pending) :=
  if bindPort = 0 ∨ bindPort > 65535 then .error .badArgument
  else if wantReply ≠ 0 ∧ wantReply ≠ 1 then .error .badArgument
  else if !ssh.client then .error .badArgument
  else if env.disconnected then .error .fatalError
  else if env.isKeying then .error .rekeying
  else ssh.fwdRemotePrepare bindAddr bindPort (wantReply != 0) true env.alloc

/-- `wolfSSH_global_request` with a reply wanted. -/
def globalRequest (env : Env) (ssh : Ssh) : Except WsErr (Ssh × Pending) :=
  if env.disconnected then .error .fatalError else ssh.fwdReplyPrepare env.alloc

end Ssh

inductive Request where
  | setup (bindAddr : Bytes) (bindPort : Nat) (wantReply : Int)
  | cancel (bindAddr : Bytes) (bindPort : Nat) (wantReply : Int)
  | global
deriving DecidableEq, Repr

def Request.prepare (env : Env) (ssh : Ssh) : Request → Except WsErr (Ssh × Pending)
  | .setup bindAddr bindPort wantReply => ssh.fwdRemoteSetup bindAddr bindPort wantReply env
  | .cancel bindAddr bindPort wantReply => ssh.fwdRemoteCancel bindAddr bindPort wantReply env
  | .global => ssh.globalRequest env

/-- How a flush ends: everything is out, or the first `n` packets are and the rest is kept, kept after
an error, or dropped with one. -/
inductive Flush where
  | done
  | wantWrite (n : Nat)
  | failed (n : Nat)
  | dropped (n : Nat)
deriving DecidableEq, Repr

def Flush.isWantWrite : Flush → Bool
  | .wantWrite _ => true
  | .done | .failed _ | .dropped _ => false

/-- A want-reply request in the output buffer. It is not live once its sender was told that it is not
on its way. -/
structure Framed where
  id : Nat
  live : Bool := true
deriving DecidableEq, Repr

/-- A request that is inside its own send, or with `flushed` in the highwater callback after it. -/
structure Call where
  pend : Nat
  flushes : Nat
  request : Option Nat
  isGlobal : Bool
  flushed : Bool := false
deriving DecidableEq, Repr

/-- The session with the calls that are open, the innermost first, and with the want-reply requests
that are framed, that reached the wire and that were answered. -/
structure State where
  ssh : Ssh := {}
  txFlushCount : Nat := 0
  calls : List Call := []
  framed : List Framed := []
  wire : List Nat := []
  answered : List Nat := []

namespace State

/-- What a flush gets out. The packet of the call it belongs to is the last one to go. -/
def transmit (flush : Flush) (own : Option Nat) (s : State) : State :=
  let out (n : Nat) := min n (s.framed.takeWhile fun f => some f.id ≠ own).length
  match flush with
  | .done =>
    { s with
      wire := s.wire ++ s.framed.map Framed.id
      framed := []
      txFlushCount := (s.txFlushCount + 1) % 2 ^ 32 }
  | .wantWrite n | .failed n =>
    { s with
      wire := s.wire ++ (s.framed.take (out n)).map Framed.id
      framed := s.framed.drop (out n) }
  | .dropped n => { s with wire := s.wire ++ (s.framed.take (out n)).map Framed.id, framed := [] }

def sendPacketDelivered (c : Call) (wantWrite : Bool) (s : State) : Bool :=
  s.txFlushCount != c.flushes || wantWrite

/-- The end of a call: what it prepared is committed, or given back. -/
def settle (c : Call) (delivered : Bool) (s : State) : State :=
  match s.ssh.fwdPending.find? fun p => p.id == c.pend with
  | none => s
  | some pend =>
    if delivered then { s with ssh := s.ssh.fwdPendingCommit pend }
    else { s with
      ssh := s.ssh.fwdPendingDiscard pend
      framed := s.framed.map fun f => if some f.id = c.request then { f with live := false } else f }

/-- A request of the application's own is settled only after the highwater callback. -/
def flushEnd (flush : Flush) (s : State) : State :=
  match s.calls with
  | [] => s
  | c :: calls =>
    if c.flushed then s
    else
      let s := s.transmit flush c.request
      if c.isGlobal ∧ flush = .done then { s with calls := { c with flushed := true } :: calls }
      else { s with calls := calls }.settle c
        (s.sendPacketDelivered c flush.isWantWrite)

def callbackEnd (wantWrite : Bool) (s : State) : State :=
  match s.calls with
  | [] => s
  | c :: calls =>
    if c.flushed then { s with calls := calls }.settle c (s.sendPacketDelivered c wantWrite) else s

def frame (r : Request) (ssh : Ssh) (pend : Pending) (s : State) : State :=
  { s with
    ssh := ssh
    calls := { pend := pend.id, flushes := s.txFlushCount, request := pend.reply
               isGlobal := r = .global } :: s.calls
    framed := s.framed ++ pend.reply.toList.map fun id => { id := id } }

/-- A request up to its flush. -/
def send (r : Request) (env : Env) (flushed : State → State) (s : State) : State :=
  match r.prepare env s.ssh with
  | .error _ => s
  | .ok (ssh, pend) =>
    if env.bundled then flushed (s.frame r ssh pend)
    else { s with ssh := ssh.fwdPendingDiscard pend }

def reply (success : Bool) (body : Bytes) (s : State) : State :=
  { s with
    ssh := s.ssh.fwdRemoteReply success body
    answered := s.answered ++ (s.ssh.fwdReply.head?.map Reply.id).toList }

end State

/-- `begins` is a request from whose send the send callback calls the library again. -/
inductive Event where
  | request (r : Request) (env : Env) (flush : Flush)
  | callbackEnd (wantWrite : Bool)
  | begins (r : Request) (env : Env)
  | flushEnd (flush : Flush)
  | flush (flush : Flush)
  | purge
  | reply (success : Bool) (body : Bytes)

def step (s : State) : Event → State
  | .request r env flush => s.send r env (State.flushEnd flush)
  | .callbackEnd wantWrite => s.callbackEnd wantWrite
  | .begins r env => s.send r env id
  | .flushEnd flush => s.flushEnd flush
  | .flush flush => s.transmit flush none
  | .purge => { s with framed := [] }
  | .reply success body => s.reply success body

def start (client : Bool) : State := { ssh := { client := client } }

end WolfSsh.FwdRemote
