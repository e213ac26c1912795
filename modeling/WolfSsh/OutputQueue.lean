import WolfSsh.Packet

/-! The output buffer of a session: how the senders put their packets into it, how it goes out to an
I/O callback that takes what it likes, and which senders empty it when they fail. -/

namespace WolfSsh.OutputQueue

open Packet (Crypto Direction Sender)

abbrev Ret := Except WsErr Unit

def Ret.isOk : Ret → Bool
  | .ok _ => true
  | .error _ => false

abbrev msgidNewKeys : UInt8 := 21

/-- How a record counts: a packet takes the next number, a strict NEWKEYS restarts the numbers, and
the version line has none. -/
inductive Numbering where
  | counted | restarts | unnumbered
deriving DecidableEq, Repr

structure Framed where
  octets : Bytes
  numbering : Numbering
deriving DecidableEq, Repr

variable {κ : Type}

/-- The sending side, with everything that was framed for the peer, the oldest first. -/
structure Output (κ : Type) where
  sender : Sender κ
  useStrictKex : Bool
  framed : List Framed := []

/-- What the send callback answers on a live transport. -/
inductive IoSend where
  | sent (n : Nat)
  | wantWrite | isr
deriving DecidableEq, Repr

/-- What the allocator, the random numbers, the send callback and the highwater check answer to one
packet. When the send callback has no answer left it would block. -/
structure SendEnv where
  alloc : Bool := true
  rng : Bool := true
  random : Nat → UInt8 := fun _ => 0
  io : List IoSend := []
  highwater : Ret := .ok ()

/-- `GrowBuffer` on an allocator that may fail. -/
def growBuffer (env : SendEnv) (sz : Nat) (b : Packet.Buffer) : Except WsErr Packet.Buffer :=
  if env.alloc = false ∧ sz + b.length - b.idx > b.bufferSz then .error .memoryE
  else .ok (b.growBuffer sz)

def preparePacket (env : SendEnv) (payloadSz : Nat) (s : Sender κ) : Except WsErr (Sender κ) :=
  if s.outputBuffer.length < s.outputBuffer.idx then .error .overflowE
  else
    let paddingSz := s.tx.algos.blockSz * 2
    let packetSz := padLengthSz + payloadSz + paddingSz
    let outputSz := lengthSz + packetSz + s.tx.algos.macSz
    match growBuffer env outputSz s.outputBuffer with
    | .error e => .error e
    | .ok out => .ok { s with
      packetStartIdx := out.length
      outputBuffer := out.append (List.replicate (lengthSz + padLengthSz) 0) }

/-- The padding of an encrypted packet is random, so `BundlePacket` may fail there too. -/
def bundlePacket (cr : Crypto κ) (env : SendEnv) (s : Sender κ) : Sender κ × Ret :=
  let buf := s.outputBuffer
  let payloadSz := buf.length - s.packetStartIdx - lengthSz - padLengthSz
  let hasRoom := buf.length + Sender.paddingSz s.tx.algos payloadSz ≤ buf.bufferSz
  if hasRoom ∧ s.tx.algos.encryptId ≠ .none ∧ env.rng = false then
    ({ s with outputBuffer := { buf with bytes := buf.bytes.take s.packetStartIdx } },
      .error .cryptoFailed)
  else s.bundlePacket cr env.random

def shrink (s : Sender κ) : Sender κ := { s with outputBuffer := s.outputBuffer.shrinkBuffer false }

/-- The callback took `n` octets. -/
def took (n : Nat) (s : Sender κ) : Sender κ :=
  let sent := s.outputBuffer.unread.take n
  { s with
    wire := s.wire ++ sent
    outputBuffer := { s.outputBuffer with idx := s.outputBuffer.idx + sent.length } }

def sendPacketFlush : List IoSend → Sender κ → Sender κ × Ret
  | [], s => if s.outputBuffer.unread = [] then (shrink s, .ok ()) else (s, .error .wantWrite)
  | answer :: answers, s =>
    if s.outputBuffer.unread = [] then (shrink s, .ok ())
    else
      match answer with
      | .wantWrite => (s, .error .wantWrite)
      | .isr => sendPacketFlush answers s
      | .sent n => sendPacketFlush answers (took n s)

/-- Only the flush answers that it would block. -/
abbrev BuildErr := { e : WsErr // e ≠ .wantWrite }

/-- The packet of one sender: what refuses it before there is one, its payload with the size that is
asked for, and the failure of a payload that cannot be built. -/
structure Sending where
  refused : Option WsErr := none
  payloadSz : Nat
  payload : Packet.Payload
  unbuilt : Option BuildErr := none
  env : SendEnv := {}

/-- The keys that NEWKEYS switches to, and whether they can be set. -/
structure NewKeys (κ : Type) where
  tx : Direction κ
  cipherSetKey : Option WsErr := none
  env : SendEnv := {}

def NewKeys.sending (n : NewKeys κ) : Sending where
  payloadSz := msgIdSz
  payload := ⟨msgidNewKeys, []⟩
  env := n.env

namespace Output

def queue (o : Output κ) : Bytes := o.sender.outputBuffer.unread

def wire (o : Output κ) : Bytes := o.sender.wire

def seq (o : Output κ) : Nat := o.sender.tx.seq

/-- A sender up to and with `BundlePacket`. A payload that could not be built leaves the room for its
header behind. -/
def bundle (cr : Crypto κ) (a : Sending) (numbering : Numbering) (o : Output κ) : Output κ × Ret :=
  match a.refused with
  | some e => (o, .error e)
  | none =>
    match preparePacket a.env a.payloadSz o.sender with
    | .error e => (o, .error e)
    | .ok s =>
      match a.unbuilt with
      | some e => ({ o with sender := s }, .error e.val)
      | none =>
        match bundlePacket cr a.env { s with outputBuffer := s.outputBuffer.append a.payload.octets } with
        | (s, .error e) => ({ o with sender := s }, .error e)
        | (s, .ok _) =>
          ({ o with
            sender := s
            framed := o.framed ++ [Framed.mk (s.outputBuffer.bytes.drop s.packetStartIdx) numbering] },
            .ok ())

def sendPacket (env : SendEnv) (o : Output κ) : Output κ × Ret :=
  match sendPacketFlush env.io o.sender with
  | (s, .ok _) => ({ o with sender := s }, env.highwater)
  | (s, .error e) => ({ o with sender := s }, .error e)

def purgePacket (o : Output κ) : Output κ :=
  { o with sender := { o.sender with
    packetStartIdx := 0
    outputBuffer := { o.sender.outputBuffer with idx := 0 }.shrinkBuffer true } }

def sendProtoId (protoId : Bytes) (env : SendEnv) (o : Output κ) : Output κ × Ret :=
  match growBuffer env protoId.length o.sender.outputBuffer with
  | .error e => (o, .error e)
  | .ok out =>
    { o with
      sender := { o.sender with outputBuffer := out.append protoId }
      framed := o.framed ++ [Framed.mk protoId .unnumbered] }.sendPacket env

/-- Every sender but the ones below. -/
def send (cr : Crypto κ) (a : Sending) (o : Output κ) : Output κ × Ret :=
  match o.bundle cr { a with unbuilt := none } .counted with
  | (o, .error e) => (o, .error e)
  | (o, .ok _) => o.sendPacket a.env

def sendAll (cr : Crypto κ) : List Sending → Output κ → Output κ × Ret
  | [], o => (o, .ok ())
  | a :: as, o =>
    let (o, ret) := o.send cr a
    let (o, rest) := o.sendAll cr as
    (o, if ret.isOk then rest else ret)

/-- `SendServiceAccept`, with the banner if there is one. -/
def sendServiceAccept (cr : Crypto κ) (a : Sending) (banner : Option Sending) (o : Output κ) :
    Output κ × Ret :=
  match o.bundle cr { a with unbuilt := none } .counted with
  | (o, .error e) => (o, .error e)
  | (o, .ok _) =>
    match banner with
    | some b => o.send cr b
    | none => o.sendPacket a.env

/-- The switch to the new keys; a strict NEWKEYS restarts the numbers. -/
def switchKeys (n : NewKeys κ) (o : Output κ) : Output κ :=
  { o with sender := { o.sender with
    tx := { n.tx with seq := if o.useStrictKex then 0 else o.seq } } }

/-- The window credit that was put off is sent once both sides have their new keys. -/
def sendNewKeys (cr : Crypto κ) (n : NewKeys κ) (adjusts : List Sending) (o : Output κ) :
    Output κ × Ret :=
  match o.bundle cr n.sending (if o.useStrictKex then .restarts else .counted) with
  | (o, .error e) => (o, .error e)
  | (o, .ok _) =>
    let o := o.switchKeys n
    match n.cipherSetKey with
    | some e => (o, .error e)
    | none =>
      let (o, ret) := o.sendPacket n.env
      let (o, adjustResult) := o.sendAll cr adjusts
      (o, if ret.isOk then adjustResult else ret)

/-! The senders that purge. -/

/-- On a live transport a packet that was bundled is delivered, whatever the check after it says. -/
def sendKexInit (cr : Crypto κ) (a : Sending) (o : Output κ) : Output κ × Ret :=
  match o.bundle cr a .counted with
  | (o, .error e) => (o.purgePacket, .error e)
  | (o, .ok _) => o.sendPacket a.env

def sendUserAuthRequest (cr : Crypto κ) (a : Sending) (o : Output κ) : Output κ × Ret :=
  match o.bundle cr a .counted with
  | (o, .error e) => (o.purgePacket, .error e)
  | (o, .ok _) => o.sendPacket a.env

/-- What some senders do last; a blocked flush is no failure. -/
def purgeOnError (r : Output κ × Ret) : Output κ × Ret :=
  if r.2 ≠ .error .wantWrite ∧ r.2 ≠ .ok () then (r.1.purgePacket, r.2) else r

/-- `SendUserAuthKeyboardRequest`, and `SendUserAuthKeyboardResponse`. -/
def sendUserAuthKeyboard (cr : Crypto κ) (a : Sending) (o : Output κ) : Output κ × Ret :=
  purgeOnError <|
    match o.bundle cr a .counted with
    | (o, .error e) => (o, .error e)
    | (o, .ok _) => o.sendPacket a.env

/-- The peer's NEWKEYS is still to come, so no credit goes out here. -/
def sendKexDhReply (cr : Crypto κ) (a : Sending) (n : NewKeys κ) (extInfo : Option Sending)
    (o : Output κ) : Output κ × Ret :=
  purgeOnError <|
    match o.bundle cr a .counted with
    | (o, .error e) => (o, .error e)
    | (o, .ok _) =>
      match o.sendNewKeys cr n [] with
      | (o, .error e) => (o, .error e)
      | (o, .ok _) =>
        match extInfo with
        | some e => o.send cr e
        | none => (o, .ok ())

end Output

inductive Op (κ : Type) where
  | protoId (line : Bytes) (env : SendEnv)
  | flush (env : SendEnv)
  | send (a : Sending)
  | serviceAccept (a : Sending) (banner : Option Sending)
  | newKeys (n : NewKeys κ) (adjusts : List Sending)
  | kexInit (a : Sending)
  | kexDhReply (a : Sending) (n : NewKeys κ) (extInfo : Option Sending)
  | userAuthRequest (a : Sending)
  | userAuthKeyboard (a : Sending)

def Op.run (cr : Crypto κ) (op : Op κ) (o : Output κ) : Output κ × Ret :=
  match op with
  | .protoId line env => o.sendProtoId line env
  | .flush env => o.sendPacket env
  | .send a => o.send cr a
  | .serviceAccept a banner => o.sendServiceAccept cr a banner
  | .newKeys n adjusts => o.sendNewKeys cr n adjusts
  | .kexInit a => o.sendKexInit cr a
  | .kexDhReply a n extInfo => o.sendKexDhReply cr a n extInfo
  | .userAuthRequest a => o.sendUserAuthRequest cr a
  | .userAuthKeyboard a => o.sendUserAuthKeyboard cr a

def step (cr : Crypto κ) (o : Output κ) (op : Op κ) : Output κ := (op.run cr o).1

def start (tx : Direction κ) (useStrictKex : Bool) : Output κ where
  sender := { tx := { tx with seq := 0 } }
  useStrictKex := useStrictKex

end WolfSsh.OutputQueue
