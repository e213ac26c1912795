import WolfSsh.Negotiate

/-! Packets as octets: the input and output buffers, how `BundlePacket` frames a payload and how
`DoReceive` takes frames apart again, whatever pieces the I/O callback returns them in. -/

namespace WolfSsh.Packet

def staticBufferLen : Nat := aesBlockSize
def maxPacketSz : Nat := 35000
def minPadLength : Nat := 4
def aeadImpIvSz : Nat := 4
def aeadExpIvSz : Nat := 8

/-- `bytes` are the octets up to `length`, `idx` is where the unread ones start. -/
structure Buffer where
  bytes : Bytes := []
  idx : Nat := 0
  bufferSz : Nat := staticBufferLen
deriving DecidableEq, Repr

namespace Buffer

def length (b : Buffer) : Nat := b.bytes.length

def unread (b : Buffer) : Bytes := b.bytes.drop b.idx

def growBuffer (b : Buffer) (sz : Nat) : Buffer :=
  let newSz := sz + b.length - b.idx
  if newSz > b.bufferSz then { bytes := b.unread, idx := 0, bufferSz := newSz }
  else if b.length > 0 then { b with bytes := b.unread, idx := 0 }
  else b

def shrinkBuffer (b : Buffer) (forcedFree : Bool) : Buffer :=
  let usedSz := b.length - b.idx
  if !forcedFree && usedSz > staticBufferLen then b
  else { bytes := if forcedFree then [] else b.unread, idx := 0, bufferSz := staticBufferLen }

def append (b : Buffer) (bs : Bytes) : Buffer := { b with bytes := b.bytes ++ bs }

/-- Write `bs` in place, `off` octets past the read index. -/
def patch (b : Buffer) (off : Nat) (bs : Bytes) : Buffer :=
  { b with bytes := b.bytes.take (b.idx + off) ++ bs ++ b.bytes.drop (b.idx + off + bs.length) }

end Buffer

/-- The calls into the crypto library. A cipher context is a `κ`. -/
structure Crypto (κ : Type) where
  encrypt : AlgoId → κ → Bytes → Option (κ × Bytes)
  decrypt : AlgoId → κ → Bytes → Option (κ × Bytes)
  hmac : AlgoId → Bytes → Bytes → Bytes
  gcmEncrypt : κ → Bytes → Bytes → Bytes → Nat → Option (Bytes × Bytes)
  gcmDecrypt : κ → Bytes → Bytes → Bytes → Bytes → Option Bytes

/-- One direction of traffic as one of its two ends holds it. -/
structure Direction (κ : Type) where
  algos : DirectionAlgos
  cipher : κ
  macKey : Bytes
  iv : Bytes
  seq : Nat

variable {κ : Type}

def isCbc (id : AlgoId) : Bool := id = .aes128Cbc || id = .aes192Cbc || id = .aes256Cbc
def isCtr (id : AlgoId) : Bool := id = .aes128Ctr || id = .aes192Ctr || id = .aes256Ctr

/-- The loop over the octets from the last one on: the carry out of them and the sum. -/
def aeadCarry : Bytes → Nat × Bytes
  | [] => (1, [])
  | b :: bs =>
    let (carry, bs) := aeadCarry bs
    let sum := b.toNat + carry
    (sum / 256 % 2, UInt8.ofNat sum :: bs)

def aeadIncrementExpIv (iv : Bytes) : Bytes :=
  iv.take aeadImpIvSz ++ (aeadCarry ((iv.drop aeadImpIvSz).take aeadExpIvSz)).2 ++
    iv.drop (aeadImpIvSz + aeadExpIvSz)

namespace Direction

def encrypt (cr : Crypto κ) (e : Direction κ) (input : Bytes) : Except WsErr (Direction κ × Bytes) :=
  if e.algos.encryptId = .none then .ok (e, input)
  else if isCbc e.algos.encryptId || isCtr e.algos.encryptId then
    if input.length % aesBlockSize ≠ 0 then .error .encryptE
    else
      match cr.encrypt e.algos.encryptId e.cipher input with
      | some (cipher, out) => .ok ({ e with cipher := cipher }, out)
      | none => .error .encryptE
  else .error .invalidAlgoId

def decrypt (cr : Crypto κ) (e : Direction κ) (input : Bytes) : Except WsErr (Direction κ × Bytes) :=
  if e.algos.encryptId = .none then .ok (e, input)
  else if isCbc e.algos.encryptId || isCtr e.algos.encryptId then
    if input.length % aesBlockSize ≠ 0 then .error .decryptE
    else
      match cr.decrypt e.algos.encryptId e.cipher input with
      | some (cipher, out) => .ok ({ e with cipher := cipher }, out)
      | none => .error .decryptE
  else .error .invalidAlgoId

/-- `CreateMac`: the sequence number and the packet; `hmac-sha1-96` keeps the first 12 octets. -/
def createMac (cr : Crypto κ) (e : Direction κ) (input : Bytes) : Except WsErr Bytes :=
  match e.algos.macId with
  | .none => .ok []
  | .hmacSha196 | .hmacSha1 | .hmacSha2256 | .hmacSha2512 =>
    .ok ((cr.hmac e.algos.macId e.macKey (c32toa e.seq ++ input)).take (macSzForId e.algos.macId))
  | _ => .error .fatalError

def verifyMac (cr : Crypto κ) (e : Direction κ) (input mac : Bytes) : Except WsErr Unit :=
  match e.algos.macId with
  | .none => .ok ()
  | .hmacSha196 | .hmacSha1 | .hmacSha2256 | .hmacSha2512 =>
    if (cr.hmac e.algos.macId e.macKey (c32toa e.seq ++ input)).take e.algos.macSz =
        mac.take e.algos.macSz then .ok ()
    else .error .verifyMacE
  | _ => .error .invalidAlgoId

/-- The nonce moves on whatever the cipher returned. -/
def encryptAead (cr : Crypto κ) (e : Direction κ) (input auth : Bytes) :
    Direction κ × Except WsErr (Bytes × Bytes) :=
  let ret := if aeadModeForId e.algos.encryptId then
      match cr.gcmEncrypt e.cipher e.iv auth input e.algos.macSz with
      | some out => .ok out
      | none => .error .cryptoFailed
    else .error .invalidAlgoId
  ({ e with iv := aeadIncrementExpIv e.iv }, ret)

def decryptAead (cr : Crypto κ) (e : Direction κ) (input authTag auth : Bytes) :
    Direction κ × Except WsErr Bytes :=
  let ret := if aeadModeForId e.algos.encryptId then
      match cr.gcmDecrypt e.cipher e.iv auth input authTag with
      | some out => .ok out
      | none => .error .cryptoFailed
    else .error .invalidAlgoId
  ({ e with iv := aeadIncrementExpIv e.iv }, ret)

/-- `ssh->seq++` on a `word32`. -/
def countPacket (e : Direction κ) : Direction κ := { e with seq := (e.seq + 1) % 2 ^ 32 }

end Direction

/-- A payload has its message id; the framing does not look into the rest. -/
structure Payload where
  msg : UInt8
  body : Bytes
deriving DecidableEq, Repr

def Payload.octets (p : Payload) : Bytes := p.msg :: p.body

structure Sender (κ : Type) where
  tx : Direction κ
  outputBuffer : Buffer := {}
  packetStartIdx : Nat := 0
  wire : Bytes := []

namespace Sender

def preparePacket (s : Sender κ) (payloadSz : Nat) : Except WsErr (Sender κ) :=
  if s.outputBuffer.length < s.outputBuffer.idx then .error .overflowE
  else
    let paddingSz := s.tx.algos.blockSz * 2
    let packetSz := padLengthSz + payloadSz + paddingSz
    let outputSz := lengthSz + packetSz + s.tx.algos.macSz
    let out := s.outputBuffer.growBuffer outputSz
    .ok { s with
      packetStartIdx := out.length
      outputBuffer := out.append (List.replicate (lengthSz + padLengthSz) 0) }

def paddingSz (algos : DirectionAlgos) (payloadSz : Nat) : Nat :=
  let pad := algos.blockSz -
    ((if algos.aeadMode then 0 else lengthSz) + padLengthSz + payloadSz) % algos.blockSz
  if pad < minPadLength then pad + algos.blockSz else pad

/-- The padding is zero while nothing is encrypted. -/
def padding (algos : DirectionAlgos) (payloadSz : Nat) (random : Nat → UInt8) : Bytes :=
  (List.range (paddingSz algos payloadSz)).map
    (fun i => if algos.encryptId = .none then 0 else random i)

/-- The octets of a packet before they are encrypted. -/
def plainPacket (algos : DirectionAlgos) (payload : Bytes) (random : Nat → UInt8) : Bytes :=
  c32toa (padLengthSz + payload.length + paddingSz algos payload.length) ++
    UInt8.ofNat (paddingSz algos payload.length) :: payload ++
      padding algos payload.length random

/-- MAC and encrypt, or seal, the packet; the counter of the direction moves if that works. -/
def protectPacket (cr : Crypto κ) (tx : Direction κ) (packet : Bytes) :
    Direction κ × Except WsErr Bytes :=
  if !tx.algos.aeadMode then
    match tx.createMac cr packet with
    | .error e => (tx, .error e)
    | .ok mac =>
      match tx.encrypt cr packet with
      | .error e => (tx, .error e)
      | .ok (tx, out) => (tx.countPacket, .ok (out ++ mac))
  else
    match tx.encryptAead cr (packet.drop lengthSz) (packet.take lengthSz) with
    | (tx, .error e) => (tx, .error e)
    | (tx, .ok (out, tag)) => (tx.countPacket, .ok (packet.take lengthSz ++ out ++ tag))

/-- A packet that fails is dropped from the buffer. -/
def bundlePacket (cr : Crypto κ) (random : Nat → UInt8) (s : Sender κ) :
    Sender κ × Except WsErr Unit :=
  let buf := s.outputBuffer
  let start := buf.bytes.take s.packetStartIdx
  let payload := buf.bytes.drop (s.packetStartIdx + lengthSz + padLengthSz)
  let pad := paddingSz s.tx.algos payload.length
  let dropped := { s with outputBuffer := { buf with bytes := start } }
  if buf.length + pad > buf.bufferSz then (dropped, .error .bufferE)
  else if !s.tx.algos.aeadMode ∧ buf.length + pad + macSzForId s.tx.algos.macId > buf.bufferSz then
    (dropped, .error .bufferE)
  else
    match protectPacket cr s.tx (plainPacket s.tx.algos payload random) with
    | (tx, .error e) => ({ dropped with tx := tx }, .error e)
    | (tx, .ok out) =>
      ({ s with tx := tx, outputBuffer := { buf with bytes := start ++ out } }, .ok ())

/-- What every sender does: room for the payload, the payload, the frame around it. -/
def sendPayload (cr : Crypto κ) (payloadSz : Nat) (payload : Payload) (random : Nat → UInt8)
    (s : Sender κ) : Sender κ × Except WsErr Unit :=
  match s.preparePacket payloadSz with
  | .error e => (s, .error e)
  | .ok s => bundlePacket cr random
    { s with outputBuffer := s.outputBuffer.append payload.octets }

/-- The callback took `n` octets; an empty buffer shrinks. -/
def flush (n : Nat) (s : Sender κ) : Sender κ :=
  let buf := s.outputBuffer
  let sent := buf.unread.take n
  let buf := { buf with idx := buf.idx + sent.length }
  { s with
    wire := s.wire ++ sent
    outputBuffer := if buf.idx < buf.length then buf else buf.shrinkBuffer false }

end Sender

inductive SendEvent where
  | payload (payloadSz : Nat) (payload : Payload) (random : Nat → UInt8)
  | flush (n : Nat)

def Sender.step (cr : Crypto κ) (s : Sender κ) : SendEvent → Sender κ
  | .payload payloadSz payload random => (s.sendPayload cr payloadSz payload random).1
  | .flush n => s.flush n

inductive ProcessReplyState where
  | init | packetLength | packetFinish | packet | discard
deriving DecidableEq, Repr

/-- What the receive callback answers. It never returns more than it is asked for or has got. -/
inductive IoRecv where
  | data (n : Nat)
  | wantRead | isr
deriving DecidableEq, Repr

/-- One call of `DoReceive` as its surroundings see it: the answers of the callback, after which it
would block, and whether the message that gets dispatched is left pending. -/
structure Call where
  answers : List IoRecv
  held : Bool := false
deriving DecidableEq, Repr

inductive Received where
  | dispatched (payload : Payload)
  | held (payload : Payload)
  | wantRead
  | failed (e : WsErr)
deriving DecidableEq, Repr

/-- The receiver, the octets still under way to it, and what its handlers were given. -/
structure Receiver (κ : Type) where
  rx : Direction κ
  inputBuffer : Buffer := {}
  processReplyState : ProcessReplyState := .init
  curSz : Nat := 0
  discardSz : Nat := 0
  discardError : WsErr := .error
  stream : Bytes := []
  dispatched : List Payload := []

namespace Receiver

/-- The loop of `GetInputData`. -/
def readLoop (size : Nat) (r : Receiver κ) : List IoRecv → Bool × List IoRecv × Receiver κ
  | [] => (false, [], r)
  | .wantRead :: answers => (false, answers, r)
  | .isr :: answers => readLoop size r answers
  | .data n :: answers =>
    let got := r.stream.take (min n size)
    let r := { r with
      inputBuffer := r.inputBuffer.append got
      stream := r.stream.drop got.length }
    if size - got.length = 0 then (true, answers, r) else readLoop (size - got.length) r answers

/-- Whether `size` octets are there now, and the answers that are left. -/
def getInputData (size : Nat) (answers : List IoRecv) (r : Receiver κ) :
    Bool × List IoRecv × Receiver κ :=
  let haveDataSz := r.inputBuffer.length - r.inputBuffer.idx
  if haveDataSz ≥ size then (true, answers, r)
  else
    let size := size - haveDataSz
    readLoop size { r with inputBuffer := r.inputBuffer.growBuffer size } answers

def wipeInputPacket (sz : Nat) (r : Receiver κ) : Receiver κ :=
  let availSz := r.inputBuffer.length - r.inputBuffer.idx
  { r with inputBuffer := r.inputBuffer.patch 0 (List.replicate (min sz availSz) 0) }

def discardPacket (answers : List IoRecv) (r : Receiver κ) : Received × Receiver κ :=
  match r.getInputData maxPacketSz answers with
  | (false, _, r) => (.wantRead, r)
  | (true, _, r) => (.failed r.discardError, r.wipeInputPacket maxPacketSz)

def rejectPacket (answers : List IoRecv) (doneSz : Nat) (e : WsErr) (r : Receiver κ) :
    Received × Receiver κ :=
  if isCbc r.rx.algos.encryptId then
    { r with discardSz := min doneSz maxPacketSz, discardError := e,
             processReplyState := .discard }.discardPacket answers
  else (.failed e, r.wipeInputPacket doneSz)

/-- `DoPacket` but for the handlers: the packet at the read index is dispatched and, unless it is
left pending, stepped over and counted. -/
def doPacket (held : Bool) (r : Receiver κ) : Received × Receiver κ :=
  let pktStart := r.inputBuffer.idx
  let padSz := (r.inputBuffer.unread.getD uint32Sz 0).toNat
  let idx := pktStart + uint32Sz + padLengthSz
  if padSz < minPadLength then (.failed .bufferE, r)
  else if padLengthSz + padSz + msgIdSz > r.curSz then (.failed .overflowE, r)
  else
    let payloadSz := r.curSz - padLengthSz - padSz - msgIdSz
    let idx := idx + msgIdSz
    if r.inputBuffer.bufferSz < payloadSz + idx ∨ (payloadSz + idx) % 2 ^ 32 < payloadSz then
      (.failed .overflowE, r)
    else
      let payload : Payload :=
        { msg := r.inputBuffer.unread.getD (uint32Sz + padLengthSz) 0
          body := (r.inputBuffer.unread.drop (uint32Sz + padLengthSz + msgIdSz)).take payloadSz }
      if held then (.held payload, r)
      else
        let idx := pktStart + uint32Sz + r.curSz
        (.dispatched payload, { r with
          inputBuffer := { r.inputBuffer with idx := min idx r.inputBuffer.length }
          rx := r.rx.countPacket
          dispatched := r.dispatched ++ [payload] })

/-- `PROCESS_PACKET` and the end of `DoReceive`: a consumed packet takes its MAC with it. -/
def processPacket (call : Call) (r : Receiver κ) : Received × Receiver κ :=
  match r.doPacket call.held with
  | (.dispatched payload, r) =>
    let buf := { r.inputBuffer with idx := r.inputBuffer.idx + r.rx.algos.macSz }
    (.dispatched payload, { r with
      inputBuffer := buf.shrinkBuffer (buf.idx ≥ buf.length)
      processReplyState := .init })
  | other => other

/-- What `PROCESS_PACKET_FINISH` does to a packet that is there in full. -/
def openPacket (cr : Crypto κ) (call : Call) (answers : List IoRecv) (r : Receiver κ) :
    Received × Receiver κ :=
  let packet := r.inputBuffer.unread.take (uint32Sz + r.curSz)
  let mac := (r.inputBuffer.unread.drop (uint32Sz + r.curSz)).take r.rx.algos.macSz
  if !r.rx.algos.aeadMode then
    let rest := packet.drop r.rx.algos.blockSz
    let decrypted := if r.curSz + uint32Sz > r.rx.algos.blockSz then r.rx.decrypt cr rest
      else .ok (r.rx, [])
    match decrypted with
    | .error e => (.failed e, r.wipeInputPacket (uint32Sz + r.curSz))
    | .ok (rx, plain) =>
      let r := { r with rx := rx, inputBuffer := r.inputBuffer.patch r.rx.algos.blockSz plain }
      match r.rx.verifyMac cr (r.inputBuffer.unread.take (uint32Sz + r.curSz)) mac with
      | .error e => r.rejectPacket answers (uint32Sz + r.curSz + r.rx.algos.macSz) e
      | .ok _ => { r with processReplyState := .packet }.processPacket call
  else
    match r.rx.decryptAead cr (packet.drop uint32Sz) mac (packet.take uint32Sz) with
    | (rx, .error e) => (.failed e, { r with rx := rx }.wipeInputPacket (uint32Sz + r.curSz))
    | (rx, .ok plain) =>
      { r with rx := rx, inputBuffer := r.inputBuffer.patch uint32Sz plain,
               processReplyState := .packet }.processPacket call

def processPacketFinish (cr : Crypto κ) (call : Call) (answers : List IoRecv) (r : Receiver κ) :
    Received × Receiver κ :=
  match r.getInputData (uint32Sz + r.curSz + r.rx.algos.macSz) answers with
  | (false, _, r) => (.wantRead, r)
  | (true, answers, r) => r.openPacket cr call answers

def processPacketLength (cr : Crypto κ) (call : Call) (answers : List IoRecv) (r : Receiver κ) :
    Received × Receiver κ :=
  if r.inputBuffer.idx + uint32Sz > r.inputBuffer.bufferSz then (.failed .overflowE, r)
  else
    let r := { r with curSz := ato32 r.inputBuffer.unread }
    if r.curSz > maxPacketSz - r.rx.algos.macSz - uint32Sz then
      r.rejectPacket answers r.rx.algos.blockSz .overflowE
    else
      let alignBlockSz := if r.rx.algos.blockSz < minBlockSz then minBlockSz else r.rx.algos.blockSz
      let alignSz := if r.rx.algos.aeadMode then r.curSz else uint32Sz + r.curSz
      if alignSz % alignBlockSz ≠ 0 then r.rejectPacket answers r.rx.algos.blockSz .bufferE
      else { r with processReplyState := .packetFinish }.processPacketFinish cr call answers

def processInit (cr : Crypto κ) (call : Call) (r : Receiver κ) : Received × Receiver κ :=
  match r.getInputData r.rx.algos.blockSz call.answers with
  | (false, _, r) => (.wantRead, r)
  | (true, answers, r) =>
    let r := { r with processReplyState := .packetLength }
    if !r.rx.algos.aeadMode then
      match r.rx.decrypt cr (r.inputBuffer.unread.take r.rx.algos.blockSz) with
      | .error e => (.failed e, r.wipeInputPacket r.rx.algos.blockSz)
      | .ok (rx, plain) =>
        { r with rx := rx, inputBuffer := r.inputBuffer.patch 0 plain }.processPacketLength cr call
          answers
    else r.processPacketLength cr call answers

def doReceive (cr : Crypto κ) (call : Call) (r : Receiver κ) : Received × Receiver κ :=
  match r.processReplyState with
  | .init => r.processInit cr call
  | .packetLength => r.processPacketLength cr call call.answers
  | .packetFinish => r.processPacketFinish cr call call.answers
  | .packet => r.processPacket call
  | .discard => r.discardPacket call.answers

end Receiver

end WolfSsh.Packet
