import WolfSsh.ScpMessage
import WolfSsh.Lib.Calls

/-! The sink of SCP: the state machine that reads what the peer writes on the channel, calls the
receive callback and answers with confirmations. -/

namespace WolfSsh.Scp

def defaultScpBufferSz : Nat := 32768

/-- The verdict of the receive callback; any code but WS_SCP_ABORT is confirmed as a success, and
any but WS_SCP_CONTINUE ends the file. -/
inductive Confirm where
  | cont | abort | other
deriving DecidableEq, Repr

/-- The arguments of the receive callback. -/
structure CbCall where
  state : FileState
  basePath : Bytes
  fileName : Option Bytes
  fileMode : Nat
  mTime : Nat
  aTime : Nat
  totalFileSz : Nat
  buf : Bytes
  fileOffset : Nat
deriving DecidableEq, Repr

/-- What became of the confirmation handed to ScpStreamSend. -/
inductive Tx where
  | sent | want | failed
deriving DecidableEq, Repr

inductive SinkCall where
  | callback (c : CbCall)
  | confirm (c : Confirm)
deriving DecidableEq, Repr

def SinkCall.Ans : SinkCall → Type
  | .callback _ => Confirm
  | .confirm _ => Tx

abbrev SinkSys := Calls SinkCall SinkCall.Ans
abbrev SinkEvent := Calls.Event SinkCall SinkCall.Ans

/-- What the transport gives to a sink that finds the channel empty: a packet, the end of the
stream, nothing for now, or an error. -/
inductive Rx where
  | data (bs : Bytes)
  | eof
  | want
  | failed
deriving DecidableEq, Repr

inductive SinkState where
  | sinkBegin | receiveMessage | sendConfirmation | receiveFile | receiveConfirmation | done
deriving DecidableEq, Repr

/-- The session as far as the sink uses it. `inbuf` is what the channel holds unread, and `failed`
the error that DoScpSink ended with. -/
structure Sink extends Header where
  scpState : SinkState := .sinkBegin
  scpNextState : SinkState := .sinkBegin
  scpConfirm : Confirm := .cont
  scpBasePath : Bytes := []
  scpRecvMsg : Option Bytes := none
  scpFileBuffer : Bool := false
  scpFileOffset : Nat := 0
  inbuf : Bytes := []
  failed : Option ScpErr := none
deriving DecidableEq, Repr

def Sink.fail (s : Sink) (e : ScpErr) : Sink := { s with failed := some e }

/-- One read of the channel, which takes a packet from the transport when nothing is buffered. -/
inductive Read where
  | got (bs rest : Bytes)
  | empty
  | eof
  | want
  | failed

def readChannel (s : Sink) (limit : Nat) (rx : Rx) : Read :=
  if s.inbuf ≠ [] then .got (s.inbuf.take limit) (s.inbuf.drop limit)
  else
    match rx with
    | .data [] => .empty
    | .data bs => .got (bs.take limit) (bs.drop limit)
    | .eof => .eof
    | .want => .want
    | .failed => .failed

def scpRecvCb (s : Sink) (state : FileState) (buf : Bytes) : SinkSys Confirm :=
  Calls.ask (SinkCall.callback ⟨state, s.scpBasePath, s.scpFileName, s.scpFileMode, s.scpMTime,
    s.scpATime, s.scpFileSz, buf, if state = .filePart then s.scpFileOffset else 0⟩)

def scpStreamSend (c : Confirm) : SinkSys Tx := Calls.ask (SinkCall.confirm c)

def sinkBegin (s : Sink) : SinkSys Sink := do
  let confirm ← Calls.ask
    (SinkCall.callback ⟨.newRequest, s.scpBasePath, none, 0, 0, 0, 0, [], 0⟩)
  return { s with
    scpState := .sendConfirmation, scpNextState := .receiveMessage, scpConfirm := confirm }

def messageReceived (s : Sink) : SinkSys Sink :=
  match s.scpMsgType with
  | .dir => do
    let confirm ← scpRecvCb s .newDir []
    return { s with
      scpState := .sendConfirmation, scpNextState := .receiveMessage, scpFileState := .newDir,
      scpConfirm := confirm }
  | .endDir => do
    let confirm ← scpRecvCb s s.scpFileState []
    return { s with
      scpState := .sendConfirmation, scpNextState := .receiveMessage, scpConfirm := confirm }
  | .time =>
    return { s with scpState := .sendConfirmation, scpNextState := .receiveMessage }
  | .file => do
    let confirm ← scpRecvCb s .newFile []
    return { s with
      scpState := .sendConfirmation, scpNextState := .receiveFile, scpFileState := .newFile,
      scpConfirm := confirm }

def lineRead (s : Sink) (msg : Bytes) (alloc : Bool) : SinkSys Sink :=
  if msg.getLast? = some newline then
    let (h, ret) := parseMessage s.toHeader (terminated msg) alloc
    let s := { s with toHeader := h, scpRecvMsg := some [] }
    match ret with
    | .error e => return s.fail e
    | .ok () => messageReceived s
  else return { s with scpRecvMsg := some msg }

/-- One round of the loop of ReceiveScpMessage. -/
def receiveMessage (s : Sink) (rx : Rx) (alloc : Bool) : SinkSys Sink :=
  if s.scpRecvMsg = none ∧ alloc = false then return s.fail .memoryE
  else
    let msg := s.scpRecvMsg.getD []
    if defaultScpMsgSz - 1 ≤ msg.length then return s.fail .bufferE
    else
      match readChannel s (defaultScpMsgSz - msg.length) rx with
      | .got bs rest => lineRead { s with inbuf := rest } (msg ++ bs) alloc
      -- a packet without data: the read of nothing is returned as a success
      | .empty => messageReceived { s with scpRecvMsg := some msg }
      | .eof => return { s with scpRecvMsg := some msg, scpState := .done }
      | .want => return { s with scpRecvMsg := some msg }
      | .failed => return s.fail .transport

/-- SCP_RECEIVE_FILE from the callback on. -/
def filePart (s : Sink) (buf : Bytes) : SinkSys Sink := do
  let confirm ← scpRecvCb s .filePart buf
  let s := { s with scpConfirm := confirm, scpFileOffset := s.scpFileOffset + buf.length }
  if confirm ≠ .cont then
    return { s with scpState := .sendConfirmation, scpNextState := .done }
  else if s.scpFileOffset < s.scpFileSz then return { s with scpNextState := .receiveFile }
  else
    let confirm ← scpRecvCb s .fileDone []
    return { s with
      scpConfirm := confirm, scpFileOffset := 0, scpATime := 0, scpMTime := 0,
      scpState := .sendConfirmation, scpNextState := .receiveConfirmation }

def receiveFile (s : Sink) (rx : Rx) (alloc : Bool) : SinkSys Sink :=
  let partSz := min (s.scpFileSz - s.scpFileOffset) defaultScpBufferSz
  if partSz = 0 then filePart s []
  else if s.scpFileBuffer = false ∧ alloc = false then return s.fail .memoryE
  else
    let s := { s with scpFileBuffer := true }
    match readChannel s partSz rx with
    | .got bs rest => filePart { s with inbuf := rest } bs
    | .empty | .want => return s
    | .eof | .failed => return s.fail .transport

def sendConfirmation (s : Sink) : SinkSys Sink := do
  match ← scpStreamSend s.scpConfirm with
  | .want => return s
  | .failed => return s.fail .fatalError
  | .sent =>
    if s.scpConfirm = .abort then return s.fail .fatalError
    else return { s with scpState := s.scpNextState }

def receiveConfirmation (s : Sink) (rx : Rx) : SinkSys Sink :=
  match readChannel s defaultScpMsgSz rx with
  | .got bs rest =>
    if bs.getD 0 0 = 0 then return { s with inbuf := rest, scpState := .receiveMessage }
    else return { s with inbuf := rest }.fail .fatalError
  | .empty | .want => return s
  | .eof | .failed => return s.fail .transport

/-- One round of the loop of DoScpSink. It is not called again once it failed, and a sink that wants
to be called again is left as it is. -/
def doScpSink (s : Sink) (rx : Rx) (alloc : Bool) : SinkSys Sink :=
  if s.failed ≠ none then return s
  else
    match s.scpState with
    | .sinkBegin => sinkBegin s
    | .receiveMessage => receiveMessage s rx alloc
    | .sendConfirmation => sendConfirmation s
    | .receiveFile => receiveFile s rx alloc
    | .receiveConfirmation => receiveConfirmation s rx
    | .done => return s

/-- What happens to a sink: a packet is buffered while it does not read, as in a rekey or a wait for
the window, or it is driven on. -/
inductive SinkInput where
  | arrive (bs : Bytes)
  | drive (rx : Rx) (alloc : Bool)
deriving DecidableEq, Repr

def sinkStep (s : Sink) : SinkInput → SinkSys Sink
  | .arrive bs => return { s with inbuf := s.inbuf ++ bs }
  | .drive rx alloc => doScpSink s rx alloc

end WolfSsh.Scp
