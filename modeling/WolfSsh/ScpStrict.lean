import WolfSsh.ScpSink
import WolfSsh.Lib.Runs

/-! The sink of SCP read strictly by the grammar of its stream: a control line up to its first
newline, then as many octets as it announced, then one status octet. It takes the stream octet by
octet, and serves as the reference for the sink of the source. -/

namespace WolfSsh.Scp

/-- What the stream goes on with after a confirmation. -/
inductive Next where
  | line | data | status | ended
deriving DecidableEq, Repr

inductive Expect where
  | begin
  | line (got : Bytes)
  | data
  | status
  | answer (next : Next)
  | ended
  | refused
deriving DecidableEq, Repr

def Next.expect : Next → Expect
  | .line => .line []
  | .data => .data
  | .status => .status
  | .ended => .ended

structure Strict extends Header where
  expect : Expect := .begin
  basePath : Bytes := []
  confirm : Confirm := .cont
  offset : Nat := 0
deriving DecidableEq, Repr

namespace Strict

def answered (s : Strict) (confirm : Confirm) (next : Next) : Strict :=
  { s with confirm := confirm, expect := .answer next }

def partCall (s : Strict) (buf : Bytes) : CbCall :=
  ⟨.filePart, s.basePath, s.scpFileName, s.scpFileMode, s.scpMTime, s.scpATime, s.scpFileSz, buf,
    s.offset⟩

def callback (s : Strict) (state : FileState) : SinkSys Confirm :=
  Calls.ask (SinkCall.callback ⟨state, s.basePath, s.scpFileName, s.scpFileMode, s.scpMTime,
    s.scpATime, s.scpFileSz, [], 0⟩)

def parsed (s : Strict) : SinkSys Strict :=
  match s.scpMsgType with
  | .dir => do
    let confirm ← s.callback .newDir
    return { s with scpFileState := .newDir }.answered confirm .line
  | .endDir => do
    let confirm ← s.callback .endDir
    return s.answered confirm .line
  | .time => return s.answered s.confirm .line
  | .file => do
    let confirm ← s.callback .newFile
    return { s with scpFileState := .newFile }.answered confirm .data

def message (s : Strict) (line : Bytes) : SinkSys Strict :=
  match parseMessage s.toHeader (terminated line) true with
  | (h, .ok ()) => parsed { s with toHeader := h }
  | (_, .error _) => return { s with expect := .refused }

/-- The file after a part that was answered by `s.confirm`. -/
def parted (s : Strict) : SinkSys Strict :=
  if s.confirm ≠ .cont then return { s with expect := .answer .ended }
  else if s.offset < s.scpFileSz then return s
  else do
    let confirm ← s.callback .fileDone
    return { s with offset := 0, scpATime := 0, scpMTime := 0 }.answered confirm .status

def part (s : Strict) (buf : Bytes) : SinkSys Strict := do
  let confirm ← (Calls.ask (SinkCall.callback (s.partCall buf)) : SinkSys Confirm)
  parted { s with confirm := confirm, offset := s.offset + buf.length }

def Awaits (s : Strict) : Prop :=
  match s.expect with
  | .line _ | .status => True
  | .data => s.offset < s.scpFileSz
  | _ => False

def octet (s : Strict) (c : UInt8) : SinkSys Strict :=
  match s.expect with
  | .line got =>
    if c = newline then s.message (got ++ [c])
    else if got.length + 1 < defaultScpMsgSz then return { s with expect := .line (got ++ [c]) }
    else return { s with expect := .refused }
  | .data => s.part [c]
  | .status => return { s with expect := if c = 0 then .line [] else .refused }
  | _ => return s

/-- What is done without an octet: the request is begun, a file without data is received, and a
verdict is confirmed. -/
def act (s : Strict) : SinkSys Strict :=
  match s.expect with
  | .begin => do
    let confirm ← (Calls.ask (SinkCall.callback ⟨.newRequest, s.basePath, none, 0, 0, 0, 0, [], 0⟩) :
      SinkSys Confirm)
    return s.answered confirm .line
  | .data => s.part []
  | .answer next => do
    match ← scpStreamSend s.confirm with
    | .want => return s
    | .failed => return { s with expect := .refused }
    | .sent =>
      if s.confirm = .abort then return { s with expect := .refused }
      else return { s with expect := next.expect }
  | _ => return s

/-- The strict reading of a stream, with the calls that it makes and their answers. -/
inductive Reading (start : Strict) : Bytes → List SinkEvent → Strict → Prop
  | start : Reading start [] [] start
  | octet {bs : Bytes} {t t' : List SinkEvent} {s s' : Strict} (h : Reading start bs t s)
      (hs : s.Awaits) (c : UInt8) (hstep : (s.octet c).Emits t' s') :
      Reading start (bs ++ [c]) (t ++ t') s'
  | act {bs : Bytes} {t t' : List SinkEvent} {s s' : Strict} (h : Reading start bs t s)
      (hs : ¬ s.Awaits) (hstep : s.act.Emits t' s') : Reading start bs (t ++ t') s'

end Strict

/-- The parts of one octet each that make up a part of a file; the verdict is on the last. -/
def octetParts (c : CbCall) (confirm : Confirm) : Bytes → Nat → List SinkEvent
  | [], _ => []
  | [b], offset => [⟨.callback { c with buf := [b], fileOffset := offset }, confirm⟩]
  | b :: b' :: bs, offset =>
    ⟨.callback { c with buf := [b], fileOffset := offset }, Confirm.cont⟩ ::
      octetParts c confirm (b' :: bs) (offset + 1)

/-- A call of the sink with the division of the data and the retries of confirmations left out. -/
def octetEvents : SinkEvent → List SinkEvent
  | ⟨.callback c, confirm⟩ =>
    if c.state = .filePart ∧ c.buf ≠ [] then octetParts c confirm c.buf c.fileOffset
    else [⟨.callback c, confirm⟩]
  | ⟨.confirm _, .want⟩ => []
  | ⟨.confirm c, tx⟩ => [⟨.confirm c, tx⟩]

def byOctets (t : List SinkEvent) : List SinkEvent := t.flatMap octetEvents

end WolfSsh.Scp
