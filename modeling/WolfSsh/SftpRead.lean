import WolfSsh.SftpServer
import WolfSsh.Lib.Runs

/-! The receive state of the SFTP server: wolfSSH_SFTP_read takes a request off the channel, runs its
handler and sends the reply, and may be called again at each point where the channel holds it up. -/

namespace WolfSsh.Sftp

def maxSftpPacket : Nat := 65536

structure Request where
  type : UInt8
  reqId : Nat
  data : Bytes
deriving DecidableEq, Repr

/-- What a call into the channel layer comes to, and the error it leaves with the session. -/
structure Said (α : Type) where
  result : Except Code α
  error : Code := .success

/-- One round of wolfSSH_SFTP_buffer_read: is output pending, and what the flush, the peek, the
worker, the read and the second call of the worker come to where they are made. -/
structure Poll where
  pending : Bool := false
  flush : Said Unit := ⟨.ok (), .success⟩
  peek : Said Nat := ⟨.ok 1, .success⟩
  worker : Said Unit := ⟨.ok (), .success⟩
  read : Said Nat := ⟨.ok 0, .success⟩
  again : Said Unit := ⟨.ok (), .success⟩

/-- A round of the loop that waits out a rekey or a full window. -/
structure Drive where
  worker : Said Unit
  keying : Bool

/-- What wolfSSH_SFTP_buffer_send meets, and whether output is still pending after it. -/
structure Sends where
  pending : Bool := false
  flush : Said Unit := ⟨.ok (), .success⟩
  keying : Bool := false
  drives : List Drive := []
  send : Said Nat := ⟨.ok 0, .success⟩
  unflushed : Bool := false

/-- What one call of wolfSSH_SFTP_read meets. -/
structure Script where
  stateMem : Bool := true
  headMem : Bool := true
  bodyMem : Bool := true
  head : List Poll := []
  body : List Poll := []
  send : Sends := {}

/-- The octets still to come on the channel, and ssh->error. -/
structure Chan where
  stream : Bytes
  error : Code

inductive Round where
  | stop (ret : Code)
  | got (bs : Bytes)

/-- wolfSSH_stream_read, which refuses a buffer without room. -/
def streamRead (said : Said Nat) (room : Nat) (c : Chan) : Except Code Bytes × Chan :=
  if room = 0 then (.error .badArgument, c)
  else
    match said.result with
    | .error e => (.error e, { c with error := said.error })
    | .ok n => (.ok (c.stream.take (min n room)), ⟨c.stream.drop (min n room), said.error⟩)

/-- The way out of a round that got an error: a rekey is driven on. -/
def Poll.failed (p : Poll) (polled : Bool) (c : Chan) : Round × Chan :=
  if c.error = .rekeying then
    if polled then (.got [], c)
    else
      match p.again.result with
      | .ok _ => (.got [], { c with error := p.again.error })
      | .error e =>
        if e ≠ .chanRxd ∧ p.again.error ≠ .rekeying then
          (.stop .fatalError, { c with error := p.again.error })
        else (.got [], { c with error := p.again.error })
  else (.stop .fatalError, c)

def Poll.take (p : Poll) (room : Nat) (polled : Bool) (c : Chan) : Round × Chan :=
  match streamRead p.read room c with
  | (.ok bs, c) => (.got bs, c)
  | (.error _, c) => p.failed polled c

/-- Nothing is buffered: the worker is asked for the real status. -/
def Poll.poll (p : Poll) (room : Nat) (c : Chan) : Round × Chan :=
  let c := { c with error := p.worker.error }
  match p.worker.result with
  | .ok _ => (.got [], c)
  | .error e => if e = .chanRxd then p.take room true c else p.failed true c

def Poll.look (p : Poll) (room : Nat) (c : Chan) : Round × Chan :=
  let c := { c with error := p.peek.error }
  match p.peek.result with
  | .ok n => if n = 0 then p.poll room c else p.take room false c
  | .error e => if e = .rekeying then p.poll room c else (.stop .fatalError, c)

def Poll.round (p : Poll) (room : Nat) (c : Chan) : Round × Chan :=
  if p.pending then
    let c := { c with error := p.flush.error }
    match p.flush.result with
    | .ok _ => p.look room c
    | .error e => (.stop (if e = .wantWrite then .wantWrite else .fatalError), c)
  else p.look room c

/-- wolfSSH_SFTP_buffer_read: `none` once `sz` octets are there. Past the given rounds the channel has
nothing more. -/
def bufferRead (sz : Nat) : List Poll → Bytes → Chan → Option Code × Bytes × Chan
  | [], buf, c => (some .fatalError, buf, { c with error := .wantRead })
  | p :: ps, buf, c =>
    match p.round (sz - buf.length) c with
    | (.stop ret, c) => (some ret, buf, c)
    | (.got bs, c) =>
      if (buf ++ bs).length < sz then bufferRead sz ps (buf ++ bs) c else (none, buf ++ bs, c)

def noticeError (error : Code) : Bool :=
  decide (error = .wantRead ∨ error = .wantWrite ∨ error = .chanRxd ∨ error = .windowFull ∨
    error = .rekeying)

/-- The loop of wolfSSH_SFTP_buffer_send: `some` is the status it stops with. -/
def driveWorker : List Drive → Bool → Code → Option Code × Code
  | [], keying, error =>
    if keying ∨ error = .windowFull ∨ error = .rekeying then (some .fatalError, .wantRead)
    else (none, error)
  | d :: ds, keying, error =>
    if keying ∨ error = .windowFull ∨ error = .rekeying then
      match d.worker.result with
      | .ok _ => driveWorker ds d.keying d.worker.error
      | .error e =>
        if e = .rekeying ∨ e = .windowFull ∨ e = .chanRxd ∨ e = .eof then
          driveWorker ds d.keying d.worker.error
        else (some e, d.worker.error)
    else (none, error)

/-- The number of octets of `rest` that are handed over, with the error it leaves. -/
def streamSend (x : Sends) (rest : Bytes) (error : Code) : Except Code Nat × Code :=
  if rest = [] then (.ok 0, error)
  else
    match x.send.result with
    | .ok n => (.ok (min n rest.length), x.send.error)
    | .error e => (.error e, x.send.error)

def sendRest (x : Sends) (rest : Bytes) (error : Code) : Except Code Nat × Code :=
  match driveWorker x.drives x.keying error with
  | (some ret, error) => (.error ret, error)
  | (none, error) => streamSend x rest error

def bufferSend (x : Sends) (rest : Bytes) (error : Code) : Except Code Nat × Code :=
  if x.pending then
    match x.flush.result with
    | .error e => (.error e, x.flush.error)
    | .ok _ => sendRest x rest x.flush.error
  else sendRest x rest error

/-- WS_SFTP_RECV_STATE: STATE_RECV_READ with the header so far, STATE_RECV_DO with the body so far,
STATE_RECV_SEND with the reply and how much of it was handed over. -/
inductive RecvState where
  | read (buf : Bytes)
  | body (type : UInt8) (reqId sz : Nat) (buf : Bytes)
  | send (reqId : Nat) (out : Bytes) (idx : Nat)
deriving DecidableEq, Repr

/-- The server with its receive state, the channel both ways, and each request whose handler ran
with the reply that the handler loaded. -/
structure Conn where
  server : Server
  recvState : Option RecvState := none
  stream : Bytes
  sent : Bytes := []
  ran : List (Request × Option Bytes) := []

namespace Conn

def error (s : Conn) : Code := s.server.ssh.error

def setError (e : Code) (s : Conn) : Conn :=
  { s with server := { s.server with ssh := { s.server.ssh with error := e } } }

def chan (s : Conn) : Chan := ⟨s.stream, s.error⟩

def setChan (c : Chan) (s : Conn) : Conn := { s.setError c.error with stream := c.stream }

/-- wolfSSH_SFTP_ClearState of STATE_ID_RECV. -/
def clear (s : Conn) : Conn := { s with recvState := none }

def recvSend (x : Sends) (reqId : Nat) (out : Bytes) (idx : Nat) (s : Conn) : Conn × Code :=
  match bufferSend x (out.drop idx) s.error with
  | (.error ret, e) =>
    let kept := { s.setError e with recvState := some (.send reqId out idx) }
    if ret = .rekeying ∨ e = .rekeying then (kept, .rekeying)
    else if e ≠ .wantRead ∧ e ≠ .wantWrite ∧ e ≠ .windowFull then (kept.clear, .fatalError)
    else (kept, .fatalError)
  | (.ok n, e) =>
    let s := { s with sent := s.sent ++ (out.drop idx).take n }
    if idx + n < out.length ∨ x.unflushed then
      ({ s.setError .wantWrite with recvState := some (.send reqId out (idx + n)) }, .fatalError)
    else ((s.setError e).clear, .success)

/-- A type that has a handler. The others are answered on the spot, and given up at once where that
fails. -/
def handled (type : UInt8) : Bool := decide (3 ≤ type.toNat ∧ type.toNat ≤ 18)

/-- The handler, for a request that is there in full. -/
def recvRun (b : Build) (env : Env) (x : Script) (r : Request) (s : Conn) : Conn × Code :=
  let o := (recvDo b s.server.ssh r.type.toNat r.reqId r.data).run env s.server.trace
  let s := { s with server := ⟨o.1.ssh, o.2⟩, ran := s.ran ++ [(r, o.1.toSend)] }
  match o.1.toSend with
  | some out => recvSend x.send r.reqId out 0 s
  | none =>
    if o.1.ret = .success then (s.clear, .success)
    else if noticeError s.error && handled r.type then
      ({ s with recvState := some (.body r.type r.reqId r.data.length r.data) }, o.1.ret)
    else (s.clear, o.1.ret)

def recvBody (b : Build) (env : Env) (x : Script) (type : UInt8) (reqId sz : Nat) (buf : Bytes)
    (s : Conn) : Conn × Code :=
  match bufferRead sz x.body buf s.chan with
  | (some ret, buf, c) =>
    if noticeError c.error then
      ({ s.setChan c with recvState := some (.body type reqId sz buf) }, .fatalError)
    else ((s.setChan c).clear, ret)
  | (none, buf, c) => recvRun b env x ⟨type, reqId, buf⟩ (s.setChan c)

/-- What the caller makes of a header that SFTP_GetHeader could not read or does not take. -/
def headFailed (buf : Bytes) (s : Conn) : Conn × Code :=
  let s := { s with recvState := some (.read buf) }
  (if s.error = .success then s.setError .bufferE else s, .fatalError)

/-- The header is there: SFTP_GetHeader and SFTP_CheckRecvSz look at its length. -/
def recvParsed (b : Build) (env : Env) (x : Script) (head : Bytes) (s : Conn) : Conn × Code :=
  let len := ato32 head
  let type := head.getD 4 0
  let reqId := ato32 (head.drop 5)
  if len < 5 then (s.setError .bufferE).headFailed []
  else if maxSftpPacket < len - 5 then (s.setError .bufferE).headFailed []
  else if len - 5 = 0 then s.headFailed []
  else if x.bodyMem then s.recvBody b env x type reqId (len - 5) []
  else ({ s with recvState := some (.read []) }, .memoryE)

def recvHead (b : Build) (env : Env) (x : Script) (buf : Bytes) (s : Conn) : Conn × Code :=
  if buf = [] ∧ x.headMem = false then s.headFailed []
  else
    match bufferRead sftpHeader x.head buf s.chan with
    | (some _, buf, c) => (s.setChan c).headFailed buf
    | (none, buf, c) => (s.setChan c).recvParsed b env x buf

end Conn

def sftpRead (b : Build) (env : Env) (x : Script) (s : Conn) : Conn × Code :=
  let s := if s.error = .wantRead ∨ s.error = .wantWrite then s.setError .success else s
  match s.recvState with
  | none => if x.stateMem then s.recvHead b env x [] else (s.setError .memoryE, .fatalError)
  | some (.read buf) => s.recvHead b env x buf
  | some (.body type reqId sz buf) => s.recvBody b env x type reqId sz buf
  | some (.send reqId out idx) => s.recvSend x.send reqId out idx

def Conn.step (b : Build) (env : Env) (s : Conn) (x : Script) : Conn := (sftpRead b env x s).1

end WolfSsh.Sftp
