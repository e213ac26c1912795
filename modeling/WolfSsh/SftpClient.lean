import WolfSsh.SftpChannel
import WolfSsh.SftpNames

/-! The client's side of a directory listing. wolfSSH_SFTP_LS goes through a REALPATH, an OPENDIR, the
READDIRs and a CLOSE; it returns wherever the channel holds it up, and goes on when it is called
again. The session is connected and memory suffices. -/

namespace WolfSsh.Sftp

def maxSftpName : Nat := 1024 * 1024

def ftpClose : Nat := 4
def ftpOpendir : Nat := 11
def ftpReaddir : Nat := 12
def ftpRealpath : Nat := 16

/-- What one request and its reply meet at the channel: the sends of the request, and the rounds in
which the header and the body of the reply are read. -/
structure Exchange where
  sends : List Sends := []
  head : List Poll := []
  body : List Poll := []

/-- WS_SFTP_NAME_STATE, with what is read so far of the header or of a body of `sz` octets. -/
inductive NameState where
  | getHeader (buf : Bytes)
  | doStatus (sz : Nat) (buf : Bytes)
  | getPacket (sz : Nat) (buf : Bytes)
deriving DecidableEq

inductive GetHandleState where
  | getHeader (buf : Bytes)
  | doStatus (sz : Nat) (buf : Bytes)
  | read (sz : Nat) (buf : Bytes)
deriving DecidableEq

inductive CloseState where
  | send
  | getHeader (buf : Bytes)
  | doStatus (sz : Nat) (buf : Bytes)
deriving DecidableEq

inductive ReadDirState where
  | send
  | name
deriving DecidableEq

/-- WS_SFTP_LS_STATE, each state with the fields it uses. -/
inductive LsState where
  | realPath
  | openDir (name : NameEntry)
  | getHandle (sz : Nat)
  | readDir (handle : Bytes) (name : List NameEntry)
  | close (handle : Bytes) (name : List NameEntry)
deriving DecidableEq

/-- The client's session. `listedFrom` is not in the source: it keeps the request id and the octets
still to come of the moment when the READDIRs of the last listing began. -/
structure Client where
  chan : Chan
  reqId : Nat
  sent : Bytes := []
  sendState : Option (Bytes × Nat) := none
  nameState : Option NameState := none
  /-- SFTP_REAL_GET_PACKET -/
  realGetPacket : Bool := false
  getHandleState : Option GetHandleState := none
  readDirState : Option ReadDirState := none
  closeState : Option CloseState := none
  lsState : Option LsState := none
  listedFrom : Nat × Bytes := (0, [])

namespace Client

def error (c : Client) : Code := c.chan.error

def setError (e : Code) (c : Client) : Client := { c with chan := { c.chan with error := e } }

/-- The loop of SendPacketType over what is left of the packet; past the given sends there is no room
to write. -/
def sendPacket (out : Bytes) : List Sends → Nat → Client → Client × Code
  | [], idx, c => ({ c.setError .wantWrite with sendState := some (out, idx) }, .wantWrite)
  | x :: xs, idx, c =>
    match bufferSend x (out.drop idx) c.error with
    | (.error ret, e) => ({ c.setError e with sendState := some (out, idx) }, ret)
    | (.ok n, e) =>
      let c := { c.setError e with sent := c.sent ++ (out.drop idx).take n }
      if n = 0 then ({ c with sendState := some (out, idx) }, .success)
      else if idx + n < out.length then sendPacket out xs (idx + n) c
      else ({ c with sendState := none }, .success)

/-- SendPacketType; a packet that is still on its way goes first, and goes instead. -/
def sendPacketType (x : Exchange) (type : Nat) (buf : Bytes) (c : Client) : Client × Code :=
  match c.sendState with
  | some (out, idx) => sendPacket out x.sends idx c
  | none => sendPacket (createPacket c.reqId type buf) x.sends 0 c

end Client

/-- SFTP_GetHeader: the type, the request id and the length of the body, which is not zero; else what
is read of the header, if that is what it waits for. -/
def getHeader (maxSz : Nat) (ps : List Poll) (buf : Bytes) (c : Chan) :
    Except Bytes (UInt8 × Nat × Nat) × Chan :=
  match bufferRead sftpHeader ps buf c with
  | (some _, buf, c) => (.error buf, c)
  | (none, head, c) =>
    let len := ato32 head
    if len < 5 then (.error [], { c with error := .bufferE })
    else if maxSz < len - 5 ∨ 0x7FFFFFFF < len - 5 then (.error [], { c with error := .bufferE })
    else if len - 5 = 0 then (.error [], c)
    else (.ok (head.getD 4 0, ato32 (head.drop 5), len - 5), c)

/-- wolfSSH_SFTP_DoStatus, `none` where the packet is malformed. -/
def doStatus (buf : Bytes) : Option Nat :=
  let parts : Reader Nat := do
    let status ← getUint32 buf
    let _ ← getStringRef buf
    let _ ← getStringRef buf
    return status
  match (parts.runAt 0).1 with
  | .ok status => some (if ftpUnsupported < status then ftpFailure else status)
  | .error _ => none

namespace Client

def checkReqId (reqId : Nat) (c : Client) : Client × Bool :=
  if reqId ≠ c.reqId then (c.setError .sftpBadReqId, false)
  else ({ c with reqId := (c.reqId + 1) % 2 ^ 32 }, true)

/-! wolfSSH_SFTP_DoName, from each of its states on. It returns the entries, none of them for NULL. -/

def nameStatus (x : Exchange) (sz : Nat) (buf : Bytes) (c : Client) : Client × List NameEntry :=
  match bufferRead sz x.body buf c.chan with
  | (some _, buf, chan) =>
    if noticeError chan.error then
      ({ c with chan := chan, nameState := some (.doStatus sz buf) }, [])
    else ({ c with chan := chan, nameState := none }, [])
  | (none, body, chan) =>
    let c := { c with chan := chan, nameState := none }
    match doStatus body with
    | none => (c.setError .fatalError, [])
    | some status =>
      if status ≠ ftpOk then (c.setError .sftpStatusNotOk, []) else (c, [])

def namePacket (x : Exchange) (sz : Nat) (buf : Bytes) (c : Client) : Client × List NameEntry :=
  match bufferRead sz x.body buf c.chan with
  | (some _, buf, chan) =>
    if noticeError chan.error then
      ({ c with chan := chan, nameState := some (.getPacket sz buf) }, [])
    else ({ c with chan := chan, nameState := none }, [])
  | (none, body, chan) =>
    let c := { c with chan := chan, nameState := none }
    if body.length < uint32Sz then (c.setError .bufferE, [])
    else (c, (nameList body).getD [])

def nameHeader (x : Exchange) (buf : Bytes) (c : Client) : Client × List NameEntry :=
  match getHeader maxSftpName x.head buf c.chan with
  | (.error buf, chan) =>
    let c := { c with chan := chan }
    if noticeError c.error then ({ c with nameState := some (.getHeader buf) }, [])
    else
      let c := if c.error = .success then c.setError .bufferE else c
      ({ c with nameState := none }, [])
  | (.ok (type, reqId, sz), chan) =>
    match ({ c with chan := chan } : Client).checkReqId reqId with
    | (c, false) => ({ c with nameState := none }, [])
    | (c, true) =>
      if type = UInt8.ofNat ftpName then c.namePacket x sz []
      else if type = UInt8.ofNat ftpStatus then c.nameStatus x sz []
      else ({ c.setError .sftpBadReqType with nameState := none }, [])

def doName (x : Exchange) (c : Client) : Client × List NameEntry :=
  let c := if c.error = .wantRead ∨ c.error = .wantWrite then c.setError .success else c
  match c.nameState with
  | none => c.nameHeader x []
  | some (.getHeader buf) => c.nameHeader x buf
  | some (.doStatus sz buf) => c.nameStatus x sz buf
  | some (.getPacket sz buf) => c.namePacket x sz buf

def realPathName (x : Exchange) (c : Client) : Client × List NameEntry :=
  match c.doName x with
  | (c, n) =>
    if n ≠ [] ∨ noticeError c.error = false then
      ({ c with nameState := none, realGetPacket := false }, n)
    else (c, n)

def sftpRealPath (x : Exchange) (dir : Bytes) (c : Client) : Client × List NameEntry :=
  if c.realGetPacket then c.realPathName x
  else
    match c.sendPacketType x ftpRealpath dir with
    | (c, .success) => ({ c with realGetPacket := true } : Client).realPathName x
    | (c, _) => (c, [])

/-- wolfSSH_SFTP_OpenDir; a name of no octets is a null pointer. -/
def sftpOpenDir (x : Exchange) (dir : Bytes) (c : Client) : Client × Code :=
  if dir = [] then (c, .badArgument) else c.sendPacketType x ftpOpendir dir

def sftpReadDir (x : Exchange) (handle : Bytes) (c : Client) : Client × List NameEntry :=
  let name (c : Client) : Client × List NameEntry :=
    match c.doName x with
    | (c, n) =>
      if n ≠ [] ∨ noticeError c.error = false then ({ c with readDirState := none }, n) else (c, n)
  match c.readDirState with
  | some .name => name c
  | _ =>
    match c.sendPacketType x ftpReaddir handle with
    | (c, .success) => name { c with readDirState := some .name }
    | (c, _) => ({ c with readDirState := some .send }, [])

/-! wolfSSH_SFTP_GetHandle, from each of its states on: the handle, or the size that is left for it. -/

def getHandleStatus (x : Exchange) (sz : Nat) (buf : Bytes) (handleSz : Nat) (c : Client) :
    Client × Except Nat Bytes :=
  match bufferRead sz x.body buf c.chan with
  | (some _, buf, chan) =>
    ({ c with chan := chan, getHandleState := some (.doStatus sz buf) }, .error handleSz)
  | (none, body, chan) =>
    let c := { c with chan := chan, getHandleState := none }
    if doStatus body = some ftpOk then (c, .ok (List.replicate handleSz 0)) else (c, .error 0)

def getHandleRead (x : Exchange) (sz : Nat) (buf : Bytes) (handleSz : Nat) (c : Client) :
    Client × Except Nat Bytes :=
  match bufferRead sz x.body buf c.chan with
  | (some _, buf, chan) =>
    ({ c with chan := chan, getHandleState := some (.read sz buf) }, .error handleSz)
  | (none, body, chan) =>
    let c := { c with chan := chan, getHandleState := none }
    let len := ato32 body
    if body.length < uint32Sz ∨ maxHandle < len ∨ handleSz < len ∨ body.length < uint32Sz + len then
      (c.setError .bufferE, .error handleSz)
    else (c, .ok ((body.drop uint32Sz).take len))

def getHandleHeader (x : Exchange) (buf : Bytes) (handleSz : Nat) (c : Client) :
    Client × Except Nat Bytes :=
  match getHeader maxSftpPacket x.head buf c.chan with
  | (.error buf, chan) =>
    let c := { c with chan := chan }
    if noticeError c.error then ({ c with getHandleState := some (.getHeader buf) }, .error handleSz)
    else ({ c with getHandleState := none }, .error handleSz)
  | (.ok (type, reqId, sz), chan) =>
    match ({ c with chan := chan } : Client).checkReqId reqId with
    | (c, false) => ({ c with getHandleState := none }, .error handleSz)
    | (c, true) =>
      if type = UInt8.ofNat ftpHandle then c.getHandleRead x sz [] handleSz
      else if type = UInt8.ofNat ftpStatus then c.getHandleStatus x sz [] handleSz
      else ({ c.setError .sftpBadReqType with getHandleState := none }, .error handleSz)

def sftpGetHandle (x : Exchange) (handleSz : Nat) (c : Client) : Client × Except Nat Bytes :=
  match c.getHandleState with
  | none => c.getHandleHeader x [] handleSz
  | some (.getHeader buf) => c.getHandleHeader x buf handleSz
  | some (.doStatus sz buf) => c.getHandleStatus x sz buf handleSz
  | some (.read sz buf) => c.getHandleRead x sz buf handleSz

/-! wolfSSH_SFTP_Close, from each of its states on. -/

/-- A body of no octets is there at once. -/
def closeStatus (x : Exchange) (sz : Nat) (buf : Bytes) (c : Client) : Client × Code :=
  match if sz = 0 then (none, [], c.chan) else bufferRead sz x.body buf c.chan with
  | (some _, buf, chan) =>
    let c := { c with chan := chan }
    if noticeError c.error then ({ c with closeState := some (.doStatus sz buf) }, .fatalError)
    else ({ c with closeState := some (.doStatus 0 []) }, .fatalError)
  | (none, body, chan) =>
    let c := { c with chan := chan, closeState := none }
    if doStatus body = some ftpOk then (c, .success) else (c, .fatalError)

def closeHeader (x : Exchange) (buf : Bytes) (c : Client) : Client × Code :=
  match getHeader maxSftpPacket x.head buf c.chan with
  | (.error buf, chan) =>
    let c := { c with chan := chan }
    if noticeError c.error then ({ c with closeState := some (.getHeader buf) }, .fatalError)
    else ({ c with closeState := none }, .fatalError)
  | (.ok (type, reqId, sz), chan) =>
    let c := { c with chan := chan }
    if type ≠ UInt8.ofNat ftpStatus then ({ c with closeState := none }, .fatalError)
    else
      match c.checkReqId reqId with
      | (c, false) => ({ c with closeState := none }, .fatalError)
      | (c, true) => c.closeStatus x sz []

def sftpClose (x : Exchange) (handle : Bytes) (c : Client) : Client × Code :=
  match c.closeState with
  | some (.getHeader buf) => c.closeHeader x buf
  | some (.doStatus sz buf) => c.closeStatus x sz buf
  | _ =>
    match c.sendPacketType x ftpClose handle with
    | (c, .success) => c.closeHeader x []
    | (c, ret) =>
      if noticeError c.error then ({ c with closeState := some .send }, .fatalError)
      else ({ c with closeState := none }, ret)

/-! wolfSSH_SFTP_LS, from each of its states on. Where it gives up, it keeps its state only if it is
to be called again. -/

def lsGiveUp (state : LsState) (c : Client) : Client × List NameEntry :=
  if isWant c.error then ({ c with lsState := some state }, []) else ({ c with lsState := none }, [])

def lsClose (x : Exchange) (handle : Bytes) (name : List NameEntry) (c : Client) :
    Client × List NameEntry :=
  match c.sftpClose x handle with
  | (c, .success) => ({ c with lsState := none }, name)
  | (c, _) => c.lsGiveUp (.close handle name)

/-- The loop over wolfSSH_SFTP_ReadDir. Past the given exchanges the channel has nothing more. -/
def lsReadDir (handle : Bytes) : List Exchange → List NameEntry → Client → Client × List NameEntry
  | [], name, c => ({ c.setError .wantRead with lsState := some (.readDir handle name) }, [])
  | x :: xs, name, c =>
    match c.sftpReadDir x handle with
    | (c, e :: es) => lsReadDir handle xs (name ++ e :: es) c
    | (c, []) =>
      if isWant c.error then ({ c with lsState := some (.readDir handle name) }, [])
      else c.lsClose (xs.headD {}) handle name

def lsGetHandle (xs : List Exchange) (sz : Nat) (c : Client) : Client × List NameEntry :=
  match c.sftpGetHandle (xs.headD {}) sz with
  | (c, .ok handle) =>
    lsReadDir handle xs.tail [] { c with listedFrom := (c.reqId, c.chan.stream) }
  | (c, .error sz) => c.lsGiveUp (.getHandle sz)

def lsOpenDir (xs : List Exchange) (name : NameEntry) (c : Client) : Client × List NameEntry :=
  match c.sftpOpenDir (xs.headD {}) name.fName with
  | (c, .success) => c.lsGetHandle xs maxHandle
  | (c, _) => c.lsGiveUp (.openDir name)

def lsRealPath (xs : List Exchange) (dir : Bytes) (c : Client) : Client × List NameEntry :=
  match c.sftpRealPath (xs.headD {}) dir with
  | (c, name :: _) => c.lsOpenDir xs.tail name
  | (c, []) => c.lsGiveUp .realPath

/-- wolfSSH_SFTP_LS: the entries, none of them for NULL. -/
def ls (dir : Bytes) (c : Client) (xs : List Exchange) : Client × List NameEntry :=
  match c.lsState with
  | none | some .realPath => c.lsRealPath xs dir
  | some (.openDir name) => c.lsOpenDir xs name
  | some (.getHandle sz) => c.lsGetHandle xs sz
  | some (.readDir handle name) => c.lsReadDir handle xs name
  | some (.close handle name) => c.lsClose (xs.headD {}) handle name

end Client

end WolfSsh.Sftp
