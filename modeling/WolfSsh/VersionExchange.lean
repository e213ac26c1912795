import WolfSsh.WordBufferKept

/-! The version exchange over a stream that comes in pieces: `DoProtoId` reads lines out of the input
buffer, and is called again after a WANT_READ. -/

namespace WolfSsh.VersionExchange

open WordBuffer CStrings

structure Ssh where
  side : Endpoint
  inputBuffer : Buf
  bannerLines : Nat := 0
  peerProtoId : Bytes := []
  -- CLIENT_VERSION_DONE or SERVER_VERSION_DONE
  versionDone : Bool := false
  clientOpenSSH : Bool := false
deriving DecidableEq, Repr

def openSSH : Bytes := ascii "SSH-2.0-OpenSSH"

/-- Memory is there whenever it is asked for. -/
def grants : Alloc := fun _ => true

/-- `inputBuffer.idx += n` -/
def advance (n : UInt32) (b : Buf) : Buf := { b with idx := b.idx + n, queue := b.queue.drop n.toNat }

/-- The size of the terminator that starts at `eol`. -/
def eolSz (b : Buf) (eol : Nat) : UInt32 := if b.buffer.getD eol 0 = 0x0d then 2 else 1

/-- What `DoProtoId` does with a line that begins with `SSH-`. -/
def acceptLine (eol : Nat) (ssh : Ssh) : Option (Ret × Ssh) :=
  let b := ssh.inputBuffer
  if b.length.toNat ≥ sshProtoSz ∧ sshProtoIdPrefix.isPrefixOf b.buffer then do
    let eolSz := eolSz b eol
    -- the terminator becomes a NUL, and the size is that of the C string
    let buffer ← write b.buffer eol [0]
    let id ← text buffer
    let b ← shrinkBuffer false (advance (.ofNat id.length + eolSz) { b with buffer })
    return (.success, { ssh with
      inputBuffer := b
      peerProtoId := c32toa id.length ++ id
      versionDone := true
      clientOpenSSH := ssh.clientOpenSSH || openSSH.isPrefixOf ssh.inputBuffer.buffer })
  else
    return (.failed .versionE, ssh)

def doProtoId (io : List Received) (ssh : Ssh) : Option (Ret × Ssh × List Received) := do
  let (line, b, io) ← WordBuffer.getInputLine grants io ssh.inputBuffer
  match line with
  | .error ret => return (ret, { ssh with inputBuffer := b }, io)
  | .ok eol =>
    if b.length ≥ 4 ∧ (ascii "SSH-").isPrefixOf b.buffer then
      let (ret, ssh) ← acceptLine eol { ssh with inputBuffer := b }
      return (ret, ssh, io)
    else if ssh.side ≠ .client then
      return (.failed .versionE, { ssh with inputBuffer := b }, io)
    else if maxBannerLines < ssh.bannerLines + 1 then
      return (.failed .versionE, { ssh with inputBuffer := b, bannerLines := ssh.bannerLines + 1 }, io)
    else
      doProtoId io { ssh with
        inputBuffer := advance (.ofNat eol + eolSz b eol) b
        bannerLines := ssh.bannerLines + 1 }
termination_by maxBannerLines - ssh.bannerLines

/-- The calls of the handshake: `DoProtoId` again as long as it wants to read. -/
def versionExchange : Nat → List Received → Ssh → Option (Ret × Ssh × List Received)
  | 0, io, ssh => some (.failed .wantRead, ssh, io)
  | calls + 1, io, ssh => do
    let (ret, ssh, io) ← doProtoId io ssh
    if ret = .failed .wantRead then versionExchange calls io ssh else return (ret, ssh, io)

/-- A session before anything has come in. -/
def start (side : Endpoint) : Ssh := { side, inputBuffer := (bufferInit grants 0).2 }

end WolfSsh.VersionExchange
