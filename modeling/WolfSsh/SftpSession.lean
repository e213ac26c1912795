import WolfSsh.RealPath
import WolfSsh.Lib.Calls

/-! What the SFTP server works on: the session's paths and handle lists, the calls it makes into the
operating system, and the packets it answers with. POSIX file system calls, `WFD` a descriptor. -/

namespace WolfSsh.Sftp

/-- The return codes of the SFTP server and client that the modelled functions use. -/
inductive Code where
  | success | badArgument | bufferE | memoryE | fatalError | permissions | badFileE
  | invalidPathE | invalidStateE | sftpNotFileE | unimplementedE | eof
  | sftpStatusNotOk | sftpBadReqId | sftpBadReqType
  | wantRead | wantWrite | chanRxd | windowFull | rekeying
deriving DecidableEq, Repr

def pathCode : PathErr → Code
  | .badArgument => .badArgument
  | .bufferE => .bufferE
  | .invalidPathE => .invalidPathE
  | .permissions => .permissions

def maxHandle : Nat := 256
def handleIdSz : Nat := 8
def maxSftpHandles : Nat := 64
def maxSftpRw : Nat := 32768
def maxSftpReaddir : Nat := 100
def sftpHeader : Nat := 9

def ftpOk : Nat := 0
def ftpEof : Nat := 1
def ftpNofile : Nat := 2
def ftpPermission : Nat := 3
def ftpFailure : Nat := 4
def ftpUnsupported : Nat := 8

def ftpStatus : Nat := 101
def ftpHandle : Nat := 102
def ftpData : Nat := 103
def ftpName : Nat := 104
def ftpAttrs : Nat := 105

/-- WS_SFTP_FILEATRB, its 64-bit size in two words. -/
structure FileAtrb where
  flags : Nat := 0
  sz0 : Nat := 0
  sz1 : Nat := 0
  uid : Nat := 0
  gid : Nat := 0
  per : Nat := 0
  atime : Nat := 0
  mtime : Nat := 0
  extCount : Nat := 0
deriving DecidableEq, Repr

def fileatrbSize : Nat := 1
def fileatrbUidgid : Nat := 2
def fileatrbPerm : Nat := 4
def fileatrbTime : Nat := 8
def fileatrbExt : Nat := 0x80000000

/-- `atr->flags & bit` -/
def FileAtrb.has (atr : FileAtrb) (bit : Nat) : Bool := atr.flags &&& bit != 0

def perMaskType : Nat := 0x3f000
def perFile : Nat := 0x8000
def perDir : Nat := 0x4000
def safeMode (m : Nat) : Nat := m &&& 0x1ff

inductive Errno where
  | enoent | enotdir | eacces | eperm | eexist | other
deriving DecidableEq, Repr

/-- SFTP_FailStatus, where the file system sets errno. -/
def failStatus : Errno → Nat
  | .enoent | .enotdir => ftpNofile
  | .eacces | .eperm => ftpPermission
  | .eexist | .other => ftpFailure

/-- The open mode, one flag for each WOLFSSH_O bit. -/
structure OpenMode where
  rdwr : Bool
  rdonly : Bool
  wronly : Bool
  append : Bool
  creat : Bool
  trunc : Bool
  excl : Bool
deriving DecidableEq, Repr

inductive DirRead where
  | entry (name : Bytes)
  | done
  | failed
deriving DecidableEq, Repr

/-- A call into the operating system or the heap. `isSymlink` is the probe of `wIsSymlink`,
`entryLstat` the look at an entry that READDIR lists, `longName` the entry's formatted long name. -/
inductive FsCall where
  | malloc (sz : Nat)
  | getcwd
  | isSymlink (path : Bytes)
  | stat (path : Bytes)
  | lstat (path : Bytes)
  | rmdir (path : Bytes)
  | mkdir (path : Bytes) (mode : Nat)
  | openFile (path : Bytes) (m : OpenMode) (mode : Nat)
  | opendir (path : Bytes)
  | truncate (path : Bytes) (sz : Nat)
  | chown (path : Bytes) (uid gid : Nat)
  | chmod (path : Bytes) (mode : Nat)
  | utimes (path : Bytes) (atime mtime : Nat)
  | unlink (path : Bytes)
  | link (old name : Bytes)
  | rename (old name : Bytes)
  | readdir (dir : Nat)
  | entryLstat (path : Bytes)
  | longName (name : Bytes) (atr : FileAtrb)
  | close (fd : Nat)
  | closedir (dir : Nat)
  | pread (fd sz ofst0 ofst1 : Nat)
  | pwrite (fd : Nat) (buf : Bytes) (ofst0 ofst1 : Nat)
  | write (fd : Nat) (buf : Bytes)
  | fstat (fd : Nat)
  | ftruncate (fd sz : Nat)
  | fchown (fd uid gid : Nat)
  | fchmod (fd mode : Nat)
  | futimes (fd atime mtime : Nat)
deriving DecidableEq, Repr

/-- What a call answers; a Boolean says that it succeeded. -/
def FsCall.Ans : FsCall → Type
  | .getcwd | .longName _ _ => Option Bytes
  | .stat _ | .lstat _ | .entryLstat _ | .fstat _ => Except Errno FileAtrb
  | .openFile _ _ _ | .opendir _ => Except Errno Nat
  | .unlink _ | .link _ _ | .rename _ _ => Except Errno Unit
  | .readdir _ => DirRead
  | .closedir _ => Unit
  | .pread _ _ _ _ => Option Bytes
  | .pwrite _ _ _ _ | .write _ _ => Int
  | .malloc _ | .isSymlink _ | .rmdir _ | .mkdir _ _ | .truncate _ _ | .chown _ _ _
  | .chmod _ _ | .utimes _ _ _ | .close _ | .ftruncate _ _ | .fchown _ _ _ | .fchmod _ _
  | .futimes _ _ _ => Bool

abbrev Sys := Calls FsCall FsCall.Ans
abbrev Event := Calls.Event FsCall FsCall.Ans
abbrev Env := Calls.Env FsCall FsCall.Ans

def wmalloc (sz : Nat) : Sys Bool := Calls.ask (FsCall.malloc sz)
def wgetcwd : Sys (Option Bytes) := Calls.ask FsCall.getcwd
def wIsSymlink (path : Bytes) : Sys Bool := Calls.ask (FsCall.isSymlink path)

/-- A handle id in its two words, the low one first. -/
abbrev HandleId := Nat × Nat

structure FileEntry where
  fd : Nat
  fileName : Bytes
  id : HandleId
  isAppend : Bool
deriving DecidableEq, Repr

structure DirEntry where
  dir : Nat
  dirName : Bytes
  isEof : Bool
  id : HandleId
deriving DecidableEq, Repr

/-- The fields of the session that the SFTP server uses. Both lists start with the newest entry. -/
structure Session where
  sftpDefaultPath : Option Bytes := none
  sftpConfinePath : Option Bytes := none
  fileList : List FileEntry := []
  dirList : List DirEntry := []
  handleIdCount : HandleId := (0, 0)
  error : Code := .success
deriving DecidableEq, Repr

/-- The options of the build: WOLFSSH_HAVE_SYMLINK, WLINK, WSETTIME and WFSETTIME. -/
structure Build where
  haveSymlink : Bool := true
  haveLink : Bool := true
  haveSetTime : Bool := true
  haveFSetTime : Bool := true
deriving DecidableEq, Repr

/-- What a handler leaves: the session, its return code, and the packet it loaded for sending. -/
structure Outcome where
  ssh : Session
  ret : Code
  toSend : Option Bytes

def setHeader (reqId type len : Nat) : Bytes :=
  c32toa (len + 5) ++ [UInt8.ofNat type] ++ c32toa reqId

def english : Bytes := ascii "English"

def createStatus (status reqId : Nat) (reason : Bytes) : Bytes :=
  setHeader reqId ftpStatus (12 + reason.length + english.length) ++ c32toa status ++
    c32toa reason.length ++ reason ++ c32toa english.length ++ english

/-- SFTP_CreatePacket, which writes the request id the session holds. -/
def createPacket (reqId type : Nat) (data : Bytes) : Bytes :=
  setHeader reqId type (4 + data.length) ++ c32toa data.length ++ data

def setAttributes (atr : FileAtrb) : Bytes :=
  c32toa atr.flags ++
    (if atr.has fileatrbSize then c32toa atr.sz1 ++ c32toa atr.sz0 else []) ++
    (if atr.has fileatrbUidgid then c32toa atr.uid ++ c32toa atr.gid else []) ++
    (if atr.has fileatrbPerm then c32toa atr.per else []) ++
    (if atr.has fileatrbTime then c32toa atr.atime ++ c32toa atr.mtime else []) ++
    (if atr.has fileatrbExt then c32toa 0 else [])

def skipExtensions (buf : Bytes) : Nat → Reader Unit
  | 0 => pure ()
  | n + 1 => do
    getSkip buf
    getSkip buf
    skipExtensions buf n

def when32 (buf : Bytes) (present : Bool) : Reader Nat :=
  if present then getUint32 buf else pure 0

def parseAttributesBuffer (buf : Bytes) : Reader FileAtrb := do
  let flags ← getUint32 buf
  let present (bit : Nat) : Bool := flags &&& bit != 0
  let sz1 ← when32 buf (present fileatrbSize)
  let sz0 ← when32 buf (present fileatrbSize)
  let uid ← when32 buf (present fileatrbUidgid)
  let gid ← when32 buf (present fileatrbUidgid)
  let per ← when32 buf (present fileatrbPerm)
  let atime ← when32 buf (present fileatrbTime)
  let mtime ← when32 buf (present fileatrbTime)
  let extCount ← when32 buf (present fileatrbExt)
  skipExtensions buf extCount
  return { flags, sz0, sz1, uid, gid, per, atime, mtime, extCount }

def handleIdDecode (buf : Bytes) : HandleId := (ato32 buf, ato32 (buf.drop uint32Sz))

def handleIdEncode (id : HandleId) : Bytes := c32toa id.1 ++ c32toa id.2

/-- `AddAssign64`, the carry from the low word into the high one. -/
def addAssign64 (addend1 : HandleId) (addend2 : Nat) : HandleId :=
  let lo := (addend1.1 + addend2) % 2 ^ 32
  (lo, if lo < addend1.1 then (addend1.2 + 1) % 2 ^ 32 else addend1.2)

/-- SFTP_SendStatus followed by the handler's own code, which a failed allocation replaces. -/
def sendStatus (ssh : Session) (status reqId : Nat) (msg : Bytes) (ret : Code) : Sys Outcome := do
  let out := createStatus status reqId msg
  let stored ← wmalloc out.length
  if stored then return ⟨ssh, ret, some out⟩ else return ⟨ssh, .memoryE, none⟩

/-- The length of the confinement root without the separators at its end. -/
def confineLen (p : Bytes) : Nat → Nat
  | 0 => 0
  | 1 => 1
  | n + 2 => if isDelim (p.getD (n + 1) 0) then confineLen p (n + 1) else n + 2

/-- The loop over the indices `i` up to the end of `s`, `n` of them left: is the path cut at a
component boundary below the root a symbolic link? -/
def symlinkBelow (s : Bytes) (cpLen : Nat) : Nat → Nat → Sys Bool
  | 0, _ => pure false
  | n + 1, i =>
    if i ≠ s.length ∧ !isDelim (s.getD i 0) then symlinkBelow s cpLen n (i + 1)
    else if i ≤ cpLen then symlinkBelow s cpLen n (i + 1)
    else do
      let link ← wIsSymlink (s.take i)
      if link then return true else symlinkBelow s cpLen n (i + 1)

/-- The prefix compare of the resolved path with the confinement root. -/
def outsideConfine (s confine : Bytes) (cpLen : Nat) : Bool :=
  decide (s.take cpLen ≠ confine.take cpLen) ||
    (decide (s.length ≠ cpLen) && !isDelim (s.getD cpLen 0))

/-- The check of a resolved path against the confinement root, links last. -/
def checkConfined (b : Build) (s confine : Bytes) : Sys (Except PathErr Bytes) :=
  let cpLen := confineLen confine confine.length
  if 1 < cpLen then
    if outsideConfine s confine cpLen then return .error .permissions
    else if b.haveSymlink then do
      let link ← symlinkBelow s cpLen (s.length + 1 - cpLen) cpLen
      if link then return .error .permissions else return .ok s
    else return .ok s
  else if s = [] ∨ !isDelim (s.getD 0 0) then return .error .permissions
  else return .ok s

def getAndCleanPath (b : Build) (ssh : Session) (data : Bytes) : Sys (Except PathErr Bytes) :=
  if maxFilename ≤ data.length then return .error .bufferE
  else
    match realPath ssh.sftpDefaultPath (cstr data) maxFilename with
    | .error e => return .error e
    | .ok s =>
      match ssh.sftpConfinePath with
      | none => return .ok s
      | some confine => checkConfined b s confine

/-- CanonicalizePath: a relative path is resolved against the canonicalized working directory. -/
def canonicalizePath (path : Bytes) : Sys (Except PathErr Bytes) :=
  if maxFilename ≤ (cstr path).length then return .error .bufferE
  else if !isDelim ((cstr path).getD 0 0) && !isWinpath (cstr path) then do
    let cwd ← wgetcwd
    match cwd with
    | none => return .error .invalidPathE
    | some cwd =>
      match realPath none (cstr cwd) maxFilename with
      | .error e => return .error e
      | .ok cwd => return realPath (some cwd) (cstr path) maxFilename
  else return realPath none (cstr path) maxFilename

/-- StorePath: the path is replaced only when the copy could be allocated. -/
def storePath (ssh : Session) (store : Session → Bytes → Session) (canon : Bytes) :
    Sys (Session × Code) := do
  let stored ← wmalloc (canon.length + 1)
  if stored then return (store ssh canon, .success)
  else return ({ ssh with error := .memoryE }, .fatalError)

def setPath (ssh : Session) (store : Session → Bytes → Session) (path : Bytes) :
    Sys (Session × Code) := do
  match ← canonicalizePath path with
  | .error e => return (ssh, pathCode e)
  | .ok canon => storePath ssh store canon

def sftpSetConfinePath (ssh : Session) (path : Bytes) : Sys (Session × Code) :=
  setPath ssh (fun ssh p => { ssh with sftpConfinePath := some p }) path

def sftpSetDefaultPath (ssh : Session) (path : Bytes) : Sys (Session × Code) :=
  setPath ssh (fun ssh p => { ssh with sftpDefaultPath := some p }) path

end WolfSsh.Sftp
