import WolfSsh.SftpSession
import WolfSsh.Lib.Ledger

/-! The request handlers of the SFTP server, each with the status texts and codes of its paths. -/

namespace WolfSsh.Sftp

def wstat (path : Bytes) : Sys (Except Errno FileAtrb) := Calls.ask (FsCall.stat path)
def wlstat (path : Bytes) : Sys (Except Errno FileAtrb) := Calls.ask (FsCall.lstat path)
def wrmdir (path : Bytes) : Sys Bool := Calls.ask (FsCall.rmdir path)
def wmkdir (path : Bytes) (mode : Nat) : Sys Bool := Calls.ask (FsCall.mkdir path mode)
def wopen (path : Bytes) (m : OpenMode) (mode : Nat) : Sys (Except Errno Nat) :=
  Calls.ask (FsCall.openFile path m mode)
def wopendir (path : Bytes) : Sys (Except Errno Nat) := Calls.ask (FsCall.opendir path)
def wtruncate (path : Bytes) (sz : Nat) : Sys Bool := Calls.ask (FsCall.truncate path sz)
def wchown (path : Bytes) (uid gid : Nat) : Sys Bool := Calls.ask (FsCall.chown path uid gid)
def wchmod (path : Bytes) (mode : Nat) : Sys Bool := Calls.ask (FsCall.chmod path mode)
def wsettime (path : Bytes) (atime mtime : Nat) : Sys Bool :=
  Calls.ask (FsCall.utimes path atime mtime)
def wunlink (path : Bytes) : Sys (Except Errno Unit) := Calls.ask (FsCall.unlink path)
def wlink (old name : Bytes) : Sys (Except Errno Unit) := Calls.ask (FsCall.link old name)
def wrename (old name : Bytes) : Sys (Except Errno Unit) := Calls.ask (FsCall.rename old name)
def wreaddir (dir : Nat) : Sys DirRead := Calls.ask (FsCall.readdir dir)
def wentryLstat (path : Bytes) : Sys (Except Errno FileAtrb) := Calls.ask (FsCall.entryLstat path)
def createLongName (name : Bytes) (atr : FileAtrb) : Sys (Option Bytes) :=
  Calls.ask (FsCall.longName name atr)
def wclose (fd : Nat) : Sys Bool := Calls.ask (FsCall.close fd)
def wclosedir (dir : Nat) : Sys Unit := Calls.ask (FsCall.closedir dir)
def wpread (fd sz ofst0 ofst1 : Nat) : Sys (Option Bytes) :=
  Calls.ask (FsCall.pread fd sz ofst0 ofst1)
def wpwrite (fd : Nat) (buf : Bytes) (ofst0 ofst1 : Nat) : Sys Int :=
  Calls.ask (FsCall.pwrite fd buf ofst0 ofst1)
def wwrite (fd : Nat) (buf : Bytes) : Sys Int := Calls.ask (FsCall.write fd buf)
def wfstat (fd : Nat) : Sys (Except Errno FileAtrb) := Calls.ask (FsCall.fstat fd)
def wftruncate (fd sz : Nat) : Sys Bool := Calls.ask (FsCall.ftruncate fd sz)
def wfchown (fd uid gid : Nat) : Sys Bool := Calls.ask (FsCall.fchown fd uid gid)
def wfchmod (fd mode : Nat) : Sys Bool := Calls.ask (FsCall.fchmod fd mode)
def wfsettime (fd atime mtime : Nat) : Sys Bool := Calls.ask (FsCall.futimes fd atime mtime)

/-- A handler that stops before it has loaded anything to send. -/
def silent (ssh : Session) (ret : Code) : Outcome := ⟨ssh, ret, none⟩

def recvRMDIR (b : Build) (ssh : Session) (reqId : Nat) (data : Bytes) : Sys Outcome :=
  match (getStringRef data).runAt 0 with
  | (.error _, _) => return silent ssh .bufferE
  | (.ok str, _) => do
    match ← getAndCleanPath b ssh str with
    | .error .permissions =>
      sendStatus ssh ftpPermission reqId (ascii "Permission denied") .badFileE
    | .error _ => sendStatus ssh ftpFailure reqId (ascii "Remove Directory Error") .badFileE
    | .ok dir =>
      if ← wrmdir dir then sendStatus ssh ftpOk reqId (ascii "Removed Directory") .success
      else sendStatus ssh ftpFailure reqId (ascii "Remove Directory Error") .badFileE

def mkdirMode (atr : FileAtrb) : Nat := if atr.has fileatrbPerm then safeMode atr.per else 0x1ed

def recvMKDIR (b : Build) (ssh : Session) (reqId : Nat) (data : Bytes) : Sys Outcome :=
  match (getStringRef data).runAt 0 with
  | (.error _, _) => return silent ssh .bufferE
  | (.ok str, idx) => do
    match ← getAndCleanPath b ssh str with
    | .error .permissions =>
      sendStatus ssh ftpPermission reqId (ascii "Permission denied") .badFileE
    | .error e => return silent ssh (pathCode e)
    | .ok dir =>
      match (parseAttributesBuffer data).runAt idx with
      | (.error _, _) => return silent ssh .bufferE
      | (.ok atr, _) =>
        if ← wmkdir dir (mkdirMode atr) then
          sendStatus ssh ftpOk reqId (ascii "Created Directory") .success
        else sendStatus ssh ftpFailure reqId (ascii "Create Directory Error") .badFileE

/-- SFTP_FileHandleCapped and SFTP_DirHandleCapped on the length of their list. -/
def handleCapped (count : Nat) : Bool := decide (maxSftpHandles ≤ count)

def handleIdNext (ssh : Session) : HandleId × Session :=
  (ssh.handleIdCount, { ssh with handleIdCount := addAssign64 ssh.handleIdCount 1 })

def addFileHandle (ssh : Session) (fd : Nat) (fileName : Bytes) (id : HandleId)
    (isAppend : Bool) : Sys (Session × Code) :=
  if handleCapped ssh.fileList.length then return (ssh, .memoryE)
  else do
    if ← wmalloc 32 then
      if maxFilename < fileName.length + 1 then return (ssh, .bufferE)
      else if ← wmalloc (fileName.length + 1) then
        return ({ ssh with fileList := ⟨fd, fileName, id, isAppend⟩ :: ssh.fileList }, .success)
      else return (ssh, .memoryE)
    else return (ssh, .memoryE)

def findFileHandle (ssh : Session) (id : HandleId) : Option FileEntry :=
  ssh.fileList.find? (fun e => e.id = id)

/-- SFTP_RemoveFileHandle: the first entry of that id goes. -/
def removeFileHandle (ssh : Session) (id : HandleId) : Session :=
  { ssh with fileList := ssh.fileList.eraseP (fun e => e.id = id) }

def fxfRead : Nat := 1
def fxfWrite : Nat := 2
def fxfAppend : Nat := 4
def fxfCreat : Nat := 8
def fxfTrunc : Nat := 16
def fxfExcl : Nat := 32

def openMode (reason : Nat) : OpenMode :=
  let has (bit : Nat) : Bool := reason &&& bit != 0
  let rdwr := has fxfRead && has fxfWrite
  ⟨rdwr, has fxfRead && !rdwr, has fxfWrite && !rdwr, has fxfAppend, has fxfCreat, has fxfTrunc,
    has fxfExcl⟩

/-- RecvOpen from the open descriptor on: every failure takes the handle back and closes it. -/
def storeHandle (ssh : Session) (reqId fd : Nat) (dir : Bytes) (reason : Nat) : Sys Outcome := do
  let (id, ssh) := handleIdNext ssh
  match ← addFileHandle ssh fd dir id (reason &&& fxfAppend != 0) with
  | (ssh, .success) =>
    let out := createPacket reqId ftpHandle (handleIdEncode id)
    if ← wmalloc out.length then return ⟨ssh, .success, some out⟩
    else
      let _ ← wclose fd
      return silent (removeFileHandle ssh id) .memoryE
  | (ssh, _) =>
    let r ← sendStatus ssh ftpFailure reqId (ascii "Internal Failure") .fatalError
    let _ ← wclose fd
    return r

def recvOpen (b : Build) (ssh : Session) (reqId : Nat) (data : Bytes) : Sys Outcome :=
  match (getStringRef data).runAt 0 with
  | (.error _, _) => return silent ssh .bufferE
  | (.ok str, idx) => do
    match ← getAndCleanPath b ssh str with
    | .error .permissions =>
      sendStatus ssh ftpPermission reqId (ascii "Permission denied") .badFileE
    | .error _ => return silent ssh .fatalError
    | .ok dir =>
      if handleCapped ssh.fileList.length then
        sendStatus ssh ftpFailure reqId (ascii "Too Many Open File Handles") .badFileE
      else
        match (getUint32 data).runAt idx with
        | (.error _, _) => return silent ssh .bufferE
        | (.ok reason, idx) =>
          match (parseAttributesBuffer data).runAt idx with
          | (.error _, _) => return silent ssh .badFileE
          | (.ok atr, _) => do
            let notFile := match ← wstat dir with
              | .ok fileAtr => decide (fileAtr.per &&& perMaskType ≠ perFile)
              | .error _ => false
            if notFile then
              sendStatus { ssh with error := .sftpNotFileE } ftpFailure reqId
                (ascii "Not A File") .fatalError
            else
              let per := if atr.has fileatrbPerm then atr.per else 0x1a4
              match ← wopen dir (openMode reason) (safeMode per) with
              | .error errno =>
                sendStatus ssh (failStatus errno) reqId (ascii "Open File Error") .badFileE
              | .ok fd => storeHandle ssh reqId fd dir reason

/-- RecvOpenDir from the open directory on: everything is allocated before the handle is
published. -/
def storeDir (ssh : Session) (reqId dp : Nat) (dir : Bytes) : Sys Outcome := do
  let cur ← wmalloc 48
  let dirName ← wmalloc (dir.length + 1)
  let stored ← wmalloc (sftpHeader + uint32Sz + handleIdSz)
  if cur && dirName && stored then
    let (id, ssh) := handleIdNext ssh
    return ⟨{ ssh with dirList := ⟨dp, dir, false, id⟩ :: ssh.dirList }, .success,
      some (createPacket reqId ftpHandle (handleIdEncode id))⟩
  else
    wclosedir dp
    return silent ssh .memoryE

def recvOpenDir (b : Build) (ssh : Session) (reqId : Nat) (data : Bytes) : Sys Outcome :=
  match (getStringRef data).runAt 0 with
  | (.error _, _) => return silent ssh .bufferE
  | (.ok str, _) => do
    match ← getAndCleanPath b ssh str with
    | .error .permissions =>
      sendStatus ssh ftpPermission reqId (ascii "Permission denied") .badFileE
    | .error _ => return silent ssh .bufferE
    | .ok dir =>
      if handleCapped ssh.dirList.length then
        sendStatus ssh ftpFailure reqId (ascii "Too Many Open Directory Handles") .badFileE
      else
        match ← wopendir dir with
        | .error errno =>
          sendStatus ssh (failStatus errno) reqId (ascii "Unable To Open Directory") .badFileE
        | .ok dp => storeDir ssh reqId dp dir

def sendAttrs (ssh : Session) (reqId : Nat) (atr : FileAtrb) : Sys Outcome := do
  let out := setHeader reqId ftpAttrs (setAttributes atr).length ++ setAttributes atr
  if ← wmalloc out.length then return ⟨ssh, .success, some out⟩ else return silent ssh .memoryE

/-- RecvSTAT and RecvLSTAT, which differ in the call that looks at the file and in a text. -/
def recvStatWith (look : Bytes → Sys (Except Errno FileAtrb)) (ser : Bytes) (b : Build)
    (ssh : Session) (reqId : Nat) (data : Bytes) : Sys Outcome :=
  match (getStringRef data).runAt 0 with
  | (.error _, _) => return silent ssh .bufferE
  | (.ok str, _) => do
    match ← getAndCleanPath b ssh str with
    | .error .permissions =>
      sendStatus ssh ftpPermission reqId (ascii "Permission denied") .badFileE
    | .error _ => sendStatus ssh ftpFailure reqId ser .badFileE
    | .ok name =>
      match ← look name with
      | .error errno => sendStatus ssh (failStatus errno) reqId ser .badFileE
      | .ok atr => sendAttrs ssh reqId atr

def recvSTAT : Build → Session → Nat → Bytes → Sys Outcome :=
  recvStatWith wstat (ascii "STAT error")

def recvLSTAT : Build → Session → Nat → Bytes → Sys Outcome :=
  recvStatWith wlstat (ascii "LSTAT error")

def maxFileOffset : Nat := 0x7fffffffffffffff

def resolveOffset (lo hi : Nat) : Option Nat :=
  let combined := hi * 2 ^ 32 + lo
  if maxFileOffset < combined then none else some combined

/-- One attribute that is set when it is present and nothing failed before it. -/
def setAttribute (ret : Code) (present : Bool) (act : Sys Code) : Sys Code :=
  if ret = .success ∧ present then act else return ret

def orBadFile (act : Sys Bool) : Sys Code := do
  if ← act then return .success else return .badFileE

/-- SFTP_SetFileAttributes and SFTP_SetFileAttributesHandle over their own four calls. -/
def setAttributesWith (truncate : Nat → Sys Bool) (chown : Nat → Nat → Sys Bool)
    (chmod : Nat → Sys Bool) (settime : Option (Nat → Nat → Sys Bool)) (atr : FileAtrb) :
    Sys Code := do
  let ret ← setAttribute .success (atr.has fileatrbSize) <|
    match resolveOffset atr.sz0 atr.sz1 with
    | none => return .badFileE
    | some sz => orBadFile (truncate sz)
  let ret ← setAttribute ret (atr.has fileatrbUidgid) (orBadFile (chown atr.uid atr.gid))
  let ret ← setAttribute ret (atr.has fileatrbPerm) (orBadFile (chmod (safeMode atr.per)))
  setAttribute ret (atr.has fileatrbTime) <|
    match settime with
    | none => return .unimplementedE
    | some settime => orBadFile (settime atr.atime atr.mtime)

def setFileAttributes (b : Build) (name : Bytes) : FileAtrb → Sys Code :=
  setAttributesWith (wtruncate name) (wchown name) (wchmod name)
    (if b.haveSetTime then some (wsettime name) else none)

def setFileAttributesHandle (b : Build) (fd : Nat) : FileAtrb → Sys Code :=
  setAttributesWith (wftruncate fd) (wfchown fd) (wfchmod fd)
    (if b.haveFSetTime then some (wfsettime fd) else none)

/-- The end of RecvSetSTAT and RecvFSetSTAT: the attributes are read from `idx` on and set. -/
def setParsed (apply : FileAtrb → Sys Code) (ssh : Session) (reqId : Nat) (data : Bytes)
    (idx : Nat) : Sys Outcome :=
  match (parseAttributesBuffer data).runAt idx with
  | (.error _, _) =>
    sendStatus ssh ftpFailure reqId (ascii "Unable to parse attributes error") .badFileE
  | (.ok atr, _) => do
    match ← apply atr with
    | .success => sendStatus ssh ftpOk reqId (ascii "Set Attributes") .success
    | .unimplementedE =>
      sendStatus ssh ftpUnsupported reqId (ascii "Attribute not supported") .badFileE
    | _ => sendStatus ssh ftpFailure reqId (ascii "Unable to set attributes error") .badFileE

def recvSetSTAT (b : Build) (ssh : Session) (reqId : Nat) (data : Bytes) : Sys Outcome :=
  match (getStringRef data).runAt 0 with
  | (.error _, _) => return silent ssh .bufferE
  | (.ok str, idx) => do
    match ← getAndCleanPath b ssh str with
    | .error .permissions =>
      sendStatus ssh ftpPermission reqId (ascii "Permission denied") .badFileE
    | .error _ =>
      sendStatus ssh ftpFailure reqId (ascii "Unable to set attributes error") .badFileE
    | .ok name => setParsed (setFileAttributes b name) ssh reqId data idx

def recvRemove (b : Build) (ssh : Session) (reqId : Nat) (data : Bytes) : Sys Outcome :=
  match (getStringRef data).runAt 0 with
  | (.error _, _) => return silent ssh .bufferE
  | (.ok str, _) =>
    if maxFilename < str.length then return silent ssh .bufferE
    else do
      match ← getAndCleanPath b ssh str with
      | .error .permissions =>
        sendStatus ssh ftpPermission reqId (ascii "Permission denied") .badFileE
      | .error e => sendStatus ssh ftpFailure reqId (ascii "Remove File Error") (pathCode e)
      | .ok name =>
        let isDir := match ← wlstat name with
          | .ok atr => decide (atr.per &&& perMaskType = perDir)
          | .error _ => false
        if isDir then sendStatus ssh ftpFailure reqId (ascii "Remove File Error") .badFileE
        else
          match ← wunlink name with
          | .error errno =>
            sendStatus ssh (failStatus errno) reqId (ascii "Remove File Error") .badFileE
          | .ok () => sendStatus ssh ftpOk reqId (ascii "Removed File") .success

/-- The part of SFTP_RenameNoReplace that checks for the new name first and may race with it. -/
def renameChecked (old name : Bytes) : Sys (Except Errno Unit) := do
  match ← wlstat name with
  | .ok _ => return .error .eexist
  | .error _ => wrename old name

def renameNoReplace (b : Build) (old name : Bytes) : Sys (Except Errno Unit) := do
  match ← wlstat old with
  | .error errno => return .error errno
  | .ok atr =>
    if b.haveLink && decide (atr.per &&& perMaskType = perFile) then
      match ← wlink old name with
      | .ok () =>
        match ← wunlink old with
        | .ok () => return .ok ()
        | .error errno =>
          let _ ← wunlink name
          return .error errno
      | .error errno =>
        if errno = .eexist then return .error .eexist else renameChecked old name
    else renameChecked old name

def renameStatus (ssh : Session) (reqId : Nat) (e : PathErr) : Sys Outcome :=
  match e with
  | .permissions =>
    sendStatus ssh ftpPermission reqId (ascii "Permission denied") .badFileE
  | e => sendStatus ssh ftpFailure reqId (ascii "Rename File Error") (pathCode e)

def recvRename (b : Build) (ssh : Session) (reqId : Nat) (data : Bytes) : Sys Outcome :=
  match (getStringRef data).runAt 0 with
  | (.error _, _) => renameStatus ssh reqId .bufferE
  | (.ok str, idx) => do
    match ← getAndCleanPath b ssh str with
    | .error e => renameStatus ssh reqId e
    | .ok old =>
      match (getStringRef data).runAt idx with
      | (.error _, _) => renameStatus ssh reqId .bufferE
      | (.ok str, _) => do
        match ← getAndCleanPath b ssh str with
        | .error e => renameStatus ssh reqId e
        | .ok name =>
          match ← renameNoReplace b old name with
          | .error errno =>
            sendStatus ssh (failStatus errno) reqId (ascii "Rename File Error") .badFileE
          | .ok () => sendStatus ssh ftpOk reqId (ascii "Renamed File") .success

/-- The open file that a handle string names, if it is of the right size and on the list. -/
def fileOfHandle (ssh : Session) (handle : Bytes) : Option FileEntry :=
  if handle.length = handleIdSz then findFileHandle ssh (handleIdDecode handle) else none

def recvFSTAT (ssh : Session) (reqId : Nat) (data : Bytes) : Sys Outcome :=
  match (getStringRef data).runAt 0 with
  | (.error _, _) => return silent ssh .bufferE
  | (.ok handle, _) =>
    match fileOfHandle ssh handle with
    | none => return silent ssh .badFileE
    | some cur => do
      match ← wfstat cur.fd with
      | .error _ => sendStatus ssh ftpFailure reqId (ascii "STAT error") .badFileE
      | .ok atr => sendAttrs ssh reqId atr

def recvFSetSTAT (b : Build) (ssh : Session) (reqId : Nat) (data : Bytes) : Sys Outcome :=
  match (getStringRef data).runAt 0 with
  | (.error _, _) => return silent ssh .bufferE
  | (.ok handle, idx) =>
    match fileOfHandle ssh handle with
    | none => sendStatus ssh ftpFailure reqId (ascii "Unable to set attributes error") .badFileE
    | some cur => setParsed (setFileAttributesHandle b cur.fd) ssh reqId data idx

/-- An append handle writes at the end of the file, whatever the offset. -/
def writeOnce (fd : Nat) (isAppend : Bool) (buf : Bytes) (ofst0 ofst1 : Nat) : Sys Int :=
  if isAppend then wwrite fd buf else wpwrite fd buf ofst0 ofst1

/-- The loop that writes what is left of `str`, `n` rounds at most; the last result comes with the
number of octets written. -/
def writeAll (fd : Nat) (isAppend : Bool) (str : Bytes) :
    Nat → Nat → Nat → Nat → Int → Sys (Int × Nat)
  | 0, written, _, _, ret => return (ret, written)
  | n + 1, written, ofst0, ofst1, ret =>
    if written < str.length then do
      let ret ← writeOnce fd isAppend (str.drop written) ofst0 ofst1
      if ret ≤ 0 then return (ret, written)
      else
        let step := ret.toNat
        let lo := (ofst0 + step) % 2 ^ 32
        writeAll fd isAppend str n (written + step) lo
          (if lo < step then (ofst1 + 1) % 2 ^ 32 else ofst1) ret
    else return (ret, written)

def writeFailed (ssh : Session) (reqId : Nat) (ret : Code) : Sys Outcome :=
  sendStatus ssh ftpFailure reqId (ascii "Write File Error") ret

def recvWrite (ssh : Session) (reqId : Nat) (data : Bytes) : Sys Outcome :=
  match (getStringRef data).runAt 0 with
  | (.error _, _) => writeFailed ssh reqId .bufferE
  | (.ok handle, idx) =>
    match fileOfHandle ssh handle with
    | none => writeFailed ssh reqId .badFileE
    | some cur =>
      match (getUint32 data).runAt idx with
      | (.error _, _) => return silent ssh .bufferE
      | (.ok ofst1, idx) =>
        match (getUint32 data).runAt idx with
        | (.error _, _) => return silent ssh .bufferE
        | (.ok ofst0, idx) =>
          match (getStringRef data).runAt idx with
          | (.error _, _) => return silent ssh .bufferE
          | (.ok str, _) => do
            let (ret, written) ← writeAll cur.fd cur.isAppend str str.length 0 ofst0 ofst1 0
            if ret < 0 ∨ written ≠ str.length then writeFailed ssh reqId .invalidStateE
            else sendStatus ssh ftpOk reqId (ascii "Write File Success") .success

/-- A status that RecvRead puts in its read buffer, of `allocSz` octets, where it fits. -/
def readStatus (ssh : Session) (status reqId : Nat) (msg : Bytes) (ret : Code) (allocSz : Nat) :
    Sys Outcome := do
  let out := createStatus status reqId msg
  if allocSz < out.length then sendStatus ssh status reqId msg ret
  else return ⟨ssh, ret, some out⟩

def recvRead (ssh : Session) (reqId : Nat) (data : Bytes) : Sys Outcome :=
  match (getStringRef data).runAt 0 with
  | (.error _, _) => return silent ssh .bufferE
  | (.ok handle, idx) =>
    match fileOfHandle ssh handle with
    | none => sendStatus ssh ftpFailure reqId (ascii "Read File Error") .badFileE
    | some cur =>
      match (getUint32 data).runAt idx with
      | (.error _, _) => return silent ssh .bufferE
      | (.ok ofst1, idx) =>
        match (getUint32 data).runAt idx with
        | (.error _, _) => return silent ssh .bufferE
        | (.ok ofst0, idx) =>
          match (getUint32 data).runAt idx with
          | (.error _, _) => return silent ssh .bufferE
          | (.ok strSz, _) =>
            if maxSftpRw < strSz then return silent ssh .bufferE
            else do
              let allocSz := strSz + sftpHeader + uint32Sz
              if ← wmalloc allocSz then
                match ← wpread cur.fd strSz ofst0 ofst1 with
                | none =>
                  readStatus ssh ftpFailure reqId (ascii "Read File Error") .badFileE allocSz
                | some [] => readStatus ssh ftpEof reqId (ascii "Read EOF") .success allocSz
                | some got =>
                  if strSz < got.length then
                    readStatus ssh ftpFailure reqId (ascii "Read File Error") .badFileE allocSz
                  else return ⟨ssh, .success, some (createPacket reqId ftpData got)⟩
              else return silent ssh .memoryE

/-- A listed entry: its name, its long name and its attributes, none when they could not be had. -/
structure NameEntry where
  fName : Bytes
  lName : Bytes
  atrb : FileAtrb

inductive EntryRead where
  | eof
  | failed (ret : Code)
  | entry (name : NameEntry)

/-- The attributes of an entry; a name too long for the buffer is listed without them. -/
def entryAttributes (ssh : Session) (dirName fName : Bytes) : Sys FileAtrb :=
  if maxFilename ≤ dirName.length + 1 + fName.length then return {}
  else
    match realPath ssh.sftpDefaultPath (dirName ++ [slash] ++ fName) maxFilename with
    | .error _ => return {}
    | .ok s => do
      match ← wentryLstat s with
      | .ok atr => return atr
      | .error _ => return {}

def sftpnameReaddir (ssh : Session) (dir : Nat) (dirName : Bytes) : Sys EntryRead := do
  match ← wreaddir dir with
  | .done => return .eof
  | .failed => return .failed .fatalError
  | .entry name =>
    if ← wmalloc (name.length + 1) then
      let atr ← entryAttributes ssh dirName name
      match ← createLongName name atr with
      | some lName => return .entry ⟨name, lName, atr⟩
      | none => return .failed .fatalError
    else return .failed .memoryE

/-- Up to `n` more entries; the last one read comes first. The flag says that the end was met. -/
def readEntries (ssh : Session) (dir : Nat) (dirName : Bytes) :
    Nat → List NameEntry → Sys (Code × Bool × List NameEntry)
  | 0, list => return (.success, false, list)
  | n + 1, list => do
    if ← wmalloc 64 then
      match ← sftpnameReaddir ssh dir dirName with
      | .eof => return (.success, true, list)
      | .failed ret => return (ret, false, list)
      | .entry name => readEntries ssh dir dirName n (name :: list)
    else return (.memoryE, false, list)

def sendName (reqId : Nat) (list : List NameEntry) : Bytes :=
  let entries := list.flatMap fun e =>
    c32toa e.fName.length ++ e.fName ++ c32toa e.lName.length ++ e.lName ++ setAttributes e.atrb
  setHeader reqId ftpName (4 + entries.length) ++ c32toa list.length ++ entries

def findDirHandle (ssh : Session) (id : HandleId) : Option DirEntry :=
  ssh.dirList.find? (fun e => e.id = id)

/-- The end of the directory is kept with its handle. -/
def setEof (ssh : Session) (id : HandleId) (isEof : Bool) : Session :=
  { ssh with
    dirList := ssh.dirList.map fun e => if e.id = id then { e with isEof := isEof } else e }

/-- RecvReadDir once entries were read, or none could be. -/
def readDirReply (ssh : Session) (reqId : Nat) (ret : Code) (list : List NameEntry) :
    Sys Outcome :=
  if ret = .success then
    if list = [] then
      sendStatus ssh ftpEof reqId (ascii "No More Files In Directory") .success
    else do
      let out := sendName reqId list
      if ← wmalloc out.length then return ⟨ssh, .success, some out⟩
      else sendStatus ssh ftpFailure reqId (ascii "Unable To Read Directory") .memoryE
  else sendStatus ssh ftpFailure reqId (ascii "Unable To Read Directory") ret

instance (list : List NameEntry) : Decidable (list = []) := List.instDecidableEqNil list

def recvReadDir (ssh : Session) (reqId : Nat) (data : Bytes) : Sys Outcome :=
  match (getSize data).runAt 0 with
  | (.error _, _) => return silent ssh .bufferE
  | (.ok sz, idx) =>
    if maxHandle < sz then return silent ssh .bufferE
    else if sz ≠ handleIdSz then return silent ssh .fatalError
    else
      match findDirHandle ssh (handleIdDecode (data.drop idx)) with
      | none => return silent ssh .fatalError
      | some cur =>
        if cur.isEof then readDirReply ssh reqId .success []
        else do
          let (ret, isEof, list) ← readEntries ssh cur.dir cur.dirName maxSftpReaddir []
          readDirReply (setEof ssh cur.id isEof) reqId ret list

/-- wolfSSH_SFTP_RecvCloseDir; `none` is WS_BAD_FILE_E, for a handle that names no directory. -/
def recvCloseDir (ssh : Session) (id : HandleId) : Sys (Option Session) :=
  match findDirHandle ssh id with
  | none => return none
  | some cur => do
    wclosedir cur.dir
    return some { ssh with dirList := ssh.dirList.eraseP (fun e => e.id = id) }

/-- The fall-back to the file handles; the entry goes even when the close fails. -/
def recvCloseFile (ssh : Session) (id : HandleId) : Sys (Session × Bool) :=
  match findFileHandle ssh id with
  | none => return (ssh, false)
  | some cur => do
    let closed ← wclose cur.fd
    return (removeFileHandle ssh id, closed)

def recvClose (ssh : Session) (reqId : Nat) (data : Bytes) : Sys Outcome :=
  if data.length < uint32Sz then return silent ssh .bufferE
  else
    let sz := ato32 data
    if data.length < sz + uint32Sz ∨ maxHandle < sz then return silent ssh .bufferE
    else if sz ≠ handleIdSz then
      sendStatus ssh ftpFailure reqId (ascii "Close File Error") .badFileE
    else do
      let handle := handleIdDecode (data.drop uint32Sz)
      match ← recvCloseDir ssh handle with
      | some ssh => sendStatus ssh ftpOk reqId (ascii "Closed File") .success
      | none =>
        let (ssh, closed) ← recvCloseFile ssh handle
        if closed then sendStatus ssh ftpOk reqId (ascii "Closed File") .success
        else sendStatus ssh ftpFailure reqId (ascii "Close File Error") .badFileE

/-- The start path of a session that has none is its working directory. -/
def startPath (ssh : Session) : Sys (Session × Code) :=
  match ssh.sftpDefaultPath with
  | some _ => return (ssh, .success)
  | none => do
    match ← wgetcwd with
    | none => return (ssh, .invalidPathE)
    | some wd =>
      match realPath none (cstr wd) maxFilename with
      | .error e => return (ssh, pathCode e)
      | .ok s => sftpSetDefaultPath ssh s

def recvRealPath (ssh : Session) (reqId : Nat) (data : Bytes) : Sys Outcome :=
  match (getStringRef data).runAt 0 with
  | (.error _, _) => return silent ssh .bufferE
  | (.ok str, _) =>
    if maxFilename ≤ str.length then return silent ssh .bufferE
    else do
      let (ssh, ret) ← startPath ssh
      match ssh.sftpDefaultPath with
      | none => sendStatus ssh ftpFailure reqId (ascii "Directory error") ret
      | some d =>
        match realPath (some d) (cstr str) maxFilename with
        | .error e => return silent ssh (pathCode e)
        | .ok s =>
          let out := sendName reqId [⟨s, s, {}⟩]
          -- the reply goes in the request's buffer where it fits
          if data.length < out.length then
            if ← wmalloc out.length then return ⟨ssh, .success, some out⟩
            else return silent ssh .memoryE
          else return ⟨ssh, .success, some out⟩

def recvUnknown (ssh : Session) (reqId : Nat) (data : Bytes) : Sys Outcome := do
  let out := createStatus ftpUnsupported reqId (ascii "Unknown/Unsupported packet type")
  if data.length < out.length then
    if ← wmalloc out.length then return ⟨ssh, .success, some out⟩
    else return silent ssh .fatalError
  else return ⟨ssh, .success, some out⟩

/-- The dispatch of wolfSSH_SFTP_read on the type of a request. -/
def recvDo (b : Build) (ssh : Session) (type reqId : Nat) (data : Bytes) : Sys Outcome :=
  match type with
  | 3 => recvOpen b ssh reqId data
  | 4 => recvClose ssh reqId data
  | 5 => recvRead ssh reqId data
  | 6 => recvWrite ssh reqId data
  | 7 => recvLSTAT b ssh reqId data
  | 8 => recvFSTAT ssh reqId data
  | 9 => recvSetSTAT b ssh reqId data
  | 10 => recvFSetSTAT b ssh reqId data
  | 11 => recvOpenDir b ssh reqId data
  | 12 => recvReadDir ssh reqId data
  | 13 => recvRemove b ssh reqId data
  | 14 => recvMKDIR b ssh reqId data
  | 15 => recvRMDIR b ssh reqId data
  | 16 => recvRealPath ssh reqId data
  | 17 => recvSTAT b ssh reqId data
  | 18 => recvRename b ssh reqId data
  | _ => recvUnknown ssh reqId data

def closeFiles : List FileEntry → Sys Unit
  | [] => pure ()
  | e :: es => do
    let _ ← wclose e.fd
    closeFiles es

def closeDirs : List DirEntry → Sys Unit
  | [] => pure ()
  | e :: es => do
    wclosedir e.dir
    closeDirs es

/-- wolfSSH_SFTP_free: the files first, then the directories. -/
def sftpFree (ssh : Session) : Sys Session := do
  closeFiles ssh.fileList
  closeDirs ssh.dirList
  return { ssh with fileList := [], dirList := [] }

/-- What happens to a session: the application sets a path, or a request arrives. -/
inductive Input where
  | setConfinePath (path : Bytes)
  | setDefaultPath (path : Bytes)
  | request (type reqId : Nat) (data : Bytes)
deriving DecidableEq, Repr

def serve (b : Build) (ssh : Session) : Input → Sys Session
  | .setConfinePath path => do return (← sftpSetConfinePath ssh path).1
  | .setDefaultPath path => do return (← sftpSetDefaultPath ssh path).1
  | .request type reqId data => do return (← recvDo b ssh type reqId data).ssh

/-- A session with all the calls made on its behalf. -/
structure Server where
  ssh : Session
  trace : List Event

def Server.start : Server := ⟨{}, []⟩

def Server.step (b : Build) (env : Env) (s : Server) (i : Input) : Server :=
  let r := (serve b s.ssh i).run env s.trace
  ⟨r.1, r.2⟩

def Server.calls (b : Build) (env : Env) (s : Server) (i : Input) : List Event :=
  (s.step b env i).trace.drop s.trace.length

/-- Files and directories are numbered apart. -/
inductive Kind where
  | file
  | dir
deriving DecidableEq, Repr

/-- A descriptor is opened, closed or used. -/
abbrev FdEvent := Ledger.Act (Kind × Nat)

/-- What a call does to a descriptor. -/
def fdEvent : Event → Option FdEvent
  | ⟨.openFile _ _ _, .ok fd⟩ => some (.opened (.file, fd))
  | ⟨.opendir _, .ok dp⟩ => some (.opened (.dir, dp))
  | ⟨.close fd, _⟩ => some (.closed (.file, fd))
  | ⟨.closedir dp, _⟩ => some (.closed (.dir, dp))
  | ⟨.readdir dp, _⟩ => some (.used (.dir, dp))
  | ⟨.pread fd _ _ _, _⟩ | ⟨.pwrite fd _ _ _, _⟩ | ⟨.write fd _, _⟩ | ⟨.fstat fd, _⟩
  | ⟨.ftruncate fd _, _⟩ | ⟨.fchown fd _ _, _⟩ | ⟨.fchmod fd _, _⟩ | ⟨.futimes fd _ _, _⟩ =>
    some (.used (.file, fd))
  | _ => none

def fdEvents (es : List Event) : List FdEvent := es.filterMap fdEvent

end WolfSsh.Sftp
