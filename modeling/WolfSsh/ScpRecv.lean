import WolfSsh.ScpSink

/-! The default receive callback of SCP: the receive path with the directories entered below the
base path, and the files and directories created there. -/

namespace WolfSsh.Scp

def defaultScpFileNameSz : Nat := 1024

/-- The options of the build: WOLFSSH_HAVE_DIRFD, WOLFSSH_HAVE_SYMLINK and WOLFSSH_SCP_FD_UTIMES. -/
structure ScpBuild where
  haveDirFd : Bool := true
  haveSymlink : Bool := true
  fdUtimes : Bool := true
deriving DecidableEq, Repr

inductive Mkdir where
  | made | exists | failed
deriving DecidableEq, Repr

/-- The device and the inode of a directory. -/
abbrev Ident := Nat × Nat

/-- A call into the operating system or the heap. `openDir` is the open of the base path,
`openParent` that of `..`; `isDirNoFollow` and `isSymlink` are the probes of `wIsDirNoFollow` and
`wIsSymlink`. -/
inductive ScpCall where
  | malloc (sz : Nat)
  | openDir (path : Bytes)
  | mkdirAt (fd : Nat) (name : Bytes) (mode : Nat)
  | openDirAt (fd : Nat) (name : Bytes)
  | openParent (fd : Nat)
  | openFileAt (fd : Nat) (name : Bytes)
  | searchable (fd : Nat)
  | fstat (fd : Nat)
  | fdopen (fd : Nat)
  | close (fd : Nat)
  | mkdir (path : Bytes) (mode : Nat)
  | isDirNoFollow (path : Bytes)
  | isSymlink (path : Bytes)
  | fopen (path : Bytes)
  | fwrite (fp : Nat) (buf : Bytes)
  | fclose (fp : Nat)
  | futimes (fp mTime aTime : Nat)
  | utimes (path : Bytes) (mTime aTime : Nat)
deriving DecidableEq, Repr

/-- What a call answers; a Boolean says that it succeeded. -/
def ScpCall.Ans : ScpCall → Type
  | .openDir _ | .openDirAt _ _ | .openParent _ | .openFileAt _ _ | .fdopen _ | .fopen _ =>
    Option Nat
  | .mkdirAt _ _ _ | .mkdir _ _ => Mkdir
  | .fstat _ => Option Ident
  | .fwrite _ _ => Nat
  | .close _ | .fclose _ => Unit
  | .malloc _ | .searchable _ | .isDirNoFollow _ | .isSymlink _ | .futimes _ _ _
  | .utimes _ _ _ => Bool

abbrev ScpSys := Calls ScpCall ScpCall.Ans
abbrev ScpEvent := Calls.Event ScpCall ScpCall.Ans
abbrev ScpEnv := Calls.Env ScpCall ScpCall.Ans

/-- The fields of the session that the callback keeps. `scpRecvDirs` are the parents of the receive
directory, the nearest first. -/
structure RecvState where
  scpRecvPath : Option Bytes := none
  scpRecvBaseSz : Nat := 0
  scpRecvDirFd : Option Nat := none
  scpRecvDirs : List Ident := []
  scpDirDepth : Nat := 0
  scpRecvCtx : Option Nat := none
deriving DecidableEq, Repr

inductive RecvErr where
  | badArgument | bufferE | memoryE | invalidPathE | invalidStateE | badFileE
  | scpDirStackEmptyE | fatalError
deriving DecidableEq, Repr

def wclose (fd : Nat) : ScpSys Unit := Calls.ask (ScpCall.close fd)
def wopenDir (path : Bytes) : ScpSys (Option Nat) := Calls.ask (ScpCall.openDir path)
def wopenDirAt (fd : Nat) (name : Bytes) : ScpSys (Option Nat) :=
  Calls.ask (ScpCall.openDirAt fd name)
def wopenParent (fd : Nat) : ScpSys (Option Nat) := Calls.ask (ScpCall.openParent fd)
def wopenFileAt (fd : Nat) (name : Bytes) : ScpSys (Option Nat) :=
  Calls.ask (ScpCall.openFileAt fd name)
def wsearchable (fd : Nat) : ScpSys Bool := Calls.ask (ScpCall.searchable fd)
def wfstat (fd : Nat) : ScpSys (Option Ident) := Calls.ask (ScpCall.fstat fd)
def wfdopen (fd : Nat) : ScpSys (Option Nat) := Calls.ask (ScpCall.fdopen fd)
def wmkdirAt (fd : Nat) (name : Bytes) (mode : Nat) : ScpSys Mkdir :=
  Calls.ask (ScpCall.mkdirAt fd name mode)
def wmkdir (path : Bytes) (mode : Nat) : ScpSys Mkdir := Calls.ask (ScpCall.mkdir path mode)
def wIsDirNoFollow (path : Bytes) : ScpSys Bool := Calls.ask (ScpCall.isDirNoFollow path)
def wIsSymlink (path : Bytes) : ScpSys Bool := Calls.ask (ScpCall.isSymlink path)
def wfopen (path : Bytes) : ScpSys (Option Nat) := Calls.ask (ScpCall.fopen path)
def wfwrite (fp : Nat) (buf : Bytes) : ScpSys Nat := Calls.ask (ScpCall.fwrite fp buf)
def wfclose (fp : Nat) : ScpSys Unit := Calls.ask (ScpCall.fclose fp)
def wfutimes (fp mTime aTime : Nat) : ScpSys Bool := Calls.ask (ScpCall.futimes fp mTime aTime)
def wutimes (path : Bytes) (mTime aTime : Nat) : ScpSys Bool :=
  Calls.ask (ScpCall.utimes path mTime aTime)
def wmallocPath (sz : Nat) : ScpSys Bool := Calls.ask (ScpCall.malloc sz)

/-- The descriptor of the receive directory is closed, where there is one. -/
def closeDirFd (s : RecvState) : ScpSys Unit :=
  match s.scpRecvDirFd with
  | some fd => wclose fd
  | none => pure ()

def scpRecvPathFree (s : RecvState) : ScpSys RecvState := do
  closeDirFd s
  return { s with scpRecvDirFd := none, scpRecvDirs := [], scpRecvPath := none, scpRecvBaseSz := 0 }

def scpRecvPathSet (s : RecvState) (basePath : Bytes) : ScpSys (RecvState × Except RecvErr Unit) := do
  let s ← scpRecvPathFree s
  if defaultScpFileNameSz ≤ basePath.length then return (s, .error .bufferE)
  else if ← wmallocPath defaultScpFileNameSz then
    return ({ s with scpRecvPath := some basePath, scpRecvBaseSz := basePath.length }, .ok ())
  else return (s, .error .memoryE)

/-- A separator goes in front of the name unless the path is empty or ends with one. -/
def needsDelim (path : Bytes) : Bool :=
  match path.getLast? with
  | some c => !isDelim c
  | none => false

def joinPath (path name : Bytes) : Bytes :=
  path ++ (if needsDelim path then [slash] else []) ++ name

def scpRecvPathJoin (s : RecvState) (name : Bytes) : Except RecvErr RecvState :=
  match s.scpRecvPath with
  | none => .error .badArgument
  | some path =>
    if defaultScpFileNameSz ≤ (joinPath path name).length then .error .bufferE
    else .ok { s with scpRecvPath := some (joinPath path name) }

/-- The loop of ScpRecvPathUp, from the index `i` down. -/
def upIndex (path : Bytes) (baseSz : Nat) : Nat → Nat
  | 0 => 0
  | i + 1 => if baseSz < i + 1 ∧ !isDelim (path.getD i 0) then upIndex path baseSz i else i + 1

def upPath (path : Bytes) (baseSz : Nat) : Bytes :=
  let i := upIndex path baseSz path.length
  path.take (if baseSz < i then i - 1 else i)

def scpRecvPathUp (s : RecvState) : RecvState :=
  { s with scpRecvPath := s.scpRecvPath.map (upPath · s.scpRecvBaseSz) }

def scpRecvDirOpen (b : ScpBuild) (s : RecvState) : ScpSys (RecvState × Except RecvErr Unit) := do
  let path := s.scpRecvPath.getD []
  if b.haveDirFd then
    match ← wopenDir path with
    | none => return (s, .error .invalidPathE)
    | some fd =>
      if ← wsearchable fd then return ({ s with scpRecvDirFd := some fd }, .ok ())
      else
        wclose fd
        return (s, .error .invalidPathE)
  else if b.haveSymlink then
    if ← wIsDirNoFollow path then return (s, .ok ()) else return (s, .error .invalidPathE)
  else return (s, .ok ())

/-- The record of the parent: its identity, if the new directory can be searched, the parent looked
at and the record allocated. -/
def parentRecord (parent fd : Nat) : ScpSys (Option Ident) := do
  if ← wsearchable fd then
    match ← wfstat parent with
    | none => return none
    | some ident => if ← wmallocPath 32 then return some ident else return none
  else return none

/-- ScpRecvDirEnter where directories are entered by descriptor, `joined` being `s` with the name on
its path. -/
def dirEnterAt (joined : RecvState) (parent : Nat) (name : Bytes) (mode : Nat) :
    ScpSys (RecvState × Except RecvErr Unit) := do
  match ← wmkdirAt parent name mode with
  | .failed => return (scpRecvPathUp joined, .error .invalidPathE)
  | _ =>
    match ← wopenDirAt parent name with
    | none => return (scpRecvPathUp joined, .error .invalidPathE)
    | some fd =>
      match ← parentRecord parent fd with
      | none =>
        wclose fd
        return (scpRecvPathUp joined, .error .invalidPathE)
      | some ident =>
        wclose parent
        return ({ joined with
          scpRecvDirs := ident :: joined.scpRecvDirs, scpRecvDirFd := some fd }, .ok ())

/-- The probe of a directory by its path, in builds that know links. -/
def probeDir (b : ScpBuild) (path : Bytes) : ScpSys Bool :=
  if b.haveSymlink then wIsDirNoFollow path else pure true

def dirEnterPath (b : ScpBuild) (joined : RecvState) (mode : Nat) :
    ScpSys (RecvState × Except RecvErr Unit) := do
  let path := joined.scpRecvPath.getD []
  match ← wmkdir path mode with
  | .failed => return (scpRecvPathUp joined, .error .invalidPathE)
  | _ =>
    if ← probeDir b path then return (joined, .ok ())
    else return (scpRecvPathUp joined, .error .invalidPathE)

def scpRecvDirEnter (b : ScpBuild) (s : RecvState) (name : Bytes) (mode : Nat) :
    ScpSys (RecvState × Except RecvErr Unit) :=
  if b.haveDirFd then
    match s.scpRecvDirFd with
    | none => return (s, .error .invalidStateE)
    | some parent =>
      match scpRecvPathJoin s name with
      | .error e => return (s, .error e)
      | .ok joined => dirEnterAt joined parent name mode
  else
    match scpRecvPathJoin s name with
    | .error e => return (s, .error e)
    | .ok joined => dirEnterPath b joined mode

def scpRecvDirLeave (b : ScpBuild) (s : RecvState) : ScpSys (RecvState × Except RecvErr Unit) :=
  if b.haveDirFd then
    match s.scpRecvDirFd, s.scpRecvDirs with
    | some old, ident :: dirs => do
      match ← wopenParent old with
      | none => return (s, .error .invalidPathE)
      | some fd =>
        -- the parent is to be the directory that was entered from
        if (← wfstat fd) = some ident then
          wclose old
          return (scpRecvPathUp { s with scpRecvDirs := dirs, scpRecvDirFd := some fd }, .ok ())
        else
          wclose fd
          return (s, .error .invalidPathE)
    | _, _ => return (s, .error .scpDirStackEmptyE)
  else return (scpRecvPathUp s, .ok ())

def probeLink (b : ScpBuild) (path : Bytes) : ScpSys Bool :=
  if b.haveSymlink then wIsSymlink path else pure false

def fileOpenPath (b : ScpBuild) (path : Bytes) : ScpSys (Option Nat) := do
  if ← probeLink b path then return none else wfopen path

def scpRecvFileOpen (b : ScpBuild) (s : RecvState) (name : Bytes) :
    ScpSys (RecvState × Except RecvErr Nat) :=
  if b.haveDirFd then
    match s.scpRecvDirFd with
    | none => return (s, .error .invalidStateE)
    | some dir => do
      match ← wopenFileAt dir name with
      | none => return (s, .error .badFileE)
      | some fd =>
        match ← wfdopen fd with
        | some fp => return (s, .ok fp)
        | none =>
          wclose fd
          return (s, .error .badFileE)
  else
    match scpRecvPathJoin s name with
    | .error e => return (s, .error e)
    | .ok joined => do
      match ← fileOpenPath b (joined.scpRecvPath.getD []) with
      | some fp => return (scpRecvPathUp joined, .ok fp)
      | none => return (scpRecvPathUp joined, .error .badFileE)

def timed (c : CbCall) : Bool := decide (c.mTime ≠ 0 ∨ c.aTime ≠ 0)

/-- The times are set on the open file, where the build can. -/
def timesByFd (b : ScpBuild) (fp : Nat) (c : CbCall) : ScpSys Bool :=
  if b.fdUtimes && timed c then wfutimes fp c.mTime c.aTime else pure true

def closeFile (b : ScpBuild) (fp : Option Nat) (c : CbCall) : ScpSys Bool :=
  match fp with
  | some fp => do
    let set ← timesByFd b fp c
    wfclose fp
    return set
  | none => return !(b.fdUtimes && timed c)

def writePart (fp : Nat) (buf : Bytes) : ScpSys Nat :=
  if buf ≠ [] then wfwrite fp buf else pure 0

/-- The times are set by path where they cannot be set on the open file. -/
def timesByPath (s : RecvState) (c : CbCall) : ScpSys (RecvState × Bool) :=
  match scpRecvPathJoin s (c.fileName.getD []) with
  | .error _ => return (s, false)
  | .ok joined => do
    let set ← wutimes (joined.scpRecvPath.getD []) c.mTime c.aTime
    return (scpRecvPathUp joined, set)

def verdict (ok : Bool) : Confirm := if ok then .cont else .abort

/-- wsScpRecvCallback. The context of the call is the session's `scpRecvCtx`. -/
def wsScpRecvCallback (b : ScpBuild) (s : RecvState) (c : CbCall) : ScpSys (RecvState × Confirm) :=
  match c.state with
  | .newRequest => do
    match ← scpRecvPathSet s c.basePath with
    | (s, .error _) =>
      let s ← scpRecvPathFree s
      return (s, .abort)
    | (s, .ok ()) =>
      match ← scpRecvDirOpen b s with
      | (s, .error _) =>
        let s ← scpRecvPathFree s
        return (s, .abort)
      | (s, .ok ()) => return ({ s with scpDirDepth := 0 }, .cont)
  | .newFile => do
    match ← scpRecvFileOpen b s (c.fileName.getD []) with
    | (s, .ok fp) => return ({ s with scpRecvCtx := some fp }, .cont)
    | (s, .error _) => return (s, .abort)
  | .filePart =>
    match s.scpRecvCtx with
    | none => return (s, .abort)
    | some fp => do
      let bytes ← writePart fp c.buf
      if bytes ≠ c.buf.length then
        wfclose fp
        return (s, .abort)
      else return (s, .cont)
  | .fileDone => do
    let ok ← closeFile b s.scpRecvCtx c
    if timed c then
      if b.fdUtimes then return (s, verdict ok)
      else
        let (s, set) ← timesByPath s c
        return (s, verdict set)
    else return (s, .cont)
  | .newDir =>
    if 0 < (c.fileName.getD []).length then do
      match ← scpRecvDirEnter b s (c.fileName.getD []) c.fileMode with
      | (s, .ok ()) => return ({ s with scpDirDepth := s.scpDirDepth + 1 }, .cont)
      | (s, .error _) => return (s, .abort)
    else return (s, .cont)
  | .endDir =>
    if s.scpDirDepth = 0 then return (s, .abort)
    else do
      match ← scpRecvDirLeave b s with
      | (s, .ok ()) => return ({ s with scpDirDepth := s.scpDirDepth - 1 }, .cont)
      | (s, .error _) => return (s, .abort)

end WolfSsh.Scp
