import WolfSsh.RealPath

/-! The control messages of SCP: the file, directory, end and time lines, as the sink parses them. -/

namespace WolfSsh.Scp

inductive ScpErr where
  | badArgument | scpBadMsgE | scpTimestampE | memoryE | bufferE | fatalError | transport
deriving DecidableEq, Repr

def defaultScpMsgSz : Nat := 1024
def scpModeOctetLen : Nat := 4
def wolfsshModeMask : Nat := 0x1ff

def newline : UInt8 := 0x0a
def space : UInt8 := 0x20

inductive MsgType where
  | file | time | dir | endDir
deriving DecidableEq, Repr

/-- The states that the receive callback is called in. -/
inductive FileState where
  | newRequest | newFile | filePart | fileDone | newDir | endDir
deriving DecidableEq, Repr

/-- What the session keeps of the control messages. `scpFileReName` marks that the name the command
gave is to be used in place of the next one received. -/
structure Header where
  scpMsgType : MsgType := .file
  scpFileState : FileState := .newRequest
  scpFileName : Option Bytes := none
  scpFileNameCap : Nat := 0
  scpFileReName : Bool := false
  scpFileMode : Nat := 0
  scpFileSz : Nat := 0
  scpMTime : Nat := 0
  scpATime : Nat := 0
deriving DecidableEq, Repr

def octal : Bytes → Nat → Option Nat
  | [], mode => some mode
  | c :: cs, mode =>
    if c < 0x30 ∨ 0x37 < c then none else octal cs (mode * 8 + (c.toNat - 0x30))

/-- The mode, and the index behind it and its space. -/
def getScpFileMode (buf : Bytes) (idx : Nat) : Except ScpErr (Nat × Nat) :=
  if buf.length < scpModeOctetLen + 1 then .error .badArgument
  else
    let idx := idx + 1
    match octal ((buf.drop idx).take scpModeOctetLen) 0 with
    | none => .error .badArgument
    | some mode =>
      let idx := idx + scpModeOctetLen
      .ok (mode &&& wolfsshModeMask, if idx + 1 ≤ buf.length then idx + 1 else idx)

def findSpaceInString (buf : Bytes) (idx : Nat) : Option Nat :=
  ((buf.drop idx).findIdx? (· == space)).map (idx + ·)

/-- The loop of ScpParseUInt64 over the digits, `val` being read. -/
def parseDigits (max : Nat) : Bytes → Nat → Option Nat
  | [], val => some val
  | c :: cs, val =>
    if c < 0x30 ∨ 0x39 < c then none
    else
      let d := c.toNat - 0x30
      if max < d ∨ (max - d) / 10 < val then none else parseDigits max cs (val * 10 + d)

def scpParseUInt64 (str : Bytes) (max : Nat) : Option Nat :=
  if str = [] then none else parseDigits max str 0

/-- The octets of `buf` from `idx` up to `stop`. -/
def field (buf : Bytes) (idx stop : Nat) : Bytes := (buf.drop idx).take (stop - idx)

def getScpFileSize (buf : Bytes) (idx : Nat) : Except ScpErr (Nat × Nat) :=
  match findSpaceInString buf idx with
  | none => .error .scpBadMsgE
  | some spaceIdx =>
    match scpParseUInt64 (field buf idx spaceIdx) 0xffffffff with
    | none => .error .scpBadMsgE
    | some sz => .ok (sz, if spaceIdx + 1 ≤ buf.length then spaceIdx + 1 else spaceIdx)

/-- The name is one component: not empty, not `.` or `..`, and without a separator. -/
def admittedName (name : Bytes) : Bool :=
  decide (name ≠ [] ∧ name ≠ dot ∧ name ≠ dotdot) && name.all (fun c => !isDelim c)

/-- `alloc` says that a larger buffer for the name can be had, where one is needed. -/
def getScpFileName (h : Header) (buf : Bytes) (idx : Nat) (alloc : Bool) :
    Header × Except ScpErr Unit :=
  let name := cstr (buf.drop idx)
  if admittedName name then
    if h.scpFileName = none ∨ h.scpFileNameCap ≤ name.length then
      if alloc then
        ({ h with scpFileName := some name, scpFileNameCap := name.length + 1 }, .ok ())
      else ({ h with scpFileName := none, scpFileNameCap := 0 }, .error .memoryE)
    else ({ h with scpFileName := some name }, .ok ())
  else (h, .error .scpBadMsgE)

/-- The index behind the `0 ` between the two times, if it stands at `idx`. -/
def skipZero (buf : Bytes) (idx : Nat) : Option Nat :=
  if buf.getD idx 0 = 0x30 ∧ idx + 1 < buf.length ∧ buf.getD (idx + 1) 0 = space ∧
      idx + 2 < buf.length then some (idx + 2)
  else none

/-- A time up to the space behind it, which is to be followed by something. -/
def getTime (buf : Bytes) (idx spaceFrom : Nat) : Option (Nat × Option Nat) :=
  match findSpaceInString buf spaceFrom with
  | none => none
  | some spaceIdx =>
    match scpParseUInt64 (field buf idx spaceIdx) 0xffffffffffffffff with
    | none => none
    | some t => some (t, if spaceIdx + 1 < buf.length then some (spaceIdx + 1) else none)

/-- A time is stored as soon as its digits are read. -/
def getScpTimestamp (h : Header) (buf : Bytes) : Header × Except ScpErr Unit :=
  match getTime buf 1 0 with
  | none => (h, .error .scpTimestampE)
  | some (mTime, next) =>
    let h := { h with scpMTime := mTime }
    match next.bind (skipZero buf) with
    | none => (h, .error .scpTimestampE)
    | some idx =>
      match getTime buf idx idx with
      | none => (h, .error .scpTimestampE)
      | some (aTime, next) =>
        ({ h with scpATime := aTime }, if next = none then .error .scpTimestampE else .ok ())

/-- The part of ReceiveScpMessage for a file or a directory. -/
def parseEntry (h : Header) (buf : Bytes) (alloc : Bool) : Header × Except ScpErr Unit :=
  match getScpFileMode buf 0 with
  | .error e => (h, .error e)
  | .ok (mode, idx) =>
    let h := { h with scpFileMode := mode }
    match getScpFileSize buf idx with
    | .error e => (h, .error e)
    | .ok (sz, idx) =>
      let h := { h with scpFileSz := sz }
      if h.scpFileReName then ({ h with scpFileReName := false }, .ok ())
      else getScpFileName h buf idx alloc

/-- The switch at the end of ReceiveScpMessage, on a buffer whose last octet is the NUL put over the
newline. -/
def parseMessage (h : Header) (buf : Bytes) (alloc : Bool) : Header × Except ScpErr Unit :=
  if buf.getD 0 0 = 0x43 then parseEntry { h with scpMsgType := .file } buf alloc
  else if buf.getD 0 0 = 0x44 then parseEntry { h with scpMsgType := .dir } buf alloc
  else if buf.getD 0 0 = 0x45 then
    ({ h with scpMsgType := .endDir, scpFileState := .endDir }, .ok ())
  else if buf.getD 0 0 = 0x54 then getScpTimestamp { h with scpMsgType := .time } buf
  else (h, .error .scpBadMsgE)

/-- A line with its last octet, the newline, replaced. -/
def terminated (line : Bytes) : Bytes := line.dropLast ++ [0]

example : (parseMessage {} (terminated (ascii "D0755 0 src\n")) true).1 =
    { scpMsgType := .dir, scpFileName := some (ascii "src"), scpFileNameCap := 4,
      scpFileMode := 0x1ed } := by
  decide +kernel

/-- A control message, by what it does to the receive directory. -/
inductive Ctl where
  | dir (name : Bytes)
  | endDir
  | file (name : Bytes)
  | time
deriving DecidableEq, Repr

/-- The name behind the mode and the size of a line. -/
def entryName (buf : Bytes) : Option Bytes :=
  match getScpFileMode buf 0 with
  | .error _ => none
  | .ok (_, idx) =>
    match getScpFileSize buf idx with
    | .error _ => none
    | .ok (_, idx) => some (cstr (buf.drop idx))

def control (line : Bytes) : Option Ctl :=
  let buf := terminated line
  if buf.getD 0 0 = 0x43 then (entryName buf).map .file
  else if buf.getD 0 0 = 0x44 then (entryName buf).map .dir
  else if buf.getD 0 0 = 0x45 then some .endDir
  else if buf.getD 0 0 = 0x54 then some .time
  else none

/-- The name of a message stands in the header, unless one that the command gave was pending. -/
def Names (h : Header) (name : Bytes) (h' : Header) : Prop :=
  h'.scpFileReName = false ∧
    if h.scpFileReName then h'.scpFileName = h.scpFileName
    else h'.scpFileName = some name ∧ admittedName name = true

/-- The header `h'` after a message that was parsed over `h`. -/
def Takes (h : Header) (h' : Header) : Ctl → Prop
  | .dir name => h'.scpMsgType = .dir ∧ Names h name h'
  | .file name => h'.scpMsgType = .file ∧ Names h name h'
  | .endDir => h'.scpMsgType = .endDir ∧ h'.scpFileState = .endDir ∧
      h'.scpFileName = h.scpFileName ∧ h'.scpFileReName = h.scpFileReName
  | .time => h'.scpMsgType = .time ∧
      h'.scpFileName = h.scpFileName ∧ h'.scpFileReName = h.scpFileReName

section Parse

variable {h h' : Header} {buf : Bytes} {idx : Nat} {alloc : Bool}

theorem getScpFileName_ok (hok : getScpFileName h buf idx alloc = (h', .ok ())) :
    h'.scpMsgType = h.scpMsgType ∧ h'.scpFileReName = h.scpFileReName ∧
      h'.scpFileName = some (cstr (buf.drop idx)) ∧
      admittedName (cstr (buf.drop idx)) = true := by
  rw [getScpFileName] at hok
  by_cases hname : admittedName (cstr (buf.drop idx)) = true
  · rw [if_pos hname] at hok
    split at hok
    · cases alloc with
      | false => cases hok
      | true =>
        cases hok
        exact ⟨rfl, rfl, rfl, hname⟩
    · cases hok
      exact ⟨rfl, rfl, rfl, hname⟩
  · rw [if_neg hname] at hok
    cases hok

theorem parseEntry_ok (hok : parseEntry h buf alloc = (h', .ok ())) :
    ∃ name, entryName buf = some name ∧ h'.scpMsgType = h.scpMsgType ∧ Names h name h' := by
  rw [parseEntry] at hok
  rw [entryName]
  cases hmode : getScpFileMode buf 0 with
  | error e =>
    rw [hmode] at hok
    cases hok
  | ok r =>
    obtain ⟨mode, idx⟩ := r
    rw [hmode] at hok
    dsimp only at hok ⊢
    cases hsize : getScpFileSize buf idx with
    | error e =>
      rw [hsize] at hok
      cases hok
    | ok r =>
      obtain ⟨sz, idx⟩ := r
      rw [hsize] at hok
      dsimp only at hok ⊢
      refine ⟨_, rfl, ?_⟩
      rw [Names]
      by_cases hre : h.scpFileReName = true
      · rw [if_pos hre] at hok ⊢
        cases hok
        exact ⟨rfl, rfl, rfl⟩
      · rw [if_neg hre] at hok ⊢
        obtain ⟨htype, hre', hname⟩ := getScpFileName_ok hok
        exact ⟨htype, hre'.trans (by simpa using hre), hname⟩

theorem getScpTimestamp_fst : (getScpTimestamp h buf).1.scpMsgType = h.scpMsgType ∧
    (getScpTimestamp h buf).1.scpFileName = h.scpFileName ∧
    (getScpTimestamp h buf).1.scpFileReName = h.scpFileReName := by
  rw [getScpTimestamp]
  cases getTime buf 1 0 with
  | none => exact ⟨rfl, rfl, rfl⟩
  | some t =>
    dsimp only
    cases t.2.bind (skipZero buf) with
    | none => exact ⟨rfl, rfl, rfl⟩
    | some idx =>
      dsimp only
      cases getTime buf idx idx with
      | none => exact ⟨rfl, rfl, rfl⟩
      | some t => exact ⟨rfl, rfl, rfl⟩

theorem parseMessage_ok {line : Bytes}
    (hok : parseMessage h (terminated line) alloc = (h', .ok ())) :
    ∃ ctl, control line = some ctl ∧ Takes h h' ctl := by
  rw [parseMessage] at hok
  rw [control]
  by_cases hfile : (terminated line).getD 0 0 = 0x43
  · rw [if_pos hfile] at hok ⊢
    obtain ⟨name, hname, htakes⟩ := parseEntry_ok hok
    rw [hname]
    exact ⟨_, rfl, htakes⟩
  rw [if_neg hfile] at hok ⊢
  by_cases hdir : (terminated line).getD 0 0 = 0x44
  · rw [if_pos hdir] at hok ⊢
    obtain ⟨name, hname, htakes⟩ := parseEntry_ok hok
    rw [hname]
    exact ⟨_, rfl, htakes⟩
  rw [if_neg hdir] at hok ⊢
  by_cases hend : (terminated line).getD 0 0 = 0x45
  · rw [if_pos hend] at hok ⊢
    cases hok
    exact ⟨_, rfl, rfl, rfl, rfl, rfl⟩
  rw [if_neg hend] at hok ⊢
  by_cases htime : (terminated line).getD 0 0 = 0x54
  · rw [if_pos htime] at hok ⊢
    have htakes := @getScpTimestamp_fst { h with scpMsgType := .time } (terminated line)
    rw [hok] at htakes
    exact ⟨_, rfl, htakes⟩
  · rw [if_neg htime] at hok
    cases hok

end Parse

end WolfSsh.Scp
