import WolfSsh.Lib.CStrings
import WolfSsh.Lib.Word32
import WolfSsh.KexHash
import WolfSsh.Packet

/-! `WOLFSSH_BUFFER` with its 32-bit sizes and its memory, and what reads into it and sends from it
whatever the I/O callbacks return. A `none` stands for memory behind the buffer. -/

namespace WolfSsh.WordBuffer

open CStrings

/-- `buffer` is the memory that the pointer shows. The last three fields are not in the code: the
octets put in and not taken out, whether every size is the one that unbounded arithmetic gives, and
whether a callback has returned a count beyond its request. -/
structure Buf where
  buffer : Bytes
  bufferSz : UInt32
  length : UInt32 := 0
  idx : UInt32 := 0
  dynamicFlag : Bool := false
  queue : Bytes := []
  exact : Bool := true
  overrun : Bool := false
deriving DecidableEq, Repr

inductive Ret where
  | success
  | failed (e : WsErr)
  | recvOverflowE | sendOobReadE
  -- the callback has not answered yet
  | pending
deriving DecidableEq, Repr

def staticBufferLen : UInt32 := .ofNat Packet.staticBufferLen
def uint32Max : UInt32 := 0xffffffff
def protoIdLimit : UInt32 := 255

/-- A size has been computed that should be `n`. -/
def Buf.sized (b : Buf) (sz : UInt32) (n : Int) : Buf :=
  { b with exact := b.exact && decide ((sz.toNat : Int) = n) }

/-- A callback that was asked for `size` octets has returned `n`. -/
def Buf.counted (b : Buf) (size n : UInt32) : Buf := { b with overrun := b.overrun || decide (size < n) }

/-- The unread octets as they stand in memory. -/
def Buf.unread (b : Buf) : Bytes := (b.buffer.drop b.idx.toNat).take (b.length - b.idx).toNat

def zeros (n : UInt32) : Bytes := List.replicate n.toNat 0

/-- The `n` octets from `i` on. -/
def read (mem : Bytes) (i n : UInt32) : Option Bytes :=
  if i.toNat + n.toNat ≤ mem.length then some ((mem.drop i.toNat).take n.toNat) else none

/-- Whether `WMALLOC` grants a size. -/
abbrev Alloc := UInt32 → Bool

def bufferInit (alloc : Alloc) (size : UInt32) : Ret × Buf :=
  let size := if size ≤ staticBufferLen then staticBufferLen else size
  if size > staticBufferLen then
    if alloc size then (.success, { buffer := zeros size, bufferSz := size, dynamicFlag := true })
    else (.failed .memoryE, { buffer := [], bufferSz := size })
  else
    (.success, { buffer := zeros staticBufferLen, bufferSz := size })

def growBuffer (alloc : Alloc) (sz : UInt32) (b : Buf) : Option (Ret × Buf) :=
  let newSz := sz + b.length - b.idx
  let b := b.sized newSz (sz.toNat + b.length.toNat - b.idx.toNat)
  if newSz > b.bufferSz then
    if alloc newSz then do
      let used ← read b.buffer b.idx (b.length - b.idx)
      let newBuffer ← write (zeros newSz) 0 used
      return (.success, { b with
        buffer := newBuffer, bufferSz := newSz, length := b.length - b.idx, idx := 0, dynamicFlag := true })
    else
      return (.failed .memoryE, b)
  else if b.length > 0 then do
    let usedSz := b.length - b.idx
    let used ← read b.buffer b.idx usedSz
    let buffer ← write b.buffer 0 used
    -- scrub the stale copy above the new length
    let buffer ← write buffer usedSz.toNat (zeros b.idx)
    return (.success, { b with buffer, length := usedSz, idx := 0 })
  else
    return (.success, b)

/-- The static buffer is scrubbed when the octets leave it. -/
def Buf.static (b : Buf) : Bytes := if b.dynamicFlag then zeros staticBufferLen else b.buffer

def shrinkBuffer (forcedFree : Bool) (b : Buf) : Option Buf :=
  let usedSz := b.length - b.idx
  let b := b.sized usedSz (b.length.toNat - b.idx.toNat)
  if !forcedFree && usedSz > staticBufferLen then
    return b
  else if forcedFree then
    return { b with
      buffer := zeros staticBufferLen, bufferSz := staticBufferLen, length := 0, idx := 0,
      dynamicFlag := false, queue := [] }
  else do
    let used ← read b.buffer b.idx usedSz
    let buffer ← write b.static 0 used
    return { b with buffer, bufferSz := staticBufferLen, length := usedSz, idx := 0, dynamicFlag := false }

/-- The room to ask `GrowBuffer` for, with the buffer that has noted the sizes. -/
def growSize (usedSz needSz dataSz : UInt32) (b : Buf) : UInt32 × Buf :=
  if needSz > b.bufferSz then
    let targetSz :=
      if b.bufferSz ≤ uint32Max / 2 ∧ b.bufferSz * 2 > needSz then b.bufferSz * 2 else needSz
    (targetSz - usedSz, b.sized (targetSz - usedSz) (targetSz.toNat - usedSz.toNat))
  else
    (dataSz, b)

def appendBuffer (alloc : Alloc) (data : Bytes) (b : Buf) : Option (Ret × Buf) :=
  let dataSz : UInt32 := .ofNat data.length
  let usedSz := b.length - b.idx
  let b := b.sized usedSz (b.length.toNat - b.idx.toNat)
  if dataSz > uint32Max - usedSz then
    return (.failed .overflowE, b)
  else
    let needSz := usedSz + dataSz
    let b := b.sized needSz (usedSz.toNat + dataSz.toNat)
    let (growSz, b) := growSize usedSz needSz dataSz b
    do
      let (ret, b) ← growBuffer alloc growSz b
      if ret = .success then
        let buffer ← write b.buffer b.length.toNat data
        let length := b.length + dataSz
        return (.success, { b.sized length (b.length.toNat + dataSz.toNat) with
          buffer, length, queue := b.queue ++ data })
      else
        return (ret, b)

/-- The WS_CBIO_ERR codes. WANT_READ and WANT_WRITE are one number. -/
inductive CbioErr where
  | general | want | connRst | isr | connClose | timeout | other
deriving DecidableEq, Repr

/-- What the receive callback answers: octets that have come in, as many as were asked for, or any
count with any octets in the area it was given, or an error. -/
inductive Received where
  | chunk (bs : Bytes)
  | count (n : UInt32) (bs : Bytes)
  | error (e : CbioErr)
deriving DecidableEq, Repr

/-- What `ReceiveData` makes of it. -/
inductive Recvd where
  | got (n : UInt32) (bs : Bytes)
  | wantRead
  | failed
deriving DecidableEq, Repr

def receiveData (sz : UInt32) : List Received → Option (Recvd × List Received)
  | [] => none
  | .chunk bs :: io =>
    let got := bs.take sz.toNat
    some (.got (.ofNat got.length) got,
      if bs.length ≤ sz.toNat then io else .chunk (bs.drop sz.toNat) :: io)
  | .count n bs :: io => some (.got n (bs.take sz.toNat), io)
  | .error .want :: io => some (.wantRead, io)
  | .error .isr :: io => receiveData sz io
  | .error _ :: io => some (.failed, io)

def ioSize : List Received → Nat
  | [] => 0
  | .chunk bs :: io => bs.length + 1 + ioSize io
  | _ :: io => 1 + ioSize io

theorem ioSize_receiveData {sz : UInt32} (hsz : sz ≠ 0) {io io' : List Received} {r : Recvd}
    (h : receiveData sz io = some (r, io')) : ioSize io' < ioSize io := by
  have hpos : 0 < sz.toNat := Word32.toNat_pos.mp hsz
  induction io with
  | nil => simp [receiveData] at h
  | cons a io ih =>
    cases a with
    | chunk bs =>
      simp only [receiveData, Option.some.injEq, Prod.mk.injEq] at h
      obtain ⟨-, rfl⟩ := h
      split
      · simp only [ioSize]
        omega
      · simp only [ioSize, List.length_drop]
        omega
    | count n bs =>
      simp only [receiveData, Option.some.injEq, Prod.mk.injEq] at h
      obtain ⟨-, rfl⟩ := h
      simp only [ioSize]
      omega
    | error e =>
      cases e with
      | isr =>
        have hlt := ih h
        simp only [ioSize]
        omega
      | _ =>
        simp only [receiveData, Option.some.injEq, Prod.mk.injEq] at h
        obtain ⟨-, rfl⟩ := h
        simp only [ioSize]
        omega

/-- `n` octets of `bs` have come in behind `length`, for a request of `size`. -/
def Buf.received (b : Buf) (size n : UInt32) (bs : Bytes) : Option Buf :=
  (write b.buffer b.length.toNat bs).map fun buffer =>
    { (b.counted size n).sized (b.length + n) (b.length.toNat + n.toNat) with
      buffer, length := b.length + n
      queue := b.queue ++ (buffer.drop b.length.toNat).take n.toNat }

/-- The loop of `GetInputData`. -/
def readLoop (size : UInt32) (io : List Received) (b : Buf) : Option (Ret × Buf × List Received) :=
  if _hsize : size = 0 then
    some (.success, b, io)
  else
    match _h : receiveData size io with
    | none => some (.pending, b, io)
    | some (.wantRead, io) => some (.failed .wantRead, b, io)
    | some (.failed, io) => some (.failed .socketErrorE, b, io)
    | some (.got n bs, io') => do
      let b ← b.received size n bs
      readLoop (size - n) io' (b.sized (size - n) (size.toNat - n.toNat))
termination_by ioSize io
decreasing_by exact ioSize_receiveData _hsize _h

def getInputData (alloc : Alloc) (size : UInt32) (io : List Received) (b : Buf) :
    Option (Ret × Buf × List Received) :=
  let haveDataSz := b.length - b.idx
  let b := b.sized haveDataSz (b.length.toNat - b.idx.toNat)
  if haveDataSz ≥ size then
    some (.success, b, io)
  else
    let size' := size - haveDataSz
    let b := b.sized size' (size.toNat - haveDataSz.toNat)
    do
      let (ret, b) ← growBuffer alloc size' b
      if ret = .success then readLoop size' io b else return (ret, b, io)

/-- The start of the terminator: the LF, or a CR before it. -/
def endOfLine (buffer : Bytes) (lf : Nat) : Nat :=
  if 0 < lf ∧ buffer.getD (lf - 1) 0 = 0x0d then lf - 1 else lf

theorem sub_ne_zero {a b : UInt32} (h : ¬ b ≥ a) : a - b ≠ 0 := by
  have hlt : b.toNat < a.toNat := by
    rw [ge_iff_le, UInt32.le_iff_toNat_le] at h
    omega
  rw [Word32.toNat_pos, Word32.toNat_sub (Nat.le_of_lt hlt)]
  omega

/-- The loop of `GetInputLine`, with the start of the terminator where there is a line. -/
def lineLoop (alloc : Alloc) (io : List Received) (b : Buf) :
    Option (Except Ret Nat × Buf × List Received) := do
  let line ← read b.buffer 0 b.length
  match wstrnstr line [0x0a] with
  | some lf => return (.ok (endOfLine b.buffer lf), b, io)
  | none =>
    if _hlen : b.length ≥ protoIdLimit then
      return (.error (.failed .versionE), b, io)
    else
      let inSz := protoIdLimit - b.length
      let b := b.sized inSz (protoIdLimit.toNat - b.length.toNat)
      let (ret, b) ← growBuffer alloc inSz b
      if ret ≠ .success then
        return (.error (.failed .memoryE), b, io)
      else
        match _h : receiveData inSz io with
        | none => return (.error .pending, b, io)
        | some (.wantRead, io) => return (.error (.failed .wantRead), b, io)
        | some (.failed, io) => return (.error (.failed .socketErrorE), b, io)
        | some (.got n bs, io') =>
          if n = 0 then
            return (.error (.failed .socketErrorE), b, io')
          else if n > inSz then
            let buffer ← write b.buffer b.length.toNat bs
            return (.error .recvOverflowE, { b.counted inSz n with buffer }, io')
          else
            let b ← b.received inSz n bs
            lineLoop alloc io' b
termination_by ioSize io
decreasing_by exact ioSize_receiveData (sub_ne_zero _hlen) _h

def getInputLine (alloc : Alloc) (io : List Received) (b : Buf) :
    Option (Except Ret Nat × Buf × List Received) := do
  let (ret, b) ← growBuffer alloc 0 b
  if ret = .success then lineLoop alloc io b else return (.error (.failed .memoryE), b, io)

inductive Sent where
  | count (n : UInt32)
  | error (e : CbioErr)
deriving DecidableEq, Repr

/-- `SendPacketFlush`. A general error gives up what is in the buffer. -/
def sendPacketFlush : List Sent → Buf → Option (Ret × Buf)
  | io, b =>
    if b.length > b.idx then
      if b.length > b.bufferSz ∨ b.length < b.idx then
        return (.failed .bufferE, b)
      else
        match io with
        | [] => return (.pending, b)
        | .error .want :: _ => return (.failed .wantWrite, b)
        | .error .isr :: io => sendPacketFlush io b
        | .error .general :: _ => do
          let b ← shrinkBuffer true b
          return (.failed .socketErrorE, b)
        | .error _ :: _ => return (.failed .socketErrorE, b)
        | .count n :: io => do
          let _ ← read b.buffer b.idx (b.length - b.idx)
          let b := b.counted (b.length - b.idx) n
          if n > b.length then
            return (.sendOobReadE, b)
          else
            let idx := b.idx + n
            sendPacketFlush io { b.sized idx (b.idx.toNat + n.toNat) with
              idx, queue := b.queue.drop n.toNat }
    else do
      let b ← shrinkBuffer false b
      return (.success, b)

end WolfSsh.WordBuffer
