import WolfSsh.SftpServer

/-! The entries of a NAME packet: their attributes and long names as the server makes them, and the
reader of wolfSSH_SFTP_DoName. -/

namespace WolfSsh.Sftp

deriving instance DecidableEq for NameEntry

/-- The fields of `struct stat` that are listed, each as its bit pattern. -/
structure Stat where
  size : Nat
  uid : Nat
  gid : Nat
  mode : Nat
  atime : Nat
  mtime : Nat

def getAttributesHelper (s : Stat) : FileAtrb where
  flags := fileatrbSize ||| fileatrbUidgid ||| fileatrbPerm ||| fileatrbTime
  sz0 := s.size % 2 ^ 32
  sz1 := s.size / 2 ^ 32 % 2 ^ 32
  uid := s.uid % 2 ^ 32
  gid := s.gid % 2 ^ 32
  per := s.mode % 2 ^ 32
  atime := s.atime % 2 ^ 32
  mtime := s.mtime % 2 ^ 32

/-- The fields of `struct tm` that are listed. -/
structure Tm where
  mon : Fin 12
  mday : Nat
  hour : Nat
  min : Nat

/-- `%*lld` and the like: the text right-aligned in `width` columns. -/
def padLeft (fill : UInt8) (width : Nat) (text : Bytes) : Bytes :=
  List.replicate (width - text.length) fill ++ text

def space : UInt8 := 0x20
def digitZero : UInt8 := 0x30

def decimal (n : Nat) : Bytes := ascii (toString n)

/-- `%lld` of a 64-bit pattern. -/
def decimalSigned (n : Nat) : Bytes :=
  if n < 2 ^ 63 then decimal n else ascii "-" ++ decimal (2 ^ 64 - n)

def months : List Bytes :=
  [ascii "Jan ", ascii "Feb ", ascii "Mar ", ascii "Apr ", ascii "May ", ascii "Jun ",
    ascii "Jul ", ascii "Aug ", ascii "Sep ", ascii "Oct ", ascii "Nov ", ascii "Dec "]

def wsDateSize : Nat := 13

/-- The month, then what of `"%2d %02d:%02d "` fits behind it. -/
def getDate (t : Tm) : Bytes :=
  months.getD t.mon [] ++
    (padLeft space 2 (decimal t.mday) ++ [space] ++ padLeft digitZero 2 (decimal t.hour) ++
      ascii ":" ++ padLeft digitZero 2 (decimal t.min) ++ [space]).take 9

def perLink : Nat := 0xA000

def permBit (per bit : Nat) (letter : String) : Bytes :=
  if per &&& bit ≠ 0 then ascii letter else ascii "-"

def permText (atr : FileAtrb) : Bytes :=
  if atr.has fileatrbPerm then
    (if atr.per &&& perMaskType = perDir then ascii "d"
      else if atr.per &&& perMaskType = perLink then ascii "l" else ascii "-") ++
    permBit atr.per 0x100 "r" ++ permBit atr.per 0x80 "w" ++ permBit atr.per 0x40 "x" ++
    permBit atr.per 0x20 "r" ++ permBit atr.per 0x10 "w" ++ permBit atr.per 0x8 "x" ++
    permBit atr.per 0x4 "r" ++ permBit atr.per 0x2 "w" ++ permBit atr.per 0x1 "x"
  else ascii "----------"

/-- `sizeStr`, cut at the end of its buffer. -/
def sizeText (atr : FileAtrb) : Bytes :=
  (padLeft space 8 (decimalSigned (atr.sz1 * 2 ^ 32 + atr.sz0))).take 30

/-- SFTP_CreateLongName where the allocation succeeds: `totalSz` octets of the formatted text. -/
def longName (t : Tm) (name : Bytes) (atr : FileAtrb) : Bytes :=
  (permText atr ++ ascii "   ? " ++ padLeft space 10 (decimal atr.uid) ++ [space] ++
    padLeft space 10 (decimal atr.gid) ++ [space] ++ sizeText atr ++ [space] ++ getDate t ++
    cstr name).take (wsDateSize + 10 + name.length + 7 + 21 + (sizeText atr).length)

theorem length_longName (t : Tm) (name : Bytes) (atr : FileAtrb) :
    (longName t name atr).length ≤ name.length + 81 := by
  have hsize : (sizeText atr).length ≤ 30 := List.length_take_le _ _
  have hlen : (longName t name atr).length ≤
      wsDateSize + 10 + name.length + 7 + 21 + (sizeText atr).length := List.length_take_le _ _
  rw [wsDateSize] at hlen
  omega

/-! What wolfSSH_SFTP_DoName makes of the body of a NAME packet. -/

/-- The loop over `count` entries; each is pushed onto the front of `n`. -/
def doNameEntries (buf : Bytes) : Nat → List NameEntry → Reader (List NameEntry)
  | 0, n => pure n
  | count + 1, n => do
    let fName ← getStringRef buf
    let lName ← getStringRef buf
    let atrb ← parseAttributesBuffer buf
    doNameEntries buf count (⟨fName, lName, atrb⟩ :: n)

def doNameBody (buf : Bytes) : Reader (List NameEntry) := do
  let count ← getUint32 buf
  doNameEntries buf count []

/-- The entries of a body, if it could be read to their end. -/
def nameList (body : Bytes) : Option (List NameEntry) :=
  match (doNameBody body).runAt 0 with
  | (.ok n, _) => some n
  | (.error _, _) => none

/-- The entries as they stand in the packet. -/
def nameEntryBytes (e : NameEntry) : Bytes :=
  copyString e.fName ++ (copyString e.lName ++ setAttributes e.atrb)

/-- A word that is sent where its flag is set, and is zero elsewhere. -/
def Word (present : Bool) (n : Nat) : Prop := n < 2 ^ 32 ∧ (present = false → n = 0)

/-- Attributes that the packet format can carry. -/
structure FileAtrb.Carried (a : FileAtrb) : Prop where
  flags : a.flags < 2 ^ 32
  sz1 : Word (a.has fileatrbSize) a.sz1
  sz0 : Word (a.has fileatrbSize) a.sz0
  uid : Word (a.has fileatrbUidgid) a.uid
  gid : Word (a.has fileatrbUidgid) a.gid
  per : Word (a.has fileatrbPerm) a.per
  atime : Word (a.has fileatrbTime) a.atime
  mtime : Word (a.has fileatrbTime) a.mtime
  extCount : a.extCount = 0

/-- An entry as a server makes it from a directory that names its files in 255 octets. -/
structure NameEntry.Carried (e : NameEntry) : Prop where
  fName : e.fName.length < 256
  lName : e.lName.length < 512
  atrb : e.atrb.Carried

theorem carried_none : FileAtrb.Carried {} := by
  constructor <;> simp [Word]

theorem carried_helper (s : Stat) : (getAttributesHelper s).Carried := by
  have hword {present : Bool} (hpresent : present = true) (n : Nat) : Word present (n % 2 ^ 32) :=
    ⟨Nat.mod_lt _ (by decide), fun h => by simp [hpresent] at h⟩
  have hflags : (getAttributesHelper s).flags = 15 := by
    simp only [getAttributesHelper]
    decide
  have hhas (bit : Nat) (hbit : (15 &&& bit != 0) = true) : (getAttributesHelper s).has bit = true := by
    rw [FileAtrb.has, hflags, hbit]
  have hsize := hhas fileatrbSize (by decide)
  have huidgid := hhas fileatrbUidgid (by decide)
  have htime := hhas fileatrbTime (by decide)
  exact ⟨by omega, hword hsize _, hword hsize _, hword huidgid _, hword huidgid _,
    hword (hhas fileatrbPerm (by decide)) _, hword htime _, hword htime _, rfl⟩

theorem decodes_when32 {present : Bool} {n : Nat} (h : Word present n) :
    Decodes (fun buf => when32 buf present) (if present then c32toa n else []) n := by
  cases present with
  | true => exact decodes_uint32 h.1
  | false =>
    rw [h.2 rfl]
    exact Decodes.pure 0

theorem ite_append {p : Bool} {a b : Bytes} :
    (if p then a ++ b else []) = (if p then a else []) ++ if p then b else [] := by
  cases p <;> rfl

theorem decodes_attributes {a : FileAtrb} (h : a.Carried) :
    Decodes parseAttributesBuffer (setAttributes a) a := by
  have hext : Word (a.has fileatrbExt) 0 := ⟨by decide, fun _ => rfl⟩
  have hpieces : setAttributes a = c32toa a.flags ++
      ((if a.has fileatrbSize then c32toa a.sz1 else []) ++
      ((if a.has fileatrbSize then c32toa a.sz0 else []) ++
      ((if a.has fileatrbUidgid then c32toa a.uid else []) ++
      ((if a.has fileatrbUidgid then c32toa a.gid else []) ++
      ((if a.has fileatrbPerm then c32toa a.per else []) ++
      ((if a.has fileatrbTime then c32toa a.atime else []) ++
      ((if a.has fileatrbTime then c32toa a.mtime else []) ++
      ((if a.has fileatrbExt then c32toa 0 else []) ++ []))))))))  := by
    rw [setAttributes, ite_append, ite_append, ite_append]
    simp only [List.append_assoc, List.append_nil]
  rw [hpieces]
  unfold parseAttributesBuffer
  refine (decodes_uint32 h.flags).bind ?_
  refine (decodes_when32 h.sz1).bind ?_
  refine (decodes_when32 h.sz0).bind ?_
  refine (decodes_when32 h.uid).bind ?_
  refine (decodes_when32 h.gid).bind ?_
  refine (decodes_when32 h.per).bind ?_
  refine (decodes_when32 h.atime).bind ?_
  refine (decodes_when32 h.mtime).bind ?_
  refine (decodes_when32 hext).bind ?_
  have hdone := Decodes.pure a
  rw [← show ({ a with extCount := 0 } : FileAtrb) = a by rw [← h.extCount]] at hdone ⊢
  exact hdone

theorem decodes_entries {list : List NameEntry} (h : ∀ e ∈ list, e.Carried) (n : List NameEntry) :
    Decodes (fun buf => doNameEntries buf list.length n) (list.flatMap nameEntryBytes)
      (list.reverse ++ n) := by
  induction list generalizing n with
  | nil => exact Decodes.pure n
  | cons e es ih =>
    have he := h e List.mem_cons_self
    have hes := ih (fun x hx => h x (List.mem_cons_of_mem e hx)) (e :: n)
    rw [List.flatMap_cons, nameEntryBytes, List.append_assoc, List.append_assoc, List.reverse_cons,
      List.append_assoc]
    have hfName := he.fName
    have hlName := he.lName
    refine (decodes_string (by omega)).bind ?_
    refine (decodes_string (by omega)).bind ?_
    exact (decodes_attributes he.atrb).bind hes

def nameBody (list : List NameEntry) : Bytes :=
  c32toa list.length ++ list.flatMap nameEntryBytes

theorem sendName_eq (reqId : Nat) (list : List NameEntry) :
    sendName reqId list = setHeader reqId ftpName (nameBody list).length ++ nameBody list := by
  have hentry : nameEntryBytes = fun e => c32toa e.fName.length ++ (e.fName ++
      (c32toa e.lName.length ++ (e.lName ++ setAttributes e.atrb))) := by
    funext e
    simp only [nameEntryBytes, copyString, List.append_assoc]
  simp only [sendName, nameBody, hentry, List.length_append, c32toa_length, List.append_assoc]

theorem setAttributes_length (atr : FileAtrb) : (setAttributes atr).length < 64 := by
  rw [setAttributes]
  simp only [List.length_append, c32toa_length]
  repeat' split
  all_goals simp

theorem nameBody_length {list : List NameEntry} (h : ∀ e ∈ list, e.Carried) :
    (nameBody list).length ≤ 4 + 1024 * list.length := by
  have hentries : (list.flatMap nameEntryBytes).length ≤ 1024 * list.length := by
    induction list with
    | nil => simp
    | cons e es ih =>
      have he := h e List.mem_cons_self
      have hes := ih fun x hx => h x (List.mem_cons_of_mem e hx)
      have hfName := he.fName
      have hlName := he.lName
      have hatrb := setAttributes_length e.atrb
      have hentry : (nameEntryBytes e).length ≤ 1024 := by
        simp only [nameEntryBytes, copyString, List.length_append, c32toa_length]
        omega
      rw [List.flatMap_cons, List.length_append, List.length_cons]
      omega
  rw [nameBody, List.length_append, c32toa_length]
  omega

theorem nameList_nameBody {list : List NameEntry} (hlen : list.length < 2 ^ 32)
    (h : ∀ e ∈ list, e.Carried) : nameList (nameBody list) = some list.reverse := by
  have hall : Decodes doNameBody (nameBody list) list.reverse := by
    have hentries := decodes_entries h []
    rw [List.append_nil] at hentries
    exact (decodes_uint32 hlen).bind hentries
  have hrun := hall (nameBody list) 0 [] (by rw [Rest, List.drop_zero, List.append_nil])
  rw [nameList, hrun]

end WolfSsh.Sftp
