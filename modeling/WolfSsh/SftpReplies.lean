import WolfSsh.SftpRead
import WolfSsh.SftpNames

/-! The requests that the handlers of the SFTP server answer, and the replies they load for them. -/

namespace WolfSsh.Sftp

open Calls

/-- A whole packet: the header declares the length of the rest and carries the request id. -/
def Packet (type reqId : Nat) (out : Bytes) : Prop :=
  ∃ body : Bytes, out = setHeader reqId type body.length ++ body ∧ body.length + 5 < 2 ^ 32

/-- The file system and the heap as the server's handlers may take them to be: memory is there, and
no name is longer than a directory entry can hold. -/
structure Posix (env : Env) : Prop where
  memory : ∀ h sz, env h (.malloc sz) = true
  entries : ∀ h dir name, env h (.readdir dir) = .entry name → name.length < 2 ^ 16
  longNames : ∀ h name atr s, env h (.longName name atr) = some s → s.length < 2 ^ 16

/-- The program loads a packet for the request, a status where it fails. -/
def Replies (env : Env) (reqId : Nat) (m : Sys Outcome) (h : List Event) : Prop :=
  ∃ type out, (m.run env h).1.toSend = some out ∧ Packet type reqId out ∧
    ((m.run env h).1.ret ≠ .success → type = ftpStatus)

/-! When a handler has something to answer: what it has to find in the request's body, and where it
looks at the session. -/

/-- The body starts with a string, and what follows it meets `p`. -/
def WithString (data : Bytes) (p : Bytes → Nat → Prop) : Prop :=
  match (getStringRef data).runAt 0 with
  | (.ok str, idx) => p str idx
  | (.error _, _) => False

/-- The path is cleaned and then `p`, or it is refused with a status. -/
def WithPath (b : Build) (env : Env) (ssh : Session) (h : List Event) (str : Bytes) (p : Prop) :
    Prop :=
  match ((getAndCleanPath b ssh str).run env h).1 with
  | .ok _ => p
  | .error .permissions => True
  | .error _ => False

def Reads {α : Type} (r : Reader α) (idx : Nat) : Prop := ∃ a, (r.runAt idx).1 = .ok a

def openTail (data : Bytes) : Reader FileAtrb := do
  let _ ← getUint32 data
  parseAttributesBuffer data

/-- What follows the handle of a READ, up to the length it asks for. -/
def readTail (data : Bytes) : Reader Nat := do
  let _ ← getUint32 data
  let _ ← getUint32 data
  getUint32 data

def writeTail (data : Bytes) : Reader Bytes := do
  let _ ← getUint32 data
  let _ ← getUint32 data
  getStringRef data

/-- The start path, taken from the working directory the first time. -/
def startDir (env : Env) (ssh : Session) (h : List Event) : Option Bytes :=
  ((startPath ssh).run env h).1.1.sftpDefaultPath

def Answerable (b : Build) (env : Env) (ssh : Session) (h : List Event) (r : Request) : Prop :=
  match r.type.toNat with
  | 3 => WithString r.data fun str idx => WithPath b env ssh h str
      (handleCapped ssh.fileList.length = true ∨ Reads (openTail r.data) idx)
  | 4 => uint32Sz ≤ r.data.length ∧ ato32 r.data + uint32Sz ≤ r.data.length ∧
      ato32 r.data ≤ maxHandle
  | 5 => WithString r.data fun handle idx => fileOfHandle ssh handle = none ∨
      ∃ strSz, ((readTail r.data).runAt idx).1 = .ok strSz ∧ strSz ≤ maxSftpRw
  | 6 => ¬ WithString r.data fun handle idx => fileOfHandle ssh handle ≠ none ∧
      ¬ Reads (writeTail r.data) idx
  | 8 => WithString r.data fun handle _ => fileOfHandle ssh handle ≠ none
  | 11 => WithString r.data fun str _ => WithPath b env ssh h str True
  | 12 => ∃ idx, (getSize r.data).runAt 0 = (.ok handleIdSz, idx) ∧
      findDirHandle ssh (handleIdDecode (r.data.drop idx)) ≠ none
  | 13 => WithString r.data fun str _ => str.length ≤ maxFilename
  | 14 => WithString r.data fun str idx => WithPath b env ssh h str
      (Reads (parseAttributesBuffer r.data) idx)
  | 16 => WithString r.data fun str _ => str.length < maxFilename ∧
      ∀ d, startDir env ssh h = some d → ∃ s, realPath (some d) (cstr str) maxFilename = .ok s
  | 7 | 9 | 10 | 15 | 17 => WithString r.data fun _ _ => True
  | _ => True

/-! The replies. -/

section Replies

variable {env : Env} {reqId : Nat} {h : List Event} {ssh : Session} {α : Type}

theorem replies_ret {r : Outcome} {type : Nat} {out : Bytes} (hout : r.toSend = some out)
    (hpacket : Packet type reqId out) (hret : r.ret ≠ .success → type = ftpStatus) :
    Replies env reqId (pure r) h := ⟨type, out, hout, hpacket, hret⟩

theorem replies_success {r : Outcome} {type : Nat} {out : Bytes} (hout : r.toSend = some out)
    (hpacket : Packet type reqId out) (hret : r.ret = .success) : Replies env reqId (pure r) h :=
  replies_ret hout hpacket fun herror => absurd hret herror

theorem replies_bind {m : Sys α} {f : α → Sys Outcome}
    (hf : Replies env reqId (f (m.run env h).1) (m.run env h).2) : Replies env reqId (m >>= f) h := by
  obtain ⟨type, out, hout, hpacket, hret⟩ := hf
  rw [Replies, run_bind]
  exact ⟨type, out, hout, hpacket, hret⟩

theorem replies_any {m : Sys α} {f : α → Sys Outcome}
    (hf : ∀ a h', Replies env reqId (f a) h') : Replies env reqId (m >>= f) h :=
  replies_bind (hf _ _)

theorem replies_ite {p : Prop} [Decidable p] {m n : Sys Outcome} (hm : Replies env reqId m h)
    (hn : Replies env reqId n h) : Replies env reqId (if p then m else n) h := by
  split
  · exact hm
  · exact hn

theorem replies_then {m : Sys Outcome} {k : Sys α} (hm : Replies env reqId m h) :
    Replies env reqId (m >>= fun r => k >>= fun _ => pure r) h := by
  obtain ⟨type, out, hout, hpacket, hret⟩ := hm
  apply replies_bind
  apply replies_any
  intro a h'
  exact replies_ret hout hpacket hret

theorem run_wmalloc (henv : Posix env) (sz : Nat) (h : List Event) :
    ((wmalloc sz).run env h).1 = true := henv.memory h sz

theorem packet_header {type : Nat} {body : Bytes} (hlen : body.length + 5 < 2 ^ 32) :
    Packet type reqId (setHeader reqId type body.length ++ body) := ⟨body, rfl, hlen⟩

theorem packet_status {status : Nat} {msg : Bytes} (hmsg : msg.length < 256) :
    Packet ftpStatus reqId (createStatus status reqId msg) := by
  have henglish : english.length = 7 := by decide
  let body := c32toa status ++ (c32toa msg.length ++ (msg ++ (c32toa english.length ++ english)))
  have hlen : body.length = 12 + msg.length + english.length := by
    simp only [body, List.length_append, c32toa_length]
    omega
  refine ⟨body, ?_, ?_⟩
  · rw [createStatus, hlen]
    simp [body, List.append_assoc]
  · omega

theorem packet_create {type : Nat} {data : Bytes} (hlen : data.length < 2 ^ 31) :
    Packet type reqId (createPacket reqId type data) := by
  refine ⟨c32toa data.length ++ data, ?_, ?_⟩
  · rw [createPacket, List.length_append, c32toa_length, List.append_assoc]
  · rw [List.length_append, c32toa_length]
    omega

theorem replies_status (henv : Posix env) {msg : Bytes} (hmsg : msg.length < 256) (status : Nat)
    (ret : Code) : Replies env reqId (sendStatus ssh status reqId msg ret) h := by
  rw [sendStatus]
  apply replies_bind
  rw [run_wmalloc henv, if_pos rfl]
  exact replies_ret rfl (packet_status hmsg) fun _ => rfl

theorem replies_attrs (henv : Posix env) (atr : FileAtrb) :
    Replies env reqId (sendAttrs ssh reqId atr) h := by
  rw [sendAttrs]
  apply replies_bind
  rw [run_wmalloc henv, if_pos rfl]
  have hlen := setAttributes_length atr
  exact replies_success rfl (packet_header (by omega)) rfl

/-! What a handler finds in a request's body. -/

theorem WithString.found {data : Bytes} {p : Bytes → Nat → Prop} (hp : WithString data p) :
    ∃ str idx, (getStringRef data).runAt 0 = (.ok str, idx) ∧ p str idx := by
  rw [WithString] at hp
  rcases hget : (getStringRef data).runAt 0 with ⟨e | str, idx⟩
  · rw [hget] at hp
    exact hp.elim
  · rw [hget] at hp
    exact ⟨str, idx, rfl, hp⟩

/-- A path is cleaned, or it is refused; only the refusal of a path outside the jail has its answer
in every handler. -/
theorem replies_path {b : Build} {str : Bytes} {p : Prop} {f : Except PathErr Bytes → Sys Outcome}
    (hp : WithPath b env ssh h str p) (hperm : ∀ h', Replies env reqId (f (.error .permissions)) h')
    (hok : p → ∀ path h', Replies env reqId (f (.ok path)) h') :
    Replies env reqId (getAndCleanPath b ssh str >>= f) h := by
  apply replies_bind
  rw [WithPath] at hp
  cases hpath : ((getAndCleanPath b ssh str).run env h).1 with
  | ok path =>
    rw [hpath] at hp
    exact hok hp path _
  | error e =>
    rw [hpath] at hp
    cases e with
    | permissions => exact hperm _
    | badArgument | bufferE | invalidPathE => exact hp.elim

theorem reads_bind {β γ : Type} {r : Reader β} {f : β → Reader γ} {idx : Nat}
    (hr : Reads (r >>= f) idx) : ∃ a i, r.runAt idx = (.ok a, i) ∧ Reads (f a) i := by
  obtain ⟨c, hc⟩ := hr
  rw [Fallible.runAt_bind] at hc
  rcases hrun : r.runAt idx with ⟨e | a, i⟩
  · rw [hrun] at hc
    cases hc
  · rw [hrun] at hc
    exact ⟨a, i, rfl, c, hc⟩

theorem Reads.ran {β : Type} {r : Reader β} {idx : Nat} (hr : Reads r idx) :
    ∃ a i, r.runAt idx = (.ok a, i) := by
  obtain ⟨a, ha⟩ := hr
  rcases hrun : r.runAt idx with ⟨e | a', i⟩
  · rw [hrun] at ha
    cases ha
  · exact ⟨a', i, rfl⟩

theorem offset_reads {β : Type} {data : Bytes} {r : Reader β} {idx : Nat} {a : β}
    (h : ((do let _ ← getUint32 data; let _ ← getUint32 data; r : Reader β).runAt idx).1 = .ok a) :
    ∃ ofst1 i ofst0 j k, (getUint32 data).runAt idx = (.ok ofst1, i) ∧
      (getUint32 data).runAt i = (.ok ofst0, j) ∧ r.runAt j = (.ok a, k) := by
  rw [Fallible.runAt_bind] at h
  rcases hofst1 : (getUint32 data).runAt idx with ⟨e | ofst1, i⟩
  · simp [hofst1] at h
  rw [hofst1] at h
  dsimp only at h
  rw [Fallible.runAt_bind] at h
  rcases hofst0 : (getUint32 data).runAt i with ⟨e | ofst0, j⟩
  · simp [hofst0] at h
  rw [hofst0] at h
  rcases hr : r.runAt j with ⟨e | a', k⟩
  · simp [hr] at h
  · dsimp only at h
    rw [hr] at h
    obtain rfl := Except.ok.inj h
    exact ⟨ofst1, i, ofst0, j, k, rfl, hofst0, hr⟩

/-! The handlers. -/

theorem recvRMDIR_replies (henv : Posix env) {b : Build} {data : Bytes}
    (hstr : WithString data fun _ _ => True) : Replies env reqId (recvRMDIR b ssh reqId data) h := by
  obtain ⟨str, idx, hget, -⟩ := hstr.found
  rw [recvRMDIR, hget]
  apply replies_any
  intro path h'
  rcases path with e | dir
  · cases e <;> exact replies_status henv (by decide) _ _
  · apply replies_any
    intro removed h''
    cases removed <;> exact replies_status henv (by decide) _ _

theorem recvMKDIR_replies (henv : Posix env) {b : Build} {data : Bytes}
    (hstr : WithString data fun str idx => WithPath b env ssh h str
      (Reads (parseAttributesBuffer data) idx)) :
    Replies env reqId (recvMKDIR b ssh reqId data) h := by
  obtain ⟨str, idx, hget, hpath⟩ := hstr.found
  rw [recvMKDIR, hget]
  refine replies_path hpath (fun _ => replies_status henv (by decide) _ _) ?_
  intro hreads dir h'
  obtain ⟨atr, i, hatr⟩ := hreads.ran
  dsimp only
  rw [hatr]
  apply replies_any
  intro made h''
  cases made <;> exact replies_status henv (by decide) _ _

theorem recvStatWith_replies (henv : Posix env) {look : Bytes → Sys (Except Errno FileAtrb)}
    {ser : Bytes} (hser : ser.length < 256) {b : Build} {data : Bytes}
    (hstr : WithString data fun _ _ => True) :
    Replies env reqId (recvStatWith look ser b ssh reqId data) h := by
  obtain ⟨str, idx, hget, -⟩ := hstr.found
  rw [recvStatWith, hget]
  apply replies_any
  intro path h'
  rcases path with e | name
  · cases e with
    | permissions => exact replies_status henv (by decide) _ _
    | badArgument | bufferE | invalidPathE => exact replies_status henv hser _ _
  · apply replies_any
    intro found h''
    rcases found with errno | atr
    · exact replies_status henv hser _ _
    · exact replies_attrs henv atr

theorem recvFSTAT_replies (henv : Posix env) {data : Bytes}
    (hstr : WithString data fun handle _ => fileOfHandle ssh handle ≠ none) :
    Replies env reqId (recvFSTAT ssh reqId data) h := by
  obtain ⟨handle, idx, hget, hfile⟩ := hstr.found
  obtain ⟨cur, hcur⟩ := Option.ne_none_iff_exists'.mp hfile
  rw [recvFSTAT, hget]
  dsimp only
  rw [hcur]
  apply replies_any
  intro found h'
  rcases found with errno | atr
  · exact replies_status henv (by decide) _ _
  · exact replies_attrs henv atr

theorem setParsed_replies (henv : Posix env) (apply : FileAtrb → Sys Code) (data : Bytes) (idx : Nat) :
    Replies env reqId (setParsed apply ssh reqId data idx) h := by
  rw [setParsed]
  rcases (parseAttributesBuffer data).runAt idx with ⟨e | atr, i⟩
  · exact replies_status henv (by decide) _ _
  · apply replies_any
    intro ret h'
    cases ret <;> exact replies_status henv (by decide) _ _

theorem recvSetSTAT_replies (henv : Posix env) {b : Build} {data : Bytes}
    (hstr : WithString data fun _ _ => True) :
    Replies env reqId (recvSetSTAT b ssh reqId data) h := by
  obtain ⟨str, idx, hget, -⟩ := hstr.found
  rw [recvSetSTAT, hget]
  apply replies_any
  intro path h'
  rcases path with e | name
  · cases e <;> exact replies_status henv (by decide) _ _
  · exact setParsed_replies henv _ data idx

theorem recvFSetSTAT_replies (henv : Posix env) {b : Build} {data : Bytes}
    (hstr : WithString data fun _ _ => True) :
    Replies env reqId (recvFSetSTAT b ssh reqId data) h := by
  obtain ⟨handle, idx, hget, -⟩ := hstr.found
  rw [recvFSetSTAT, hget]
  dsimp only
  cases fileOfHandle ssh handle with
  | none => exact replies_status henv (by decide) _ _
  | some cur => exact setParsed_replies henv _ data idx

theorem recvRemove_replies (henv : Posix env) {b : Build} {data : Bytes}
    (hstr : WithString data fun str _ => str.length ≤ maxFilename) :
    Replies env reqId (recvRemove b ssh reqId data) h := by
  obtain ⟨str, idx, hget, hlen⟩ := hstr.found
  rw [recvRemove, hget]
  dsimp only
  rw [if_neg (Nat.not_lt.mpr hlen)]
  apply replies_any
  intro path h'
  rcases path with e | name
  · cases e <;> exact replies_status henv (by decide) _ _
  · apply replies_any
    intro found h''
    refine replies_ite (replies_status henv (by decide) _ _) ?_
    apply replies_any
    intro removed h₃
    rcases removed with errno | u <;> exact replies_status henv (by decide) _ _

theorem renameStatus_replies (henv : Posix env) (e : PathErr) :
    Replies env reqId (renameStatus ssh reqId e) h := by
  cases e <;> exact replies_status henv (by decide) _ _

theorem recvRename_replies (henv : Posix env) (b : Build) (data : Bytes) :
    Replies env reqId (recvRename b ssh reqId data) h := by
  rw [recvRename]
  rcases (getStringRef data).runAt 0 with ⟨e | str, idx⟩
  · exact renameStatus_replies henv _
  apply replies_any
  intro path h'
  rcases path with e | old
  · exact renameStatus_replies henv e
  dsimp only
  rcases (getStringRef data).runAt idx with ⟨e | str, i⟩
  · exact renameStatus_replies henv _
  apply replies_any
  intro path h''
  rcases path with e | name
  · exact renameStatus_replies henv e
  apply replies_any
  intro moved h₃
  rcases moved with errno | u <;> exact replies_status henv (by decide) _ _

theorem recvUnknown_replies (henv : Posix env) (data : Bytes) :
    Replies env reqId (recvUnknown ssh reqId data) h := by
  have hpacket : Packet ftpStatus reqId (createStatus ftpUnsupported reqId
      (ascii "Unknown/Unsupported packet type")) := packet_status (by decide)
  rw [recvUnknown]
  split
  · apply replies_bind
    rw [run_wmalloc henv, if_pos rfl]
    exact replies_ret rfl hpacket fun _ => rfl
  · exact replies_ret rfl hpacket fun _ => rfl

theorem packet_handle (id : HandleId) :
    Packet ftpHandle reqId (createPacket reqId ftpHandle (handleIdEncode id)) := by
  refine packet_create ?_
  rw [handleIdEncode, List.length_append, c32toa_length, c32toa_length]
  decide

theorem storeHandle_replies (henv : Posix env) (fd : Nat) (dir : Bytes) (reason : Nat) :
    Replies env reqId (storeHandle ssh reqId fd dir reason) h := by
  rw [storeHandle]
  apply replies_any
  rintro ⟨ssh', ret⟩ h'
  dsimp only
  split
  · apply replies_bind
    rw [run_wmalloc henv, if_pos rfl]
    exact replies_success rfl (packet_handle _) rfl
  · exact replies_then (replies_status henv (by decide) _ _)

theorem recvOpen_replies (henv : Posix env) {b : Build} {data : Bytes}
    (hstr : WithString data fun str idx => WithPath b env ssh h str
      (handleCapped ssh.fileList.length = true ∨ Reads (openTail data) idx)) :
    Replies env reqId (recvOpen b ssh reqId data) h := by
  obtain ⟨str, idx, hget, hpath⟩ := hstr.found
  rw [recvOpen, hget]
  refine replies_path hpath (fun _ => replies_status henv (by decide) _ _) ?_
  intro htail dir h'
  dsimp only
  by_cases hcap : handleCapped ssh.fileList.length = true
  · rw [if_pos hcap]
    exact replies_status henv (by decide) _ _
  rw [if_neg hcap]
  obtain ⟨reason, i, hreason, hatr⟩ := reads_bind (htail.resolve_left hcap)
  obtain ⟨atr, j, hatr⟩ := hatr.ran
  rw [hreason]
  dsimp only
  rw [hatr]
  apply replies_any
  intro found h''
  refine replies_ite (replies_status henv (by decide) _ _) ?_
  apply replies_any
  intro opened h₃
  rcases opened with errno | fd
  · exact replies_status henv (by decide) _ _
  · exact storeHandle_replies henv fd dir reason

theorem storeDir_replies (henv : Posix env) (dp : Nat) (dir : Bytes) :
    Replies env reqId (storeDir ssh reqId dp dir) h := by
  rw [storeDir]
  apply replies_bind
  rw [run_wmalloc henv]
  apply replies_bind
  rw [run_wmalloc henv]
  apply replies_bind
  rw [run_wmalloc henv]
  exact replies_success rfl (packet_handle _) rfl

theorem recvOpenDir_replies (henv : Posix env) {b : Build} {data : Bytes}
    (hstr : WithString data fun str _ => WithPath b env ssh h str True) :
    Replies env reqId (recvOpenDir b ssh reqId data) h := by
  obtain ⟨str, idx, hget, hpath⟩ := hstr.found
  rw [recvOpenDir, hget]
  refine replies_path hpath (fun _ => replies_status henv (by decide) _ _) ?_
  intro _ dir h'
  dsimp only
  by_cases hcap : handleCapped ssh.dirList.length = true
  · rw [if_pos hcap]
    exact replies_status henv (by decide) _ _
  rw [if_neg hcap]
  apply replies_any
  intro opened h''
  rcases opened with errno | dp
  · exact replies_status henv (by decide) _ _
  · exact storeDir_replies henv dp dir

theorem recvClose_replies (henv : Posix env) {data : Bytes}
    (hsz : uint32Sz ≤ data.length ∧ ato32 data + uint32Sz ≤ data.length ∧ ato32 data ≤ maxHandle) :
    Replies env reqId (recvClose ssh reqId data) h := by
  obtain ⟨hlen, hwhole, hmax⟩ := hsz
  rw [recvClose, if_neg (Nat.not_lt.mpr hlen)]
  dsimp only
  rw [if_neg (by omega)]
  by_cases hid : ato32 data ≠ handleIdSz
  · rw [if_pos hid]
    exact replies_status henv (by decide) _ _
  rw [if_neg hid]
  apply replies_any
  intro dir h'
  rcases dir with _ | ssh'
  · apply replies_any
    rintro ⟨ssh', closed⟩ h''
    cases closed <;> exact replies_status henv (by decide) _ _
  · exact replies_status henv (by decide) _ _

theorem readStatus_replies (henv : Posix env) {msg : Bytes} (hmsg : msg.length < 256) (status : Nat)
    (ret : Code) (allocSz : Nat) :
    Replies env reqId (readStatus ssh status reqId msg ret allocSz) h := by
  rw [readStatus]
  split
  · exact replies_status henv hmsg status ret
  · exact replies_ret rfl (packet_status hmsg) fun _ => rfl

theorem recvRead_replies (henv : Posix env) {data : Bytes}
    (hstr : WithString data fun handle idx => fileOfHandle ssh handle = none ∨
      ∃ strSz, ((readTail data).runAt idx).1 = .ok strSz ∧ strSz ≤ maxSftpRw) :
    Replies env reqId (recvRead ssh reqId data) h := by
  obtain ⟨handle, idx, hget, hfile⟩ := hstr.found
  rw [recvRead, hget]
  dsimp only
  cases hcur : fileOfHandle ssh handle with
  | none => exact replies_status henv (by decide) _ _
  | some cur =>
    rw [hcur] at hfile
    obtain ⟨strSz, htail, hsz⟩ := hfile.resolve_left (Option.some_ne_none cur)
    obtain ⟨ofst1, i, ofst0, j, k, hofst1, hofst0, hstrSz⟩ := offset_reads htail
    dsimp only
    rw [hofst1]
    dsimp only
    rw [hofst0]
    dsimp only
    rw [hstrSz]
    dsimp only
    rw [if_neg (Nat.not_lt.mpr hsz)]
    apply replies_bind
    rw [run_wmalloc henv, if_pos rfl]
    apply replies_any
    intro got h'
    split
    · exact readStatus_replies henv (by decide) _ _ _
    · exact readStatus_replies henv (by decide) _ _ _
    · split
      · exact readStatus_replies henv (by decide) _ _ _
      · rename_i hlen
        rw [maxSftpRw] at hsz
        exact replies_success rfl (packet_create (by omega)) rfl

theorem recvWrite_replies (henv : Posix env) {data : Bytes}
    (hstr : ¬ WithString data fun handle idx => fileOfHandle ssh handle ≠ none ∧
      ¬ Reads (writeTail data) idx) :
    Replies env reqId (recvWrite ssh reqId data) h := by
  rw [WithString] at hstr
  rw [recvWrite]
  rcases hget : (getStringRef data).runAt 0 with ⟨e | handle, idx⟩
  · exact replies_status henv (by decide) _ _
  rw [hget] at hstr
  dsimp only at hstr ⊢
  cases hcur : fileOfHandle ssh handle with
  | none => exact replies_status henv (by decide) _ _
  | some cur =>
    rw [hcur] at hstr
    have hreads : Reads (writeTail data) idx := by
      by_contra hno
      exact hstr ⟨Option.some_ne_none cur, hno⟩
    obtain ⟨str, htail⟩ := hreads
    obtain ⟨ofst1, i, ofst0, j, k, hofst1, hofst0, hstr⟩ := offset_reads htail
    dsimp only
    rw [hofst1]
    dsimp only
    rw [hofst0]
    dsimp only
    rw [hstr]
    apply replies_any
    rintro ⟨ret, written⟩ h'
    dsimp only
    split
    · exact replies_status henv (by decide) _ _
    · exact replies_status henv (by decide) _ _

/-! The packets with names. -/

/-- An entry whose names a directory entry can hold. -/
def NameEntry.Short (e : NameEntry) : Prop := e.fName.length < 2 ^ 16 ∧ e.lName.length < 2 ^ 16

theorem packet_names {list : List NameEntry} (hsize : list.length ≤ maxSftpReaddir)
    (hshort : ∀ e ∈ list, e.Short) : Packet ftpName reqId (sendName reqId list) := by
  have hentries : (list.flatMap nameEntryBytes).length ≤ 2 ^ 18 * list.length := by
    clear hsize
    induction list with
    | nil => simp
    | cons e es ih =>
      have hes := ih fun x hx => hshort x (List.mem_cons_of_mem e hx)
      obtain ⟨hfName, hlName⟩ := hshort e List.mem_cons_self
      have hatrb := setAttributes_length e.atrb
      have hentry : (nameEntryBytes e).length ≤ 2 ^ 18 := by
        simp only [nameEntryBytes, copyString, List.length_append, c32toa_length]
        omega
      rw [List.flatMap_cons, List.length_append, List.length_cons]
      omega
  rw [sendName_eq]
  refine packet_header ?_
  rw [nameBody, List.length_append, c32toa_length]
  rw [maxSftpReaddir] at hsize
  omega

theorem sftpnameReaddir_short (henv : Posix env) (dir : Nat) (dirName : Bytes) {e : NameEntry}
    (he : ((sftpnameReaddir ssh dir dirName).run env h).1 = .entry e) : e.Short := by
  rw [sftpnameReaddir, run_bind] at he
  cases hread : ((wreaddir dir).run env h).1 with
  | done =>
    rw [hread] at he
    cases he
  | failed =>
    rw [hread] at he
    cases he
  | entry name =>
    rw [hread] at he
    dsimp only at he
    rw [run_bind, run_wmalloc henv, if_pos rfl, run_bind, run_bind] at he
    split at he
    · rename_i lName hlong
      obtain rfl := EntryRead.entry.inj he
      exact ⟨henv.entries _ _ _ hread, henv.longNames _ _ _ _ hlong⟩
    · cases he

theorem readEntries_short (henv : Posix env) (dir : Nat) (dirName : Bytes) {n : Nat}
    {list : List NameEntry} (hlist : ∀ e ∈ list, e.Short) {h : List Event} :
    (((readEntries ssh dir dirName n list).run env h).1.2.2).length ≤ n + list.length ∧
      ∀ e ∈ ((readEntries ssh dir dirName n list).run env h).1.2.2, e.Short := by
  induction n generalizing list h with
  | zero =>
    refine ⟨?_, hlist⟩
    rw [Nat.zero_add]
    exact Nat.le_refl list.length
  | succ n ih =>
    rw [readEntries, run_bind, run_wmalloc henv, if_pos rfl, run_bind]
    cases hread : ((sftpnameReaddir ssh dir dirName).run env ((wmalloc 64).run env h).2).1 with
    | eof => exact ⟨Nat.le_add_left _ _, hlist⟩
    | failed ret => exact ⟨Nat.le_add_left _ _, hlist⟩
    | entry name =>
      obtain ⟨hlen, hshort⟩ := @ih (name :: list)
        (List.forall_mem_cons.mpr ⟨sftpnameReaddir_short henv dir dirName hread, hlist⟩)
        ((sftpnameReaddir ssh dir dirName).run env ((wmalloc 64).run env h).2).2
      rw [List.length_cons] at hlen
      exact ⟨Nat.le_trans hlen (by omega), hshort⟩

theorem readDirReply_replies (henv : Posix env) (ret : Code) {list : List NameEntry}
    (hsize : list.length ≤ maxSftpReaddir) (hshort : ∀ e ∈ list, e.Short) :
    Replies env reqId (readDirReply ssh reqId ret list) h := by
  rw [readDirReply]
  split
  · split
    · exact replies_status henv (by decide) _ _
    · apply replies_bind
      rw [run_wmalloc henv, if_pos rfl]
      exact replies_success rfl (packet_names hsize hshort) rfl
  · exact replies_status henv (by decide) _ _

theorem recvReadDir_replies (henv : Posix env) {data : Bytes}
    (hdir : ∃ idx, (getSize data).runAt 0 = (.ok handleIdSz, idx) ∧
      findDirHandle ssh (handleIdDecode (data.drop idx)) ≠ none) :
    Replies env reqId (recvReadDir ssh reqId data) h := by
  obtain ⟨idx, hget, hdir⟩ := hdir
  obtain ⟨cur, hcur⟩ := Option.ne_none_iff_exists'.mp hdir
  rw [recvReadDir, hget]
  dsimp only
  rw [if_neg (by decide), if_neg (by decide), hcur]
  dsimp only
  split
  · exact readDirReply_replies henv _ (Nat.zero_le _) (List.forall_mem_nil _)
  · apply replies_bind
    obtain ⟨hlen, hshort⟩ := @readEntries_short env ssh henv cur.dir cur.dirName maxSftpReaddir []
      (List.forall_mem_nil _) h
    exact readDirReply_replies henv _ hlen hshort

theorem resolveSeg_length {outSz : Nat} {out seg s : Bytes}
    (hout : out.length < outSz) (hs : resolveSeg outSz out seg = .ok s) : s.length < outSz := by
  rw [resolveSeg] at hs
  by_cases hdot : seg = dot
  · rw [if_pos hdot] at hs
    obtain rfl := Except.ok.inj hs
    exact hout
  rw [if_neg hdot] at hs
  by_cases hup : seg = dotdot
  · rw [if_pos hup] at hs
    cases hlast : Paths.lastIndex slash out with
    | none =>
      rw [hlast] at hs
      obtain rfl := Except.ok.inj hs
      exact hout
    | some prev =>
      rw [hlast] at hs
      obtain rfl := Except.ok.inj hs
      split
      · rw [List.length_take]
        omega
      · rw [List.length_take]
        omega
  rw [if_neg hup] at hs
  dsimp only at hs
  by_cases hroot : out.length ≠ 1
  · rw [if_pos hroot, if_pos hroot] at hs
    by_cases hfull : outSz ≤ seg.length ∨ outSz - seg.length ≤ out.length + 1
    · rw [if_pos hfull] at hs
      cases hs
    rw [if_neg hfull] at hs
    obtain ⟨mid, hmid, hs⟩ := Fallible.ok_bind_iff.mp hs
    obtain rfl := wstrncat_ok hmid
    obtain rfl := wstrncat_ok hs
    rw [List.length_append, List.length_append, List.length_singleton]
    omega
  · rw [if_neg hroot, if_neg hroot] at hs
    by_cases hfull : outSz ≤ seg.length ∨ outSz - seg.length ≤ out.length + 0
    · rw [if_pos hfull] at hs
      cases hs
    rw [if_neg hfull] at hs
    obtain rfl := wstrncat_ok hs
    rw [List.length_append]
    omega

theorem realPath_length {d : Option Bytes} {inp s : Bytes} {outSz : Nat} (hsz : 1 < outSz)
    (hs : realPath d inp outSz = .ok s) : s.length < outSz := by
  rw [realPath, if_neg (by omega)] at hs
  obtain ⟨base, hbase, hs⟩ := Fallible.ok_bind_iff.mp hs
  have hlen : base.length < outSz := by
    unfold realPathBase at hbase
    split at hbase
    · cases d with
      | none =>
        obtain rfl := Except.ok.inj hbase
        exact hsz
      | some p =>
        dsimp only at hbase
        split at hbase
        · cases hbase
        · obtain rfl := Except.ok.inj hbase
          omega
    · obtain rfl := Except.ok.inj hbase
      exact hsz
  generalize Paths.tokens isDelim inp = segs at hs
  clear hbase
  induction segs generalizing base with
  | nil =>
    rw [List.foldlM_nil, Fallible.ok_pure_iff] at hs
    exact hs ▸ hlen
  | cons seg segs ih =>
    rw [List.foldlM_cons, Fallible.ok_bind_iff] at hs
    obtain ⟨mid, hmid, hs⟩ := hs
    exact ih mid (resolveSeg_length hlen hmid) hs

theorem recvRealPath_replies (henv : Posix env) {data : Bytes}
    (hstr : WithString data fun str _ => str.length < maxFilename ∧
      ∀ d, startDir env ssh h = some d → ∃ s, realPath (some d) (cstr str) maxFilename = .ok s) :
    Replies env reqId (recvRealPath ssh reqId data) h := by
  obtain ⟨str, idx, hget, hlen, hresolves⟩ := hstr.found
  rw [recvRealPath, hget]
  dsimp only
  rw [if_neg (Nat.not_le.mpr hlen)]
  apply replies_bind
  cases hstart : ((startPath ssh).run env h).1.1.sftpDefaultPath with
  | none => exact replies_status henv (by decide) _ _
  | some d =>
    obtain ⟨s, hs⟩ := hresolves d hstart
    have hshort := realPath_length (by decide) hs
    rw [maxFilename] at hshort
    have hpacket : Packet ftpName reqId (sendName reqId [⟨s, s, {}⟩]) := by
      refine packet_names (show 1 ≤ 100 by decide) ?_
      intro e he
      obtain rfl := List.mem_singleton.mp he
      exact ⟨by dsimp only; omega, by dsimp only; omega⟩
    dsimp only
    rw [hs]
    dsimp only
    split
    · apply replies_bind
      rw [run_wmalloc henv, if_pos rfl]
      exact replies_success rfl hpacket rfl
    · exact replies_success rfl hpacket rfl

theorem recvDo_replies (henv : Posix env) {b : Build} {r : Request} (hr : Answerable b env ssh h r) :
    Replies env reqId (recvDo b ssh r.type.toNat reqId r.data) h := by
  rw [Answerable] at hr
  unfold recvDo
  split
  all_goals rename_i htype
  all_goals first | rw [htype] at hr | skip
  · exact recvOpen_replies henv hr
  · exact recvClose_replies henv hr
  · exact recvRead_replies henv hr
  · exact recvWrite_replies henv hr
  · exact recvStatWith_replies henv (by decide) hr
  · exact recvFSTAT_replies henv hr
  · exact recvSetSTAT_replies henv hr
  · exact recvFSetSTAT_replies henv hr
  · exact recvOpenDir_replies henv hr
  · exact recvReadDir_replies henv hr
  · exact recvRemove_replies henv hr
  · exact recvMKDIR_replies henv hr
  · exact recvRMDIR_replies henv hr
  · exact recvRealPath_replies henv hr
  · exact recvStatWith_replies henv (by decide) hr
  · exact recvRename_replies henv b r.data
  · exact recvUnknown_replies henv r.data

end Replies

end WolfSsh.Sftp
