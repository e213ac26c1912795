import WolfSsh.SftpConfine
import WolfSsh.SftpReplies

/-! The handles of an SFTP session: under every id on the lists one open descriptor is kept, and no
id is given out twice. -/

namespace WolfSsh.Sftp

/-- What is kept under an id, but for the mark at the end of a directory. -/
structure Handle where
  id : HandleId
  fd : Nat
  name : Bytes
  isAppend : Bool
deriving DecidableEq, Repr

def FileEntry.handle (e : FileEntry) : Handle := ⟨e.id, e.fd, e.fileName, e.isAppend⟩

def DirEntry.handle (e : DirEntry) : Handle := ⟨e.id, e.dir, e.dirName, false⟩

def Session.handles (ssh : Session) : Kind → List Handle
  | .file => ssh.fileList.map FileEntry.handle
  | .dir => ssh.dirList.map DirEntry.handle

def Session.handleIds (ssh : Session) : List HandleId :=
  (ssh.handles .file ++ ssh.handles .dir).map Handle.id

def Session.descriptors (ssh : Session) : List (Kind × Nat) :=
  (ssh.handles .file).map (fun e => (.file, e.fd)) ++
    (ssh.handles .dir).map (fun e => (.dir, e.fd))

/-- The handle of kind `k` that a request names. -/
def Session.requested (ssh : Session) (k : Kind) (data : Bytes) : Option Handle :=
  (requestHandle data).bind fun id => (ssh.handles k).find? (fun e => e.id = id)

/-- The lists and the counter of ids are as they were. -/
structure SameHandles (ssh ssh' : Session) : Prop where
  handles : ∀ k, ssh'.handles k = ssh.handles k
  counter : ssh'.handleIdCount = ssh.handleIdCount

def openType : Kind → Nat
  | .file => 3
  | .dir => 11

def useTypes : Kind → List Nat
  | .file => [5, 6, 8, 10]
  | .dir => [12]

/-- OPEN or OPENDIR gave out the handle `e`. -/
structure Opened (ssh : Session) (reqId : Nat) (k : Kind) (e : Handle) (r : Outcome)
    (es : List FdEvent) : Prop where
  id : e.id = ssh.handleIdCount
  added : r.ssh.handles k = e :: ssh.handles k
  other : ∀ j, j ≠ k → r.ssh.handles j = ssh.handles j
  room : (ssh.handles k).length < maxSftpHandles
  counter : r.ssh.handleIdCount = addAssign64 ssh.handleIdCount 1
  ret : r.ret = .success
  reply : r.toSend = some (createPacket reqId ftpHandle (handleIdEncode e.id))
  opened : es = [.opened (k, e.fd)]

structure OpenFailed (ssh : Session) (k : Kind) (r : Outcome) (es : List FdEvent) : Prop where
  ret : r.ret ≠ .success
  files : r.ssh.fileList = ssh.fileList
  dirs : r.ssh.dirList = ssh.dirList
  counter : r.ssh.handleIdCount = ssh.handleIdCount ∨
    r.ssh.handleIdCount = addAssign64 ssh.handleIdCount 1
  closed : es = [] ∨ ∃ fd, es = [.opened (k, fd), .closed (k, fd)]

/-- CLOSE took the handle `e` from the lists. -/
structure Closed (ssh : Session) (k : Kind) (e : Handle) (r : Outcome) (es : List FdEvent) :
    Prop where
  removed : r.ssh.handles k = (ssh.handles k).filter (fun h => h.id ≠ e.id)
  other : ∀ j, j ≠ k → r.ssh.handles j = ssh.handles j
  counter : r.ssh.handleIdCount = ssh.handleIdCount
  closed : es = [.closed (k, e.fd)]

/-- Where the body of a request goes on behind a well-formed handle. -/
def handleEnd : Nat := uint32Sz + handleIdSz

/-- SFTP_SetFileAttributesHandle has a call to make: the size comes first, and where it does not fit
the offset of the file system nothing is set. -/
def Settable (b : Build) (atr : FileAtrb) : Prop :=
  if atr.has fileatrbSize then (resolveOffset atr.sz0 atr.sz1).isSome = true
  else atr.has fileatrbUidgid ∨ atr.has fileatrbPerm ∨ (atr.has fileatrbTime ∧ b.haveFSetTime)

/-- What follows the handle can be read and leaves something to do with the descriptor: a READ asks
for no more than the server reads at once, a WRITE brings octets, FSETSTAT has an attribute to set,
and READDIR is not at the end of the directory. -/
def Acts (b : Build) (ssh : Session) (type : Nat) (data : Bytes) : Prop :=
  match type with
  | 5 => ∃ strSz, ((readTail data).runAt handleEnd).1 = .ok strSz ∧ strSz ≤ maxSftpRw
  | 6 => ∃ str, ((writeTail data).runAt handleEnd).1 = .ok str ∧ str ≠ []
  | 10 => ∃ atr, ((parseAttributesBuffer data).runAt handleEnd).1 = .ok atr ∧ Settable b atr
  | 12 => ∀ cur, requestDir ssh data = some cur → cur.isEof = false
  | _ => True

/-- The request is turned down, with a status if there is memory for one and the handler sends one. -/
def Refused (reqId : Nat) (r : Outcome) : Prop :=
  r.ret ≠ .success ∧ (r.toSend = none ∨ ∃ msg, r.toSend = some (createStatus ftpFailure reqId msg))

/-- A request works on the descriptor of the handle that it names, and on no other: it calls that
descriptor when it acts on it and memory suffices, and is turned down where there is no handle. -/
structure Used (b : Build) (ssh : Session) (k : Kind) (type reqId : Nat) (data : Bytes) (r : Outcome)
    (es : List FdEvent) : Prop where
  only : ∀ f ∈ es, ∃ e, ssh.requested k data = some e ∧ f = .used (k, e.fd)
  known : ∀ e, ssh.requested k data = some e → Acts b ssh type data →
    .used (k, e.fd) ∈ es ∨ r.ret = .memoryE
  unknown : ssh.requested k data = none → es = [] ∧ Refused reqId r

/-- What a request does to the handles, `es` being what it does to descriptors. -/
inductive HandleStep (b : Build) (ssh : Session) (type reqId : Nat) (data : Bytes) (r : Outcome)
    (es : List FdEvent) : Prop
  | opened (k : Kind) (e : Handle) (htype : type = openType k)
    (hopened : Opened ssh reqId k e r es)
  | openFailed (k : Kind) (htype : type = openType k) (hfailed : OpenFailed ssh k r es)
  | closed (k : Kind) (e : Handle) (htype : type = 4) (hreq : ssh.requested k data = some e)
    (hclosed : Closed ssh k e r es)
  | notClosed (htype : type = 4) (hreq : ∀ k, ssh.requested k data = none)
    (hsame : SameHandles ssh r.ssh) (hes : es = [])
  | used (k : Kind) (htype : type ∈ useTypes k) (hsame : SameHandles ssh r.ssh)
    (hused : Used b ssh k type reqId data r es)
  | other (htype : type ∉ [3, 4, 5, 6, 8, 10, 11, 12]) (hsame : SameHandles ssh r.ssh)
    (hes : es = [])

theorem fdEvents_cons (e : Event) (es : List Event) :
    fdEvents (e :: es) = (fdEvent e).toList ++ fdEvents es := by
  rw [fdEvents, List.filterMap_cons]
  cases fdEvent e <;> rfl

theorem fdEvents_append (es es' : List Event) :
    fdEvents (es ++ es') = fdEvents es ++ fdEvents es' :=
  List.filterMap_append

/-- What a program returns, with what it does to descriptors, meets `post`. -/
def Touches {α : Type} (post : α → List FdEvent → Prop) (m : Sys α) : Prop :=
  Calls.Does anyAnswer (fun a new => post a (fdEvents new)) m

section Touches

variable {α β : Type}

theorem Touches.pure {post : α → List FdEvent → Prop} {a : α} (ha : post a []) :
    Touches post (Pure.pure a) :=
  Calls.Does.pure ha

theorem Touches.call {c : FsCall} {f : c.Ans → Sys β} {post : β → List FdEvent → Prop}
    (hf : ∀ r, Touches (fun b es => post b ((fdEvent ⟨c, r⟩).toList ++ es)) (f r)) :
    Touches post (Calls.ask c >>= f) := by
  apply Calls.Does.call
  intro r _
  apply (hf r).mono
  intro b rest h
  rwa [fdEvents_cons]

theorem Touches.skip {m : Sys α} {f : α → Sys β} {mid : α → Prop}
    {post : β → List FdEvent → Prop}
    (hm : Calls.Safe anyAnswer (fun e => fdEvent e = none) mid m)
    (hf : ∀ a, mid a → Touches post (f a)) : Touches post (m >>= f) := by
  apply Calls.Does.bind hm
  rintro a new ⟨ha, hnew⟩
  apply (hf a ha).mono
  intro b rest h
  have hnone : fdEvents new = [] := List.filterMap_eq_nil_iff.mpr hnew
  rwa [fdEvents_append, hnone]

theorem Touches.quiet {c : FsCall} {f : c.Ans → Sys β} {post : β → List FdEvent → Prop}
    (hc : ∀ r, fdEvent ⟨c, r⟩ = none) (hf : ∀ r, Touches post (f r)) :
    Touches post (Calls.ask c >>= f) :=
  Touches.skip (Calls.Safe.ask (fun r _ => hc r) fun _ _ => trivial) fun r (_ : True) => hf r

theorem Touches.bind {m : Sys α} {f : α → Sys β} {mid : α → List FdEvent → Prop}
    {post : β → List FdEvent → Prop} (hm : Touches mid m)
    (hf : ∀ a es, mid a es → Touches (fun b rest => post b (es ++ rest)) (f a)) :
    Touches post (m >>= f) := by
  apply Calls.Does.bind hm
  intro a new hmid
  apply (hf a _ hmid).mono
  intro b rest h
  rwa [fdEvents_append]

theorem Touches.mono {post post' : α → List FdEvent → Prop} {m : Sys α} (hm : Touches post m)
    (himp : ∀ a es, post a es → post' a es) : Touches post' m :=
  Calls.Does.mono hm fun a new h => himp a (fdEvents new) h

theorem Touches.ite {p : Prop} [Decidable p] {m n : Sys α} {post : α → List FdEvent → Prop}
    (hm : p → Touches post m) (hn : ¬p → Touches post n) :
    Touches post (if p then m else n) := by
  by_cases hp : p
  · rw [if_pos hp]
    exact hm hp
  · rw [if_neg hp]
    exact hn hp

theorem Touches.and {post post' : α → List FdEvent → Prop} {m : Sys α} (hm : Touches post m)
    (hm' : Touches post' m) : Touches (fun a es => post a es ∧ post' a es) m :=
  Calls.Does.and hm hm'

theorem Touches.any (m : Sys α) : Touches (fun _ _ => True) m :=
  Calls.Does.mono (Calls.Safe.trivial m) fun _ _ _ => trivial

/-- What a program does to `d` first is done, whatever follows. -/
theorem Touches.first {c : FsCall} {f : c.Ans → Sys β} {d : FdEvent}
    (hc : ∀ r, fdEvent ⟨c, r⟩ = some d) : Touches (fun _ es => d ∈ es) (Calls.ask c >>= f) := by
  apply Touches.call
  intro r
  rw [hc r]
  exact (Touches.any (f r)).mono fun _ es _ => List.mem_cons_self

theorem Touches.before {m : Sys α} {f : α → Sys β} {d : FdEvent}
    (hm : Touches (fun _ es => d ∈ es) m) : Touches (fun _ es => d ∈ es) (m >>= f) := by
  apply hm.bind
  intro a es hd
  exact (Touches.any (f a)).mono fun _ rest _ => List.mem_append_left rest hd

theorem Touches.of_safe {fds : FdEvent → Prop} {post : α → Prop} {m : Sys α}
    (hm : Calls.Safe anyAnswer (fun e => ∀ f, fdEvent e = some f → fds f) post m) :
    Touches (fun a es => post a ∧ ∀ f ∈ es, fds f) m := by
  apply Calls.Does.mono hm
  rintro a new ⟨hpost, hnew⟩
  refine ⟨hpost, ?_⟩
  intro f hf
  obtain ⟨e, he, hfe⟩ := List.mem_filterMap.mp hf
  exact hnew e he f hfe

theorem Touches.of_hands {paths : List Bytes} {fds : FdEvent → Prop} {post : α → Prop} {m : Sys α}
    (hm : Hands paths fds post m) : Touches (fun a es => post a ∧ ∀ f ∈ es, fds f) m :=
  .of_safe (Calls.Safe.mono hm (fun _ h => h.2.2) fun _ h => h)

end Touches

theorem find?_handle {α : Type} {l : List α} {f : α → Handle} {id : HandleId} {p : α → Bool}
    (hp : ∀ a, p a = decide ((f a).id = id)) :
    (l.map f).find? (fun e => e.id = id) = (l.find? p).map f := by
  rw [List.find?_map]
  congr 1
  apply congrArg (fun q => List.find? q l)
  funext a
  exact (hp a).symm

theorem requested_file (ssh : Session) (data : Bytes) :
    ssh.requested .file data = (requestFile ssh data).map FileEntry.handle := by
  rw [Session.requested, requestFile]
  cases requestHandle data with
  | none => rfl
  | some id => exact find?_handle (fun a => rfl)

theorem requested_dir (ssh : Session) (data : Bytes) :
    ssh.requested .dir data = (requestDir ssh data).map DirEntry.handle := by
  rw [Session.requested, requestDir]
  cases requestHandle data with
  | none => rfl
  | some id => exact find?_handle (fun a => rfl)

theorem SameHandles.refl (ssh : Session) : SameHandles ssh ssh := ⟨fun _ => rfl, rfl⟩

theorem SameHandles.of_lists {ssh ssh' : Session} (hfiles : ssh'.fileList = ssh.fileList)
    (hdirs : ssh'.dirList = ssh.dirList) (hcount : ssh'.handleIdCount = ssh.handleIdCount) :
    SameHandles ssh ssh' := by
  refine ⟨?_, hcount⟩
  intro k
  cases k with
  | file => rw [Session.handles, Session.handles, hfiles]
  | dir => rw [Session.handles, Session.handles, hdirs]

theorem sameHandles_setEof (ssh : Session) (id : HandleId) (isEof : Bool) :
    SameHandles ssh (setEof ssh id isEof) := by
  refine ⟨?_, rfl⟩
  intro k
  cases k with
  | file => rfl
  | dir =>
    rw [Session.handles, Session.handles, setEof, List.map_map]
    apply List.map_congr_left
    intro e _
    by_cases he : e.id = id
    · simp [he, DirEntry.handle]
    · simp [he]

section Open

variable {b : Build} {ssh : Session} {reqId : Nat}

theorem sendStatus_touches {ssh' : Session} {k : Kind} (hsame : ssh'.fileList = ssh.fileList ∧
    ssh'.dirList = ssh.dirList ∧ (ssh'.handleIdCount = ssh.handleIdCount ∨
      ssh'.handleIdCount = addAssign64 ssh.handleIdCount 1)) {status : Nat} {msg : Bytes}
    {ret : Code} (hret : ret ≠ .success) :
    Touches (fun r es => es = [] ∧ OpenFailed ssh k r [])
      (sendStatus ssh' status reqId msg ret) := by
  obtain ⟨hfiles, hdirs, hcount⟩ := hsame
  apply Touches.quiet (c := FsCall.malloc _) (fun _ => rfl)
  intro stored
  cases stored with
  | true => exact Touches.pure ⟨rfl, hret, hfiles, hdirs, hcount, Or.inl rfl⟩
  | false => exact Touches.pure ⟨rfl, nofun, hfiles, hdirs, hcount, Or.inl rfl⟩

def OpenDone (ssh : Session) (reqId : Nat) (k : Kind) (r : Outcome) (es : List FdEvent) : Prop :=
  (∃ e, Opened ssh reqId k e r es) ∨ OpenFailed ssh k r es

theorem refuse_touches {k : Kind} {ssh' : Session} (hfiles : ssh'.fileList = ssh.fileList)
    (hdirs : ssh'.dirList = ssh.dirList) (hcount : ssh'.handleIdCount = ssh.handleIdCount)
    {status : Nat} {msg : Bytes} {ret : Code} (hret : ret ≠ .success) :
    Touches (OpenDone ssh reqId k) (sendStatus ssh' status reqId msg ret) := by
  apply (sendStatus_touches ⟨hfiles, hdirs, Or.inl hcount⟩ hret).mono
  rintro r es ⟨rfl, h⟩
  exact Or.inr h

theorem silent_touches {k : Kind} {ret : Code} (hret : ret ≠ .success) :
    Touches (OpenDone ssh reqId k) (Pure.pure (silent ssh ret)) :=
  Touches.pure (Or.inr ⟨hret, rfl, rfl, Or.inl rfl, Or.inl rfl⟩)

theorem addFileHandle_noFds (fd : Nat) (fileName : Bytes) (id : HandleId) (isAppend : Bool) :
    Calls.Safe anyAnswer (fun e => fdEvent e = none)
      (fun r => r = ({ ssh with fileList := ⟨fd, fileName, id, isAppend⟩ :: ssh.fileList },
          Code.success) ∨ r.1 = ssh ∧ r.2 ≠ .success)
      (addFileHandle ssh fd fileName id isAppend) := by
  rw [addFileHandle]
  by_cases hcap : handleCapped ssh.fileList.length = true
  · rw [if_pos hcap]
    exact Calls.Safe.pure (Or.inr ⟨rfl, by simp⟩)
  rw [if_neg hcap]
  apply Calls.Safe.call (c := FsCall.malloc _) (fun _ _ => rfl)
  intro (stored : Bool) _
  cases stored with
  | false => exact Calls.Safe.pure (Or.inr ⟨rfl, by simp⟩)
  | true =>
    rw [if_pos rfl]
    by_cases hlen : maxFilename < fileName.length + 1
    · rw [if_pos hlen]
      exact Calls.Safe.pure (Or.inr ⟨rfl, by simp⟩)
    rw [if_neg hlen]
    apply Calls.Safe.call (c := FsCall.malloc _) (fun _ _ => rfl)
    intro (stored : Bool) _
    cases stored with
    | false => exact Calls.Safe.pure (Or.inr ⟨rfl, by simp⟩)
    | true => exact Calls.Safe.pure (Or.inl rfl)

theorem giveBack_touches (fd : Nat) :
    Touches (fun r es => OpenDone ssh reqId .file r (.opened (.file, fd) :: es)) (do
      let r ← sendStatus (handleIdNext ssh).2 ftpFailure reqId (ascii "Internal Failure")
        .fatalError
      let _ ← wclose fd
      return r) := by
  have hret : Code.fatalError ≠ .success := nofun
  apply (@sendStatus_touches ssh reqId (handleIdNext ssh).2 .file ⟨rfl, rfl, Or.inr rfl⟩ _ _ _
    hret).bind
  rintro r es ⟨rfl, hfailed⟩
  apply Touches.call (c := FsCall.close fd)
  intro _
  exact Touches.pure (Or.inr ⟨hfailed.ret, hfailed.files, hfailed.dirs, hfailed.counter,
    Or.inr ⟨fd, rfl⟩⟩)

theorem storeHandle_touches (hroom : ssh.fileList.length < maxSftpHandles) (fd : Nat)
    (dir : Bytes) (reason : Nat) :
    Touches (fun r es => OpenDone ssh reqId .file r (.opened (.file, fd) :: es))
      (storeHandle ssh reqId fd dir reason) := by
  rw [storeHandle]
  dsimp only [handleIdNext]
  apply Touches.skip (addFileHandle_noFds _ _ _ _)
  rintro ⟨ssh', ret⟩ hadd
  rcases hadd with heq | ⟨hssh, hret⟩
  · obtain ⟨rfl, rfl⟩ := Prod.mk.inj heq
    apply Touches.quiet (c := FsCall.malloc _) (fun _ => rfl)
    intro (stored : Bool)
    cases stored with
    | true =>
      refine Touches.pure (Or.inl ⟨⟨ssh.handleIdCount, fd, dir, _⟩, rfl, rfl, ?_, ?_, rfl, rfl, rfl,
        rfl⟩)
      · rintro (_ | _) hj
        · exact absurd rfl hj
        · rfl
      · rwa [Session.handles, List.length_map]
    | false =>
      apply Touches.call (c := FsCall.close fd)
      intro _
      refine Touches.pure (Or.inr ⟨?_, ?_, rfl, Or.inr rfl, Or.inr ⟨fd, rfl⟩⟩)
      · intro hnot
        cases hnot
      · simp [silent, removeFileHandle]
  · cases ret with
    | success => exact absurd rfl hret
    | _ =>
      obtain rfl : ssh' = (handleIdNext ssh).2 := hssh
      exact giveBack_touches fd

theorem storeDir_touches (hroom : ssh.dirList.length < maxSftpHandles) (dp : Nat) (dir : Bytes) :
    Touches (fun r es => OpenDone ssh reqId .dir r (.opened (.dir, dp) :: es))
      (storeDir ssh reqId dp dir) := by
  apply Touches.quiet (c := FsCall.malloc _) (fun _ => rfl)
  intro cur
  apply Touches.quiet (c := FsCall.malloc _) (fun _ => rfl)
  intro dirName
  apply Touches.quiet (c := FsCall.malloc _) (fun _ => rfl)
  intro stored
  refine Touches.ite (fun _ => ?_) fun _ => ?_
  · refine Touches.pure (Or.inl ⟨⟨ssh.handleIdCount, dp, dir, false⟩, rfl, rfl, ?_, ?_, rfl, rfl,
      rfl, rfl⟩)
    · rintro (_ | _) hj
      · rfl
      · exact absurd rfl hj
    · rwa [Session.handles, List.length_map]
  · apply Touches.call (c := FsCall.closedir dp)
    intro _
    exact Touches.pure (Or.inr ⟨nofun, rfl, rfl, Or.inl rfl, Or.inr ⟨dp, rfl⟩⟩)

theorem lt_of_not_handleCapped {n : Nat} (h : ¬handleCapped n = true) : n < maxSftpHandles := by
  rw [handleCapped, decide_eq_true_eq] at h
  omega

theorem recvOpen_touches (data : Bytes) :
    Touches (OpenDone ssh reqId .file) (recvOpen b ssh reqId data) := by
  unfold recvOpen
  rcases (getStringRef data).runAt 0 with ⟨_ | str, idx⟩
  · exact silent_touches nofun
  apply Touches.skip (getAndCleanPath_noFds b ssh str)
  intro r _
  rcases r with e | dir
  · cases e <;> first | exact refuse_touches rfl rfl rfl nofun | exact silent_touches nofun
  refine Touches.ite (fun _ => refuse_touches rfl rfl rfl nofun) fun hcap => ?_
  have hroom := lt_of_not_handleCapped hcap
  rcases (getUint32 data).runAt idx with ⟨_ | reason, idx⟩
  · exact silent_touches nofun
  dsimp only
  rcases (parseAttributesBuffer data).runAt idx with ⟨_ | atr, _⟩
  · exact silent_touches nofun
  apply Touches.quiet (c := FsCall.stat dir) (fun _ => rfl)
  intro look
  refine Touches.ite (fun _ => ?_) fun _ => ?_
  · exact @refuse_touches ssh reqId .file { ssh with error := .sftpNotFileE } rfl rfl rfl _ _
      .fatalError nofun
  apply Touches.call (c := FsCall.openFile dir _ _)
  intro r
  cases r with
  | error errno => exact refuse_touches rfl rfl rfl nofun
  | ok fd => exact storeHandle_touches hroom fd dir reason

theorem recvOpenDir_touches (data : Bytes) :
    Touches (OpenDone ssh reqId .dir) (recvOpenDir b ssh reqId data) := by
  unfold recvOpenDir
  rcases (getStringRef data).runAt 0 with ⟨_ | str, idx⟩
  · exact silent_touches nofun
  apply Touches.skip (getAndCleanPath_noFds b ssh str)
  intro r _
  rcases r with e | dir
  · cases e <;> first | exact refuse_touches rfl rfl rfl nofun | exact silent_touches nofun
  refine Touches.ite (fun _ => refuse_touches rfl rfl rfl nofun) fun hcap => ?_
  have hroom := lt_of_not_handleCapped hcap
  apply Touches.call (c := FsCall.opendir dir)
  intro r
  cases r with
  | error errno => exact refuse_touches rfl rfl rfl nofun
  | ok dp => exact storeDir_touches hroom dp dir

end Open

section Close

variable {ssh : Session}

/-- With the ids distinct, to take the first entry of an id is to take the one entry of it. -/
theorem map_eraseP {α : Type} {l : List α} {f : α → Handle} {id : HandleId} {p : α → Bool}
    (hp : ∀ a, p a = decide ((f a).id = id)) (hnodup : ((l.map f).map Handle.id).Nodup) :
    (l.eraseP p).map f = (l.map f).filter (fun e => e.id ≠ id) := by
  induction l with
  | nil => rfl
  | cons a l ih =>
    rw [List.map_cons, List.map_cons, List.nodup_cons] at hnodup
    obtain ⟨hnot, hrest⟩ := hnodup
    rw [List.map_cons, List.filter_cons]
    by_cases ha : (f a).id = id
    · have hkeep : (l.map f).filter (fun e => e.id ≠ id) = l.map f := by
        rw [List.filter_eq_self]
        intro e he
        rw [decide_eq_true_eq]
        rintro rfl
        rw [ha] at hnot
        exact hnot (List.mem_map_of_mem he)
      rw [List.eraseP_cons_of_pos (by rw [hp, ha]; simp), hkeep]
      simp [ha]
    · rw [List.eraseP_cons_of_neg (by rw [hp]; simpa using ha), List.map_cons, ih hrest]
      simp [ha]

/-- What CLOSE does with the id that it read. -/
def CloseDone (ssh : Session) (data : Bytes) (r : Outcome) (es : List FdEvent) : Prop :=
  (∃ k e, ssh.requested k data = some e ∧ Closed ssh k e r es) ∨
    (∀ k, ssh.requested k data = none) ∧ SameHandles ssh r.ssh ∧ es = []

theorem Closed.of_session {ssh ssh' : Session} {k : Kind} {e : Handle} {r : Outcome}
    {es : List FdEvent} (h : Closed ssh k e ⟨ssh', .success, none⟩ es) (hr : r.ssh = ssh') :
    Closed ssh k e r es := by
  subst hr
  exact ⟨h.removed, h.other, h.counter, h.closed⟩

theorem status_touches {ssh' : Session} {status reqId : Nat} {msg : Bytes} {ret : Code} :
    Touches (fun r es => r.ssh = ssh' ∧ es = []) (sendStatus ssh' status reqId msg ret) := by
  apply Touches.quiet (c := FsCall.malloc _) (fun _ => rfl)
  intro stored
  cases stored <;> exact Touches.pure ⟨rfl, rfl⟩

theorem closed_dir (hnodup : ((ssh.handles .dir).map Handle.id).Nodup) {id : HandleId}
    {cur : DirEntry} (hfind : findDirHandle ssh id = some cur) :
    Closed ssh .dir cur.handle
      ⟨{ ssh with dirList := ssh.dirList.eraseP (fun e => e.id = id) }, .success, none⟩
      [.closed (.dir, cur.dir)] := by
  have hid : cur.id = id := by simpa using List.find?_some hfind
  refine ⟨?_, ?_, rfl, rfl⟩
  · rw [DirEntry.handle, hid]
    exact map_eraseP (fun _ => rfl) hnodup
  · rintro (_ | _) hj
    · rfl
    · exact absurd rfl hj

theorem closed_file (hnodup : ((ssh.handles .file).map Handle.id).Nodup) {id : HandleId}
    {cur : FileEntry} (hfind : findFileHandle ssh id = some cur) :
    Closed ssh .file cur.handle ⟨removeFileHandle ssh id, .success, none⟩
      [.closed (.file, cur.fd)] := by
  have hid : cur.id = id := by simpa using List.find?_some hfind
  refine ⟨?_, ?_, rfl, rfl⟩
  · rw [FileEntry.handle, hid]
    exact map_eraseP (fun _ => rfl) hnodup
  · rintro (_ | _) hj
    · exact absurd rfl hj
    · rfl

theorem recvCloseDir_touches (hnodup : ((ssh.handles .dir).map Handle.id).Nodup) (id : HandleId) :
    Touches (fun r es =>
      (∃ cur ssh', findDirHandle ssh id = some cur ∧ r = some ssh' ∧
        Closed ssh .dir cur.handle ⟨ssh', .success, none⟩ es) ∨
      findDirHandle ssh id = none ∧ r = none ∧ es = []) (recvCloseDir ssh id) := by
  rw [recvCloseDir]
  cases hfind : findDirHandle ssh id with
  | none => exact Touches.pure (Or.inr ⟨rfl, rfl, rfl⟩)
  | some cur =>
    apply Touches.call (c := FsCall.closedir cur.dir)
    intro _
    exact Touches.pure (Or.inl ⟨cur, _, rfl, rfl, closed_dir hnodup hfind⟩)

theorem recvCloseFile_touches (hnodup : ((ssh.handles .file).map Handle.id).Nodup)
    (id : HandleId) :
    Touches (fun r es =>
      (∃ cur, findFileHandle ssh id = some cur ∧
        Closed ssh .file cur.handle ⟨r.1, .success, none⟩ es) ∨
      findFileHandle ssh id = none ∧ r.1 = ssh ∧ es = []) (recvCloseFile ssh id) := by
  rw [recvCloseFile]
  cases hfind : findFileHandle ssh id with
  | none => exact Touches.pure (Or.inr ⟨rfl, rfl, rfl⟩)
  | some cur =>
    apply Touches.call (c := FsCall.close cur.fd)
    intro closed
    exact Touches.pure (Or.inl ⟨cur, rfl, closed_file hnodup hfind⟩)

theorem requestHandle_close {data : Bytes} :
    requestHandle data = if ¬data.length < uint32Sz ∧
        ¬(data.length < ato32 data + uint32Sz ∨ maxHandle < ato32 data) ∧
        ¬ato32 data ≠ handleIdSz then
      some (handleIdDecode (data.drop uint32Sz)) else none := by
  have hsz : handleIdSz = 8 := rfl
  have hmax : maxHandle = 256 := rfl
  rw [requestHandle]
  by_cases hok : uint32Sz + handleIdSz ≤ data.length ∧ ato32 data = handleIdSz
  · rw [if_pos hok, if_pos (by omega)]
  · rw [if_neg hok, if_neg (by omega)]

theorem recvClose_touches (hnodup : ∀ k, ((ssh.handles k).map Handle.id).Nodup) (reqId : Nat)
    (data : Bytes) : Touches (CloseDone ssh data) (recvClose ssh reqId data) := by
  have hno : ∀ {r : Outcome} {es : List FdEvent}, requestHandle data = none →
      r.ssh = ssh ∧ es = [] → CloseDone ssh data r es := by
    rintro r es h ⟨hr, rfl⟩
    refine Or.inr ⟨fun k => ?_, hr ▸ SameHandles.refl ssh, rfl⟩
    rw [Session.requested, h]
    rfl
  have hread := @requestHandle_close data
  unfold recvClose
  refine Touches.ite (fun hlen => ?_) fun hlen => ?_
  · rw [if_neg (fun h => h.1 hlen)] at hread
    exact Touches.pure (hno hread ⟨rfl, rfl⟩)
  refine Touches.ite (fun hbad => ?_) fun hbad => ?_
  · rw [if_neg (fun h => h.2.1 hbad)] at hread
    exact Touches.pure (hno hread ⟨rfl, rfl⟩)
  refine Touches.ite (fun hsz => ?_) fun hsz => ?_
  · rw [if_neg (fun h => h.2.2 hsz)] at hread
    exact status_touches.mono fun _ _ h => hno hread h
  rw [if_pos ⟨hlen, hbad, hsz⟩] at hread
  have hdir := requested_dir ssh data
  have hfile := requested_file ssh data
  rw [requestDir, hread, Option.bind_some] at hdir
  rw [requestFile, hread, Option.bind_some] at hfile
  have hstatus : ∀ {ssh' : Session} {k : Kind} {e : Handle} {es : List FdEvent}
      {status : Nat} {msg : Bytes} {ret : Code}, ssh.requested k data = some e →
      Closed ssh k e ⟨ssh', .success, none⟩ es →
      Touches (fun r rest => CloseDone ssh data r (es ++ rest))
        (sendStatus ssh' status reqId msg ret) := by
    intro ssh' k e es status msg ret hreq hclosed
    apply status_touches.mono
    rintro r rest ⟨hr, rfl⟩
    rw [List.append_nil]
    exact Or.inl ⟨k, e, hreq, hclosed.of_session hr⟩
  apply (recvCloseDir_touches (hnodup .dir) _).bind
  rintro r es (⟨cur, ssh', hfind, rfl, hclosed⟩ | ⟨hnodir, rfl, rfl⟩)
  · rw [hfind] at hdir
    exact hstatus hdir hclosed
  · rw [hnodir] at hdir
    apply (recvCloseFile_touches (hnodup .file) _).bind
    rintro ⟨ssh', closed⟩ es (⟨cur, hfind, hclosed⟩ | ⟨hnofile, hssh, rfl⟩)
    · rw [hfind] at hfile
      exact Touches.ite (fun _ => hstatus hfile hclosed) fun _ => hstatus hfile hclosed
    · rw [hnofile] at hfile
      obtain rfl : ssh' = ssh := hssh
      have hdone : ∀ {r : Outcome} {rest : List FdEvent}, r.ssh = ssh' ∧ rest = [] →
          CloseDone ssh' data r rest := by
        rintro r rest ⟨hr, rfl⟩
        refine Or.inr ⟨?_, hr ▸ SameHandles.refl ssh', rfl⟩
        rintro (_ | _)
        · exact hfile
        · exact hdir
      exact Touches.ite (fun _ => status_touches.mono fun _ _ h => hdone h)
        fun _ => status_touches.mono fun _ _ h => hdone h

end Close

section Use

variable {b : Build} {ssh : Session} {reqId : Nat} {data : Bytes}

theorem sendStatus_refuses {msg : Bytes} {ret : Code} (hret : ret ≠ .success) :
    Touches (fun r _ => Refused reqId r) (sendStatus ssh ftpFailure reqId msg ret) := by
  apply Touches.quiet (c := FsCall.malloc _) (fun _ => rfl)
  intro stored
  cases stored with
  | true => exact Touches.pure ⟨hret, .inr ⟨msg, rfl⟩⟩
  | false => exact Touches.pure ⟨nofun, .inl rfl⟩

theorem silent_refuses {ret : Code} (hret : ret ≠ .success) :
    Touches (fun r _ => Refused reqId r) (Pure.pure (silent ssh ret)) :=
  Touches.pure ⟨hret, .inl rfl⟩

theorem requestFile_reads {cur : FileEntry} (h : requestFile ssh data = some cur) :
    ∃ handle, (getStringRef data).runAt 0 = (.ok handle, handleEnd) ∧
      fileOfHandle ssh handle = some cur := by
  obtain ⟨id, hid, -⟩ := Option.bind_eq_some_iff.mp h
  have hok : uint32Sz + handleIdSz ≤ data.length ∧ ato32 data = handleIdSz := by
    by_contra hno
    rw [requestHandle, if_neg hno] at hid
    cases hid
  have hstring := @drop_string data 0 (by rw [Nat.zero_add, List.drop_zero, hok.2]; exact hok.1)
  rw [List.drop_zero, Nat.zero_add, hok.2] at hstring
  have hlen : ((data.drop uint32Sz).take handleIdSz).length = handleIdSz := by
    rw [List.length_take, List.length_drop]
    omega
  have hrest : Rest data 0 (c32toa ((data.drop uint32Sz).take handleIdSz).length ++
      ((data.drop uint32Sz).take handleIdSz ++ data.drop (uint32Sz + handleIdSz))) := by
    rw [Rest, List.drop_zero, ← List.append_assoc]
    exact hstring
  have hget := getStringRef_yields hrest (by rw [hlen]; decide)
  rw [hlen] at hget
  exact ⟨_, hget, (fileOfHandle_eq hget).trans h⟩

theorem recvRead_refuses (h : requestFile ssh data = none) :
    Touches (fun r _ => Refused reqId r) (recvRead ssh reqId data) := by
  rw [recvRead]
  rcases hget : (getStringRef data).runAt 0 with ⟨e | handle, idx⟩
  · exact silent_refuses (by decide)
  · dsimp only
    rw [fileOfHandle_eq hget, h]
    exact sendStatus_refuses (by decide)

theorem recvRead_acts {cur : FileEntry} (h : requestFile ssh data = some cur)
    (hacts : Acts b ssh 5 data) :
    Touches (fun r es => .used (.file, cur.fd) ∈ es ∨ r.ret = .memoryE) (recvRead ssh reqId data) := by
  obtain ⟨handle, hget, hcur⟩ := requestFile_reads h
  obtain ⟨strSz, htail, hsz⟩ := hacts
  obtain ⟨ofst1, i, ofst0, j, l, hofst1, hofst0, hstrSz⟩ := offset_reads htail
  rw [recvRead, hget]
  dsimp only
  rw [hcur]
  dsimp only
  rw [hofst1]
  dsimp only
  rw [hofst0]
  dsimp only
  rw [hstrSz]
  dsimp only
  rw [if_neg (Nat.not_lt.mpr hsz)]
  apply Touches.quiet (c := FsCall.malloc _) (fun _ => rfl)
  intro (stored : Bool)
  cases stored with
  | false => exact Touches.pure (.inr rfl)
  | true =>
    refine Touches.mono ?_ fun _ _ => .inl
    exact Touches.first (c := FsCall.pread cur.fd strSz ofst0 ofst1) fun _ => rfl

theorem recvWrite_refuses (h : requestFile ssh data = none) :
    Touches (fun r _ => Refused reqId r) (recvWrite ssh reqId data) := by
  rw [recvWrite]
  rcases hget : (getStringRef data).runAt 0 with ⟨e | handle, idx⟩
  · exact sendStatus_refuses (by decide)
  · dsimp only
    rw [fileOfHandle_eq hget, h]
    exact sendStatus_refuses (by decide)

theorem writeAll_first (fd : Nat) (isAppend : Bool) {str : Bytes} (hstr : str ≠ []) (ofst0 ofst1 : Nat) :
    Touches (fun _ es => .used (.file, fd) ∈ es)
      (writeAll fd isAppend str str.length 0 ofst0 ofst1 0) := by
  obtain ⟨n, hn⟩ := Nat.exists_eq_succ_of_ne_zero (List.length_pos_iff.mpr hstr).ne'
  rw [hn, writeAll, if_pos (by omega), writeOnce]
  cases isAppend with
  | true => exact Touches.first (c := FsCall.write fd _) fun _ => rfl
  | false => exact Touches.first (c := FsCall.pwrite fd _ _ _) fun _ => rfl

theorem recvWrite_acts {cur : FileEntry} (h : requestFile ssh data = some cur)
    (hacts : Acts b ssh 6 data) :
    Touches (fun r es => .used (.file, cur.fd) ∈ es ∨ r.ret = .memoryE) (recvWrite ssh reqId data) := by
  obtain ⟨handle, hget, hcur⟩ := requestFile_reads h
  obtain ⟨str, htail, hne⟩ := hacts
  obtain ⟨ofst1, i, ofst0, j, l, hofst1, hofst0, hstr⟩ := offset_reads htail
  rw [recvWrite, hget]
  dsimp only
  rw [hcur]
  dsimp only
  rw [hofst1]
  dsimp only
  rw [hofst0]
  dsimp only
  rw [hstr]
  exact (writeAll_first cur.fd cur.isAppend hne ofst0 ofst1).before.mono fun _ _ => .inl

theorem recvFSTAT_refuses (h : requestFile ssh data = none) :
    Touches (fun r _ => Refused reqId r) (recvFSTAT ssh reqId data) := by
  rw [recvFSTAT]
  rcases hget : (getStringRef data).runAt 0 with ⟨e | handle, idx⟩
  · exact silent_refuses (by decide)
  · dsimp only
    rw [fileOfHandle_eq hget, h]
    exact silent_refuses (by decide)

theorem recvFSTAT_acts {cur : FileEntry} (h : requestFile ssh data = some cur) :
    Touches (fun r es => .used (.file, cur.fd) ∈ es ∨ r.ret = .memoryE) (recvFSTAT ssh reqId data) := by
  obtain ⟨handle, hget, hcur⟩ := requestFile_reads h
  rw [recvFSTAT, hget]
  dsimp only
  rw [hcur]
  refine Touches.mono ?_ fun _ _ => .inl
  exact Touches.first (c := FsCall.fstat cur.fd) fun _ => rfl

theorem recvFSetSTAT_refuses (h : requestFile ssh data = none) :
    Touches (fun r _ => Refused reqId r) (recvFSetSTAT b ssh reqId data) := by
  rw [recvFSetSTAT]
  rcases hget : (getStringRef data).runAt 0 with ⟨e | handle, idx⟩
  · exact silent_refuses (by decide)
  · dsimp only
    rw [fileOfHandle_eq hget, h]
    exact sendStatus_refuses (by decide)

theorem setFileAttributesHandle_first (fd : Nat) {atr : FileAtrb} (h : Settable b atr) :
    Touches (fun _ es => .used (.file, fd) ∈ es) (setFileAttributesHandle b fd atr) := by
  rw [Settable] at h
  unfold setFileAttributesHandle setAttributesWith
  rw [setAttribute]
  by_cases hsize : atr.has fileatrbSize = true
  · rw [if_pos hsize] at h
    obtain ⟨sz, hsz⟩ := Option.isSome_iff_exists.mp h
    rw [if_pos ⟨rfl, hsize⟩, hsz]
    refine Touches.before ?_
    exact Touches.first (c := FsCall.ftruncate fd sz) fun _ => rfl
  rw [if_neg hsize] at h
  rw [if_neg fun hif => hsize hif.2]
  change Touches _ (setAttribute .success (atr.has fileatrbUidgid) _ >>= _)
  rw [setAttribute]
  by_cases huid : atr.has fileatrbUidgid = true
  · rw [if_pos ⟨rfl, huid⟩]
    refine Touches.before ?_
    exact Touches.first (c := FsCall.fchown fd _ _) fun _ => rfl
  rw [if_neg fun hif => huid hif.2]
  change Touches _ (setAttribute .success (atr.has fileatrbPerm) _ >>= _)
  rw [setAttribute]
  by_cases hperm : atr.has fileatrbPerm = true
  · rw [if_pos ⟨rfl, hperm⟩]
    refine Touches.before ?_
    exact Touches.first (c := FsCall.fchmod fd _) fun _ => rfl
  rw [if_neg fun hif => hperm hif.2]
  change Touches _ (setAttribute .success (atr.has fileatrbTime) _)
  obtain ⟨htime, hbuild⟩ := (h.resolve_left huid).resolve_left hperm
  rw [setAttribute, if_pos ⟨rfl, htime⟩, if_pos hbuild]
  exact Touches.first (c := FsCall.futimes fd _ _) fun _ => rfl

theorem recvFSetSTAT_acts {cur : FileEntry} (h : requestFile ssh data = some cur)
    (hacts : Acts b ssh 10 data) :
    Touches (fun r es => .used (.file, cur.fd) ∈ es ∨ r.ret = .memoryE)
      (recvFSetSTAT b ssh reqId data) := by
  obtain ⟨handle, hget, hcur⟩ := requestFile_reads h
  obtain ⟨atr, hatr, hset⟩ := hacts
  rw [recvFSetSTAT, hget]
  dsimp only
  rw [hcur]
  dsimp only
  rw [setParsed]
  rcases hparse : (parseAttributesBuffer data).runAt handleEnd with ⟨e | atr', i⟩
  · rw [hparse] at hatr
    cases hatr
  · rw [hparse] at hatr
    obtain rfl := Except.ok.inj hatr
    exact (setFileAttributesHandle_first cur.fd hset).before.mono fun _ _ => .inl

theorem recvReadDir_refuses (h : requestDir ssh data = none) :
    Touches (fun r _ => Refused reqId r) (recvReadDir ssh reqId data) := by
  rw [recvReadDir]
  rcases hget : (getSize data).runAt 0 with ⟨e | sz, idx⟩
  · exact silent_refuses (by decide)
  refine Touches.ite (fun _ => silent_refuses (by decide)) fun _ => ?_
  refine Touches.ite (fun _ => silent_refuses (by decide)) fun hsz => ?_
  rw [findDirHandle_eq hget hsz, h]
  exact silent_refuses (by decide)

theorem readEntries_first (dir n : Nat) (dirName : Bytes) :
    Touches (fun r es => .used (.dir, dir) ∈ es ∨ r.1 = .memoryE)
      (readEntries ssh dir dirName (n + 1) []) := by
  rw [readEntries]
  apply Touches.quiet (c := FsCall.malloc _) (fun _ => rfl)
  intro (stored : Bool)
  cases stored with
  | false => exact Touches.pure (.inr rfl)
  | true =>
    have hcall : Touches (fun _ es => .used (.dir, dir) ∈ es) (sftpnameReaddir ssh dir dirName) :=
      Touches.first (c := FsCall.readdir dir) fun _ => rfl
    exact hcall.before.mono fun _ _ => .inl

theorem requestDir_reads {cur : DirEntry} (h : requestDir ssh data = some cur) :
    (getSize data).runAt 0 = (.ok handleIdSz, uint32Sz) ∧
      findDirHandle ssh (handleIdDecode (data.drop uint32Sz)) = some cur := by
  obtain ⟨id, hid, -⟩ := Option.bind_eq_some_iff.mp h
  have hok : uint32Sz + handleIdSz ≤ data.length ∧ ato32 data = handleIdSz := by
    by_contra hno
    rw [requestHandle, if_neg hno] at hid
    cases hid
  have hfit : ¬ handleIdSz > data.length - uint32Sz := by omega
  have hin : 0 < data.length ∧ uint32Sz ≤ data.length - 0 := by
    rw [handleIdSz] at hok
    omega
  have hget : (getSize data).runAt 0 = (.ok handleIdSz, uint32Sz) := by
    rw [getSize, Fallible.runAt_bind, getUint32, Fallible.runAt_bind, Fallible.runAt_get]
    simp only [if_pos hin, Fallible.runAt_bind, Fallible.runAt_set, Fallible.runAt_pure,
      Fallible.runAt_get, List.drop_zero, hok.2, Nat.zero_add, if_neg hfit]
  exact ⟨hget, (findDirHandle_eq hget (by simp)).trans h⟩

theorem recvReadDir_acts {cur : DirEntry} (h : requestDir ssh data = some cur)
    (hacts : Acts b ssh 12 data) :
    Touches (fun r es => .used (.dir, cur.dir) ∈ es ∨ r.ret = .memoryE)
      (recvReadDir ssh reqId data) := by
  obtain ⟨hget, hcur⟩ := requestDir_reads h
  have heof : cur.isEof = false := hacts cur h
  rw [recvReadDir, hget]
  dsimp only
  rw [if_neg (by decide), if_neg (by simp), hcur]
  dsimp only
  rw [heof, if_neg (by simp)]
  apply (readEntries_first cur.dir _ cur.dirName).bind
  rintro ⟨ret, isEof, list⟩ es hread
  rcases hread with hused | hret
  · exact (Touches.any _).mono fun _ rest _ => .inl (List.mem_append_left rest hused)
  · obtain rfl : ret = .memoryE := hret
    rw [readDirReply, if_neg (by simp)]
    apply Touches.quiet (c := FsCall.malloc _) (fun _ => rfl)
    intro stored
    cases stored <;> exact Touches.pure (.inr rfl)

end Use

section Step

variable {b : Build} {ssh : Session} {type reqId : Nat} {data : Bytes}

theorem handleStep_of_open {k : Kind} {r : Outcome} {es : List FdEvent} (htype : type = openType k)
    (h : OpenDone ssh reqId k r es) : HandleStep b ssh type reqId data r es := by
  rcases h with ⟨e, h⟩ | h
  · exact .opened k e htype h
  · exact .openFailed k htype h

theorem handleStep_of_close {r : Outcome} {es : List FdEvent} (htype : type = 4)
    (h : CloseDone ssh data r es) : HandleStep b ssh type reqId data r es := by
  rcases h with ⟨k, e, hreq, h⟩ | ⟨hreq, hsame, hes⟩
  · exact .closed k e htype hreq h
  · exact .notClosed htype hreq hsame hes

/-- The descriptors of the handle that a request names. -/
def UsesRequested (ssh : Session) (k : Kind) (data : Bytes) (f : FdEvent) : Prop :=
  ∃ e, ssh.requested k data = some e ∧ f = .used (k, e.fd)

theorem usesRequested_file (cur : FileEntry) (h : requestFile ssh data = some cur) :
    UsesRequested ssh .file data (.used (.file, cur.fd)) :=
  ⟨cur.handle, by rw [requested_file, h]; rfl, rfl⟩

theorem usesRequested_dir (cur : DirEntry) (h : requestDir ssh data = some cur) :
    UsesRequested ssh .dir data (.used (.dir, cur.dir)) :=
  ⟨cur.handle, by rw [requested_dir, h]; rfl, rfl⟩

theorem use_touches {k : Kind} (htype : type ∈ useTypes k) {m : Sys Outcome}
    (hm : Hands [] (UsesRequested ssh k data) (Leaves (SameHandles ssh)) m)
    (hknown : ∀ e, ssh.requested k data = some e → Acts b ssh type data →
      Touches (fun r es => .used (k, e.fd) ∈ es ∨ r.ret = .memoryE) m)
    (hunknown : ssh.requested k data = none → Touches (fun r _ => Refused reqId r) m) :
    Touches (HandleStep b ssh type reqId data) m := by
  have honly := Touches.of_hands hm
  cases hreq : ssh.requested k data with
  | none =>
    apply (honly.and (hunknown hreq)).mono
    rintro r es ⟨⟨hsame, hes⟩, hrefused⟩
    have hnil : es = [] := by
      apply List.eq_nil_iff_forall_not_mem.mpr
      intro f hf
      obtain ⟨e, he, -⟩ := hes f hf
      rw [hreq] at he
      cases he
    refine .used k htype hsame ⟨hes, fun e he => ?_, fun _ => ⟨hnil, hrefused⟩⟩
    rw [hreq] at he
    cases he
  | some e =>
    have hnever : ssh.requested k data ≠ none := by
      rw [hreq]
      exact Option.some_ne_none e
    by_cases hacts : Acts b ssh type data
    · apply (honly.and (hknown e hreq hacts)).mono
      rintro r es ⟨⟨hsame, hes⟩, hcalled⟩
      refine .used k htype hsame ⟨hes, fun e' he' _ => ?_, fun h => absurd h hnever⟩
      rw [hreq] at he'
      obtain rfl := Option.some.inj he'
      exact hcalled
    · exact honly.mono fun _ _ h =>
        .used k htype h.1 ⟨h.2, fun _ _ h => absurd h hacts, fun h => absurd h hnever⟩

theorem useFile_touches (htype : type ∈ useTypes .file) {m : Sys Outcome}
    (hm : Hands [] (UsesRequested ssh .file data) (Leaves (SameHandles ssh)) m)
    (hknown : ∀ cur, requestFile ssh data = some cur → Acts b ssh type data →
      Touches (fun r es => .used (.file, cur.fd) ∈ es ∨ r.ret = .memoryE) m)
    (hunknown : requestFile ssh data = none → Touches (fun r _ => Refused reqId r) m) :
    Touches (HandleStep b ssh type reqId data) m := by
  refine use_touches htype hm (fun e he hacts => ?_) fun hnone => ?_
  · rw [requested_file, Option.map_eq_some_iff] at he
    obtain ⟨cur, hcur, rfl⟩ := he
    exact hknown cur hcur hacts
  · rw [requested_file, Option.map_eq_none_iff] at hnone
    exact hunknown hnone

theorem useDir_touches (htype : type ∈ useTypes .dir) {m : Sys Outcome}
    (hm : Hands [] (UsesRequested ssh .dir data) (Leaves (SameHandles ssh)) m)
    (hknown : ∀ cur, requestDir ssh data = some cur → Acts b ssh type data →
      Touches (fun r es => .used (.dir, cur.dir) ∈ es ∨ r.ret = .memoryE) m)
    (hunknown : requestDir ssh data = none → Touches (fun r _ => Refused reqId r) m) :
    Touches (HandleStep b ssh type reqId data) m := by
  refine use_touches htype hm (fun e he hacts => ?_) fun hnone => ?_
  · rw [requested_dir, Option.map_eq_some_iff] at he
    obtain ⟨cur, hcur, rfl⟩ := he
    exact hknown cur hcur hacts
  · rw [requested_dir, Option.map_eq_none_iff] at hnone
    exact hunknown hnone

theorem other_touches (htype : type ∉ [3, 4, 5, 6, 8, 10, 11, 12]) {m : Sys Outcome}
    (hm : Touches (fun r es => Leaves (SameHandles ssh) r ∧ ∀ f ∈ es, noFds f) m) :
    Touches (HandleStep b ssh type reqId data) m :=
  hm.mono fun _ _ h => .other htype h.1 (List.eq_nil_iff_forall_not_mem.mpr h.2)

theorem recvDo_touches (hnodup : ∀ k, ((ssh.handles k).map Handle.id).Nodup) :
    Touches (HandleStep b ssh type reqId data) (recvDo b ssh type reqId data) := by
  have hsame := SameHandles.refl ssh
  have herror : SameHandles ssh { ssh with error := .memoryE } := .of_lists rfl rfl rfl
  have hstore : ∀ p, Canonical p → SameHandles ssh { ssh with sftpDefaultPath := some p } :=
    fun _ _ => .of_lists rfl rfl rfl
  have hpath : ∀ {names : List Bytes} {m : Sys Outcome}, type ∉ [3, 4, 5, 6, 8, 10, 11, 12] →
      PathProgram b ssh names noFds (Leaves (SameHandles ssh)) [] [] m →
      Touches (HandleStep b ssh type reqId data) m :=
    fun htype hm => other_touches htype (.of_safe hm.descriptors)
  unfold recvDo
  split
  · exact (recvOpen_touches data).mono fun _ _ h => handleStep_of_open rfl h
  · exact (recvClose_touches hnodup reqId data).mono fun _ _ h => handleStep_of_close rfl h
  · exact useFile_touches (by decide) (recvRead_hands hsame reqId usesRequested_file)
      (fun _ => recvRead_acts) recvRead_refuses
  · exact useFile_touches (by decide) (recvWrite_hands hsame reqId usesRequested_file)
      (fun _ => recvWrite_acts) recvWrite_refuses
  · exact hpath (by decide) (recvLSTAT_program hsame reqId data)
  · exact useFile_touches (by decide) (recvFSTAT_hands hsame reqId usesRequested_file)
      (fun _ h _ => recvFSTAT_acts h) recvFSTAT_refuses
  · exact hpath (by decide) (recvSetSTAT_program hsame reqId data)
  · exact useFile_touches (by decide) (recvFSetSTAT_hands hsame reqId usesRequested_file)
      (fun _ => recvFSetSTAT_acts) recvFSetSTAT_refuses
  · exact (recvOpenDir_touches data).mono fun _ _ h => handleStep_of_open rfl h
  · exact useDir_touches (by decide)
      (recvReadDir_hands hsame reqId usesRequested_dir (sameHandles_setEof ssh))
      (fun _ => recvReadDir_acts) recvReadDir_refuses
  · exact hpath (by decide) (recvRemove_program hsame reqId data)
  · exact hpath (by decide) (recvMKDIR_program hsame reqId data)
  · exact hpath (by decide) (recvRMDIR_program hsame reqId data)
  · exact other_touches (by decide)
      (.of_hands (recvRealPath_hands hsame herror hstore reqId data))
  · exact hpath (by decide) (recvSTAT_program hsame reqId data)
  · exact hpath (by decide) (recvRename_program hsame reqId data)
  · exact other_touches (by simp_all) (.of_hands (recvUnknown_hands hsame reqId data))

end Step

/-- The `n`-th id, the low word first. -/
def idOf (n : Nat) : HandleId := (n % 2 ^ 32, n / 2 ^ 32)

theorem idOf_injective {m n : Nat} (h : idOf m = idOf n) : m = n := by
  obtain ⟨hlo, hhi⟩ := Prod.mk.inj h
  rw [← Nat.div_add_mod m (2 ^ 32), ← Nat.div_add_mod n (2 ^ 32), hlo, hhi]

theorem addAssign64_idOf {n : Nat} (hn : n + 1 < 2 ^ 64) :
    addAssign64 (idOf n) 1 = idOf (n + 1) := by
  rw [addAssign64, idOf, idOf, Prod.mk.injEq]
  constructor
  · omega
  · by_cases hwrap : (n % 2 ^ 32 + 1) % 2 ^ 32 < n % 2 ^ 32
    · rw [if_pos hwrap]
      omega
    · rw [if_neg hwrap]
      omega

/-- One more handle is on the lists, wherever it stands. -/
structure Added (k : Kind) (e : Handle) (ssh ssh' : Session) : Prop where
  ids : ssh'.handleIds.Perm (e.id :: ssh.handleIds)
  descriptors : ssh'.descriptors.Perm ((k, e.fd) :: ssh.descriptors)

theorem added_of_perm {k : Kind} {e : Handle} {ssh ssh' : Session}
    (hperm : (ssh'.handles k).Perm (e :: ssh.handles k))
    (hother : ∀ j, j ≠ k → ssh'.handles j = ssh.handles j) : Added k e ssh ssh' := by
  cases k with
  | file =>
    have hdir := hother .dir nofun
    constructor
    · rw [Session.handleIds, Session.handleIds, hdir]
      exact (hperm.append_right _).map Handle.id
    · rw [Session.descriptors, Session.descriptors, hdir]
      exact (hperm.map _).append_right _
  | dir =>
    have hfile := hother .file nofun
    constructor
    · rw [Session.handleIds, Session.handleIds, hfile]
      exact ((hperm.append_left _).trans List.perm_middle).map Handle.id
    · rw [Session.descriptors, Session.descriptors, hfile]
      exact ((hperm.map _).append_left _).trans List.perm_middle

theorem Opened.one_more {ssh : Session} {reqId : Nat} {k : Kind} {e : Handle} {r : Outcome}
    {es : List FdEvent} (h : Opened ssh reqId k e r es) : Added k e ssh r.ssh :=
  added_of_perm (h.added ▸ List.Perm.refl _) h.other

theorem perm_cons_filter {l : List Handle} {e : Handle} (hnodup : (l.map Handle.id).Nodup)
    (he : e ∈ l) : l.Perm (e :: l.filter (fun h => h.id ≠ e.id)) := by
  induction l with
  | nil => cases he
  | cons a l ih =>
    rw [List.map_cons, List.nodup_cons] at hnodup
    obtain ⟨hnot, hrest⟩ := hnodup
    rw [List.filter_cons]
    by_cases ha : a.id = e.id
    · have hmem : e ∉ l := fun h => hnot (ha ▸ List.mem_map_of_mem h)
      have hae : e = a := (List.mem_cons.mp he).resolve_right hmem
      have hkeep : l.filter (fun h => h.id ≠ e.id) = l := by
        rw [List.filter_eq_self]
        intro h hh
        rw [decide_eq_true_eq]
        intro heq
        rw [ha, ← heq] at hnot
        exact hnot (List.mem_map_of_mem hh)
      rw [if_neg (by simp [ha]), hkeep, hae]
    · have hel : e ∈ l := (List.mem_cons.mp he).resolve_left (fun h => ha (h ▸ rfl))
      rw [if_pos (by simp [ha])]
      exact ((ih hrest hel).cons a).trans (List.Perm.swap e a _)

theorem Closed.one_less {ssh : Session} {k : Kind} {e : Handle} {r : Outcome} {es : List FdEvent}
    (h : Closed ssh k e r es) (hnodup : ((ssh.handles k).map Handle.id).Nodup)
    (he : e ∈ ssh.handles k) : Added k e r.ssh ssh := by
  apply added_of_perm
  · rw [h.removed]
    exact perm_cons_filter hnodup he
  · exact fun j hj => (h.other j hj).symm

theorem mem_of_requested {ssh : Session} {k : Kind} {data : Bytes} {e : Handle}
    (h : ssh.requested k data = some e) : e ∈ ssh.handles k := by
  obtain ⟨id, -, hfind⟩ := Option.bind_eq_some_iff.mp h
  exact List.mem_of_find?_eq_some hfind

theorem mem_descriptors {ssh : Session} {k : Kind} {e : Handle} (h : e ∈ ssh.handles k) :
    (k, e.fd) ∈ ssh.descriptors := by
  cases k with
  | file => exact List.mem_append_left _ (List.mem_map_of_mem h)
  | dir => exact List.mem_append_right _ (List.mem_map_of_mem h)

theorem mem_handleIds {ssh : Session} {k : Kind} {e : Handle} (h : e ∈ ssh.handles k) :
    e.id ∈ ssh.handleIds := by
  rw [Session.handleIds, List.map_append]
  cases k with
  | file => exact List.mem_append_left _ (List.mem_map_of_mem h)
  | dir => exact List.mem_append_right _ (List.mem_map_of_mem h)

theorem exists_handle {ssh : Session} {id : HandleId} (h : id ∈ ssh.handleIds) :
    ∃ k e, e ∈ ssh.handles k ∧ e.id = id := by
  obtain ⟨e, he, rfl⟩ := List.mem_map.mp h
  rcases List.mem_append.mp he with he | he
  · exact ⟨.file, e, he, rfl⟩
  · exact ⟨.dir, e, he, rfl⟩

theorem SameHandles.ids {ssh ssh' : Session} (h : SameHandles ssh ssh') :
    ssh'.handleIds = ssh.handleIds := by
  rw [Session.handleIds, Session.handleIds, h.handles, h.handles]

theorem SameHandles.descriptors {ssh ssh' : Session} (h : SameHandles ssh ssh') :
    ssh'.descriptors = ssh.descriptors := by
  rw [Session.descriptors, Session.descriptors, h.handles, h.handles]

theorem nodup_handles {ssh : Session} (h : ssh.handleIds.Nodup) (k : Kind) :
    ((ssh.handles k).map Handle.id).Nodup := by
  rw [Session.handleIds, List.map_append] at h
  cases k with
  | file => exact (List.nodup_append.mp h).1
  | dir => exact (List.nodup_append.mp h).2.1

/-- The handle table of a session with `acts` behind it, `n` ids being given out. -/
structure Sound (n : Nat) (ssh : Session) (acts : List FdEvent) : Prop where
  counter : ssh.handleIdCount = idOf n
  distinct : ssh.handleIds.Nodup
  room : ∀ k, (ssh.handles k).length ≤ maxSftpHandles
  below : ∀ id ∈ ssh.handleIds, ∃ m < n, id = idOf m
  held : ssh.descriptors.Perm (Ledger.live [] acts)
  orderly : Ledger.Orderly [] acts

section Sound

variable {n : Nat} {ssh : Session} {acts es : List FdEvent} {r : Outcome}

/-- Acts that are orderly with the descriptors on the lists, and leave those of the new lists. -/
theorem Sound.append (h : Sound n ssh acts) (ssh' : Session)
    (horderly : Ledger.Orderly ssh.descriptors es)
    (hlive : ssh'.descriptors.Perm (Ledger.live ssh.descriptors es)) :
    ssh'.descriptors.Perm (Ledger.live [] (acts ++ es)) ∧ Ledger.Orderly [] (acts ++ es) := by
  rw [Ledger.live_append, Ledger.orderly_append]
  exact ⟨hlive.trans (Ledger.live_perm h.held es), h.orderly, horderly.perm h.held⟩

theorem Sound.same (h : Sound n ssh acts) {ssh' : Session} (hsame : SameHandles ssh ssh')
    (hes : ∀ f ∈ es, ∃ d ∈ ssh.descriptors, f = .used d) : Sound n ssh' (acts ++ es) := by
  obtain ⟨horderly, hlive⟩ := Ledger.useOpen hes
  have hacts := h.append ssh' horderly (by rw [hlive, hsame.descriptors])
  exact ⟨hsame.counter.trans h.counter, hsame.ids ▸ h.distinct,
    fun k => hsame.handles k ▸ h.room k, hsame.ids ▸ h.below, hacts.1, hacts.2⟩

theorem Sound.opened (h : Sound n ssh acts) (hn : n + 1 < 2 ^ 64) {reqId : Nat} {k : Kind}
    {e : Handle} (hopened : Opened ssh reqId k e r es) : Sound (n + 1) r.ssh (acts ++ es) := by
  have hid : e.id = idOf n := hopened.id.trans h.counter
  have hmore := hopened.one_more
  have hes := hopened.opened
  have horderly : Ledger.Orderly ssh.descriptors es := by
    rw [hes]
    exact ⟨trivial, trivial⟩
  have hlive : r.ssh.descriptors.Perm (Ledger.live ssh.descriptors es) := by
    rw [hes]
    exact hmore.descriptors
  have hacts := h.append r.ssh horderly hlive
  refine ⟨?_, ?_, ?_, ?_, hacts.1, hacts.2⟩
  · rw [hopened.counter, h.counter, addAssign64_idOf hn]
  · rw [hmore.ids.nodup_iff, List.nodup_cons]
    refine ⟨?_, h.distinct⟩
    intro hmem
    obtain ⟨m, hm, heq⟩ := h.below _ hmem
    rw [hid] at heq
    exact absurd (idOf_injective heq) (by omega)
  · intro j
    by_cases hj : j = k
    · subst hj
      rw [hopened.added, List.length_cons]
      exact hopened.room
    · rw [hopened.other j hj]
      exact h.room j
  · intro id hmem
    rcases List.mem_cons.mp (hmore.ids.mem_iff.mp hmem) with rfl | hmem
    · exact ⟨n, by omega, hid⟩
    · obtain ⟨m, hm, heq⟩ := h.below id hmem
      exact ⟨m, by omega, heq⟩

theorem Sound.closed (h : Sound n ssh acts) {k : Kind} {e : Handle} (he : e ∈ ssh.handles k)
    (hclosed : Closed ssh k e r es) : Sound n r.ssh (acts ++ es) := by
  have hless := hclosed.one_less (nodup_handles h.distinct k) he
  have hes := hclosed.closed
  have horderly : Ledger.Orderly ssh.descriptors es := by
    rw [hes]
    exact ⟨mem_descriptors he, trivial⟩
  have hlive : r.ssh.descriptors.Perm (Ledger.live ssh.descriptors es) := by
    have hafter := Ledger.after_perm hless.descriptors (.closed (k, e.fd))
    rw [Ledger.after_closed_cons] at hafter
    rw [hes]
    exact hafter.symm
  have hacts := h.append r.ssh horderly hlive
  refine ⟨hclosed.counter.trans h.counter, ?_, ?_, ?_, hacts.1, hacts.2⟩
  · have hnodup := hless.ids.nodup_iff.mp h.distinct
    exact (List.nodup_cons.mp hnodup).2
  · intro j
    by_cases hj : j = k
    · subst hj
      rw [hclosed.removed]
      exact (List.length_filter_le _ _).trans (h.room j)
    · rw [hclosed.other j hj]
      exact h.room j
  · exact fun id hmem => h.below id (hless.ids.mem_iff.mpr (List.mem_cons_of_mem _ hmem))

theorem Sound.openFailed (h : Sound n ssh acts) (hn : n + 1 < 2 ^ 64) {k : Kind}
    (hfailed : OpenFailed ssh k r es) :
    ∃ n', n ≤ n' ∧ n' ≤ n + 1 ∧ Sound n' r.ssh (acts ++ es) := by
  have hlists : ∀ j, r.ssh.handles j = ssh.handles j := by
    rintro (_ | _)
    · rw [Session.handles, Session.handles, hfailed.files]
    · rw [Session.handles, Session.handles, hfailed.dirs]
  have hids : r.ssh.handleIds = ssh.handleIds := by
    rw [Session.handleIds, Session.handleIds, hlists, hlists]
  have hdescriptors : r.ssh.descriptors = ssh.descriptors := by
    rw [Session.descriptors, Session.descriptors, hlists, hlists]
  have hes : Ledger.Orderly ssh.descriptors es ∧
      Ledger.live ssh.descriptors es = ssh.descriptors := by
    rcases hfailed.closed with rfl | ⟨fd, rfl⟩
    · exact ⟨trivial, rfl⟩
    · exact Ledger.openClose ssh.descriptors (k, fd)
  have hacts := h.append r.ssh hes.1 (by rw [hes.2, hdescriptors])
  rcases hfailed.counter with hcount | hcount
  · exact ⟨n, le_refl n, by omega, hcount.trans h.counter, hids ▸ h.distinct,
      fun j => hlists j ▸ h.room j, hids ▸ h.below, hacts.1, hacts.2⟩
  · refine ⟨n + 1, by omega, le_refl _, ?_, hids ▸ h.distinct, fun j => hlists j ▸ h.room j, ?_,
      hacts.1, hacts.2⟩
    · rw [hcount, h.counter, addAssign64_idOf hn]
    · intro id hmem
      obtain ⟨m, hm, heq⟩ := h.below id (hids ▸ hmem)
      exact ⟨m, by omega, heq⟩

end Sound

def Input.opens : Input → Bool
  | .request type _ _ => type = openType .file || type = openType .dir
  | _ => false

theorem opens_of_type {k : Kind} {type reqId : Nat} {data : Bytes} (h : type = openType k) :
    (Input.request type reqId data).opens = true := by
  subst h
  cases k <;> rfl

def opens (inputs : List Input) : Nat := inputs.countP Input.opens

theorem Sound.step {b : Build} {n : Nat} {ssh : Session} {acts es : List FdEvent} {r : Outcome}
    (h : Sound n ssh acts) {type reqId : Nat} {data : Bytes}
    (hn : n + opens [.request type reqId data] < 2 ^ 64)
    (hstep : HandleStep b ssh type reqId data r es) :
    ∃ n', n ≤ n' ∧ n' ≤ n + opens [.request type reqId data] ∧ Sound n' r.ssh (acts ++ es) := by
  rw [opens, List.countP_singleton] at hn ⊢
  have hsame : ∀ {es : List FdEvent}, SameHandles ssh r.ssh →
      (∀ f ∈ es, ∃ d ∈ ssh.descriptors, f = .used d) →
      ∃ n', n ≤ n' ∧ n' ≤ n + (if (Input.request type reqId data).opens = true then 1 else 0) ∧
        Sound n' r.ssh (acts ++ es) := by
    intro es hsame hes
    exact ⟨n, le_refl n, Nat.le_add_right _ _, h.same hsame hes⟩
  cases hstep with
  | opened k e htype hopened =>
    rw [if_pos (opens_of_type htype)] at hn ⊢
    exact ⟨n + 1, by omega, le_refl _, h.opened hn hopened⟩
  | openFailed k htype hfailed =>
    rw [if_pos (opens_of_type htype)] at hn ⊢
    exact h.openFailed hn hfailed
  | closed k e htype hreq hclosed =>
    exact ⟨n, le_refl n, Nat.le_add_right _ _, h.closed (mem_of_requested hreq) hclosed⟩
  | notClosed htype hreq hkeep hes =>
    subst hes
    exact hsame hkeep nofun
  | used k htype hkeep hused =>
    apply hsame hkeep
    intro f hf
    obtain ⟨e, hreq, rfl⟩ := hused.only f hf
    exact ⟨(k, e.fd), mem_descriptors (mem_of_requested hreq), rfl⟩
  | other htype hkeep hes =>
    subst hes
    exact hsame hkeep nofun

section Run

variable (b : Build) (env : Env)

/-- The outcome of a request that finds the server in `s`. -/
def Server.outcome (b : Build) (env : Env) (s : Server) (type reqId : Nat) (data : Bytes) :
    Outcome :=
  ((recvDo b s.ssh type reqId data).run env s.trace).1

theorem Touches.run {α : Type} {post : α → List FdEvent → Prop} {m : Sys α} (hm : Touches post m)
    (env : Env) (h : List Event) :
    ∃ new, (Calls.run env m h).2 = h ++ new ∧ post (Calls.run env m h).1 (fdEvents new) :=
  Calls.Does.run hm (fun h c => (trivial : anyAnswer c (env h c))) h

theorem Server.step_trace (s : Server) (i : Input) :
    (s.step b env i).trace = s.trace ++ s.calls b env i := by
  obtain ⟨new, htrace, -⟩ := (Touches.any (serve b s.ssh i)).run env s.trace
  rw [Server.calls, Server.step]
  dsimp only
  rw [htrace, List.drop_left]

def InputStep (b : Build) (env : Env) (s : Server) (i : Input) : Prop :=
  match i with
  | .request type reqId data =>
    HandleStep b s.ssh type reqId data (s.outcome b env type reqId data) (fdEvents (s.calls b env i))
  | .setConfinePath _ | .setDefaultPath _ =>
    SameHandles s.ssh (s.step b env i).ssh ∧ fdEvents (s.calls b env i) = []

theorem step_request (s : Server) (type reqId : Nat) (data : Bytes) :
    (s.step b env (.request type reqId data)).ssh = (s.outcome b env type reqId data).ssh ∧
      (s.step b env (.request type reqId data)).trace =
        ((recvDo b s.ssh type reqId data).run env s.trace).2 := by
  rw [Server.step, serve, Calls.run_bind]
  exact ⟨rfl, rfl⟩

theorem inputStep (s : Server) (hnodup : s.ssh.handleIds.Nodup) (i : Input) :
    InputStep b env s i := by
  have hset : ∀ path, Touches (fun ssh' es => SameHandles s.ssh ssh' ∧ ∀ f ∈ es, noFds f)
      (serve b s.ssh (.setConfinePath path)) ∧ Touches (fun ssh' es => SameHandles s.ssh ssh' ∧
        ∀ f ∈ es, noFds f) (serve b s.ssh (.setDefaultPath path)) := by
    intro path
    have h := @serve_hands b s.ssh noFds (SameHandles s.ssh) (SameHandles.refl _)
      (.of_lists rfl rfl rfl) (fun _ _ => .of_lists rfl rfl rfl)
      (fun _ _ => .of_lists rfl rfl rfl) path
    exact ⟨.of_hands h.1, .of_hands h.2⟩
  have hquiet : ∀ {ssh' : Session} {new : List Event},
      (SameHandles s.ssh ssh' ∧ ∀ f ∈ fdEvents new, noFds f) → fdEvents new = [] :=
    fun h => List.eq_nil_iff_forall_not_mem.mpr h.2
  have htrace := s.step_trace b env i
  cases i with
  | setConfinePath path =>
    obtain ⟨new, hnew, h⟩ := (hset path).1.run env s.trace
    have hcalls : s.calls b env (.setConfinePath path) = new :=
      List.append_cancel_left (htrace.symm.trans hnew)
    rw [InputStep, hcalls]
    exact ⟨h.1, hquiet h⟩
  | setDefaultPath path =>
    obtain ⟨new, hnew, h⟩ := (hset path).2.run env s.trace
    have hcalls : s.calls b env (.setDefaultPath path) = new :=
      List.append_cancel_left (htrace.symm.trans hnew)
    rw [InputStep, hcalls]
    exact ⟨h.1, hquiet h⟩
  | request type reqId data =>
    obtain ⟨new, hnew, h⟩ :=
      (@recvDo_touches b s.ssh type reqId data (nodup_handles hnodup)).run env s.trace
    rw [(step_request b env s type reqId data).2] at htrace
    have hcalls : s.calls b env (.request type reqId data) = new :=
      List.append_cancel_left (htrace.symm.trans hnew)
    rw [InputStep, hcalls]
    exact h

theorem Sound.input {n : Nat} {s : Server} {i : Input} (h : Sound n s.ssh (fdEvents s.trace))
    (hn : n + opens [i] < 2 ^ 64) : ∃ n', n ≤ n' ∧ n' ≤ n + opens [i] ∧
      Sound n' (s.step b env i).ssh (fdEvents (s.step b env i).trace) := by
  have hstep := inputStep b env s h.distinct i
  rw [Server.step_trace b env, fdEvents_append]
  cases i with
  | setConfinePath path =>
    exact ⟨n, le_refl n, Nat.le_add_right _ _, h.same hstep.1 (by rw [hstep.2]; nofun)⟩
  | setDefaultPath path =>
    exact ⟨n, le_refl n, Nat.le_add_right _ _, h.same hstep.1 (by rw [hstep.2]; nofun)⟩
  | request type reqId data =>
    rw [(step_request b env s type reqId data).1]
    exact h.step hn hstep

/-- The server after `inputs`. -/
def Server.after (b : Build) (env : Env) (inputs : List Input) : Server :=
  inputs.foldl (Server.step b env) .start

theorem sound_after {inputs : List Input} (hopens : opens inputs < 2 ^ 64) :
    ∃ n ≤ opens inputs,
      Sound n (Server.after b env inputs).ssh (fdEvents (Server.after b env inputs).trace) ∧
      ∀ s ∈ Runs.states (Server.step b env) .start inputs, ∀ id ∈ s.ssh.handleIds,
        ∃ m < n, id = idOf m := by
  induction inputs using List.reverseRecOn with
  | nil =>
    refine ⟨0, le_refl 0, ⟨rfl, List.nodup_nil, fun k => ?_, nofun, List.Perm.refl _, trivial⟩, ?_⟩
    · cases k <;> exact Nat.zero_le _
    · intro s hs id hid
      rw [Runs.states, List.mem_singleton] at hs
      subst hs
      cases hid
  | append_singleton inputs i ih =>
    have hsplit : opens (inputs ++ [i]) = opens inputs + opens [i] := List.countP_append ..
    obtain ⟨n, hn, hsound, hspent⟩ := ih (by omega)
    obtain ⟨n', hle, hle', hsound'⟩ := hsound.input b env (i := i) (by omega)
    have hafter :
        Server.after b env (inputs ++ [i]) = (Server.after b env inputs).step b env i := by
      rw [Server.after, List.foldl_append]
      rfl
    rw [hafter]
    refine ⟨n', by omega, hsound', ?_⟩
    intro s hs id hid
    rw [Runs.states_concat, List.mem_append, List.mem_singleton] at hs
    rcases hs with hs | rfl
    · obtain ⟨m, hm, heq⟩ := hspent s hs id hid
      exact ⟨m, by omega, heq⟩
    · exact hsound'.below id hid

/-- `e` was given out by an OPEN or OPENDIR of the run, which opened its descriptor. -/
def OpenedBy (b : Build) (env : Env) (inputs : List Input) (k : Kind) (e : Handle) : Prop :=
  ∃ (s : Server) (reqId : Nat) (data : Bytes),
    (s, Input.request (openType k) reqId data) ∈ Runs.steps (Server.step b env) .start inputs ∧
      Opened s.ssh reqId k e (s.outcome b env (openType k) reqId data)
        (fdEvents (s.calls b env (.request (openType k) reqId data)))

theorem OpenedBy.concat {b : Build} {env : Env} {inputs : List Input} {k : Kind} {e : Handle}
    (h : OpenedBy b env inputs k e) (i : Input) :
    OpenedBy b env (inputs ++ [i]) k e := by
  obtain ⟨s, reqId, data, hmem, hopened⟩ := h
  refine ⟨s, reqId, data, ?_, hopened⟩
  rw [Runs.steps_concat]
  exact List.mem_append_left _ hmem

/-- A handle that is on the lists behind a step was there before it, or the step gave it out. -/
theorem mem_handles_step {s : Server} {i : Input} (hstep : InputStep b env s i) {k : Kind}
    {e : Handle} (he : e ∈ (s.step b env i).ssh.handles k) :
    e ∈ s.ssh.handles k ∨ ∃ reqId data, i = .request (openType k) reqId data ∧
      Opened s.ssh reqId k e (s.outcome b env (openType k) reqId data)
        (fdEvents (s.calls b env i)) := by
  cases i with
  | setConfinePath path => exact Or.inl (hstep.1.handles k ▸ he)
  | setDefaultPath path => exact Or.inl (hstep.1.handles k ▸ he)
  | request type reqId data =>
    rw [(step_request b env s type reqId data).1] at he
    rw [InputStep] at hstep
    cases hstep with
    | opened j a htype hopened =>
      by_cases hjk : k = j
      · subst hjk
        rw [hopened.added, List.mem_cons] at he
        rcases he with rfl | he
        · subst htype
          exact Or.inr ⟨reqId, data, rfl, hopened⟩
        · exact Or.inl he
      · exact Or.inl (hopened.other k hjk ▸ he)
    | openFailed j htype hfailed =>
      left
      cases k with
      | file => rwa [Session.handles, hfailed.files] at he
      | dir => rwa [Session.handles, hfailed.dirs] at he
    | closed j a htype hreq hclosed =>
      left
      by_cases hjk : k = j
      · subst hjk
        rw [hclosed.removed] at he
        exact List.mem_of_mem_filter he
      · exact hclosed.other k hjk ▸ he
    | notClosed htype hreq hsame hes => exact Or.inl (hsame.handles k ▸ he)
    | used j htype hsame hused => exact Or.inl (hsame.handles k ▸ he)
    | other htype hsame hes => exact Or.inl (hsame.handles k ▸ he)

theorem openedBy_after {inputs : List Input} (hopens : opens inputs < 2 ^ 64) {k : Kind}
    {e : Handle} (he : e ∈ (Server.after b env inputs).ssh.handles k) :
    OpenedBy b env inputs k e := by
  induction inputs using List.reverseRecOn with
  | nil => cases k <;> cases he
  | append_singleton inputs i ih =>
    have hsplit : opens (inputs ++ [i]) = opens inputs + opens [i] := List.countP_append ..
    have hopens' : opens inputs < 2 ^ 64 := by omega
    obtain ⟨n, -, hsound, -⟩ := sound_after b env hopens'
    have hstep := inputStep b env _ hsound.distinct i
    rw [Server.after, List.foldl_append] at he
    rcases mem_handles_step b env hstep he with hold | ⟨reqId, data, rfl, hopened⟩
    · exact (ih hopens' hold).concat i
    · refine ⟨Server.after b env inputs, reqId, data, ?_, hopened⟩
      rw [Runs.steps_concat, List.mem_append, List.mem_singleton]
      exact Or.inr rfl

theorem closeFiles_touches (files : List FileEntry) :
    Touches (fun _ es => es = (files.map FileEntry.handle).map fun e => .closed (.file, e.fd))
      (closeFiles files) := by
  induction files with
  | nil => exact Touches.pure rfl
  | cons e files ih =>
    apply Touches.call (c := FsCall.close e.fd)
    intro _
    apply ih.mono
    rintro _ es rfl
    rfl

theorem closeDirs_touches (dirs : List DirEntry) :
    Touches (fun _ es => es = (dirs.map DirEntry.handle).map fun e => .closed (.dir, e.fd))
      (closeDirs dirs) := by
  induction dirs with
  | nil => exact Touches.pure rfl
  | cons e dirs ih =>
    apply Touches.call (c := FsCall.closedir e.dir)
    intro _
    apply ih.mono
    rintro _ es rfl
    rfl

theorem sftpFree_touches (ssh : Session) :
    Touches (fun ssh' es => ssh'.handleIds = [] ∧ es = ssh.descriptors.map .closed)
      (sftpFree ssh) := by
  apply (closeFiles_touches ssh.fileList).bind
  rintro _ es rfl
  apply (closeDirs_touches ssh.dirList).bind
  rintro _ es rfl
  refine Touches.pure ⟨rfl, ?_⟩
  rw [Session.descriptors, List.map_append, List.map_map, List.map_map, List.append_nil,
    List.map_map, List.map_map, Session.handles, Session.handles, List.map_map, List.map_map]
  rfl

def Server.freed (env : Env) (s : Server) : Server :=
  let r := (sftpFree s.ssh).run env s.trace
  ⟨r.1, r.2⟩

/-- The handles of a session that has had `inputs` and gets `i`. -/
structure HandleTable (b : Build) (env : Env) (inputs : List Input) (i : Input) (s : Server) :
    Prop where
  distinct : s.ssh.handleIds.Nodup
  room : ∀ k, (s.ssh.handles k).length ≤ maxSftpHandles
  opened : ∀ k, ∀ e ∈ s.ssh.handles k, OpenedBy b env inputs k e
  step : InputStep b env s i
  /-- An id that comes on the lists was on none of them before. -/
  fresh : ∀ id ∈ (s.step b env i).ssh.handleIds, id ∉ s.ssh.handleIds →
    ∀ t ∈ Runs.states (Server.step b env) .start inputs, id ∉ t.ssh.handleIds
  freed : (s.freed env).ssh.handleIds = []
  /-- No descriptor is used or closed that is not open, and none is left open. -/
  orderly : Ledger.Orderly [] (fdEvents (s.freed env).trace)
  live : Ledger.live [] (fdEvents (s.freed env).trace) = []
  closedOnce : ∀ d, (fdEvents (s.freed env).trace).count (.opened d) =
    (fdEvents (s.freed env).trace).count (.closed d)

/-- A request to open `/etc/motd` for reading. -/
def openMotd : Input :=
  .request 3 1 (c32toa 9 ++ ascii "/etc/motd" ++ c32toa fxfRead ++ c32toa 0)

def closeFirst : Input := .request 4 2 (c32toa 8 ++ handleIdEncode (idOf 0))

end Run

end WolfSsh.Sftp
