import WolfSsh.SftpPathCheck

/-! What each request of an SFTP session hands to the file system, what it does to descriptors and
what it leaves of the session. -/

namespace WolfSsh

namespace Sftp

/-- The path string that a request starts with. -/
def firstName (data : Bytes) : List Bytes :=
  match (getStringRef data).runAt 0 with
  | (.error _, _) => []
  | (.ok str, _) => [str]

def renameNames (data : Bytes) : List Bytes :=
  match (getStringRef data).runAt 0 with
  | (.error _, _) => []
  | (.ok str, idx) =>
    match (getStringRef data).runAt idx with
    | (.error _, _) => [str]
    | (.ok name, _) => [name, str]

/-- The path strings of a request, as its handler reads them. -/
def requestNames (type : Nat) (data : Bytes) : List Bytes :=
  if type ∈ [3, 7, 9, 11, 13, 14, 15, 17] then firstName data
  else if type = 18 then renameNames data
  else []

/-- The id in the handle string that a request starts with. -/
def requestHandle (data : Bytes) : Option HandleId :=
  if uint32Sz + handleIdSz ≤ data.length ∧ ato32 data = handleIdSz then
    some (handleIdDecode (data.drop uint32Sz))
  else none

def requestFile (ssh : Session) (data : Bytes) : Option FileEntry :=
  (requestHandle data).bind (findFileHandle ssh)

/-- The open directory that a request names. -/
def requestDir (ssh : Session) (data : Bytes) : Option DirEntry :=
  (requestHandle data).bind (findDirHandle ssh)

theorem ato32_take {buf : Bytes} {n : Nat} (hn : 4 ≤ n) : ato32 (buf.take n) = ato32 buf := by
  rw [ato32, ato32, List.take_take, Nat.min_eq_left hn]

theorem handleIdDecode_take (buf : Bytes) :
    handleIdDecode (buf.take handleIdSz) = handleIdDecode buf := by
  rw [handleIdDecode, handleIdDecode, List.drop_take, ato32_take (by decide),
    ato32_take (by decide)]

theorem fileOfHandle_eq {ssh : Session} {data handle : Bytes} {idx : Nat}
    (h : (getStringRef data).runAt 0 = (.ok handle, idx)) :
    fileOfHandle ssh handle = requestFile ssh data := by
  obtain ⟨rfl, -, hlen⟩ := getStringRef_ok h
  rw [Nat.zero_add, List.drop_zero] at hlen ⊢
  have hsz : ((data.drop uint32Sz).take (ato32 data)).length = ato32 data := by
    rw [List.length_take, List.length_drop]
    omega
  rw [fileOfHandle, requestFile, requestHandle, hsz]
  by_cases hid : ato32 data = handleIdSz
  · rw [if_pos hid, if_pos ⟨by omega, hid⟩, hid, handleIdDecode_take]
    rfl
  · rw [if_neg hid, if_neg (fun h => hid h.2)]
    rfl

theorem findDirHandle_eq {ssh : Session} {data : Bytes} {sz idx : Nat}
    (h : (getSize data).runAt 0 = (.ok sz, idx)) (hsz : ¬sz ≠ handleIdSz) :
    findDirHandle ssh (handleIdDecode (data.drop idx)) = requestDir ssh data := by
  obtain ⟨hv, rfl, hlen⟩ := getSize_ok h
  rw [List.drop_zero] at hv
  rw [not_not] at hsz
  subst hsz
  rw [requestDir, requestHandle, if_pos ⟨by omega, hv.symm⟩, Nat.zero_add]
  rfl

section Handlers

variable {b : Build} {ssh : Session} {fds : FdEvent → Prop} {P : Session → Prop}

theorem setAttribute_hands {paths : List Bytes} {ret : Code} {present : Bool} {act : Sys Code}
    (hact : Hands paths fds (fun _ => True) act) :
    Hands paths fds (fun _ => True) (setAttribute ret present act) := by
  exact Hands.ite (fun _ => hact) fun _ => Hands.pure trivial

theorem orBadFile_hands {paths : List Bytes} {act : Sys Bool}
    (hact : Hands paths fds (fun _ => True) act) :
    Hands paths fds (fun _ => True) (orBadFile act) := by
  apply hact.bind
  intro ok _
  cases ok <;> exact Hands.pure trivial

theorem setAttributesWith_hands {paths : List Bytes} {truncate : Nat → Sys Bool}
    {chown : Nat → Nat → Sys Bool} {chmod : Nat → Sys Bool}
    {settime : Option (Nat → Nat → Sys Bool)}
    (htruncate : ∀ sz, Hands paths fds (fun _ => True) (truncate sz))
    (hchown : ∀ u g, Hands paths fds (fun _ => True) (chown u g))
    (hchmod : ∀ m, Hands paths fds (fun _ => True) (chmod m))
    (hsettime : ∀ f, settime = some f → ∀ a m, Hands paths fds (fun _ => True) (f a m))
    (atr : FileAtrb) :
    Hands paths fds (fun _ => True) (setAttributesWith truncate chown chmod settime atr) := by
  unfold setAttributesWith
  refine Hands.bind (setAttribute_hands ?_) ?_
  · cases resolveOffset atr.sz0 atr.sz1 with
    | none => exact Hands.pure trivial
    | some sz => exact orBadFile_hands (htruncate sz)
  intro ret _
  apply (setAttribute_hands (orBadFile_hands (hchown _ _))).bind
  intro ret _
  apply (setAttribute_hands (orBadFile_hands (hchmod _))).bind
  intro ret _
  apply setAttribute_hands
  cases hs : settime with
  | none => exact Hands.pure trivial
  | some f => exact orBadFile_hands (hsettime f hs _ _)

theorem setFileAttributes_hands (name : Bytes) (atr : FileAtrb) :
    Hands [name] fds (fun _ => True) (setFileAttributes b name atr) := by
  apply setAttributesWith_hands
  · exact fun sz => Hands.ask (c := FsCall.truncate name sz) (by simp [handed]) nofun nofun
  · exact fun u g => Hands.ask (c := FsCall.chown name u g) (by simp [handed]) nofun nofun
  · exact fun m => Hands.ask (c := FsCall.chmod name m) (by simp [handed]) nofun nofun
  · intro f hf a m
    by_cases ht : b.haveSetTime = true
    · rw [if_pos ht, Option.some.injEq] at hf
      subst hf
      exact Hands.ask (c := FsCall.utimes name a m) (by simp [handed]) nofun nofun
    · rw [if_neg ht] at hf
      cases hf

theorem fds_of_used {c : FsCall} {k : Kind} {fd : Nat} (hfd : fds (.used (k, fd)))
    (hc : ∀ r, fdEvent ⟨c, r⟩ = some (.used (k, fd))) : ∀ r f, fdEvent ⟨c, r⟩ = some f → fds f := by
  intro r f hf
  rw [hc r, Option.some.injEq] at hf
  exact hf ▸ hfd

theorem setFileAttributesHandle_hands {fd : Nat} (hfd : fds (.used (.file, fd))) (atr : FileAtrb) :
    Hands [] fds (fun _ => True) (setFileAttributesHandle b fd atr) := by
  apply setAttributesWith_hands
  · exact fun sz => Hands.ask (c := FsCall.ftruncate fd sz) (by simp [handed]) nofun
      (fds_of_used hfd fun _ => rfl)
  · exact fun u g => Hands.ask (c := FsCall.fchown fd u g) (by simp [handed]) nofun
      (fds_of_used hfd fun _ => rfl)
  · exact fun m => Hands.ask (c := FsCall.fchmod fd m) (by simp [handed]) nofun
      (fds_of_used hfd fun _ => rfl)
  · intro f hf a m
    by_cases ht : b.haveFSetTime = true
    · rw [if_pos ht, Option.some.injEq] at hf
      subst hf
      exact Hands.ask (c := FsCall.futimes fd a m) (by simp [handed]) nofun
        (fds_of_used hfd fun _ => rfl)
    · rw [if_neg ht] at hf
      cases hf

theorem renameChecked_hands (old name : Bytes) :
    Hands [name, old] fds (fun _ => True) (renameChecked old name) := by
  apply Hands.call (c := FsCall.lstat name) (by simp [handed]) nofun (fun _ => rfl)
  intro r
  cases r with
  | ok _ => exact Hands.pure trivial
  | error _ => exact Hands.ask (c := FsCall.rename old name) (by simp [handed]) nofun nofun

theorem renameNoReplace_hands (old name : Bytes) :
    Hands [name, old] fds (fun _ => True) (renameNoReplace b old name) := by
  apply Hands.call (c := FsCall.lstat old) (by simp [handed]) nofun (fun _ => rfl)
  intro r
  cases r with
  | error _ => exact Hands.pure trivial
  | ok atr =>
    refine Hands.ite (fun _ => ?_) fun _ => renameChecked_hands old name
    apply Hands.call (c := FsCall.link old name) (by simp [handed]) nofun (fun _ => rfl)
    intro r
    cases r with
    | error errno =>
      exact Hands.ite (fun _ => Hands.pure trivial) fun _ => renameChecked_hands old name
    | ok _ =>
      apply Hands.call (c := FsCall.unlink old) (by simp [handed]) nofun (fun _ => rfl)
      intro r
      cases r with
      | ok _ => exact Hands.pure trivial
      | error _ =>
        apply Hands.call (c := FsCall.unlink name) (by simp [handed]) nofun (fun _ => rfl)
        exact fun _ => Hands.pure trivial

theorem writeAll_hands {fd : Nat} (hfd : fds (.used (.file, fd))) (isAppend : Bool) (str : Bytes)
    (n written ofst0 ofst1 : Nat) (ret : Int) :
    Hands [] fds (fun _ => True) (writeAll fd isAppend str n written ofst0 ofst1 ret) := by
  induction n generalizing written ofst0 ofst1 ret with
  | zero => exact Hands.pure trivial
  | succ n ih =>
    rw [writeAll]
    refine Hands.ite (fun _ => ?_) fun _ => Hands.pure trivial
    have hwrite : Hands [] fds (fun _ => True)
        (writeOnce fd isAppend (str.drop written) ofst0 ofst1) :=
      Hands.ite
        (fun _ => Hands.ask (c := FsCall.write fd _) (by simp [handed]) nofun
          (fds_of_used hfd fun _ => rfl))
        fun _ => Hands.ask (c := FsCall.pwrite fd _ _ _) (by simp [handed]) nofun
          (fds_of_used hfd fun _ => rfl)
    apply hwrite.bind
    intro ret _
    exact Hands.ite (fun _ => Hands.pure trivial) fun _ => ih _ _ _ _

theorem entryAttributes_hands (dirName fName : Bytes) :
    Hands [] fds (fun _ => True) (entryAttributes ssh dirName fName) := by
  unfold entryAttributes
  refine Hands.ite (fun _ => Hands.pure trivial) fun _ => ?_
  cases realPath ssh.sftpDefaultPath (dirName ++ [slash] ++ fName) maxFilename with
  | error _ => exact Hands.pure trivial
  | ok s =>
    apply Hands.quiet (c := FsCall.entryLstat s) rfl nofun (fun _ => rfl)
    intro r
    cases r <;> exact Hands.pure trivial

theorem sftpnameReaddir_hands {dir : Nat} (hfd : fds (.used (.dir, dir))) (dirName : Bytes) :
    Hands [] fds (fun _ => True) (sftpnameReaddir ssh dir dirName) := by
  apply Hands.use (c := FsCall.readdir dir) (by simp [handed]) nofun (fds_of_used hfd fun _ => rfl)
  intro r
  cases r with
  | done => exact Hands.pure trivial
  | failed => exact Hands.pure trivial
  | entry name =>
    apply Hands.quiet (c := FsCall.malloc _) rfl nofun (fun _ => rfl)
    intro stored
    cases stored with
    | false => exact Hands.pure trivial
    | true =>
      apply (entryAttributes_hands dirName name).bind
      intro atr _
      apply Hands.quiet (c := FsCall.longName name atr) rfl nofun (fun _ => rfl)
      intro lName
      cases lName <;> exact Hands.pure trivial

theorem readEntries_hands {dir : Nat} (hfd : fds (.used (.dir, dir))) (dirName : Bytes) (n : Nat)
    (list : List NameEntry) :
    Hands [] fds (fun _ => True) (readEntries ssh dir dirName n list) := by
  induction n generalizing list with
  | zero => exact Hands.pure trivial
  | succ n ih =>
    apply Hands.quiet (c := FsCall.malloc _) rfl nofun (fun _ => rfl)
    intro stored
    cases stored with
    | false => exact Hands.pure trivial
    | true =>
      apply (sftpnameReaddir_hands hfd dirName).bind
      intro r _
      cases r with
      | eof => exact Hands.pure trivial
      | failed _ => exact Hands.pure trivial
      | entry name => exact ih _

theorem storePath_hands {store : Session → Bytes → Session} {canon : Bytes}
    (hstore : P (store ssh canon)) (herror : P { ssh with error := .memoryE }) :
    Hands [] fds (fun r : Session × Code => P r.1) (storePath ssh store canon) := by
  apply Hands.quiet (c := FsCall.malloc _) rfl nofun (fun _ => rfl)
  intro (stored : Bool)
  exact Hands.ite (fun _ => Hands.pure hstore) fun _ => Hands.pure herror

theorem canonicalizePath_hands (path : Bytes) :
    Hands [] fds (fun r => ∀ p, r = .ok p → Canonical p) (canonicalizePath path) := by
  have hnone : ∀ p : Bytes, (none : Option Bytes) = some p → Canonical p := nofun
  rw [canonicalizePath]
  refine Hands.ite (fun _ => Hands.pure nofun) fun _ => ?_
  refine Hands.ite (fun _ => ?_) fun _ =>
    Hands.pure fun p hp => realPath_canonical hnone (cstr_ne_zero path) hp
  apply Hands.quiet (c := FsCall.getcwd) rfl nofun (fun _ => rfl)
  intro cwd
  cases cwd with
  | none => exact Hands.pure nofun
  | some cwd =>
    dsimp only
    cases hcwd : realPath none (cstr cwd) maxFilename with
    | error e => exact Hands.pure nofun
    | ok d =>
      apply Hands.pure
      intro p hp
      refine realPath_canonical ?_ (cstr_ne_zero path) hp
      rintro q ⟨⟩
      exact realPath_canonical hnone (cstr_ne_zero cwd) hcwd

variable (hssh : P ssh)
include hssh

theorem setParsed_hands {paths : List Bytes} {apply : FileAtrb → Sys Code}
    (happly : ∀ atr, Hands paths fds (fun _ => True) (apply atr)) (reqId : Nat) (data : Bytes)
    (idx : Nat) : Hands paths fds (Leaves P) (setParsed apply ssh reqId data idx) := by
  rw [setParsed]
  rcases (parseAttributesBuffer data).runAt idx with ⟨_ | atr, _⟩
  · exact sendStatus_hands hssh _ _ _ _
  · apply (happly atr).bind
    intro ret _
    cases ret <;> exact sendStatus_hands hssh _ _ _ _

theorem readDirReply_hands (reqId : Nat) (ret : Code) (list : List NameEntry) :
    Hands [] fds (Leaves P) (readDirReply ssh reqId ret list) := by
  rw [readDirReply]
  refine Hands.ite (fun _ => ?_) fun _ => sendStatus_hands hssh _ _ _ _
  refine Hands.ite (fun _ => sendStatus_hands hssh _ _ _ _) fun _ => ?_
  apply Hands.quiet (c := FsCall.malloc _) rfl nofun (fun _ => rfl)
  intro stored
  cases stored with
  | true => exact Hands.pure hssh
  | false => exact sendStatus_hands hssh _ _ _ _

variable (herror : P { ssh with error := .memoryE })
include herror

theorem setPath_hands {store : Session → Bytes → Session}
    (hstore : ∀ p, Canonical p → P (store ssh p)) (path : Bytes) :
    Hands [] fds (fun r : Session × Code => P r.1) (setPath ssh store path) := by
  apply (canonicalizePath_hands path).bind
  intro r hr
  cases r with
  | error e => exact Hands.pure hssh
  | ok canon => exact storePath_hands (hstore canon (hr canon rfl)) herror

theorem sftpSetDefaultPath_hands
    (hstore : ∀ p, Canonical p → P { ssh with sftpDefaultPath := some p }) (path : Bytes) :
    Hands [] fds (fun r : Session × Code => P r.1) (sftpSetDefaultPath ssh path) :=
  setPath_hands hssh herror hstore path

theorem sftpSetConfinePath_hands
    (hstore : ∀ p, Canonical p → P { ssh with sftpConfinePath := some p }) (path : Bytes) :
    Hands [] fds (fun r : Session × Code => P r.1) (sftpSetConfinePath ssh path) :=
  setPath_hands hssh herror hstore path

end Handlers

section Store

variable {b : Build} {ssh : Session} (hssh : PathsCanonical ssh)
include hssh

theorem storeHandle_hands {paths : List Bytes} (reqId fd : Nat) (dir : Bytes) (reason : Nat) :
    Hands paths anyFds (Leaves PathsCanonical) (storeHandle ssh reqId fd dir reason) := by
  have hadd : ∀ (id : HandleId) (append : Bool), Hands paths anyFds
      (fun r : Session × Code => PathsCanonical r.1)
      (addFileHandle (handleIdNext ssh).2 fd dir id append) := by
    intro id append
    rw [addFileHandle]
    refine Hands.ite (fun _ => Hands.pure hssh) fun _ => ?_
    apply Hands.quiet (c := FsCall.malloc _) rfl nofun (fun _ => rfl)
    intro (stored : Bool)
    refine Hands.ite (fun _ => ?_) fun _ => Hands.pure hssh
    refine Hands.ite (fun _ => Hands.pure hssh) fun _ => ?_
    apply Hands.quiet (c := FsCall.malloc _) rfl nofun (fun _ => rfl)
    intro stored
    cases stored <;> exact Hands.pure hssh
  apply (hadd _ _).bind
  rintro ⟨ssh', ret⟩ hssh'
  have hfail : Hands paths anyFds (Leaves PathsCanonical) (do
      let r ← sendStatus ssh' ftpFailure reqId (ascii "Internal Failure") .fatalError
      let _ ← wclose fd
      return r) := by
    apply (sendStatus_hands hssh' _ _ _ _).bind
    intro r hr
    exact Hands.use (c := FsCall.close fd) (by simp [handed]) nofun (fun _ _ _ => trivial)
      fun _ => Hands.pure hr
  cases ret with
  | success =>
    apply Hands.quiet (c := FsCall.malloc _) rfl nofun (fun _ => rfl)
    intro stored
    cases stored with
    | true => exact Hands.pure hssh'
    | false =>
      exact Hands.use (c := FsCall.close fd) (by simp [handed]) nofun (fun _ _ _ => trivial)
        fun _ => Hands.pure hssh'
  | _ => exact hfail

theorem storeDir_hands {paths : List Bytes} (reqId dp : Nat) (dir : Bytes) :
    Hands paths anyFds (Leaves PathsCanonical) (storeDir ssh reqId dp dir) := by
  apply Hands.quiet (c := FsCall.malloc _) rfl nofun (fun _ => rfl)
  intro cur
  apply Hands.quiet (c := FsCall.malloc _) rfl nofun (fun _ => rfl)
  intro dirName
  apply Hands.quiet (c := FsCall.malloc _) rfl nofun (fun _ => rfl)
  intro stored
  refine Hands.ite (fun _ => Hands.pure hssh) fun _ => ?_
  exact Hands.use (c := FsCall.closedir dp) (by simp [handed]) nofun (fun _ _ _ => trivial)
    fun _ => Hands.pure hssh

theorem recvOpen_program (reqId : Nat) (data : Bytes) :
    PathProgram b ssh (firstName data) anyFds (Leaves PathsCanonical) [] []
      (recvOpen b ssh reqId data) := by
  unfold recvOpen firstName
  rcases (getStringRef data).runAt 0 with ⟨_ | str, idx⟩
  · exact .quiet (silent_hands hssh _)
  apply PathProgram.one
  · intro e
    cases e <;> first | exact sendStatus_hands hssh _ _ _ _ | exact silent_hands hssh _
  · intro dir
    refine Hands.ite (fun _ => sendStatus_hands hssh _ _ _ _) fun _ => ?_
    rcases (getUint32 data).runAt idx with ⟨_ | reason, idx⟩
    · exact silent_hands hssh _
    dsimp only
    rcases (parseAttributesBuffer data).runAt idx with ⟨_ | atr, _⟩
    · exact silent_hands hssh _
    apply Hands.call (c := FsCall.stat dir) (by simp [handed]) nofun (fun _ => rfl)
    intro look
    refine Hands.ite (fun _ => ?_) fun _ => ?_
    · have herror : PathsCanonical { ssh with error := .sftpNotFileE } := hssh
      exact sendStatus_hands herror _ _ _ _
    apply Hands.use (c := FsCall.openFile dir _ _) (by simp [handed]) nofun fun _ _ _ => trivial
    intro r
    cases r with
    | error errno => exact sendStatus_hands hssh _ _ _ _
    | ok fd => exact storeHandle_hands hssh _ _ _ _

theorem recvOpenDir_program (reqId : Nat) (data : Bytes) :
    PathProgram b ssh (firstName data) anyFds (Leaves PathsCanonical) [] []
      (recvOpenDir b ssh reqId data) := by
  unfold recvOpenDir firstName
  rcases (getStringRef data).runAt 0 with ⟨_ | str, idx⟩
  · exact .quiet (silent_hands hssh _)
  apply PathProgram.one
  · intro e
    cases e <;> first | exact sendStatus_hands hssh _ _ _ _ | exact silent_hands hssh _
  · intro dir
    refine Hands.ite (fun _ => sendStatus_hands hssh _ _ _ _) fun _ => ?_
    apply Hands.use (c := FsCall.opendir dir) (by simp [handed]) nofun fun _ _ _ => trivial
    intro r
    cases r with
    | error errno => exact sendStatus_hands hssh _ _ _ _
    | ok dp => exact storeDir_hands hssh _ _ _

theorem recvCloseDir_hands (id : HandleId) :
    Hands [] anyFds (fun r : Option Session => ∀ ssh ∈ r, PathsCanonical ssh)
      (recvCloseDir ssh id) := by
  unfold recvCloseDir
  cases findDirHandle ssh id with
  | none => exact Hands.pure nofun
  | some cur =>
    apply Hands.use (c := FsCall.closedir cur.dir) (by simp [handed]) nofun fun _ _ _ => trivial
    intro _
    apply Hands.pure
    rintro ssh' ⟨⟩
    exact hssh

theorem recvCloseFile_hands (id : HandleId) :
    Hands [] anyFds (fun r : Session × Bool => PathsCanonical r.1) (recvCloseFile ssh id) := by
  unfold recvCloseFile
  cases findFileHandle ssh id with
  | none => exact Hands.pure hssh
  | some cur =>
    exact Hands.use (c := FsCall.close cur.fd) (by simp [handed]) nofun (fun _ _ _ => trivial)
      fun _ => Hands.pure hssh

theorem recvClose_hands (reqId : Nat) (data : Bytes) :
    Hands [] anyFds (Leaves PathsCanonical) (recvClose ssh reqId data) := by
  refine Hands.ite (fun _ => silent_hands hssh _) fun _ => ?_
  refine Hands.ite (fun _ => silent_hands hssh _) fun _ => ?_
  refine Hands.ite (fun _ => sendStatus_hands hssh _ _ _ _) fun _ => ?_
  apply (recvCloseDir_hands hssh _).bind
  intro r hr
  cases r with
  | some ssh' => exact sendStatus_hands (hr ssh' rfl) _ _ _ _
  | none =>
    apply (recvCloseFile_hands hssh _).bind
    rintro ⟨ssh', closed⟩ hssh'
    exact Hands.ite (fun _ => sendStatus_hands hssh' _ _ _ _)
      fun _ => sendStatus_hands hssh' _ _ _ _

end Store

section Requests

variable {b : Build} {ssh : Session} {fds : FdEvent → Prop} {P : Session → Prop} (hssh : P ssh)
include hssh

theorem recvFSTAT_hands (reqId : Nat) {data : Bytes}
    (hfd : ∀ cur, requestFile ssh data = some cur → fds (.used (.file, cur.fd))) :
    Hands [] fds (Leaves P) (recvFSTAT ssh reqId data) := by
  unfold recvFSTAT
  rcases hread : (getStringRef data).runAt 0 with ⟨_ | handle, _⟩
  · exact silent_hands hssh _
  dsimp only
  rw [fileOfHandle_eq hread]
  cases hcur : requestFile ssh data with
  | none => exact silent_hands hssh _
  | some cur =>
    apply Hands.use (c := FsCall.fstat cur.fd) (by simp [handed]) nofun
      (fds_of_used (hfd cur hcur) fun _ => rfl)
    intro r
    cases r with
    | error _ => exact sendStatus_hands hssh _ _ _ _
    | ok atr => exact sendAttrs_hands hssh _ _

theorem recvFSetSTAT_hands (reqId : Nat) {data : Bytes}
    (hfd : ∀ cur, requestFile ssh data = some cur → fds (.used (.file, cur.fd))) :
    Hands [] fds (Leaves P) (recvFSetSTAT b ssh reqId data) := by
  unfold recvFSetSTAT
  rcases hread : (getStringRef data).runAt 0 with ⟨_ | handle, idx⟩
  · exact silent_hands hssh _
  dsimp only
  rw [fileOfHandle_eq hread]
  cases hcur : requestFile ssh data with
  | none => exact sendStatus_hands hssh _ _ _ _
  | some cur => exact setParsed_hands hssh (setFileAttributesHandle_hands (hfd cur hcur)) _ _ _

theorem recvWrite_hands (reqId : Nat) {data : Bytes}
    (hfd : ∀ cur, requestFile ssh data = some cur → fds (.used (.file, cur.fd))) :
    Hands [] fds (Leaves P) (recvWrite ssh reqId data) := by
  unfold recvWrite
  rcases hread : (getStringRef data).runAt 0 with ⟨_ | handle, idx⟩
  · exact sendStatus_hands hssh _ _ _ _
  dsimp only
  rw [fileOfHandle_eq hread]
  cases hcur : requestFile ssh data with
  | none => exact sendStatus_hands hssh _ _ _ _
  | some cur =>
    dsimp only
    rcases (getUint32 data).runAt idx with ⟨_ | ofst1, idx⟩
    · exact silent_hands hssh _
    dsimp only
    rcases (getUint32 data).runAt idx with ⟨_ | ofst0, idx⟩
    · exact silent_hands hssh _
    dsimp only
    rcases (getStringRef data).runAt idx with ⟨_ | str, idx⟩
    · exact silent_hands hssh _
    apply (writeAll_hands (hfd cur hcur) cur.isAppend str str.length 0 ofst0 ofst1 0).bind
    rintro ⟨ret, written⟩ _
    exact Hands.ite (fun _ => sendStatus_hands hssh _ _ _ _)
      fun _ => sendStatus_hands hssh _ _ _ _

theorem readStatus_hands (status reqId : Nat) (msg : Bytes) (ret : Code) (allocSz : Nat) :
    Hands [] fds (Leaves P) (readStatus ssh status reqId msg ret allocSz) :=
  Hands.ite (fun _ => sendStatus_hands hssh _ _ _ _) fun _ => Hands.pure hssh

theorem recvRead_hands (reqId : Nat) {data : Bytes}
    (hfd : ∀ cur, requestFile ssh data = some cur → fds (.used (.file, cur.fd))) :
    Hands [] fds (Leaves P) (recvRead ssh reqId data) := by
  unfold recvRead
  rcases hread : (getStringRef data).runAt 0 with ⟨_ | handle, idx⟩
  · exact silent_hands hssh _
  dsimp only
  rw [fileOfHandle_eq hread]
  cases hcur : requestFile ssh data with
  | none => exact sendStatus_hands hssh _ _ _ _
  | some cur =>
    dsimp only
    rcases (getUint32 data).runAt idx with ⟨_ | ofst1, idx⟩
    · exact silent_hands hssh _
    dsimp only
    rcases (getUint32 data).runAt idx with ⟨_ | ofst0, idx⟩
    · exact silent_hands hssh _
    dsimp only
    rcases (getUint32 data).runAt idx with ⟨_ | strSz, idx⟩
    · exact silent_hands hssh _
    refine Hands.ite (fun _ => silent_hands hssh _) fun _ => ?_
    apply Hands.quiet (c := FsCall.malloc _) rfl nofun (fun _ => rfl)
    intro (stored : Bool)
    refine Hands.ite (fun _ => ?_) fun _ => silent_hands hssh _
    apply Hands.use (c := FsCall.pread cur.fd strSz ofst0 ofst1) (by simp [handed]) nofun
      (fds_of_used (hfd cur hcur) fun _ => rfl)
    intro r
    rcases r with _ | (_ | ⟨octet, got⟩)
    · exact readStatus_hands hssh _ _ _ _ _
    · exact readStatus_hands hssh _ _ _ _ _
    · exact Hands.ite (fun _ => readStatus_hands hssh _ _ _ _ _) fun _ => Hands.pure hssh

theorem recvReadDir_hands (reqId : Nat) {data : Bytes}
    (hfd : ∀ cur, requestDir ssh data = some cur → fds (.used (.dir, cur.dir)))
    (heof : ∀ id isEof, P (setEof ssh id isEof)) :
    Hands [] fds (Leaves P) (recvReadDir ssh reqId data) := by
  unfold recvReadDir
  rcases hread : (getSize data).runAt 0 with ⟨_ | sz, idx⟩
  · exact silent_hands hssh _
  refine Hands.ite (fun _ => silent_hands hssh _) fun _ => ?_
  refine Hands.ite (fun _ => silent_hands hssh _) fun hsz => ?_
  rw [findDirHandle_eq hread hsz]
  cases hcur : requestDir ssh data with
  | none => exact silent_hands hssh _
  | some cur =>
    refine Hands.ite (fun _ => readDirReply_hands hssh _ _ _) fun _ => ?_
    apply (readEntries_hands (hfd cur hcur) cur.dirName maxSftpReaddir []).bind
    rintro ⟨ret, isEof, list⟩ _
    exact readDirReply_hands (heof cur.id isEof) _ _ _

theorem startPath_hands (herror : P { ssh with error := .memoryE })
    (hstore : ∀ p, Canonical p → P { ssh with sftpDefaultPath := some p }) :
    Hands [] fds (fun r : Session × Code => P r.1) (startPath ssh) := by
  unfold startPath
  cases hpath : ssh.sftpDefaultPath with
  | some _ => exact Hands.pure hssh
  | none =>
    apply Hands.quiet (c := FsCall.getcwd) rfl nofun (fun _ => rfl)
    intro cwd
    cases cwd with
    | none => exact Hands.pure hssh
    | some wd =>
      dsimp only
      cases realPath none (cstr wd) maxFilename with
      | error e => exact Hands.pure hssh
      | ok s => exact sftpSetDefaultPath_hands hssh herror hstore s

theorem recvRealPath_hands (herror : P { ssh with error := .memoryE })
    (hstore : ∀ p, Canonical p → P { ssh with sftpDefaultPath := some p }) (reqId : Nat)
    (data : Bytes) :
    Hands [] fds (Leaves P) (recvRealPath ssh reqId data) := by
  unfold recvRealPath
  rcases (getStringRef data).runAt 0 with ⟨_ | str, idx⟩
  · exact silent_hands hssh _
  refine Hands.ite (fun _ => silent_hands hssh _) fun _ => ?_
  apply (startPath_hands hssh herror hstore).bind
  rintro ⟨ssh', ret⟩ hssh'
  dsimp only
  cases ssh'.sftpDefaultPath with
  | none => exact sendStatus_hands hssh' _ _ _ _
  | some d =>
    dsimp only
    cases realPath (some d) (cstr str) maxFilename with
    | error e => exact silent_hands hssh' _
    | ok s =>
      refine Hands.ite (fun _ => ?_) fun _ => Hands.pure hssh'
      apply Hands.quiet (c := FsCall.malloc _) rfl nofun (fun _ => rfl)
      intro (stored : Bool)
      exact Hands.ite (fun _ => Hands.pure hssh') fun _ => silent_hands hssh' _

theorem recvUnknown_hands (reqId : Nat) (data : Bytes) :
    Hands [] fds (Leaves P) (recvUnknown ssh reqId data) := by
  refine Hands.ite (fun _ => ?_) fun _ => Hands.pure hssh
  apply Hands.quiet (c := FsCall.malloc _) rfl nofun (fun _ => rfl)
  intro (stored : Bool)
  exact Hands.ite (fun _ => Hands.pure hssh) fun _ => silent_hands hssh _

theorem recvRMDIR_program (reqId : Nat) (data : Bytes) :
    PathProgram b ssh (firstName data) fds (Leaves P) [] [] (recvRMDIR b ssh reqId data) := by
  unfold recvRMDIR firstName
  rcases (getStringRef data).runAt 0 with ⟨_ | str, idx⟩
  · exact .quiet (silent_hands hssh _)
  apply PathProgram.one
  · intro e
    cases e <;> exact sendStatus_hands hssh _ _ _ _
  · intro dir
    apply Hands.call (c := FsCall.rmdir dir) (by simp [handed]) nofun (fun _ => rfl)
    intro (removed : Bool)
    exact Hands.ite (fun _ => sendStatus_hands hssh _ _ _ _)
      fun _ => sendStatus_hands hssh _ _ _ _

theorem recvMKDIR_program (reqId : Nat) (data : Bytes) :
    PathProgram b ssh (firstName data) fds (Leaves P) [] [] (recvMKDIR b ssh reqId data) := by
  unfold recvMKDIR firstName
  rcases (getStringRef data).runAt 0 with ⟨_ | str, idx⟩
  · exact .quiet (silent_hands hssh _)
  apply PathProgram.one
  · intro e
    cases e <;> first | exact sendStatus_hands hssh _ _ _ _ | exact silent_hands hssh _
  · intro dir
    dsimp only
    rcases (parseAttributesBuffer data).runAt idx with ⟨_ | atr, _⟩
    · exact silent_hands hssh _
    apply Hands.call (c := FsCall.mkdir dir (mkdirMode atr)) (by simp [handed]) nofun (fun _ => rfl)
    intro (made : Bool)
    exact Hands.ite (fun _ => sendStatus_hands hssh _ _ _ _)
      fun _ => sendStatus_hands hssh _ _ _ _

theorem recvStatWith_program {look : Bytes → Sys (Except Errno FileAtrb)}
    (hlook : ∀ name, Hands [name] fds (fun _ => True) (look name)) (ser : Bytes) (reqId : Nat)
    (data : Bytes) :
    PathProgram b ssh (firstName data) fds (Leaves P) [] []
      (recvStatWith look ser b ssh reqId data) := by
  unfold recvStatWith firstName
  rcases (getStringRef data).runAt 0 with ⟨_ | str, idx⟩
  · exact .quiet (silent_hands hssh _)
  apply PathProgram.one
  · intro e
    cases e <;> exact sendStatus_hands hssh _ _ _ _
  · intro name
    apply (hlook name).bind
    intro r _
    cases r with
    | error errno => exact sendStatus_hands hssh _ _ _ _
    | ok atr => exact sendAttrs_hands hssh _ _

theorem recvSTAT_program (reqId : Nat) (data : Bytes) :
    PathProgram b ssh (firstName data) fds (Leaves P) [] [] (recvSTAT b ssh reqId data) :=
  recvStatWith_program hssh
    (fun name => Hands.ask (c := FsCall.stat name) (by simp [handed]) nofun nofun) _ _ _

theorem recvLSTAT_program (reqId : Nat) (data : Bytes) :
    PathProgram b ssh (firstName data) fds (Leaves P) [] [] (recvLSTAT b ssh reqId data) :=
  recvStatWith_program hssh
    (fun name => Hands.ask (c := FsCall.lstat name) (by simp [handed]) nofun nofun) _ _ _

theorem recvSetSTAT_program (reqId : Nat) (data : Bytes) :
    PathProgram b ssh (firstName data) fds (Leaves P) [] [] (recvSetSTAT b ssh reqId data) := by
  unfold recvSetSTAT firstName
  rcases (getStringRef data).runAt 0 with ⟨_ | str, idx⟩
  · exact .quiet (silent_hands hssh _)
  apply PathProgram.one
  · intro e
    cases e <;> exact sendStatus_hands hssh _ _ _ _
  · exact fun name => setParsed_hands hssh (setFileAttributes_hands name) _ _ _

theorem recvRemove_program (reqId : Nat) (data : Bytes) :
    PathProgram b ssh (firstName data) fds (Leaves P) [] [] (recvRemove b ssh reqId data) := by
  unfold recvRemove firstName
  rcases (getStringRef data).runAt 0 with ⟨_ | str, idx⟩
  · exact .quiet (silent_hands hssh _)
  dsimp only
  by_cases hlong : maxFilename < str.length
  · rw [if_pos hlong]
    exact .quiet (silent_hands hssh _)
  rw [if_neg hlong]
  apply PathProgram.one
  · intro e
    cases e <;> exact sendStatus_hands hssh _ _ _ _
  · intro name
    apply Hands.call (c := FsCall.lstat name) (by simp [handed]) nofun (fun _ => rfl)
    intro look
    refine Hands.ite (fun _ => sendStatus_hands hssh _ _ _ _) fun _ => ?_
    apply Hands.call (c := FsCall.unlink name) (by simp [handed]) nofun (fun _ => rfl)
    intro r
    cases r <;> exact sendStatus_hands hssh _ _ _ _

theorem recvRename_program (reqId : Nat) (data : Bytes) :
    PathProgram b ssh (renameNames data) fds (Leaves P) [] [] (recvRename b ssh reqId data) := by
  have hstatus : ∀ {paths : List Bytes} (e : PathErr),
      Hands paths fds (Leaves P) (renameStatus ssh reqId e) := by
    intro paths e
    cases e <;> exact sendStatus_hands hssh _ _ _ _
  unfold recvRename renameNames
  rcases (getStringRef data).runAt 0 with ⟨_ | str, idx⟩
  · exact .quiet (hstatus _)
  apply PathProgram.check hstatus
  intro old
  dsimp only
  rcases (getStringRef data).runAt idx with ⟨_ | str', _⟩
  · exact .tail (Or.inr rfl) (hstatus _)
  apply PathProgram.check hstatus
  intro name
  apply PathProgram.tail (Or.inr rfl)
  apply (renameNoReplace_hands old name).bind
  intro r _
  cases r <;> exact sendStatus_hands hssh _ _ _ _

end Requests

theorem pathsCanonical_default {ssh : Session} (hssh : PathsCanonical ssh) (p : Bytes)
    (hp : Canonical p) : PathsCanonical { ssh with sftpDefaultPath := some p } :=
  ⟨fun _ hq => Option.some.inj hq ▸ hp, hssh.2⟩

theorem pathsCanonical_confine {ssh : Session} (hssh : PathsCanonical ssh) (p : Bytes)
    (hp : Canonical p) : PathsCanonical { ssh with sftpConfinePath := some p } :=
  ⟨hssh.1, fun _ hq => Option.some.inj hq ▸ hp⟩

theorem recvDo_program {b : Build} {ssh : Session} (hssh : PathsCanonical ssh) (type reqId : Nat)
    (data : Bytes) :
    PathProgram b ssh (requestNames type data) anyFds (Leaves PathsCanonical) [] []
      (recvDo b ssh type reqId data) := by
  have herror : PathsCanonical { ssh with error := .memoryE } := hssh
  have hstore := pathsCanonical_default hssh
  have hfile : ∀ cur, requestFile ssh data = some cur → anyFds (.used (.file, cur.fd)) :=
    fun _ _ => trivial
  have hdir : ∀ cur, requestDir ssh data = some cur → anyFds (.used (.dir, cur.dir)) :=
    fun _ _ => trivial
  unfold recvDo
  split
  · exact recvOpen_program hssh reqId data
  · exact .quiet (recvClose_hands hssh reqId data)
  · exact .quiet (recvRead_hands hssh reqId hfile)
  · exact .quiet (recvWrite_hands hssh reqId hfile)
  · exact recvLSTAT_program hssh reqId data
  · exact .quiet (recvFSTAT_hands hssh reqId hfile)
  · exact recvSetSTAT_program hssh reqId data
  · exact .quiet (recvFSetSTAT_hands hssh reqId hfile)
  · exact recvOpenDir_program hssh reqId data
  · exact .quiet (recvReadDir_hands hssh reqId hdir fun _ _ => hssh)
  · exact recvRemove_program hssh reqId data
  · exact recvMKDIR_program hssh reqId data
  · exact recvRMDIR_program hssh reqId data
  · exact .quiet (recvRealPath_hands hssh herror hstore reqId data)
  · exact recvSTAT_program hssh reqId data
  · exact recvRename_program hssh reqId data
  · exact .quiet (recvUnknown_hands hssh reqId data)

end Sftp

end WolfSsh
