import WolfSsh.SftpNames

/-! The replies to successive READDIR requests on one handle: they list the directory in batches, and
say that it is at its end from then on. -/

namespace WolfSsh.Sftp

open Calls

def readdirCalls (dir : Nat) (h : List Event) : Nat :=
  h.countP fun e => decide (e.1 = FsCall.readdir dir)

/-- From the history `h₀` on the directory stream `dir` is read without errors, and holds `names`;
`d_name` has room for 255 octets. -/
structure HoldsDir (env : Env) (dir : Nat) (names : List Bytes) (h₀ : List Event) : Prop where
  memory : ∀ h sz, env h (.malloc sz) = true
  short : ∀ n ∈ names, n.length < 256
  readdir : ∀ h, env (h₀ ++ h) (.readdir dir) =
    match names[readdirCalls dir h]? with
    | some n => DirRead.entry n
    | none => DirRead.done
  lstat : ∀ h p atr, env h (.entryLstat p) = .ok atr → ∃ s, atr = getAttributesHelper s
  longName : ∀ h name atr, ∃ t, env h (.longName name atr) = some (longName t name atr)

def readdirEof (id : Nat) : Bytes := createStatus ftpEof id (ascii "No More Files In Directory")

/-- The replies to READDIR requests in turn: to the ids `named` a batch of entries each, in the order
they were read, and to the ids `ended` after them the end. `rest` is not listed yet. -/
structure Lists (names : List Bytes) (named ended : List Nat) (batches : List (List NameEntry))
    (rest : List Bytes) (replies : List Bytes) : Prop where
  replies : replies =
    List.zipWith (fun id es => sendName id es.reverse) named batches ++ ended.map readdirEof
  count : named.length = batches.length
  names : names = batches.flatten.map NameEntry.fName ++ rest
  ended : ended ≠ [] → rest = []
  size : ∀ es ∈ batches, es ≠ [] ∧ es.length ≤ maxSftpReaddir
  carried : ∀ es ∈ batches, ∀ e ∈ es, e.Carried

theorem Lists.start (names : List Bytes) : Lists names [] [] [] names [] :=
  ⟨rfl, rfl, rfl, by simp, nofun, nofun⟩

section Lists

variable {names rest replies : List Bytes} {named ended : List Nat} {batches : List (List NameEntry)}

theorem Lists.eof (h : Lists names named ended batches [] replies) (id : Nat) :
    Lists names named (ended ++ [id]) batches [] (replies ++ [readdirEof id]) :=
  ⟨by rw [h.replies, List.map_append, List.append_assoc, List.map_singleton], h.count, h.names,
    fun _ => rfl, h.size, h.carried⟩

theorem Lists.batch {entries : List NameEntry}
    (h : Lists names named ended batches (entries.map NameEntry.fName ++ rest) replies)
    (hne : entries ≠ []) (hsize : entries.length ≤ maxSftpReaddir) (hcarried : ∀ e ∈ entries, e.Carried)
    (id : Nat) : Lists names (named ++ [id]) ended (batches ++ [entries]) rest
      (replies ++ [sendName id entries.reverse]) := by
  have hended : ended = [] := by
    by_contra hended
    obtain ⟨hnil, -⟩ := List.append_eq_nil_iff.mp (h.ended hended)
    exact hne (List.map_eq_nil_iff.mp hnil)
  subst hended
  refine ⟨?_, by simp [h.count], ?_, by simp, ?_, ?_⟩
  · rw [h.replies, List.zipWith_append h.count]
    simp
  · rw [h.names, List.flatten_append, List.map_append, List.append_assoc]
    simp
  · intro es hes
    rcases List.mem_append.mp hes with hes | hes
    · exact h.size es hes
    · rw [List.mem_singleton.mp hes]
      exact ⟨hne, hsize⟩
  · intro es hes
    rcases List.mem_append.mp hes with hes | hes
    · exact h.carried es hes
    · rw [List.mem_singleton.mp hes]
      exact hcarried

end Lists

section Entries

variable {env : Env} {dir : Nat} {names : List Bytes} {h₀ : List Event}

def lstatAnswers : (c : FsCall) → c.Ans → Prop
  | .entryLstat _, r => ∀ atr, r = .ok atr → ∃ s, atr = getAttributesHelper s
  | _, _ => True

theorem HoldsDir.answers (hdir : HoldsDir env dir names h₀) (h : List Event) (c : FsCall) :
    lstatAnswers c (env h c) := by
  cases c
  case entryLstat p => exact hdir.lstat h p
  all_goals exact True.intro

theorem entryAttributes_run (hdir : HoldsDir env dir names h₀) (ssh : Session)
    (dirName fName : Bytes) (h : List Event) :
    ∃ new, ((entryAttributes ssh dirName fName).run env h).2 = h ++ new ∧
      ((entryAttributes ssh dirName fName).run env h).1.Carried ∧ readdirCalls dir new = 0 := by
  have hsafe : Calls.Safe lstatAnswers (fun e => e.1 ≠ FsCall.readdir dir) FileAtrb.Carried
      (entryAttributes ssh dirName fName) := by
    rw [entryAttributes]
    split
    · exact Safe.pure carried_none
    split
    · exact Safe.pure carried_none
    · refine Safe.call (fun r _ => nofun) fun r hr => ?_
      cases r with
      | ok atr =>
        obtain ⟨s, rfl⟩ := hr atr rfl
        exact Safe.pure (carried_helper s)
      | error errno => exact Safe.pure carried_none
  obtain ⟨new, hnew, hcarried, hmade⟩ := Does.run hsafe hdir.answers h
  refine ⟨new, hnew, hcarried, ?_⟩
  rw [readdirCalls, List.countP_eq_zero]
  intro e he
  simpa using hmade e he

theorem readdirCalls_append (dir : Nat) (h h' : List Event) :
    readdirCalls dir (h ++ h') = readdirCalls dir h + readdirCalls dir h' :=
  List.countP_append

/-- What is left of the directory after the calls in `new`. -/
def unread (dir : Nat) (names : List Bytes) (new : List Event) : List Bytes :=
  names.drop (readdirCalls dir new)

theorem readdir_unread (hdir : HoldsDir env dir names h₀) (new : List Event) :
    env (h₀ ++ new) (.readdir dir) =
      match unread dir names new with
      | n :: _ => DirRead.entry n
      | [] => DirRead.done := by
  rw [hdir.readdir new, ← List.head?_drop, unread]
  rcases names.drop (readdirCalls dir new) with _ | ⟨n, rest⟩ <;> rfl

theorem unread_readdir (new more : List Event) (r : (FsCall.readdir dir).Ans)
    (hmore : readdirCalls dir more = 0) :
    unread dir names (new ++ (⟨.readdir dir, r⟩ :: more)) = (unread dir names new).tail := by
  have hone : readdirCalls dir (⟨.readdir dir, r⟩ :: more) = 1 := by
    have h : readdirCalls dir (⟨.readdir dir, r⟩ :: more) = readdirCalls dir more + 1 := by
      rw [readdirCalls, List.countP_cons_of_pos (by simp), readdirCalls]
    rw [h, hmore]
  rw [unread, unread, readdirCalls_append, hone, List.tail_drop]

theorem sftpnameReaddir_done (hdir : HoldsDir env dir names h₀) (ssh : Session) (dirName : Bytes)
    {new : List Event} (hleft : unread dir names new = []) :
    ((sftpnameReaddir ssh dir dirName).run env (h₀ ++ new)).1 = .eof := by
  have hread := readdir_unread hdir new
  rw [hleft] at hread
  rw [sftpnameReaddir, run_bind]
  have hask : ((wreaddir dir).run env (h₀ ++ new)).1 = DirRead.done := hread
  rw [hask]
  rfl

theorem sftpnameReaddir_entry (hdir : HoldsDir env dir names h₀) (ssh : Session) (dirName : Bytes)
    {new : List Event} {n : Bytes} {rest : List Bytes} (hleft : unread dir names new = n :: rest) :
    ∃ (e : NameEntry) (more : List Event),
      (sftpnameReaddir ssh dir dirName).run env (h₀ ++ new) = (.entry e, h₀ ++ (new ++ more)) ∧
        e.fName = n ∧ e.Carried ∧ unread dir names (new ++ more) = rest := by
  have hread := readdir_unread hdir new
  rw [hleft] at hread
  have hmem : n ∈ names := by
    have h : n ∈ unread dir names new := by simp [hleft]
    exact List.mem_of_mem_drop h
  have hask : (wreaddir dir).run env (h₀ ++ new) =
      (DirRead.entry n, h₀ ++ new ++ [⟨.readdir dir, env (h₀ ++ new) (.readdir dir)⟩]) :=
    Prod.ext hread rfl
  have hmalloc (h : List Event) (sz : Nat) :
      (wmalloc sz).run env h = (true, h ++ [⟨.malloc sz, env h (.malloc sz)⟩]) :=
    Prod.ext (hdir.memory h sz) rfl
  let e₁ : Event := ⟨.readdir dir, env (h₀ ++ new) (.readdir dir)⟩
  let e₂ : Event := ⟨.malloc (n.length + 1), env (h₀ ++ new ++ [e₁]) (.malloc (n.length + 1))⟩
  obtain ⟨seen, hseen, hcarried, hquiet⟩ :=
    entryAttributes_run hdir ssh dirName n (h₀ ++ new ++ [e₁] ++ [e₂])
  set atr := ((entryAttributes ssh dirName n).run env (h₀ ++ new ++ [e₁] ++ [e₂])).1
  have hattributes : (entryAttributes ssh dirName n).run env (h₀ ++ new ++ [e₁] ++ [e₂]) =
      (atr, h₀ ++ new ++ [e₁] ++ [e₂] ++ seen) := Prod.ext rfl hseen
  obtain ⟨t, ht⟩ := hdir.longName (h₀ ++ new ++ [e₁] ++ [e₂] ++ seen) n atr
  let e₃ : Event := ⟨.longName n atr, env (h₀ ++ new ++ [e₁] ++ [e₂] ++ seen) (.longName n atr)⟩
  have hlong : (createLongName n atr).run env (h₀ ++ new ++ [e₁] ++ [e₂] ++ seen) =
      (some (longName t n atr), h₀ ++ new ++ [e₁] ++ [e₂] ++ seen ++ [e₃]) := Prod.ext ht rfl
  have hshort := hdir.short n hmem
  have hlonger := length_longName t n atr
  refine ⟨⟨n, longName t n atr, atr⟩, e₁ :: (e₂ :: (seen ++ [e₃])), ?_, rfl,
    ⟨hshort, by dsimp only; omega, hcarried⟩, ?_⟩
  · rw [sftpnameReaddir, run_bind, hask]
    dsimp only
    rw [run_bind, hmalloc]
    dsimp only
    rw [if_pos rfl, run_bind, hattributes]
    dsimp only
    rw [run_bind, hlong]
    simp [Calls.run, pure, List.append_assoc, e₁, e₂, e₃]
  · have hmore : readdirCalls dir (e₂ :: (seen ++ [e₃])) = 0 := by
      rw [readdirCalls] at hquiet ⊢
      simp [hquiet, e₂, e₃]
    rw [unread_readdir new _ _ hmore, hleft, List.tail_cons]

theorem unread_other {new more : List Event} (hmore : readdirCalls dir more = 0) :
    unread dir names (new ++ more) = unread dir names new := by
  rw [unread, readdirCalls_append, hmore, Nat.add_zero, unread]

/-- Up to `n` entries: either the end of the directory was met before, or the rest is still there. -/
theorem readEntries_run (hdir : HoldsDir env dir names h₀) (ssh : Session) (dirName : Bytes) (n : Nat)
    (list : List NameEntry) (new : List Event) :
    ∃ (es : List NameEntry) (isEof : Bool) (more : List Event),
      (readEntries ssh dir dirName n list).run env (h₀ ++ new) =
        ((.success, isEof, es.reverse ++ list), h₀ ++ (new ++ more)) ∧
      es.map NameEntry.fName = (unread dir names new).take n ∧ (∀ e ∈ es, e.Carried) ∧
      (isEof = true ∧ (unread dir names new).length < n ∨
        isEof = false ∧ n ≤ (unread dir names new).length ∧
          unread dir names (new ++ more) = (unread dir names new).drop n) := by
  induction n generalizing list new with
  | zero => exact ⟨[], false, [], by simp [readEntries, Calls.run, pure], by simp, by simp, by simp⟩
  | succ n ih =>
    let e₁ : Event := ⟨.malloc 64, env (h₀ ++ new) (.malloc 64)⟩
    have hmalloc : (wmalloc 64).run env (h₀ ++ new) = (true, h₀ ++ (new ++ [e₁])) :=
      Prod.ext (hdir.memory _ 64) (List.append_assoc _ _ _)
    have hleft : unread dir names (new ++ [e₁]) = unread dir names new := by
      apply unread_other
      simp [readdirCalls, e₁]
    cases hrest : unread dir names new with
    | nil =>
      rw [hrest] at hleft
      obtain ⟨more, hmore⟩ := run_history env (sftpnameReaddir ssh dir dirName) (h₀ ++ (new ++ [e₁]))
      have hdone : (sftpnameReaddir ssh dir dirName).run env (h₀ ++ (new ++ [e₁])) =
          (.eof, h₀ ++ (new ++ [e₁]) ++ more) :=
        Prod.ext (sftpnameReaddir_done hdir ssh dirName hleft) hmore
      refine ⟨[], true, e₁ :: more, ?_, by simp, by simp, Or.inl ⟨rfl, by simp⟩⟩
      rw [readEntries, run_bind, hmalloc]
      dsimp only
      rw [if_pos rfl, run_bind, hdone]
      simp [Calls.run, pure, List.append_assoc]
    | cons name rest =>
      rw [hrest] at hleft
      obtain ⟨e, more, hrun, hname, hcarried, hleft'⟩ := sftpnameReaddir_entry hdir ssh dirName hleft
      obtain ⟨es, isEof, others, hrest', hnames, hall, hend⟩ := ih (e :: list) (new ++ [e₁] ++ more)
      rw [hleft'] at hnames hend
      refine ⟨e :: es, isEof, [e₁] ++ more ++ others, ?_, ?_, ?_, ?_⟩
      · rw [readEntries, run_bind, hmalloc]
        dsimp only
        rw [if_pos rfl, run_bind, hrun]
        dsimp only
        rw [hrest']
        simp [List.append_assoc]
      · rw [List.map_cons, hnames, hname, List.take_succ_cons]
      · intro x hx
        rcases List.mem_cons.mp hx with rfl | hx
        · exact hcarried
        · exact hall x hx
      · rw [List.length_cons, List.drop_succ_cons]
        rcases hend with ⟨heof, hlt⟩ | ⟨heof, hle, hmore⟩
        · exact Or.inl ⟨heof, Nat.succ_lt_succ hlt⟩
        · refine Or.inr ⟨heof, Nat.succ_le_succ hle, ?_⟩
          rw [← hmore]
          simp only [List.append_assoc]

end Entries

theorem findDirHandle_id {ssh : Session} {id : HandleId} {cur : DirEntry}
    (h : findDirHandle ssh id = some cur) : cur.id = id := by
  simpa using List.find?_some h

theorem findDirHandle_setEof {ssh : Session} {id : HandleId} {cur : DirEntry}
    (h : findDirHandle ssh id = some cur) (isEof : Bool) :
    findDirHandle (setEof ssh id isEof) id = some { cur with isEof := isEof } := by
  have hsame : ((fun e : DirEntry => decide (e.id = id)) ∘
      fun e => if e.id = id then { e with isEof := isEof } else e) = fun e => decide (e.id = id) := by
    funext e
    by_cases he : e.id = id <;> simp [he]
  have hfind : (ssh.dirList.find? fun e => decide (e.id = id)) = some cur := h
  rw [findDirHandle, setEof, List.find?_map, hsame, hfind, Option.map_some,
    if_pos (findDirHandle_id h)]

/-- A READDIR request on the handle `id`. -/
def RequestsDir (id : HandleId) (data : Bytes) : Prop :=
  ∃ idx, (getSize data).runAt 0 = (.ok handleIdSz, idx) ∧ handleIdDecode (data.drop idx) = id

def DirEntry.unlisted (names : List Bytes) (new : List Event) (cur : DirEntry) : List Bytes :=
  if cur.isEof then [] else Sftp.unread cur.dir names new

/-- The handle is on the list, for the directory stream `dir`, with `rest` to list. -/
def ListsFrom (ssh : Session) (id : HandleId) (dir : Nat) (names : List Bytes) (new : List Event)
    (rest : List Bytes) : Prop :=
  ∃ cur, findDirHandle ssh id = some cur ∧ cur.dir = dir ∧ cur.unlisted names new = rest

section Replies

variable {env : Env} {dir : Nat} {names : List Bytes} {h₀ : List Event}

theorem readDirReply_run (hdir : HoldsDir env dir names h₀) (ssh : Session) (reqId : Nat)
    (list : List NameEntry) (h : List Event) :
    ∃ sz : Nat, (readDirReply ssh reqId .success list).run env h =
      (⟨ssh, .success, some (if list = [] then
          readdirEof reqId
        else sendName reqId list)⟩, h ++ [⟨.malloc sz, env h (.malloc sz)⟩]) := by
  have hmalloc (sz : Nat) :
      (wmalloc sz).run env h = (true, h ++ [⟨.malloc sz, env h (.malloc sz)⟩]) :=
    Prod.ext (hdir.memory h sz) rfl
  rw [readDirReply, if_pos rfl]
  by_cases hnil : list = []
  · refine ⟨(readdirEof reqId).length, ?_⟩
    rw [if_pos hnil, if_pos hnil, sendStatus, run_bind, hmalloc]
    rfl
  · refine ⟨(sendName reqId list).length, ?_⟩
    rw [if_neg hnil, if_neg hnil, run_bind, hmalloc]
    rfl

theorem recvReadDir_lists (hdir : HoldsDir env dir names h₀) {ssh : Session} {id : HandleId}
    {rest : List Bytes} {new : List Event} (hlists : ListsFrom ssh id dir names new rest)
    {data : Bytes} (hreq : RequestsDir id data) (reqId : Nat) :
    ∃ (ssh' : Session) (more : List Event) (entries : List NameEntry) (rest' : List Bytes),
      (recvReadDir ssh reqId data).run env (h₀ ++ new) =
        (⟨ssh', .success, some (if entries = [] then
            readdirEof reqId
          else sendName reqId entries.reverse)⟩, h₀ ++ (new ++ more)) ∧
      ListsFrom ssh' id dir names (new ++ more) rest' ∧
      rest = entries.map NameEntry.fName ++ rest' ∧ (∀ e ∈ entries, e.Carried) ∧
      (entries.length = maxSftpReaddir ∨ entries.length < maxSftpReaddir ∧ rest' = []) := by
  obtain ⟨idx, hsize, hid⟩ := hreq
  obtain ⟨cur, hcur, hcurdir, hrest⟩ := hlists
  have hnil : ([] : List NameEntry).length < maxSftpReaddir := by decide
  have hsz : ¬ maxHandle < handleIdSz := by decide
  rw [recvReadDir, hsize]
  dsimp only
  rw [if_neg hsz, if_neg (by simp), hid, hcur]
  dsimp only
  by_cases heof : cur.isEof
  · rw [DirEntry.unlisted, if_pos heof] at hrest
    subst hrest
    obtain ⟨sz, hrun⟩ := readDirReply_run hdir ssh reqId [] (h₀ ++ new)
    refine ⟨ssh, [⟨.malloc sz, env (h₀ ++ new) (.malloc sz)⟩], [], [], ?_,
      ⟨cur, hcur, hcurdir, by rw [DirEntry.unlisted, if_pos heof]⟩, rfl, nofun, Or.inr ⟨hnil, rfl⟩⟩
    rw [if_pos heof, hrun]
    simp [List.append_assoc]
  · rw [DirEntry.unlisted, if_neg heof, hcurdir] at hrest
    obtain ⟨es, isEof, more, hread, hnames, hall, hend⟩ :=
      readEntries_run hdir ssh cur.dirName maxSftpReaddir [] new
    have hentries := findDirHandle_setEof hcur isEof
    obtain ⟨sz, hrun⟩ := readDirReply_run hdir (setEof ssh id isEof) reqId es.reverse
      (h₀ ++ (new ++ more))
    rw [hrest] at hnames hend
    refine ⟨setEof ssh id isEof,
      more ++ [⟨.malloc sz, env (h₀ ++ (new ++ more)) (.malloc sz)⟩], es, rest.drop maxSftpReaddir,
      ?_, ⟨_, hentries, hcurdir, ?_⟩, ?_, hall, ?_⟩
    · rw [if_neg heof, run_bind, hcurdir, hread]
      dsimp only
      rw [List.append_nil, findDirHandle_id hcur, hrun]
      simp [List.append_assoc]
    · rw [DirEntry.unlisted]
      rcases hend with ⟨rfl, hlt⟩ | ⟨rfl, -, hmore⟩
      · rw [if_pos rfl, List.drop_eq_nil_of_le (Nat.le_of_lt hlt)]
      · rw [if_neg (by simp), ← hmore, hcurdir, ← List.append_assoc]
        apply unread_other
        simp [readdirCalls]
    · rw [hnames, List.take_append_drop]
    · have hlen : es.length = min maxSftpReaddir rest.length := by
        rw [← List.length_take, ← hnames, List.length_map]
      rcases Nat.lt_or_ge rest.length maxSftpReaddir with hlt | hge
      · exact Or.inr ⟨by omega, List.drop_eq_nil_of_le (Nat.le_of_lt hlt)⟩
      · exact Or.inl (by omega)

end Replies

end WolfSsh.Sftp
