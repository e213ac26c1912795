import WolfSsh.SftpComplete
import WolfSsh.SftpConfine

/-! Directory listings from the server's READDIR replies to what wolfSSH_SFTP_LS returns. -/

namespace WolfSsh.Sftp

/-- The entries that LS returned are all that the replies hold, from where the listing began up to the
EOF status. -/
def Complete (r : Client × List NameEntry) : Prop :=
  Orderly r.1.listedFrom.1 r.1.listedFrom.2 r.2

/-- A client that is called for its listings, with a directory and what it meets at the channel. -/
def Client.calls (c : Client) (xs : List (Bytes × List Exchange)) : Client :=
  xs.foldl (fun c x => (c.ls x.1 x.2).1) c

theorem calls_inv {c : Client} {xs : List (Bytes × List Exchange)}
    (hxs : ∀ x ∈ xs, ∀ y ∈ x.2, y.Waits) (hc : Inv c) : Inv (c.calls xs) := by
  induction xs generalizing c with
  | nil => exact hc
  | cons x xs ih =>
    exact ih (fun y hy => hxs y (List.mem_cons_of_mem x hy))
      (ls_out (hxs x List.mem_cons_self) x.1 hc).1

theorem packet_inj {id type id' type' : Nat} {body rest body' rest' : Bytes}
    (h : packet id type body ++ rest = packet id' type' body' ++ rest') (hid : id < 2 ^ 32)
    (hid' : id' < 2 ^ 32) (hbody : body.length ≤ maxSftpName) (hbody' : body'.length ≤ maxSftpName) :
    UInt8.ofNat type = UInt8.ofNat type' ∧ body = body' ∧ rest = rest' := by
  rw [maxSftpName] at hbody hbody'
  rw [packet, packet, List.append_assoc, List.append_assoc] at h
  obtain ⟨hhead, hrest⟩ := List.append_inj h (by rw [setHeader_length, setHeader_length])
  obtain ⟨hlen, htype, -⟩ := @setHeader_parts id body.length type hid (by omega)
  obtain ⟨hlen', htype', -⟩ := @setHeader_parts id' body'.length type' hid' (by omega)
  rw [hhead, hlen'] at hlen
  rw [hhead, htype'] at htype
  obtain ⟨hbodies, hrests⟩ := List.append_inj hrest (by omega)
  exact ⟨htype.symm, hbodies, hrests⟩

theorem Orderly.status {id : Nat} {body rest : Bytes} {entries : List NameEntry}
    (h : Orderly id (packet id ftpStatus body ++ rest) entries) (hbody : body.length ≤ maxSftpName) :
    doStatus body = some ftpEof := by
  generalize hs : packet id ftpStatus body ++ rest = stream at h
  cases h with
  | eof hid hsize hstatus =>
    obtain ⟨-, rfl, -⟩ := packet_inj hs hid hid hbody hsize
    exact hstatus
  | names hid hsize hnames hmore =>
    exact absurd (packet_inj hs hid hid hbody hsize).1 (by decide)

theorem Orderly.after_names {id : Nat} {body rest : Bytes} {entries : List NameEntry}
    (h : Orderly id (packet id ftpName body ++ rest) entries) (hbody : body.length ≤ maxSftpName) :
    ∃ more, Orderly (nextId id) rest more := by
  generalize hs : packet id ftpName body ++ rest = stream at h
  cases h with
  | eof hid hsize hstatus => exact absurd (packet_inj hs hid hid hbody hsize).1 (by decide)
  | names hid hsize hnames hmore =>
    obtain ⟨-, -, rfl⟩ := packet_inj hs hid hid hbody hsize
    exact ⟨_, hmore⟩

/-- A channel on which everything is there at once. -/
def readyExchange : Exchange where
  sends := [{ send := ⟨.ok 4096, .success⟩ }]
  head := [{ read := ⟨.ok 4096, .success⟩ }]
  body := [{ read := ⟨.ok 4096, .success⟩ }]

theorem waits_of_read (held : Code → Bool) (n : Nat) :
    ({ read := ⟨.ok n, .success⟩ } : Poll).Waits held := by
  intro room c ret c' hroom h
  rw [Poll.round, if_neg Bool.false_ne_true, Poll.look] at h
  dsimp only at h
  rw [if_neg (by decide), Poll.take, streamRead, if_neg (by omega)] at h
  cases h

theorem readyExchange_waits : readyExchange.Waits := by
  have hsend : ({ send := ⟨.ok 4096, .success⟩ } : Sends).Waits isWant := by
    intro rest error ret error' h
    rw [bufferSend, if_neg (by decide), sendRest, driveWorker] at h
    by_cases hbusy : (false = true ∨ error = .windowFull ∨ error = .rekeying)
    · rw [if_pos hbusy] at h
      cases h
      rfl
    · rw [if_neg hbusy] at h
      dsimp only at h
      rw [streamSend] at h
      split at h <;> cases h
  refine ⟨?_, ?_, ?_⟩
  · intro p hp
    rw [List.mem_singleton.mp hp]
    exact waits_of_read isWant 4096
  · intro p hp
    rw [List.mem_singleton.mp hp]
    exact waits_of_read isWant 4096
  · intro x hx
    rw [List.mem_singleton.mp hx]
    exact hsend

/-- A call of the server that the channel does not hold up. -/
def readyScript : Script where
  head := readyExchange.head
  body := readyExchange.body
  send := { send := ⟨.ok 4096, .success⟩ }

theorem readyScript_waits : readyScript.Waits where
  bodyMem := rfl
  head p hp := (readyExchange_waits.head p hp).busy
  body p hp := (readyExchange_waits.body p hp).busy
  send := (readyExchange_waits.send _ (List.mem_singleton_self _)).busy

/-- A call that gets three octets of a request and then has to wait, or finds the window full. -/
def heldScript : Script where
  head := [{ read := ⟨.ok 3, .success⟩ }]
  body := [{ read := ⟨.ok 3, .success⟩ }]
  send := { send := ⟨.error .windowFull, .windowFull⟩ }

theorem heldScript_waits : heldScript.Waits := by
  refine ⟨rfl, ?_, ?_, ?_⟩
  · intro p hp
    rw [List.mem_singleton.mp hp]
    exact waits_of_read isBusy 3
  · intro p hp
    rw [List.mem_singleton.mp hp]
    exact waits_of_read isBusy 3
  · intro rest error ret error' h
    change bufferSend { send := ⟨.error .windowFull, .windowFull⟩ } rest error = _ at h
    rw [bufferSend, if_neg (by decide), sendRest, driveWorker] at h
    by_cases hbusy : (false = true ∨ error = .windowFull ∨ error = .rekeying)
    · rw [if_pos hbusy] at h
      cases h
      rfl
    · rw [if_neg hbusy] at h
      dsimp only at h
      rw [streamSend] at h
      split at h <;> cases h
      rfl

def fileA : NameEntry := ⟨ascii "a", ascii "a", {}⟩

/-- A client before the replies to REALPATH and OPENDIR, a NAME packet with one entry, the status that
the READDIR after it is answered with, and the OK to CLOSE. -/
def oneEntryClient (status : Nat) (reason : Bytes) : Client where
  chan := ⟨sendName 0 [⟨ascii "/d", ascii "/d", {}⟩] ++ createPacket 1 ftpHandle (handleIdEncode (0, 0)) ++
    (packet 2 ftpName (nameBody [fileA]) ++ (packet 3 ftpStatus (statusBody status reason) ++
      createStatus ftpOk 4 (ascii "Closed File"))), .success⟩
  reqId := 0

def readdirFailed : Client := oneEntryClient ftpFailure (ascii "Unable To Read Directory")

/-- A file system whose directory stream `dir` holds `names`. -/
def dirEnv (dir : Nat) (names : List Bytes) : Env := fun h c =>
  match c with
  | .malloc _ => true
  | .readdir d =>
    if d = dir then
      match names[readdirCalls dir h]? with
      | some n => DirRead.entry n
      | none => DirRead.done
    else DirRead.done
  | .entryLstat _ => .error .other
  | .longName name atr => some (longName ⟨0, 1, 0, 0⟩ name atr)
  | c => plainEnv h c

theorem dirEnv_holds {dir : Nat} {names : List Bytes} (h : ∀ n ∈ names, n.length < 256) :
    HoldsDir (dirEnv dir names) dir names [] where
  memory _ _ := rfl
  short := h
  readdir _ := if_pos rfl
  lstat _ _ _ hok := nomatch hok
  longName _ _ _ := ⟨_, rfl⟩

def readdirRequest (reqId : Nat) : Request := ⟨12, reqId, copyString (handleIdEncode (0, 0))⟩

def threeDigits (n : Nat) : Bytes := [n / 100, n / 10 % 10, n % 10].map fun d => UInt8.ofNat (48 + d)

/-- A directory of 120 files takes two batches. -/
def manyNames : List Bytes := (List.range 120).map threeDigits

def manyRequests : List Request := [readdirRequest 2, readdirRequest 3, readdirRequest 4]

/-- A server that opened that directory, with three READDIR requests before it. -/
def manyServer : Conn where
  server := ⟨{ dirList := [⟨3, ascii "/d", false, (0, 0)⟩] }, []⟩
  stream := wireRequests manyRequests

/-- The calls of the server, some of them held up. -/
def manyScripts : List Script :=
  [heldScript, readyScript, heldScript, heldScript, readyScript, readyScript, heldScript, readyScript]

theorem manyServer_requested :
    Requested (dirEnv 3 manyNames) manyServer manyRequests (0, 0) 3 manyNames manyScripts where
  recvState := rfl
  ran := rfl
  sent := rfl
  stream := rfl
  readsDir r hr := by
    have hdata : RequestsDir (0, 0) (copyString (handleIdEncode (0, 0))) := ⟨4, by decide, by decide⟩
    simp only [manyRequests, List.mem_cons, List.not_mem_nil, or_false] at hr
    rcases hr with rfl | rfl | rfl <;> exact ⟨rfl, hdata⟩
  fits r hr := by
    simp only [manyRequests, List.mem_cons, List.not_mem_nil, or_false] at hr
    rcases hr with rfl | rfl | rfl <;> exact ⟨by decide, by decide, by decide⟩
  holds := by
    refine dirEnv_holds fun n hn => ?_
    obtain ⟨k, -, rfl⟩ := List.mem_map.mp hn
    show 3 < 256
    decide
  lists_from := ⟨⟨3, ascii "/d", false, (0, 0)⟩, rfl, rfl, rfl⟩
  waits x hx := by
    simp only [manyScripts, List.mem_cons, List.not_mem_nil, or_false] at hx
    have hcases : x = heldScript ∨ x = readyScript := by tauto
    rcases hcases with rfl | rfl
    · exact heldScript_waits
    · exact readyScript_waits

end WolfSsh.Sftp
