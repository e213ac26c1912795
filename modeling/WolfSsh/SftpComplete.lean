import WolfSsh.SftpClient
import WolfSsh.SftpListed

/-! Whether a listing that wolfSSH_SFTP_LS returns is complete. -/

namespace WolfSsh.Sftp

def packet (id type : Nat) (body : Bytes) : Bytes := setHeader id type body.length ++ body

def nextId (id : Nat) : Nat := (id + 1) % 2 ^ 32

/-- The replies to READDIR requests of the ids from `id` on, at the front of a stream: NAME packets
with the entries `entries` between them, and then the EOF status. -/
inductive Orderly : Nat → Bytes → List NameEntry → Prop
  | eof {id : Nat} {body rest : Bytes} (hid : id < 2 ^ 32) (hsize : body.length ≤ maxSftpName)
    (hstatus : doStatus body = some ftpEof) : Orderly id (packet id ftpStatus body ++ rest) []
  | names {id : Nat} {body rest : Bytes} {e : NameEntry} {es more : List NameEntry}
    (hid : id < 2 ^ 32) (hsize : body.length ≤ maxSftpName) (hnames : nameList body = some (e :: es))
    (hmore : Orderly (nextId id) rest more) :
    Orderly id (packet id ftpName body ++ rest) (e :: es ++ more)

/-- wolfSSH_SFTP_DoName has read a part of the packet that is next, or nothing of it. -/
def Reading (c : Client) (id type : Nat) (body rest : Bytes) : Prop :=
  match c.nameState with
  | none => c.chan.stream = packet id type body ++ rest ∧ c.reqId = id
  | some (.getHeader buf) =>
    buf.length < sftpHeader ∧ buf ++ c.chan.stream = packet id type body ++ rest ∧ c.reqId = id
  | some (.doStatus sz buf) => type = ftpStatus ∧ sz = body.length ∧ buf.length < sz ∧
    buf ++ c.chan.stream = body ++ rest ∧ c.reqId = nextId id
  | some (.getPacket sz buf) => type = ftpName ∧ sz = body.length ∧ buf.length < sz ∧
    buf ++ c.chan.stream = body ++ rest ∧ c.reqId = nextId id

structure Exchange.Waits (x : Exchange) : Prop where
  head : ∀ p ∈ x.head, p.Waits isWant
  body : ∀ p ∈ x.body, p.Waits isWant
  send : ∀ s ∈ x.sends, s.Waits isWant

/-- What DoName leaves: it waits for the rest of the packet, or it has made `n` of it, with `post`
for the error. -/
def NameOut (id type : Nat) (body rest : Bytes) (n : List NameEntry) (post : Code → Prop)
    (r : Client × List NameEntry) : Prop :=
  r.2 = [] ∧ isWant r.1.error = true ∧ Reading r.1 id type body rest ∨
    r.2 = n ∧ post r.1.error ∧ r.1.nameState = none ∧ r.1.chan.stream = rest ∧ r.1.reqId = nextId id

section DoName

variable {x : Exchange} {c : Client} {id : Nat} {body rest buf : Bytes}

theorem namePacket_out (hx : x.Waits) (hbuf : buf.length < body.length)
    (hstream : buf ++ c.chan.stream = body ++ rest) (hid : c.reqId = nextId id) {e : NameEntry}
    {es : List NameEntry} (hnames : nameList body = some (e :: es)) :
    NameOut id ftpName body rest (e :: es) (fun _ => True) (c.namePacket x body.length buf) := by
  have hread := bufferRead_out rfl hx.body hbuf c.chan
  rw [Client.namePacket]
  generalize bufferRead body.length x.body buf c.chan = out at hread
  cases hread with
  | @waits ret buf' c' hlen hkept hwant =>
    dsimp only
    rw [if_pos (noticeError_of_isWant hwant)]
    exact Or.inl ⟨rfl, hwant, rfl, rfl, hlen, hkept.trans hstream, hid⟩
  | @full buf' c' hlen hkept =>
    obtain ⟨rfl, hrest⟩ := List.append_inj (hkept.trans hstream) hlen
    have hsize : ¬ buf'.length < uint32Sz := by
      intro hlt
      rw [nameList, doNameBody, Fallible.runAt_bind] at hnames
      rcases hcount : (getUint32 buf').runAt 0 with ⟨_ | count, idx⟩
      · simp [hcount] at hnames
      · have hfit := (getUint32_ok hcount).2.2
        omega
    dsimp only
    rw [if_neg hsize, hnames]
    exact Or.inr ⟨rfl, trivial, rfl, hrest, hid⟩

theorem nameStatus_out (hx : x.Waits) (hbuf : buf.length < body.length)
    (hstream : buf ++ c.chan.stream = body ++ rest) (hid : c.reqId = nextId id)
    (hstatus : doStatus body = some ftpEof) :
    NameOut id ftpStatus body rest [] (fun error => isWant error = false)
      (c.nameStatus x body.length buf) := by
  have hread := bufferRead_out rfl hx.body hbuf c.chan
  rw [Client.nameStatus]
  generalize bufferRead body.length x.body buf c.chan = out at hread
  cases hread with
  | @waits ret buf' c' hlen hkept hwant =>
    dsimp only
    rw [if_pos (noticeError_of_isWant hwant)]
    exact Or.inl ⟨rfl, hwant, rfl, rfl, hlen, hkept.trans hstream, hid⟩
  | @full buf' c' hlen hkept =>
    obtain ⟨rfl, hrest⟩ := List.append_inj (hkept.trans hstream) hlen
    dsimp only
    rw [hstatus]
    exact Or.inr ⟨rfl, rfl, rfl, hrest, hid⟩

theorem getHeader_out {maxSz type : Nat} {ps : List Poll} {ch : Chan} (hps : ∀ p ∈ ps, p.Waits isWant)
    (hbuf : buf.length < sftpHeader) (hstream : buf ++ ch.stream = packet id type body ++ rest)
    (hid : id < 2 ^ 32) (hbody : 0 < body.length) (hsize : body.length ≤ maxSz)
    (hmax : maxSz ≤ 0x7FFFFFFF) :
    (∃ buf' ch', getHeader maxSz ps buf ch = (.error buf', ch') ∧ buf'.length < sftpHeader ∧
      buf' ++ ch'.stream = packet id type body ++ rest ∧ isWant ch'.error = true) ∨
    ∃ ch', getHeader maxSz ps buf ch = (.ok (UInt8.ofNat type, id, body.length), ch') ∧
      ch'.stream = body ++ rest := by
  have hread := bufferRead_out rfl hps hbuf ch
  rw [getHeader]
  generalize bufferRead sftpHeader ps buf ch = out at hread
  cases hread with
  | @waits ret buf' ch' hlen hkept hwant =>
    exact Or.inl ⟨buf', ch', rfl, hlen, hkept.trans hstream, hwant⟩
  | @full buf' ch' hlen hkept =>
    have hall := hkept.trans hstream
    rw [packet, List.append_assoc] at hall
    obtain ⟨rfl, hrest⟩ := List.append_inj hall (by rw [hlen, setHeader_length, sftpHeader])
    obtain ⟨hlength, htype, hreqId⟩ := @setHeader_parts id body.length type hid (by omega)
    refine Or.inr ⟨ch', ?_, hrest⟩
    dsimp only
    rw [hlength, htype, hreqId, if_neg (by omega), if_neg (by omega), if_neg (by omega), Nat.add_sub_cancel]

theorem nameHeader_out (hx : x.Waits) {type : Nat} {n : List NameEntry} {post : Code → Prop}
    (htype : type = ftpName ∨ type = ftpStatus) (hbuf : buf.length < sftpHeader)
    (hstream : buf ++ c.chan.stream = packet id type body ++ rest) (hreqId : c.reqId = id)
    (hid : id < 2 ^ 32) (hbody : 0 < body.length) (hsize : body.length ≤ maxSftpName)
    (hnext : ∀ c' : Client, [] ++ c'.chan.stream = body ++ rest → c'.reqId = nextId id →
      NameOut id type body rest n post
        (if type = ftpName then c'.namePacket x body.length [] else c'.nameStatus x body.length [])) :
    NameOut id type body rest n post (c.nameHeader x buf) := by
  rw [Client.nameHeader]
  rcases getHeader_out hx.head hbuf hstream hid hbody hsize (by decide) with
    ⟨buf', ch', hout, hlen, hkept, hwant⟩ | ⟨ch', hout, hrest⟩
  · have hnotice : noticeError ({ c with chan := ch' } : Client).error = true :=
      noticeError_of_isWant hwant
    rw [hout]
    dsimp only
    rw [if_pos hnotice]
    exact Or.inl ⟨rfl, hwant, hlen, hkept, hreqId⟩
  · have hcheck : ({ c with chan := ch' } : Client).checkReqId id =
        ({ c with chan := ch', reqId := nextId id }, true) := by
      rw [Client.checkReqId, if_neg (by simp [hreqId]), hreqId, nextId]
    have hout' := hnext { c with chan := ch', reqId := nextId id } hrest rfl
    rw [hout]
    dsimp only
    rw [hcheck]
    rcases htype with rfl | rfl
    · rwa [if_pos rfl] at hout'
    · rwa [if_neg (by decide)] at hout'

theorem reading_success (h : Reading c id type body rest) :
    Reading (if c.error = .wantRead ∨ c.error = .wantWrite then c.setError .success else c) id type
      body rest := by
  split
  · exact h
  · exact h

theorem doName_names (hx : x.Waits) (hreading : Reading c id ftpName body rest) (hid : id < 2 ^ 32)
    (hsize : body.length ≤ maxSftpName) {e : NameEntry} {es : List NameEntry}
    (hnames : nameList body = some (e :: es)) :
    NameOut id ftpName body rest (e :: es) (fun _ => True) (c.doName x) := by
  have hreading' := reading_success hreading
  have hbody : 0 < body.length := by
    rcases body with _ | ⟨b, bs⟩
    · simp [nameList, doNameBody, Fallible.runAt_bind, getUint32] at hnames
    · exact Nat.succ_pos _
  rw [Client.doName]
  generalize (if c.error = .wantRead ∨ c.error = .wantWrite then c.setError .success else c) = c
    at hreading' ⊢
  have hnext (c' : Client) (hstream : [] ++ c'.chan.stream = body ++ rest)
      (hreqId : c'.reqId = nextId id) : NameOut id ftpName body rest (e :: es) (fun _ => True)
        (if ftpName = ftpName then c'.namePacket x body.length [] else
          c'.nameStatus x body.length []) := by
    rw [if_pos rfl]
    exact @namePacket_out x c' id body rest [] hx hbody hstream hreqId e es hnames
  rcases hstate : c.nameState with _ | ⟨buf⟩ | ⟨sz, buf⟩ | ⟨sz, buf⟩
  · rw [Reading, hstate] at hreading'
    exact nameHeader_out hx (Or.inl rfl) (by decide) hreading'.1 hreading'.2 hid hbody hsize hnext
  · rw [Reading, hstate] at hreading'
    obtain ⟨hbuf, hstream, hreqId⟩ := hreading'
    exact nameHeader_out hx (Or.inl rfl) hbuf hstream hreqId hid hbody hsize hnext
  · rw [Reading, hstate] at hreading'
    exact absurd hreading'.1 (by decide)
  · rw [Reading, hstate] at hreading'
    obtain ⟨-, rfl, hbuf, hstream, hreqId⟩ := hreading'
    exact namePacket_out hx hbuf hstream hreqId hnames

theorem doName_eof (hx : x.Waits) (hreading : Reading c id ftpStatus body rest) (hid : id < 2 ^ 32)
    (hsize : body.length ≤ maxSftpName) (hstatus : doStatus body = some ftpEof) :
    NameOut id ftpStatus body rest [] (fun error => isWant error = false) (c.doName x) := by
  have hreading' := reading_success hreading
  have hbody : 0 < body.length := by
    rcases body with _ | ⟨b, bs⟩
    · simp [doStatus, Fallible.runAt_bind, getUint32] at hstatus
    · exact Nat.succ_pos _
  rw [Client.doName]
  generalize (if c.error = .wantRead ∨ c.error = .wantWrite then c.setError .success else c) = c
    at hreading' ⊢
  have hnext (c' : Client) (hstream : [] ++ c'.chan.stream = body ++ rest)
      (hreqId : c'.reqId = nextId id) : NameOut id ftpStatus body rest []
        (fun error => isWant error = false) (if ftpStatus = ftpName then
          c'.namePacket x body.length [] else c'.nameStatus x body.length []) := by
    rw [if_neg (by decide)]
    exact @nameStatus_out x c' id body rest [] hx hbody hstream hreqId hstatus
  rcases hstate : c.nameState with _ | ⟨buf⟩ | ⟨sz, buf⟩ | ⟨sz, buf⟩
  · rw [Reading, hstate] at hreading'
    exact nameHeader_out hx (Or.inr rfl) (by decide) hreading'.1 hreading'.2 hid hbody hsize hnext
  · rw [Reading, hstate] at hreading'
    obtain ⟨hbuf, hstream, hreqId⟩ := hreading'
    exact nameHeader_out hx (Or.inr rfl) hbuf hstream hreqId hid hbody hsize hnext
  · rw [Reading, hstate] at hreading'
    obtain ⟨-, rfl, hbuf, hstream, hreqId⟩ := hreading'
    exact nameStatus_out hx hbuf hstream hreqId hstatus
  · rw [Reading, hstate] at hreading'
    exact absurd hreading'.1 (by decide)

end DoName

/-! What the other exchanges leave as it is. -/

section Frame

variable (x : Exchange) (c : Client)

/-- What a client has to do with a listing, but for the channel's error. -/
def Client.view (c : Client) : Bytes × Nat × Option NameState × (Nat × Bytes) :=
  (c.chan.stream, c.reqId, c.nameState, c.listedFrom)

theorem sendPacket_view (out : Bytes) (xs : List Sends) (idx : Nat) (c : Client) :
    (c.sendPacket out xs idx).1.view = c.view := by
  induction xs generalizing idx c with
  | nil => rfl
  | cons x xs ih =>
    rw [Client.sendPacket]
    rcases bufferSend x (out.drop idx) c.error with ⟨ret | n, e⟩
    · rfl
    · dsimp only
      split
      · rfl
      split
      · exact ih _ _
      · rfl

theorem sendPacketType_view (type : Nat) (buf : Bytes) :
    (c.sendPacketType x type buf).1.view = c.view := by
  rw [Client.sendPacketType]
  rcases c.sendState with _ | ⟨out, idx⟩
  · exact sendPacket_view _ _ _ _
  · exact sendPacket_view _ _ _ _

theorem sendPacket_want {out : Bytes} {xs : List Sends} (hxs : ∀ s ∈ xs, s.Waits isWant) {idx : Nat}
    {c : Client} (h : (c.sendPacket out xs idx).2 ≠ .success) :
    isWant (c.sendPacket out xs idx).1.error = true := by
  induction xs generalizing idx c with
  | nil => rfl
  | cons x xs ih =>
    rw [Client.sendPacket] at h ⊢
    rcases hsend : bufferSend x (out.drop idx) c.error with ⟨ret | n, e⟩
    · exact hxs x List.mem_cons_self _ _ _ _ hsend
    · simp only [hsend] at h ⊢
      by_cases hn : n = 0
      · simp [hn] at h
      by_cases hmore : idx + n < out.length
      · simp only [if_neg hn, if_pos hmore] at h ⊢
        exact ih (fun s hs => hxs s (List.mem_cons_of_mem x hs)) h
      · simp [hn, hmore] at h

theorem sendPacketType_want (hx : x.Waits) {type : Nat} {buf : Bytes}
    (h : (c.sendPacketType x type buf).2 ≠ .success) :
    isWant (c.sendPacketType x type buf).1.error = true := by
  rw [Client.sendPacketType] at h ⊢
  rcases hstate : c.sendState with _ | ⟨out, idx⟩
  · rw [hstate] at h
    exact sendPacket_want hx.send h
  · rw [hstate] at h
    exact sendPacket_want hx.send h

theorem namePacket_listedFrom (sz : Nat) (buf : Bytes) (c : Client) :
    (c.namePacket x sz buf).1.listedFrom = c.listedFrom := by
  rw [Client.namePacket]
  rcases bufferRead sz x.body buf c.chan with ⟨_ | ret, buf', ch⟩
  · dsimp only
    split <;> rfl
  · dsimp only
    split <;> rfl

theorem nameStatus_listedFrom (sz : Nat) (buf : Bytes) (c : Client) :
    (c.nameStatus x sz buf).1.listedFrom = c.listedFrom := by
  rw [Client.nameStatus]
  rcases bufferRead sz x.body buf c.chan with ⟨_ | ret, buf', ch⟩
  · dsimp only
    cases doStatus buf' with
    | none => rfl
    | some status =>
      dsimp only
      split <;> rfl
  · dsimp only
    split <;> rfl

theorem checkReqId_frame (reqId : Nat) (c : Client) :
    (c.checkReqId reqId).1.listedFrom = c.listedFrom ∧
      (c.checkReqId reqId).1.nameState = c.nameState := by
  rw [Client.checkReqId]
  split <;> exact ⟨rfl, rfl⟩

theorem nameHeader_listedFrom (buf : Bytes) (c : Client) :
    (c.nameHeader x buf).1.listedFrom = c.listedFrom := by
  rw [Client.nameHeader]
  rcases getHeader maxSftpName x.head buf c.chan with ⟨buf' | ⟨type, reqId, sz⟩, ch⟩
  · dsimp only
    split
    · rfl
    · split <;> rfl
  · have hframe := (checkReqId_frame reqId { c with chan := ch }).1
    dsimp only
    rcases hcheck : ({ c with chan := ch } : Client).checkReqId reqId with ⟨c', _ | _⟩
    · rw [hcheck] at hframe
      exact hframe
    · rw [hcheck] at hframe
      dsimp only
      split
      · rw [namePacket_listedFrom]
        exact hframe
      split
      · rw [nameStatus_listedFrom]
        exact hframe
      · exact hframe

theorem doName_listedFrom : (c.doName x).1.listedFrom = c.listedFrom := by
  have hsame : (if c.error = .wantRead ∨ c.error = .wantWrite then c.setError .success
      else c).listedFrom = c.listedFrom := by
    split <;> rfl
  rw [Client.doName, ← hsame]
  generalize (if c.error = .wantRead ∨ c.error = .wantWrite then c.setError .success else c) = c
  rcases c.nameState with _ | ⟨buf⟩ | ⟨sz, buf⟩ | ⟨sz, buf⟩
  · exact nameHeader_listedFrom x [] c
  · exact nameHeader_listedFrom x buf c
  · exact nameStatus_listedFrom x sz buf c
  · exact namePacket_listedFrom x sz buf c

theorem closeStatus_listedFrom (sz : Nat) (buf : Bytes) (c : Client) :
    (c.closeStatus x sz buf).1.listedFrom = c.listedFrom := by
  rw [Client.closeStatus]
  rcases (if sz = 0 then (none, [], c.chan) else bufferRead sz x.body buf c.chan) with
    ⟨_ | ret, buf', ch⟩
  · dsimp only
    split <;> rfl
  · dsimp only
    split <;> rfl

theorem closeHeader_listedFrom (buf : Bytes) (c : Client) :
    (c.closeHeader x buf).1.listedFrom = c.listedFrom := by
  rw [Client.closeHeader]
  rcases getHeader maxSftpPacket x.head buf c.chan with ⟨buf' | ⟨type, reqId, sz⟩, ch⟩
  · dsimp only
    split <;> rfl
  · have hframe := (checkReqId_frame reqId { c with chan := ch }).1
    dsimp only
    split
    · rfl
    rcases hcheck : ({ c with chan := ch } : Client).checkReqId reqId with ⟨c', _ | _⟩
    · rw [hcheck] at hframe
      exact hframe
    · rw [hcheck] at hframe
      dsimp only
      rw [closeStatus_listedFrom]
      exact hframe

theorem sftpClose_listedFrom (handle : Bytes) :
    (c.sftpClose x handle).1.listedFrom = c.listedFrom := by
  have hsend : (c.sendPacketType x ftpClose handle).1.listedFrom = c.listedFrom :=
    congrArg (fun v => v.2.2.2) (sendPacketType_view x c ftpClose handle)
  rw [Client.sftpClose]
  split
  · exact closeHeader_listedFrom x _ c
  · exact closeStatus_listedFrom x _ _ c
  · rcases hsent : c.sendPacketType x ftpClose handle with ⟨c', ret⟩
    rw [hsent] at hsend
    split
    · rename_i hret
      cases hret
      exact (closeHeader_listedFrom x [] c').trans hsend
    · rename_i hret
      cases hret
      split <;> exact hsend

theorem sftpReadDir_listedFrom (handle : Bytes) :
    (c.sftpReadDir x handle).1.listedFrom = c.listedFrom := by
  have hsend : (c.sendPacketType x ftpReaddir handle).1.listedFrom = c.listedFrom :=
    congrArg (fun v => v.2.2.2) (sendPacketType_view x c ftpReaddir handle)
  rw [Client.sftpReadDir]
  split
  · have hname := doName_listedFrom x c
    dsimp only
    split <;> exact hname
  · rcases hsent : c.sendPacketType x ftpReaddir handle with ⟨c', ret⟩
    rw [hsent] at hsend
    split
    · rename_i hret
      cases hret
      have hname := doName_listedFrom x { c' with readDirState := some .name }
      dsimp only
      split <;> exact hname.trans hsend
    · rename_i hret
      cases hret
      exact hsend

theorem getHandleRead_nameState (sz : Nat) (buf : Bytes) (handleSz : Nat) (c : Client) :
    (c.getHandleRead x sz buf handleSz).1.nameState = c.nameState := by
  rw [Client.getHandleRead]
  rcases bufferRead sz x.body buf c.chan with ⟨_ | ret, buf', ch⟩
  · dsimp only
    split <;> rfl
  · rfl

theorem getHandleStatus_nameState (sz : Nat) (buf : Bytes) (handleSz : Nat) (c : Client) :
    (c.getHandleStatus x sz buf handleSz).1.nameState = c.nameState := by
  rw [Client.getHandleStatus]
  rcases bufferRead sz x.body buf c.chan with ⟨_ | ret, buf', ch⟩
  · dsimp only
    split <;> rfl
  · rfl

theorem getHandleHeader_nameState (buf : Bytes) (handleSz : Nat) (c : Client) :
    (c.getHandleHeader x buf handleSz).1.nameState = c.nameState := by
  rw [Client.getHandleHeader]
  rcases getHeader maxSftpPacket x.head buf c.chan with ⟨buf' | ⟨type, reqId, sz⟩, ch⟩
  · dsimp only
    split <;> rfl
  · have hframe := (checkReqId_frame reqId { c with chan := ch }).2
    dsimp only
    rcases hcheck : ({ c with chan := ch } : Client).checkReqId reqId with ⟨c', _ | _⟩
    · rw [hcheck] at hframe
      exact hframe
    · rw [hcheck] at hframe
      dsimp only
      split
      · rw [getHandleRead_nameState]
        exact hframe
      split
      · rw [getHandleStatus_nameState]
        exact hframe
      · exact hframe

theorem sftpGetHandle_nameState (handleSz : Nat) :
    (c.sftpGetHandle x handleSz).1.nameState = c.nameState := by
  rw [Client.sftpGetHandle]
  rcases c.getHandleState with _ | ⟨buf⟩ | ⟨sz, buf⟩ | ⟨sz, buf⟩
  · exact getHandleHeader_nameState x [] handleSz c
  · exact getHandleHeader_nameState x buf handleSz c
  · exact getHandleStatus_nameState x sz buf handleSz c
  · exact getHandleRead_nameState x sz buf handleSz c

theorem sftpOpenDir_nameState (dir : Bytes) :
    (c.sftpOpenDir x dir).1.nameState = c.nameState := by
  rw [Client.sftpOpenDir]
  split
  · rfl
  · exact congrArg (fun v => v.2.2.1) (sendPacketType_view x c ftpOpendir dir)

theorem sftpRealPath_nameState (dir : Bytes) (h : (c.sftpRealPath x dir).2 ≠ []) :
    (c.sftpRealPath x dir).1.nameState = none := by
  have hname (c : Client) (h : (c.realPathName x).2 ≠ []) : (c.realPathName x).1.nameState = none := by
    rw [Client.realPathName] at h ⊢
    dsimp only at h ⊢
    by_cases hn : (c.doName x).2 ≠ [] ∨ noticeError (c.doName x).1.error = false
    · rw [if_pos hn]
    · rw [if_neg hn] at h
      exact absurd (Or.inl h) hn
  rw [Client.sftpRealPath] at h ⊢
  by_cases hget : c.realGetPacket = true
  · rw [if_pos hget] at h ⊢
    exact hname c h
  · rw [if_neg hget] at h ⊢
    generalize c.sendPacketType x ftpRealpath dir = r at h ⊢
    obtain ⟨c', ret⟩ := r
    cases ret
    case success => exact hname _ h
    all_goals exact absurd rfl h

end Frame

/-- The client is at, or within, the next of the replies that hold `more`. -/
inductive Ahead (c : Client) : List NameEntry → Prop
  | eof {id : Nat} {body rest : Bytes} (hreading : Reading c id ftpStatus body rest) (hid : id < 2 ^ 32)
    (hsize : body.length ≤ maxSftpName) (hstatus : doStatus body = some ftpEof) : Ahead c []
  | names {id : Nat} {body rest : Bytes} {e : NameEntry} {es more : List NameEntry}
    (hreading : Reading c id ftpName body rest) (hid : id < 2 ^ 32) (hsize : body.length ≤ maxSftpName)
    (hnames : nameList body = some (e :: es)) (hmore : Orderly (nextId id) rest more) :
    Ahead c (e :: es ++ more)

theorem ahead_of_orderly {c : Client} {more : List NameEntry} (hstate : c.nameState = none)
    (h : Orderly c.reqId c.chan.stream more) : Ahead c more := by
  have hreading {type : Nat} {body rest : Bytes} (hs : c.chan.stream = packet c.reqId type body ++ rest) :
      Reading c c.reqId type body rest := by
    rw [Reading, hstate]
    exact ⟨hs, rfl⟩
  generalize hs : c.chan.stream = stream at h
  generalize hid : c.reqId = id at h
  cases h with
  | eof hlt hsize hstatus => exact .eof (hid ▸ hreading (hid.symm ▸ hs)) hlt hsize hstatus
  | names hlt hsize hnames hmore =>
    exact .names (hid ▸ hreading (hid.symm ▸ hs)) hlt hsize hnames hmore

theorem Reading.of_view {c c' : Client} {id type : Nat} {body rest : Bytes}
    (h : Reading c id type body rest) (hview : c'.view = c.view) : Reading c' id type body rest := by
  obtain ⟨hstream, hreqId, hstate, -⟩ : c'.chan.stream = c.chan.stream ∧ c'.reqId = c.reqId ∧
      c'.nameState = c.nameState ∧ c'.listedFrom = c.listedFrom := by
    simpa [Client.view] using hview
  rw [Reading, hstate, hstream, hreqId]
  exact h

theorem Ahead.of_view {c c' : Client} {more : List NameEntry} (h : Ahead c more)
    (hview : c'.view = c.view) : Ahead c' more := by
  cases h with
  | eof hreading hid hsize hstatus => exact .eof (hreading.of_view hview) hid hsize hstatus
  | names hreading hid hsize hnames hmore =>
    exact .names (hreading.of_view hview) hid hsize hnames hmore

/-- What a READDIR brings: nothing yet, the end, or the entries of the next reply. -/
def ReadDirOut (more : List NameEntry) (r : Client × List NameEntry) : Prop :=
  r.2 = [] ∧ isWant r.1.error = true ∧ Ahead r.1 more ∨
  r.2 = [] ∧ isWant r.1.error = false ∧ more = [] ∨
  r.2 ≠ [] ∧ ∃ more', more = r.2 ++ more' ∧ Ahead r.1 more'

theorem doName_ahead {x : Exchange} {c : Client} {more : List NameEntry} (hx : x.Waits)
    (h : Ahead c more) : ReadDirOut more (c.doName x) := by
  cases h with
  | eof hreading hid hsize hstatus =>
    rcases doName_eof hx hreading hid hsize hstatus with ⟨hn, hwant, hagain⟩ | ⟨hn, hwant, -⟩
    · exact Or.inl ⟨hn, hwant, .eof hagain hid hsize hstatus⟩
    · exact Or.inr (Or.inl ⟨hn, hwant, rfl⟩)
  | names hreading hid hsize hnames hmore =>
    rcases doName_names hx hreading hid hsize hnames with ⟨hn, hwant, hagain⟩ |
      ⟨hn, -, hstate, hstream, hreqId⟩
    · exact Or.inl ⟨hn, hwant, .names hagain hid hsize hnames hmore⟩
    · refine Or.inr (Or.inr ⟨by rw [hn]; exact nofun, _, by rw [hn], ahead_of_orderly hstate ?_⟩)
      rw [hstream, hreqId]
      exact hmore

theorem sftpReadDir_ahead {x : Exchange} {c : Client} {more : List NameEntry} (hx : x.Waits)
    (handle : Bytes) (h : Ahead c more) : ReadDirOut more (c.sftpReadDir x handle) := by
  have hname (c : Client) (h : Ahead c more) : ReadDirOut more
      (if (c.doName x).2 ≠ [] ∨ noticeError (c.doName x).1.error = false then
        ({ (c.doName x).1 with readDirState := none }, (c.doName x).2)
      else ((c.doName x).1, (c.doName x).2)) := by
    have hout := doName_ahead hx h
    split
    · rcases hout with ⟨hn, hwant, hagain⟩ | hend | ⟨hn, more', hmore, hagain⟩
      · exact Or.inl ⟨hn, hwant, hagain.of_view rfl⟩
      · exact Or.inr (Or.inl hend)
      · exact Or.inr (Or.inr ⟨hn, more', hmore, hagain.of_view rfl⟩)
    · exact hout
  have hview := sendPacketType_view x c ftpReaddir handle
  have hwant := @sendPacketType_want x c hx ftpReaddir handle
  rw [Client.sftpReadDir]
  split
  · exact hname c h
  · generalize c.sendPacketType x ftpReaddir handle = r at hview hwant
    obtain ⟨c', ret⟩ := r
    cases ret
    case success => exact hname _ (h.of_view hview)
    all_goals exact Or.inl ⟨rfl, hwant nofun, h.of_view hview⟩

/-- What a client has listed so far is the start of what the replies hold from where it began. -/
def Inv (c : Client) : Prop :=
  match c.lsState with
  | none | some .realPath => True
  | some (.openDir _) | some (.getHandle _) => c.nameState = none
  | some (.readDir _ name) => ∀ entries, Orderly c.listedFrom.1 c.listedFrom.2 entries →
      ∃ more, entries = name ++ more ∧ Ahead c more
  | some (.close _ name) => ∀ entries, Orderly c.listedFrom.1 c.listedFrom.2 entries → entries = name

/-- A call of LS keeps the invariant, and what it returns is all that the replies hold. -/
def LsOut (r : Client × List NameEntry) : Prop :=
  Inv r.1 ∧ (r.2 ≠ [] → ∀ entries, Orderly r.1.listedFrom.1 r.1.listedFrom.2 entries → entries = r.2)

section Ls

variable {x : Exchange} {xs : List Exchange} {c : Client} {handle : Bytes} {name : List NameEntry}

theorem lsGiveUp_out {state : LsState} (h : Inv { c with lsState := some state }) :
    LsOut (c.lsGiveUp state) := by
  rw [Client.lsGiveUp]
  split
  · exact ⟨h, fun hn => absurd rfl hn⟩
  · exact ⟨trivial, fun hn => absurd rfl hn⟩

theorem lsClose_out
    (h : ∀ entries, Orderly c.listedFrom.1 c.listedFrom.2 entries → entries = name) :
    LsOut (c.lsClose x handle name) := by
  have hfrom := sftpClose_listedFrom x c handle
  rw [Client.lsClose]
  generalize c.sftpClose x handle = r at hfrom
  obtain ⟨c', ret⟩ := r
  dsimp only at hfrom
  rw [← hfrom] at h
  cases ret
  case success => exact ⟨trivial, fun _ => h⟩
  all_goals exact lsGiveUp_out h

theorem lsReadDir_out (hxs : ∀ x ∈ xs, x.Waits)
    (h : ∀ entries, Orderly c.listedFrom.1 c.listedFrom.2 entries →
      ∃ more, entries = name ++ more ∧ Ahead c more) :
    LsOut (c.lsReadDir handle xs name) := by
  induction xs generalizing c name with
  | nil =>
    refine ⟨fun entries hentries => ?_, fun hn => absurd rfl hn⟩
    obtain ⟨more, hmore, hahead⟩ := h entries hentries
    exact ⟨more, hmore, hahead.of_view rfl⟩
  | cons x xs ih =>
    have hfrom := sftpReadDir_listedFrom x c handle
    have hnext (entries : List NameEntry) (hentries : Orderly c.listedFrom.1 c.listedFrom.2 entries) :
        ∃ more, entries = name ++ more ∧ ReadDirOut more (c.sftpReadDir x handle) := by
      obtain ⟨more, hmore, hahead⟩ := h entries hentries
      exact ⟨more, hmore, sftpReadDir_ahead (hxs x List.mem_cons_self) handle hahead⟩
    rw [Client.lsReadDir]
    generalize c.sftpReadDir x handle = r at hfrom hnext
    obtain ⟨c', n⟩ := r
    dsimp only at hfrom
    rw [← hfrom] at hnext
    rcases n with _ | ⟨e, es⟩
    · dsimp only
      split
      · rename_i hwant
        refine ⟨fun entries hentries => ?_, fun hn => absurd rfl hn⟩
        obtain ⟨more, hmore, hout⟩ := hnext entries hentries
        rcases hout with ⟨-, -, hahead⟩ | ⟨-, hend, -⟩ | ⟨hn, -⟩
        · exact ⟨more, hmore, hahead.of_view rfl⟩
        · exact absurd hwant (by rw [hend]; decide)
        · exact absurd rfl hn
      · rename_i hwant
        apply lsClose_out
        intro entries hentries
        obtain ⟨more, hmore, hout⟩ := hnext entries hentries
        rcases hout with ⟨-, hw, -⟩ | ⟨-, -, rfl⟩ | ⟨hn, -⟩
        · exact absurd hw hwant
        · rw [hmore, List.append_nil]
        · exact absurd rfl hn
    · refine ih (fun y hy => hxs y (List.mem_cons_of_mem x hy)) fun entries hentries => ?_
      obtain ⟨more, hmore, hout⟩ := hnext entries hentries
      rcases hout with ⟨hn, -⟩ | ⟨hn, -⟩ | ⟨-, more', rfl, hahead⟩
      · exact absurd hn nofun
      · exact absurd hn nofun
      · exact ⟨more', by rw [hmore, List.append_assoc], hahead⟩

theorem lsGetHandle_out (hxs : ∀ x ∈ xs, x.Waits) (sz : Nat) (h : c.nameState = none) :
    LsOut (c.lsGetHandle xs sz) := by
  have hstate := sftpGetHandle_nameState (xs.headD {}) c sz
  rw [Client.lsGetHandle]
  generalize c.sftpGetHandle (xs.headD {}) sz = r at hstate
  obtain ⟨c', _ | handle⟩ := r
  · exact lsGiveUp_out (hstate.trans h)
  · refine lsReadDir_out (fun y hy => hxs y (List.mem_of_mem_tail hy)) fun entries hentries => ?_
    exact ⟨entries, rfl, ahead_of_orderly (hstate.trans h) hentries⟩

theorem lsOpenDir_out (hxs : ∀ x ∈ xs, x.Waits) (name : NameEntry) (h : c.nameState = none) :
    LsOut (c.lsOpenDir xs name) := by
  have hstate := sftpOpenDir_nameState (xs.headD {}) c name.fName
  rw [Client.lsOpenDir]
  generalize c.sftpOpenDir (xs.headD {}) name.fName = r at hstate
  obtain ⟨c', ret⟩ := r
  cases ret
  case success => exact lsGetHandle_out hxs maxHandle (hstate.trans h)
  all_goals exact lsGiveUp_out (hstate.trans h)

theorem lsRealPath_out (hxs : ∀ x ∈ xs, x.Waits) (dir : Bytes) : LsOut (c.lsRealPath xs dir) := by
  have hstate := sftpRealPath_nameState (xs.headD {}) c dir
  rw [Client.lsRealPath]
  generalize c.sftpRealPath (xs.headD {}) dir = r at hstate
  obtain ⟨c', _ | ⟨name, more⟩⟩ := r
  · exact lsGiveUp_out trivial
  · exact lsOpenDir_out (fun y hy => hxs y (List.mem_of_mem_tail hy)) name (hstate nofun)

theorem ls_out (hxs : ∀ x ∈ xs, x.Waits) (dir : Bytes) (h : Inv c) : LsOut (c.ls dir xs) := by
  rw [Client.ls]
  rcases hstate : c.lsState with _ | ⟨_ | name | sz | ⟨handle, name⟩ | ⟨handle, name⟩⟩
  · exact lsRealPath_out hxs dir
  · exact lsRealPath_out hxs dir
  · rw [Inv, hstate] at h
    exact lsOpenDir_out hxs name h
  · rw [Inv, hstate] at h
    exact lsGetHandle_out hxs sz h
  · rw [Inv, hstate] at h
    exact lsReadDir_out hxs h
  · rw [Inv, hstate] at h
    exact lsClose_out h

end Ls

/-! The replies of the server of this library are orderly. -/

/-- `n` request ids in a row. -/
def idsFrom : Nat → Nat → List Nat
  | _, 0 => []
  | id, n + 1 => id :: idsFrom (nextId id) n

def statusBody (status : Nat) (reason : Bytes) : Bytes :=
  c32toa status ++ (copyString reason ++ copyString english)

theorem createStatus_eq (status id : Nat) (reason : Bytes) :
    createStatus status id reason = packet id ftpStatus (statusBody status reason) := by
  have hlen : (statusBody status reason).length = 12 + reason.length + english.length := by
    simp only [statusBody, copyString, List.length_append, c32toa_length]
    omega
  rw [packet, hlen, createStatus]
  simp only [statusBody, copyString, List.append_assoc]

/-- What the client makes of a NAME packet of the server: all its entries, in the order they were
read, in a packet that it takes. -/
theorem sendName_decodes {es : List NameEntry} (hsize : es.length ≤ maxSftpReaddir)
    (hcarried : ∀ e ∈ es, e.Carried) (id : Nat) :
    ∃ body, sendName id es.reverse = packet id ftpName body ∧ nameList body = some es ∧
      body.length ≤ maxSftpName := by
  have hcarried' : ∀ e ∈ es.reverse, e.Carried := fun e he => hcarried e (List.mem_reverse.mp he)
  have hlen := nameBody_length hcarried'
  rw [List.length_reverse] at hlen
  rw [maxSftpReaddir] at hsize
  refine ⟨nameBody es.reverse, sendName_eq id es.reverse, ?_, by rw [maxSftpName]; omega⟩
  rw [nameList_nameBody (by rw [List.length_reverse]; omega) hcarried', List.reverse_reverse]

theorem orderly_batches {named ended : List Nat} {batches : List (List NameEntry)} {id n : Nat}
    (hcount : named.length = batches.length) (hids : named ++ ended = idsFrom id n) (hid : id < 2 ^ 32)
    (hended : ended ≠ []) (hsize : ∀ es ∈ batches, es ≠ [] ∧ es.length ≤ maxSftpReaddir)
    (hcarried : ∀ es ∈ batches, ∀ e ∈ es, e.Carried) (tail : Bytes) :
    Orderly id ((List.zipWith (fun id es => sendName id es.reverse) named batches ++
      ended.map readdirEof).flatten ++ tail) batches.flatten := by
  induction batches generalizing named id n with
  | nil =>
    obtain rfl := List.length_eq_zero_iff.mp hcount
    obtain ⟨last, others, rfl⟩ := List.exists_cons_of_ne_nil hended
    cases n with
    | zero => exact absurd hids nofun
    | succ n =>
      obtain ⟨rfl, -⟩ := List.cons.inj hids
      rw [List.zipWith_nil_left, List.nil_append, List.map_cons, List.flatten_cons, readdirEof,
        createStatus_eq, List.append_assoc]
      exact .eof hid (by decide) (by decide)
  | cons es batches ih =>
    obtain ⟨first, named, rfl⟩ := List.exists_cons_of_ne_nil
      (List.ne_nil_of_length_pos (by rw [hcount]; exact Nat.succ_pos _))
    cases n with
    | zero => exact absurd hids nofun
    | succ n =>
      obtain ⟨rfl, hids'⟩ := List.cons.inj hids
      obtain ⟨hne, hlen⟩ := hsize es List.mem_cons_self
      obtain ⟨e, rest, rfl⟩ := List.exists_cons_of_ne_nil hne
      obtain ⟨body, hname, hbody, hfits⟩ :=
        sendName_decodes hlen (hcarried _ List.mem_cons_self) first
      have hmore := ih (Nat.succ.inj hcount) hids' (Nat.mod_lt _ (by decide))
        (fun x hx => hsize x (List.mem_cons_of_mem _ hx))
        (fun x hx => hcarried x (List.mem_cons_of_mem _ hx))
      rw [List.zipWith_cons_cons, List.cons_append, List.flatten_cons, List.append_assoc, hname,
        List.flatten_cons]
      exact .names hid hfits hbody hmore

theorem Lists.orderly {names rest replies : List Bytes} {named ended : List Nat}
    {batches : List (List NameEntry)} (h : Lists names named ended batches rest replies) {id n : Nat}
    (hids : named ++ ended = idsFrom id n) (hid : id < 2 ^ 32) (hended : ended ≠ []) (tail : Bytes) :
    Orderly id (replies.flatten ++ tail) batches.flatten ∧
      batches.flatten.map NameEntry.fName = names := by
  refine ⟨?_, ?_⟩
  · rw [h.replies]
    exact orderly_batches h.count hids hid hended h.size h.carried tail
  · rw [h.names, h.ended hended, List.append_nil]

end WolfSsh.Sftp
