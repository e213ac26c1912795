import WolfSsh.SftpChannel

/-! The server's receive state over a whole run: the requests on the channel are handled in their
order, each once, and the octets sent are the replies one after the other. -/

namespace WolfSsh.Sftp

/-- A request as it stands on the channel. -/
def Request.wire (r : Request) : Bytes := setHeader r.reqId r.type.toNat r.data.length ++ r.data

/-- A request of the sizes that the server takes. -/
structure Request.Fits (r : Request) : Prop where
  body : r.data ≠ []
  packet : r.data.length ≤ maxSftpPacket
  id : r.reqId < 2 ^ 32

def wireRequests (rs : List Request) : Bytes := rs.flatMap Request.wire

def Server.setError (e : Code) (s : Server) : Server := { s with ssh := { s.ssh with error := e } }

/-- The handler of a request, with the reply it loads. -/
def Server.handle (b : Build) (env : Env) (s : Server) (r : Request) : Option Bytes × Server :=
  let o := (recvDo b s.ssh r.type.toNat r.reqId r.data).run env s.trace
  (o.1.toSend, ⟨o.1.ssh, o.2⟩)

/-- Handlers that ran from `s` on to `t`; between them the channel may set the session's error. -/
inductive Handled (b : Build) (env : Env) (s : Server) :
    List (Request × Option Bytes) → Server → Prop
  | start : Handled b env s [] s
  | error {ran : List (Request × Option Bytes)} {t : Server} (e : Code) (h : Handled b env s ran t) :
    Handled b env s ran (t.setError e)
  | handle {ran : List (Request × Option Bytes)} {t : Server} (r : Request)
    (h : Handled b env s ran t) :
    Handled b env s (ran ++ [(r, (t.handle b env r).1)]) (t.handle b env r).2

/-- A channel that may hold the server up, and memory that suffices. -/
structure Script.Waits (x : Script) : Prop where
  bodyMem : x.bodyMem = true
  head : ∀ p ∈ x.head, p.Waits isBusy
  body : ∀ p ∈ x.body, p.Waits isBusy
  send : x.send.Waits isBusy

/-- Whichever of the requests `rs` were handled before, each of them is answered. -/
def Answered (b : Build) (env : Env) (s : Server) (rs : List Request) : Prop :=
  ∀ ran t, Handled b env s ran t → (∀ p ∈ ran, p.1 ∈ rs) →
    ∀ r ∈ rs, ∃ out, (t.handle b env r).1 = some out

/-- Each of the requests `rs` is answered when its turn comes. -/
def InTurn (b : Build) (env : Env) (s : Server) (rs : List Request) : Prop :=
  ∀ ran t r todo, Handled b env s ran t → ran.map Prod.fst ++ r :: todo = rs →
    ∃ out, (t.handle b env r).1 = some out

theorem Answered.inTurn {b : Build} {env : Env} {s : Server} {rs : List Request}
    (h : Answered b env s rs) : InTurn b env s rs := by
  rintro ran t r todo hhandled rfl
  refine h ran t hhandled (fun p hp => ?_) r (by simp)
  exact List.mem_append_left _ (List.mem_map_of_mem hp)

def repliesOf (ran : List (Request × Option Bytes)) : Bytes := ran.flatMap fun p => p.2.getD []

/-- How far the server has come with `rs`: `todo` is not handled yet, and of the last reply `unsent`
was not handed over. -/
structure Serving (b : Build) (env : Env) (s₀ : Server) (rs : List Request) (s : Conn)
    (todo : List Request) (unsent : Bytes) : Prop where
  handled : Handled b env s₀ s.ran s.server
  order : s.ran.map Prod.fst ++ todo = rs
  sent : s.sent ++ unsent = repliesOf s.ran
  state : match s.recvState with
    | none => unsent = [] ∧ s.stream = wireRequests todo
    | some (.read buf) => unsent = [] ∧ buf.length < sftpHeader ∧ buf ++ s.stream = wireRequests todo
    | some (.body type reqId sz buf) => unsent = [] ∧ buf.length < sz ∧
        ∃ r rest, todo = r :: rest ∧ r.type = type ∧ r.reqId = reqId ∧ r.data.length = sz ∧
          buf ++ s.stream = r.data ++ wireRequests rest
    | some (.send _ out idx) => unsent = out.drop idx ∧ idx ≤ out.length ∧
        s.stream = wireRequests todo

theorem setHeader_length (reqId type len : Nat) : (setHeader reqId type len).length = 9 := by
  simp [setHeader]

theorem setHeader_parts {reqId len : Nat} (type : Nat) (hid : reqId < 2 ^ 32) (hlen : len + 5 < 2 ^ 32) :
    ato32 (setHeader reqId type len) = len + 5 ∧
      (setHeader reqId type len).getD 4 0 = UInt8.ofNat type ∧
      ato32 ((setHeader reqId type len).drop 5) = reqId := by
  refine ⟨?_, rfl, ?_⟩
  · rw [setHeader, List.append_assoc]
    exact ato32_c32toa hlen _
  · have hdrop : (setHeader reqId type len).drop 5 = c32toa reqId ++ [] := by
      rw [List.append_nil]
      rfl
    rw [hdrop, ato32_c32toa hid]

section Step

variable {b : Build} {env : Env} {s₀ : Server} {rs todo : List Request} {unsent : Bytes} {s : Conn}
  {x : Script}

theorem Serving.setError (h : Serving b env s₀ rs s todo unsent) (e : Code) :
    Serving b env s₀ rs (s.setError e) todo unsent :=
  ⟨h.handled.error e, h.order, h.sent, h.state⟩

theorem recvSend_serving (hw : x.Waits) (hhandled : Handled b env s₀ s.ran s.server)
    (horder : s.ran.map Prod.fst ++ todo = rs) (reqId : Nat) {out : Bytes} {idx : Nat}
    (hsent : s.sent ++ out.drop idx = repliesOf s.ran) (hidx : idx ≤ out.length)
    (hstream : s.stream = wireRequests todo) :
    ∃ unsent, Serving b env s₀ rs (s.recvSend x.send reqId out idx).1 todo unsent := by
  rw [Conn.recvSend]
  rcases hsend : bufferSend x.send (out.drop idx) s.error with ⟨ret | n, e⟩
  · have hbusy := hw.send _ _ _ _ hsend
    have hkept : Serving b env s₀ rs { s.setError e with recvState := some (.send reqId out idx) } todo
        (out.drop idx) := ⟨hhandled.error e, horder, hsent, rfl, hidx, hstream⟩
    refine ⟨out.drop idx, ?_⟩
    dsimp only
    split
    · exact hkept
    · rw [if_neg]
      · exact hkept
      · intro hne
        rw [isBusy, isWant, Bool.or_eq_true, decide_eq_true_eq, decide_eq_true_eq] at hbusy
        simp_all
  · have hn : n ≤ out.length - idx := by
      have h := bufferSend_le hsend
      rwa [List.length_drop] at h
    have hmore : s.sent ++ (out.drop idx).take n ++ out.drop (idx + n) = repliesOf s.ran := by
      rw [← hsent, List.append_assoc, ← List.drop_drop, List.take_append_drop]
    dsimp only
    split
    · exact ⟨out.drop (idx + n), hhandled.error _, horder, hmore, rfl, by omega, hstream⟩
    · rename_i hdone
      have hnil : out.drop (idx + n) = [] := by
        apply List.drop_of_length_le
        omega
      rw [hnil] at hmore
      exact ⟨[], hhandled.error e, horder, hmore, rfl, hstream⟩

theorem recvRun_serving (hw : x.Waits) (hans : InTurn b env s₀ rs)
    (hhandled : Handled b env s₀ s.ran s.server) {r : Request}
    (horder : s.ran.map Prod.fst ++ r :: todo = rs) (hsent : s.sent = repliesOf s.ran)
    (hstream : s.stream = wireRequests todo) :
    ∃ unsent, Serving b env s₀ rs (s.recvRun b env x r).1 todo unsent := by
  obtain ⟨out, hout⟩ := hans s.ran s.server r todo hhandled horder
  have hnext := hhandled.handle r
  rw [hout] at hnext
  have hreply : ((recvDo b s.server.ssh r.type.toNat r.reqId r.data).run env s.server.trace).1.toSend =
      some out := hout
  rw [Conn.recvRun]
  dsimp only
  rw [hreply]
  refine recvSend_serving hw hnext ?_ r.reqId ?_ (Nat.zero_le _) hstream
  · rw [List.map_append, List.append_assoc]
    exact horder
  · rw [repliesOf, List.flatMap_append, ← repliesOf, ← hsent]
    simp

theorem recvBody_serving (hw : x.Waits) (hans : InTurn b env s₀ rs)
    (hhandled : Handled b env s₀ s.ran s.server) {r : Request} {buf : Bytes}
    (horder : s.ran.map Prod.fst ++ r :: todo = rs) (hsent : s.sent = repliesOf s.ran)
    (hbuf : buf.length < r.data.length) (hstream : buf ++ s.stream = r.data ++ wireRequests todo) :
    ∃ todo unsent,
      Serving b env s₀ rs (s.recvBody b env x r.type r.reqId r.data.length buf).1 todo unsent := by
  have hread := bufferRead_out rfl hw.body hbuf s.chan
  rw [Conn.recvBody]
  generalize hout : bufferRead r.data.length x.body buf s.chan = out at hread
  cases hread with
  | @waits ret buf' c' hlen hkept hbusy =>
    dsimp only
    rw [if_pos (noticeError_of_isBusy hbusy)]
    exact ⟨r :: todo, [], hhandled.error c'.error, horder, by rw [List.append_nil]; exact hsent, rfl,
      hlen, r, todo, rfl, rfl, rfl, rfl, hkept.trans hstream⟩
  | @full buf' c' hlen hkept =>
    obtain ⟨rfl, hrest⟩ := List.append_inj (hkept.trans hstream) hlen
    have hnext : Handled b env s₀ (s.setChan c').ran (s.setChan c').server := hhandled.error c'.error
    exact ⟨todo, recvRun_serving hw hans hnext horder hsent hrest⟩

theorem headFailed_serving (hhandled : Handled b env s₀ s.ran s.server) {buf : Bytes}
    (horder : s.ran.map Prod.fst ++ todo = rs) (hsent : s.sent = repliesOf s.ran)
    (hbuf : buf.length < sftpHeader) (hstream : buf ++ s.stream = wireRequests todo) :
    Serving b env s₀ rs (s.headFailed buf).1 todo [] := by
  have hkept : Serving b env s₀ rs { s with recvState := some (.read buf) } todo [] :=
    ⟨hhandled, horder, by rw [List.append_nil]; exact hsent, rfl, hbuf, hstream⟩
  rw [Conn.headFailed]
  dsimp only
  split
  · exact hkept.setError .bufferE
  · exact hkept

theorem wireRequests_nonempty {buf rest : Bytes} (hlen : buf.length = sftpHeader)
    (h : buf ++ rest = wireRequests todo) : ∃ r others, todo = r :: others ∧
      buf = setHeader r.reqId r.type.toNat r.data.length ∧ rest = r.data ++ wireRequests others := by
  cases todo with
  | nil =>
    have hnil := List.append_eq_nil_iff.mp h
    rw [hnil.1] at hlen
    exact absurd hlen (by decide)
  | cons r others =>
    rw [wireRequests, List.flatMap_cons, Request.wire, List.append_assoc] at h
    obtain ⟨hbuf, hrest⟩ := List.append_inj h (by rw [hlen, setHeader_length, sftpHeader])
    exact ⟨r, others, rfl, hbuf, hrest⟩

theorem recvHead_serving (hw : x.Waits) (hans : InTurn b env s₀ rs) (hfits : ∀ r ∈ rs, r.Fits)
    (hhandled : Handled b env s₀ s.ran s.server) {buf : Bytes}
    (horder : s.ran.map Prod.fst ++ todo = rs) (hsent : s.sent = repliesOf s.ran)
    (hbuf : buf.length < sftpHeader) (hstream : buf ++ s.stream = wireRequests todo) :
    ∃ todo unsent, Serving b env s₀ rs (s.recvHead b env x buf).1 todo unsent := by
  rw [Conn.recvHead]
  split
  · rename_i hmem
    rw [hmem.1] at hstream hbuf
    exact ⟨todo, [], headFailed_serving hhandled horder hsent hbuf hstream⟩
  have hread := bufferRead_out rfl hw.head hbuf s.chan
  generalize hout : bufferRead sftpHeader x.head buf s.chan = out at hread
  cases hread with
  | @waits ret buf' c' hlen hkept hbusy =>
    have hnext : Handled b env s₀ (s.setChan c').ran (s.setChan c').server := hhandled.error c'.error
    exact ⟨todo, [], headFailed_serving hnext horder hsent hlen (hkept.trans hstream)⟩
  | @full buf' c' hlen hkept =>
    obtain ⟨r, others, rfl, rfl, hrest⟩ := wireRequests_nonempty hlen (hkept.trans hstream)
    have hr := hfits r (by rw [← horder]; simp)
    have hpacket := hr.packet
    have hpos : 0 < r.data.length := List.length_pos_iff.mpr hr.body
    rw [maxSftpPacket] at hpacket
    obtain ⟨hlength, htype, hid⟩ := @setHeader_parts r.reqId r.data.length r.type.toNat hr.id (by omega)
    have hnext : Handled b env s₀ (s.setChan c').ran (s.setChan c').server := hhandled.error c'.error
    dsimp only
    rw [Conn.recvParsed, hlength, htype, hid, UInt8.ofNat_toNat]
    rw [if_neg (by omega), if_neg (by rw [maxSftpPacket]; omega), if_neg (by omega), if_pos hw.bodyMem,
      Nat.add_sub_cancel]
    exact recvBody_serving hw hans hnext horder hsent hpos hrest

theorem step_serving (hw : x.Waits) (hans : InTurn b env s₀ rs) (hfits : ∀ r ∈ rs, r.Fits)
    (h : Serving b env s₀ rs s todo unsent) :
    ∃ todo unsent, Serving b env s₀ rs (s.step b env x) todo unsent := by
  have h' : Serving b env s₀ rs
      (if s.error = .wantRead ∨ s.error = .wantWrite then s.setError .success else s) todo unsent := by
    split
    · exact h.setError .success
    · exact h
  rw [Conn.step, sftpRead]
  generalize (if s.error = .wantRead ∨ s.error = .wantWrite then s.setError .success else s) = s at h' ⊢
  obtain ⟨hhandled, horder, hsent, hstate⟩ := h'
  rcases hrecv : s.recvState with _ | ⟨buf⟩ | ⟨type, reqId, sz, buf⟩ | ⟨reqId, out, idx⟩
  · rw [hrecv] at hstate
    obtain ⟨rfl, hstream⟩ := hstate
    rw [List.append_nil] at hsent
    dsimp only
    split
    · exact recvHead_serving hw hans hfits hhandled horder hsent (by decide) hstream
    · have hsame : Serving b env s₀ rs s todo [] := by
        refine ⟨hhandled, horder, by rw [List.append_nil]; exact hsent, ?_⟩
        rw [hrecv]
        exact ⟨rfl, hstream⟩
      exact ⟨todo, [], hsame.setError .memoryE⟩
  · rw [hrecv] at hstate
    obtain ⟨rfl, hbuf, hstream⟩ := hstate
    rw [List.append_nil] at hsent
    exact recvHead_serving hw hans hfits hhandled horder hsent hbuf hstream
  · rw [hrecv] at hstate
    obtain ⟨rfl, hbuf, r, rest, rfl, rfl, rfl, rfl, hstream⟩ := hstate
    rw [List.append_nil] at hsent
    exact recvBody_serving hw hans hhandled horder hsent hbuf hstream
  · rw [hrecv] at hstate
    obtain ⟨rfl, hidx, hstream⟩ := hstate
    obtain ⟨unsent, hserving⟩ := recvSend_serving hw hhandled horder reqId hsent hidx hstream
    exact ⟨todo, unsent, hserving⟩

end Step

/-- The requests of a run are handled in order, and what was sent is their replies up to what is still
unsent of the last. -/
theorem run_serving {b : Build} {env : Env} {s : Conn} {rs : List Request} (hstart : s.recvState = none)
    (hran : s.ran = []) (hsent : s.sent = []) (hstream : s.stream = wireRequests rs)
    (hans : InTurn b env s.server rs) (hfits : ∀ r ∈ rs, r.Fits) {xs : List Script}
    (hxs : ∀ x ∈ xs, x.Waits) :
    ∃ todo unsent, Serving b env s.server rs (xs.foldl (Conn.step b env) s) todo unsent := by
  have hrun (t : Conn) (h : ∃ todo unsent, Serving b env s.server rs t todo unsent) :
      ∃ todo unsent, Serving b env s.server rs (xs.foldl (Conn.step b env) t) todo unsent := by
    induction xs generalizing t with
    | nil => exact h
    | cons x xs ih =>
      obtain ⟨todo, unsent, hserving⟩ := h
      exact ih (fun y hy => hxs y (List.mem_cons_of_mem x hy)) _
        (step_serving (hxs x List.mem_cons_self) hans hfits hserving)
  refine hrun s ⟨rs, [], ?_, by rw [hran]; rfl, by rw [hsent, hran]; rfl, ?_⟩
  · rw [hran]
    exact .start
  · rw [hstart]
    exact ⟨rfl, hstream⟩

end WolfSsh.Sftp
