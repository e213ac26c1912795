import WolfSsh.SftpReplies
import WolfSsh.SftpDirectory

/-! The requests on the server's channel and its replies, over a whole run: one packet for each
request that has its answer, in the order of the requests. -/

namespace WolfSsh.Sftp

/-- Each of the requests has its answer in the state in which its turn comes. -/
def AnswerableInTurn (b : Build) (env : Env) (s : Server) (rs : List Request) : Prop :=
  ∀ ran t r todo, Handled b env s ran t → ran.map Prod.fst ++ r :: todo = rs →
    Answerable b env t.ssh t.trace r

/-- A server between two requests, with `rs` on its channel. -/
structure Facing (c : Conn) (rs : List Request) : Prop where
  recvState : c.recvState = none
  ran : c.ran = []
  sent : c.sent = []
  stream : c.stream = wireRequests rs

/-- The octets of a request that were read into the receive state. -/
def RecvState.held : RecvState → Bytes
  | .read buf => buf
  | .body type reqId sz buf => setHeader reqId type.toNat sz ++ buf
  | .send _ _ _ => []

/-- What the server came to of `rs`: the handlers of `done` ran once each and in order, each loaded a
packet for its request, a status where it failed, and the packets went out one after the other, up to
`unsent`. What it holds of the next request and the channel are the requests that are left. -/
structure OneReplyEach (b : Build) (env : Env) (c t : Conn) (rs : List Request) (done todo : List Request)
    (replies : List Bytes) (unsent : Bytes) : Prop where
  order : done ++ todo = rs
  handled : Handled b env c.server t.ran t.server
  ran : t.ran = done.zip (replies.map some)
  packets : List.Forall₂ (fun r out => ∃ type, Packet type r.reqId out) done replies
  failed : ∀ ran u r more, Handled b env c.server ran u → ran.map Prod.fst ++ r :: more = done →
    ((recvDo b u.ssh r.type.toNat r.reqId r.data).run env u.trace).1.ret ≠ .success →
    ∃ out, (u.handle b env r).1 = some out ∧ Packet ftpStatus r.reqId out
  sent : t.sent ++ unsent = replies.flatten
  whole : (∀ reqId out idx, t.recvState ≠ some (.send reqId out idx)) → unsent = []
  left : t.recvState.elim [] RecvState.held ++ t.stream = wireRequests todo

section InTurn

variable {b : Build} {env : Env} {s t : Server} {rs todo : List Request}
  {ran : List (Request × Option Bytes)}

theorem AnswerableInTurn.replies (henv : Posix env) (h : AnswerableInTurn b env s rs) {r : Request}
    (hhandled : Handled b env s ran t) (horder : ran.map Prod.fst ++ r :: todo = rs) :
    ∃ type out, (t.handle b env r).1 = some out ∧ Packet type r.reqId out ∧
      (((recvDo b t.ssh r.type.toNat r.reqId r.data).run env t.trace).1.ret ≠ .success →
        type = ftpStatus) :=
  recvDo_replies henv (h ran t r todo hhandled horder)

theorem AnswerableInTurn.inTurn (henv : Posix env) (h : AnswerableInTurn b env s rs) :
    InTurn b env s rs := by
  intro ran t r todo hhandled horder
  obtain ⟨type, out, hout, -⟩ := h.replies henv hhandled horder
  exact ⟨out, hout⟩

theorem handled_packets (henv : Posix env) (h : AnswerableInTurn b env s rs)
    (hhandled : Handled b env s ran t) (horder : ran.map Prod.fst ++ todo = rs) :
    ∃ replies, ran.map Prod.snd = replies.map some ∧
      List.Forall₂ (fun r out => ∃ type, Packet type r.reqId out) (ran.map Prod.fst) replies := by
  induction hhandled generalizing todo with
  | start => exact ⟨[], rfl, .nil⟩
  | error e _ ih => exact ih horder
  | @handle ran t r hran ih =>
    rw [List.map_append, List.append_assoc] at horder
    obtain ⟨replies, hloaded, hpackets⟩ := ih horder
    obtain ⟨type, out, hout, hpacket, -⟩ := h.replies henv (r := r) hran horder
    refine ⟨replies ++ [out], ?_, ?_⟩
    · rw [List.map_append, List.map_append, hloaded, List.map_singleton, List.map_singleton, hout]
    · rw [List.map_append]
      exact List.rel_append hpackets (.cons ⟨type, hpacket⟩ .nil)

end InTurn

theorem Serving.left {b : Build} {env : Env} {s₀ : Server} {rs todo : List Request} {s : Conn}
    {unsent : Bytes} (h : Serving b env s₀ rs s todo unsent) :
    s.recvState.elim [] RecvState.held ++ s.stream = wireRequests todo ∧
      ((∀ reqId out idx, s.recvState ≠ some (.send reqId out idx)) → unsent = []) := by
  have hstate := h.state
  rcases hrecv : s.recvState with _ | ⟨buf⟩ | ⟨type, reqId, sz, buf⟩ | ⟨reqId, out, idx⟩
  · rw [hrecv] at hstate
    exact ⟨hstate.2, fun _ => hstate.1⟩
  · rw [hrecv] at hstate
    exact ⟨hstate.2.2, fun _ => hstate.1⟩
  · rw [hrecv] at hstate
    obtain ⟨hnil, -, r, rest, rfl, rfl, rfl, rfl, hstream⟩ := hstate
    refine ⟨?_, fun _ => hnil⟩
    rw [Option.elim_some, RecvState.held, List.append_assoc, hstream, ← List.append_assoc]
    rfl
  · rw [hrecv] at hstate
    exact ⟨hstate.2.2, fun hno => absurd rfl (hno reqId out idx)⟩

theorem plainEnv_posix : Posix plainEnv where
  memory _ _ := rfl
  entries _ _ _ hread := by cases hread
  longNames _ _ _ _ hlong := by
    obtain rfl := Option.some.inj hlong
    decide

/-- A new session with requests on its channel. -/
def newConn (rs : List Request) : Conn where
  server := Server.start
  stream := wireRequests rs

theorem newConn_facing (rs : List Request) : Facing (newConn rs) rs := ⟨rfl, rfl, rfl, rfl⟩

/-- A STAT of `/a`, and a RENAME whose body is one octet. -/
def twoRequests : List Request := [⟨17, 7, copyString (ascii "/a")⟩, ⟨18, 8, [0]⟩]

/-- FSTAT of a handle that was never given out. -/
def fstatUnknown : Request := ⟨8, 7, copyString (handleIdEncode (0, 0))⟩

end WolfSsh.Sftp
