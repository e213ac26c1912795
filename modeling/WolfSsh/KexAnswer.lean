import WolfSsh.StrictKex

/-! How a client answers a KEXINIT: in the loop of `wolfSSH_connect`, or in `DoPacket`. -/

namespace WolfSsh.Session

/-- The messages with which a client opens an exchange. -/
def IsKexReply (msg : Nat) : Prop :=
  msg = msgidKexDhInit ∨ msg = msgidKexDhGexInit ∨ msg = msgidKexDhGexRequest
deriving Decidable

/-- The replies among what has been bundled since, the latest first. -/
def replies (before after : Ssh) : List Nat :=
  ((after.bundled.take (after.bundled.length - before.bundled.length)).map Bundled.msg).filter
    fun msg => IsKexReply msg

/-- `DoKexInit` took the KEXINIT: it reports `WS_WANT_WRITE` for a KEXINIT of its own that is queued,
and `WS_REKEYING` if that is what the send of it answers. -/
def Succeeded : Ret → Prop
  | .ok _ => True
  | .error e => e = .wantWrite ∨ e = .rekeying

instance (ret : Ret) : Decidable (Succeeded ret) := by
  cases ret <;> rw [Succeeded] <;> infer_instance

/-- An error that no parser and no hash answers with success in mind. -/
def Fails (failure : Option WsErr) : Prop := ∀ e ∈ failure, ¬ Succeeded (.error e)
deriving Decidable

/-- A KEXINIT for which only a send answers `WS_WANT_WRITE` or `WS_REKEYING`. -/
structure KexInitPacket where
  env : PacketEnv
  kexList : Fails env.kexInit.kexList := by decide
  lists : Fails env.kexInit.lists := by decide
  reserved : Fails env.kexInit.reserved := by decide
  hash : Fails env.kexInit.hash := by decide

/-- A client receives a KEXINIT in the loop of `wolfSSH_connect` that waits for it, which goes on to
open the exchange, or in a call that does nothing more before it waits again. -/
def Run.receiveKexInit (inConnect : Bool) (env : PacketEnv) (r : Run) : Run :=
  let r' := r.doPacket msgidKexInit env
  if inConnect ∧ r.ssh.connectState = .clientKexInitSent ∧
      r.ssh.serverState.val < ServerState.kexInitDone.val ∧
      ServerState.kexInitDone.val ≤ r'.ssh.serverState.val then
    r'.call fun ssh => ssh.connectKex env.send
  else r'

/-- Exactly one reply, of the method agreed on, if `DoKexInit` succeeds, and otherwise none. -/
structure Answers (inConnect : Bool) (env : PacketEnv) (r : Run) : Prop where
  success : Succeeded (r.ssh.doKexInit env.len env.kexInit).2 →
    replies r.ssh (r.receiveKexInit inConnect env).ssh = [firstKexMsg env.kexInit.kexId]
  failure : ¬ Succeeded (r.ssh.doKexInit env.len env.kexInit).2 →
    replies r.ssh (r.receiveKexInit inConnect env).ssh = []

/-! The first thing that is wrong with a KEXINIT. -/

def Sent.ret : Sent → Ret
  | .unbundled e | .purged e => .error e
  | .queued ret => ret

/-- The send of the own KEXINIT answers `WS_REKEYING`, and `DoKexInit` stops there. -/
def Ssh.Rekeys (env : KexInitEnv) (s : Ssh) : Prop :=
  s.selfKeying = false ∧ env.send.ret = .error .rekeying
deriving Decidable

/-- What the own KEXINIT comes to, if one is sent. -/
def answerRet (env : KexInitEnv) (s : Ssh) : Ret := if s.selfKeying then .ok () else env.send.ret

def answerFailure (env : KexInitEnv) (s : Ssh) : Option WsErr :=
  match answerRet env s with
  | .ok _ | .error .wantWrite => env.hash
  | .error .rekeying => none
  | .error e => some e

def restFailure (env : KexInitEnv) (s : Ssh) : Option WsErr :=
  env.lists.or (env.reserved.or (answerFailure env s))

def strictFailure (env : KexInitEnv) (s : Ssh) : Option WsErr :=
  if s.sessionIdSz = 0 ∧ env.strictMarker ∧ s.sendStrictKex ∧ s.peerSeq ≠ 0 then
    some .msgidNotAllowedE
  else restFailure env s

def listsFailure (env : KexInitEnv) (s : Ssh) : Option WsErr :=
  env.kexList.or (if env.kexId = .unknown then some .matchKexAlgoE else strictFailure env s)

def kexInitFailure (len : Nat) (env : KexInitEnv) (s : Ssh) : Option WsErr :=
  if len = 0 then some .badArgument
  else if s.peerKeying then some .invalidStateE
  else listsFailure env s

/-- The method that the handshake names when `DoKexInit` is done. -/
def methodAfter (len : Nat) (env : KexInitEnv) (s : Ssh) : AlgoId :=
  if len ≠ 0 ∧ env.kexList = none ∧ env.kexId ≠ .unknown then env.kexId
  else (s.handshake.map Handshake.kexId).getD .none

/-- When a client answers properly: a good KEXINIT reaches `DoPacket` with the session up, or the
loop of `wolfSSH_connect`, which takes no `WS_REKEYING`; a bad one reaches `DoPacket` in another state, or fails to negotiate, or
has left no method to answer with. -/
def AnswersWhen (inConnect : Bool) (env : PacketEnv) (s : Ssh) : Prop :=
  match kexInitFailure env.len env.kexInit s with
  | none =>
    (s.connectState = .serverChannelRequestDone ∨
      (inConnect ∧ s.connectState = .clientKexInitSent ∧
        s.serverState.val < ServerState.kexInitDone.val ∧ ¬ s.Rekeys env.kexInit)) ∧
      (kexMethod env.kexInit.kexId).isSome ∧ env.send.bundle = none
  | some e =>
    s.connectState ≠ .serverChannelRequestDone ∨ isKexMatchError (.error e) ∨
      (env.len = 0 ∧ s.selfKeying = false) ∨
      kexMethod (methodAfter env.len env.kexInit s) = none ∨ env.send.bundle.isSome

instance (inConnect : Bool) (env : PacketEnv) (s : Ssh) : Decidable (AnswersWhen inConnect env s) := by
  rw [AnswersWhen]
  split <;> infer_instance

/-! What `DoKexInit` makes of it. -/

/-- A step that keeps the method and bundles no reply. -/
structure NoReply (s t : Ssh) : Prop where
  method : ∀ hs, s.handshake = some hs → ∃ hs', t.handshake = some hs' ∧ hs'.kexId = hs.kexId
  peerKeying : t.peerKeying = s.peerKeying
  bundled : ∃ new, t.bundled = new ++ s.bundled ∧ ∀ b ∈ new, ¬ IsKexReply b.msg

namespace NoReply

variable {s t u : Ssh}

theorem of_eq (h1 : t.handshake = s.handshake) (h2 : t.peerKeying = s.peerKeying)
    (h3 : t.bundled = s.bundled) : NoReply s t :=
  ⟨fun hs hhs => ⟨hs, h1.trans hhs, rfl⟩, h2, [], h3, by simp⟩

theorem refl (s : Ssh) : NoReply s s := of_eq rfl rfl rfl

theorem trans (h : NoReply s t) (h' : NoReply t u) : NoReply s u := by
  obtain ⟨new, heq, hnew⟩ := h.bundled
  obtain ⟨new', heq', hnew'⟩ := h'.bundled
  refine ⟨fun hs hhs => ?_, h'.peerKeying.trans h.peerKeying, new' ++ new,
    by rw [heq', heq, List.append_assoc], ?_⟩
  · obtain ⟨hs', hhs', hkex⟩ := h.method hs hhs
    obtain ⟨hs'', hhs'', hkex'⟩ := h'.method hs' hhs'
    exact ⟨hs'', hhs'', hkex'.trans hkex⟩
  · intro b hb
    rw [List.mem_append] at hb
    exact hb.elim (hnew' b) (hnew b)

theorem bundlePacket {msg : Nat} (hmsg : ¬ IsKexReply msg) (s : Ssh) :
    NoReply s (s.bundlePacket msg) :=
  ⟨fun hs hhs => ⟨hs, hhs, rfl⟩, rfl, [⟨msg, s.seq, s.useStrictKex⟩], rfl, by simpa using hmsg⟩

theorem updHandshake {f : Handshake → Handshake} (hf : ∀ hs, (f hs).kexId = hs.kexId) (s : Ssh) :
    NoReply s (s.updHandshake f) :=
  ⟨fun hs hhs => ⟨f hs, by simp [Ssh.updHandshake, hhs], hf hs⟩, rfl, [], rfl, by simp⟩

theorem sendDisconnect (bundles : Bool) (s : Ssh) : NoReply s (s.sendDisconnect bundles) := by
  have hover : NoReply s { s with disconnected := true } := of_eq rfl rfl rfl
  cases bundles with
  | false => exact hover
  | true => exact hover.trans (bundlePacket (by decide) _)

theorem sendKexInit (sent : Sent) (s : Ssh) : NoReply s (s.sendKexInit sent).1 := by
  have hneed : NoReply s s.needHandshake :=
    ⟨fun hs hhs => ⟨hs, by simp [Ssh.needHandshake, hhs], rfl⟩, rfl, [], rfl, by simp⟩
  have hbundle := hneed.trans (bundlePacket (show ¬ IsKexReply msgidKexInit by decide) _)
  unfold Ssh.sendKexInit
  split
  · exact refl s
  · exact hneed
  · exact hbundle
  · exact hbundle.trans (of_eq rfl rfl rfl)

end NoReply

theorem sendKexInit_ret (sent : Sent) (s : Ssh) :
    (s.sendKexInit sent).2 = sent.ret ∧ (s.sendKexInit sent).1.disconnected = s.disconnected ∧
      (s.sendKexInit sent).1.serverState = s.serverState := by
  unfold Ssh.sendKexInit
  split <;> exact ⟨rfl, rfl, rfl⟩

/-- A layer of `DoKexInit` on a client, by the first thing that fails in it. -/
inductive InitStep (failure : Option WsErr) (rekeys : Prop) (s : Ssh) (r : Ssh × Ret) : Prop where
  | done (hf : failure = none) (hnot : ¬ rekeys) (hret : Succeeded r.2) (h : NoReply s r.1)
    (hstate : r.1.serverState = .kexInitDone) (hover : r.1.disconnected = s.disconnected)
  | rekeying (hf : failure = none) (hrekeys : rekeys) (hret : r.2 = .error .rekeying)
    (h : NoReply s r.1) (hstate : r.1.serverState = s.serverState)
  | failed (e : WsErr) (hf : failure = some e) (hret : r.2 = .error e) (h : NoReply s r.1)
    (hstate : r.1.serverState = s.serverState)

theorem InitStep.before {failure : Option WsErr} {rekeys : Prop} {s t : Ssh} {r : Ssh × Ret}
    (h : InitStep failure rekeys t r) (hs : NoReply s t) (hover : t.disconnected = s.disconnected)
    (hserver : t.serverState = s.serverState) : InitStep failure rekeys s r := by
  cases h with
  | done hf hnot hret h hstate hover' =>
    exact .done hf hnot hret (hs.trans h) hstate (hover'.trans hover)
  | rekeying hf hrekeys hret h hstate =>
    exact .rekeying hf hrekeys hret (hs.trans h) (hstate.trans hserver)
  | failed e hf hret h hstate => exact .failed e hf hret (hs.trans h) (hstate.trans hserver)

theorem rekeys_iff {env : KexInitEnv} {s : Ssh} :
    s.Rekeys env ↔ answerRet env s = .error .rekeying := by
  rw [Ssh.Rekeys, answerRet]
  cases s.selfKeying <;> simp

theorem doKexInitAnswer_step (env : KexInitEnv) {s : Ssh} (hside : s.side = .client) :
    InitStep (answerFailure env s) (s.Rekeys env) s (s.doKexInitAnswer env) := by
  obtain ⟨hsend, hover, hserver, hret, hclient⟩ :
      NoReply s (if s.selfKeying then (s, .ok ()) else s.sendKexInit env.send).1 ∧
        (if s.selfKeying then (s, .ok ()) else s.sendKexInit env.send).1.disconnected =
          s.disconnected ∧
        (if s.selfKeying then (s, .ok ()) else s.sendKexInit env.send).1.serverState =
          s.serverState ∧
        (if s.selfKeying then (s, .ok ()) else s.sendKexInit env.send).2 = answerRet env s ∧
        (if s.selfKeying then (s, .ok ()) else s.sendKexInit env.send).1.side = .client := by
    rw [answerRet]
    split
    · exact ⟨.refl s, rfl, rfl, rfl, hside⟩
    · obtain ⟨h1, h2, h3⟩ := sendKexInit_ret env.send s
      exact ⟨.sendKexInit env.send s, h2, h3, h1, (Frame.sendKexInit env.send s).side.trans hside⟩
  rw [answerFailure, rekeys_iff, ← hret]
  unfold Ssh.doKexInitAnswer
  generalize (if s.selfKeying then (s, .ok ()) else s.sendKexInit env.send : Ssh × Ret) = r at *
  obtain ⟨t, ret⟩ := r
  dsimp only at *
  rw [hclient]
  cases ret with
  | ok _ =>
    cases env.hash with
    | some e => exact .failed e rfl rfl hsend hserver
    | none => exact .done rfl (by simp) trivial (hsend.trans (.of_eq rfl rfl rfl)) rfl hover
  | error e =>
    cases e
    case wantWrite =>
      cases env.hash with
      | some e => exact .failed e rfl rfl hsend hserver
      | none => exact .done rfl (by simp) (.inl rfl) (hsend.trans (.of_eq rfl rfl rfl)) rfl hover
    case rekeying => exact .rekeying rfl rfl rfl hsend hserver
    all_goals exact .failed _ rfl rfl hsend hserver

theorem doKexInitRest_step (env : KexInitEnv) {s : Ssh} (hside : s.side = .client) :
    InitStep (restFailure env s) (s.Rekeys env) s (s.doKexInitRest env) := by
  rw [Ssh.doKexInitRest, restFailure]
  cases env.lists with
  | some e => exact .failed e rfl rfl (.refl s) rfl
  | none =>
    dsimp only
    rw [if_neg (by simp [hside])]
    cases env.reserved with
    | some e => exact .failed e rfl rfl (.refl s) rfl
    | none => exact doKexInitAnswer_step env hside

theorem doKexInitStrict_step (env : KexInitEnv) {s : Ssh} (hside : s.side = .client) :
    InitStep (strictFailure env s) (s.Rekeys env) s (s.doKexInitStrict env) := by
  rw [Ssh.doKexInitStrict, strictFailure]
  by_cases hsession : s.sessionIdSz = 0
  · rw [if_pos hsession]
    dsimp only
    have hmark : NoReply s { s with useStrictKex := env.strictMarker && s.sendStrictKex } :=
      .of_eq rfl rfl rfl
    by_cases hstrict : env.strictMarker ∧ s.sendStrictKex ∧ s.peerSeq ≠ 0
    · rw [if_pos (show s.sessionIdSz = 0 ∧ _ from ⟨hsession, hstrict⟩),
        if_pos ⟨by rw [hstrict.1, hstrict.2.1]; rfl, hstrict.2.2⟩]
      refine .failed _ rfl rfl (hmark.trans (.sendDisconnect _ _)) ?_
      cases env.disconnectBundles <;> rfl
    · rw [if_neg (show ¬ (s.sessionIdSz = 0 ∧ _) from fun h => hstrict h.2), if_neg ?_]
      · have hrest := doKexInitRest_step env
          (s := { s with useStrictKex := env.strictMarker && s.sendStrictKex }) hside
        exact hrest.before hmark rfl rfl
      · rintro ⟨h1, h2⟩
        rw [Bool.and_eq_true] at h1
        exact hstrict ⟨h1.1, h1.2, h2⟩
  · rw [if_neg hsession, if_neg fun h => hsession h.1]
    exact doKexInitRest_step env hside

/-- The session with an exchange opened, and the method if there is one. -/
def Ssh.opened (env : KexInitEnv) (s : Ssh) : Ssh :=
  let s := { s.needHandshake with peerKeying := true }
  if env.kexList = none ∧ env.kexId ≠ .unknown then
    { s.updHandshake fun hs => { hs with kexId := env.kexId } with
      kexId := env.kexId
      sendExtInfo := if s.extInfoSent then s.sendExtInfo else env.extInfo
      firstOffer := s.firstOffer.or (some env.extInfo) }
  else s

theorem doKexInitLists_step (env : KexInitEnv) {s : Ssh} (hside : s.side = .client) :
    InitStep (listsFailure env s) (s.Rekeys env) (s.opened env)
      (Ssh.doKexInitLists env { s.needHandshake with peerKeying := true }) := by
  rw [Ssh.doKexInitLists, listsFailure, Ssh.opened]
  cases hlist : env.kexList with
  | some e => exact .failed e rfl rfl (.refl _) rfl
  | none =>
    dsimp only
    by_cases hkex : env.kexId = .unknown
    · rw [if_pos hkex, if_pos hkex, if_neg fun h => h.2 hkex]
      exact .failed _ rfl rfl (.refl _) rfl
    · rw [if_neg hkex, if_neg hkex, if_pos ⟨rfl, hkex⟩]
      have hstep := doKexInitStrict_step env
        (s := { s.needHandshake with
          peerKeying := true
          handshake := s.needHandshake.handshake.map fun hs => { hs with kexId := env.kexId }
          kexId := env.kexId
          sendExtInfo := if s.extInfoSent then s.sendExtInfo else env.extInfo
          firstOffer := s.firstOffer.or (some env.extInfo) }) hside
      exact hstep

theorem Succeeded.not_match {ret : Ret} (h : Succeeded ret) : isKexMatchError ret = false := by
  cases ret with
  | ok _ => rfl
  | error e =>
    rcases h with rfl | rfl
    · rfl
    · rfl

/-- The whole of `DoKexInit` on a client that may be sent a KEXINIT. -/
theorem doKexInit_step {len : Nat} (hlen : len ≠ 0) (env : KexInitEnv) {s : Ssh}
    (hside : s.side = .client) (hkeying : s.peerKeying = false) :
    InitStep (kexInitFailure len env s) (s.Rekeys env) (s.opened env) (s.doKexInit len env) := by
  have hlists := doKexInitLists_step env hside
  rw [Ssh.doKexInit, kexInitFailure, if_neg hlen, if_neg hlen, if_neg (by simp [hkeying]),
    if_neg (by simp [hkeying])]
  generalize Ssh.doKexInitLists env { s.needHandshake with peerKeying := true } = r at *
  obtain ⟨t, ret⟩ := r
  dsimp only
  cases hlists with
  | done hf hnot hret h hstate hover =>
    rw [if_neg (by simp [hret.not_match])]
    exact .done hf hnot hret h hstate hover
  | rekeying hf hrekeys hret h hstate =>
    obtain rfl : ret = .error .rekeying := hret
    rw [if_neg (by simp [isKexMatchError])]
    exact .rekeying hf hrekeys rfl h hstate
  | failed e hf hret h hstate =>
    refine .failed e hf hret ?_ ?_
    · split
      · exact h.trans (.sendDisconnect _ _)
      · exact h
    · split
      · have hkept : (t.sendDisconnect env.disconnectBundles).serverState = t.serverState := by
          cases env.disconnectBundles <;> rfl
        exact hkept.trans hstate
      · exact hstate

theorem Ssh.opened_handshake (env : KexInitEnv) (s : Ssh) {len : Nat} (hlen : len ≠ 0) :
    ∃ hs, (s.opened env).handshake = some hs ∧ hs.kexId = methodAfter len env s := by
  rw [methodAfter, Ssh.opened]
  by_cases hkex : env.kexList = none ∧ env.kexId ≠ .unknown
  · rw [if_pos hkex, if_pos (show len ≠ 0 ∧ _ from ⟨hlen, hkex⟩)]
    exact ⟨{ s.handshake.getD {} with kexId := env.kexId }, rfl, rfl⟩
  · rw [if_neg hkex, if_neg (show ¬ (len ≠ 0 ∧ _) from fun h => hkex h.2)]
    refine ⟨s.handshake.getD {}, rfl, ?_⟩
    cases s.handshake <;> rfl

/-! The client's first message. -/

theorem sendFirstKexMsg_replies (env : KexSendEnv) {s : Ssh} {hs : Handshake}
    (hhs : s.handshake = some hs) :
    (s.sendFirstKexMsg env).1.bundled =
      if (kexMethod hs.kexId).isSome ∧ env.bundle = none then
        ⟨firstKexMsg hs.kexId, s.seq, s.useStrictKex⟩ :: s.bundled
      else s.bundled := by
  rw [Ssh.sendFirstKexMsg, hhs]
  dsimp only
  by_cases hgex : hs.kexId = .dhGexSha256
  · rw [if_pos hgex, Ssh.sendKexDhGexRequest, hhs, firstKexMsg, if_pos hgex, hgex]
    dsimp only
    rw [Ssh.sendKexMsg]
    cases env.bundle with
    | some e => simp
    | none => simp [kexMethod, Ssh.expect, Ssh.bundlePacket]
  · rw [if_neg hgex, Ssh.sendKexDhInit, hhs]
    dsimp only
    cases hmethod : kexMethod hs.kexId with
    | none => simp
    | some method =>
      have hinit : method.initId.toNat = firstKexMsg hs.kexId := by
        rw [(kexMethod_msgs hmethod).1, firstKexMsg, if_neg hgex, if_neg hgex]
      dsimp only
      rw [Ssh.sendKexMsg, hinit]
      cases env.bundle with
      | some e => simp
      | none => simp [Ssh.expect, Ssh.bundlePacket]

theorem firstKexMsg_isKexReply (kexId : AlgoId) : IsKexReply (firstKexMsg kexId) := by
  rw [firstKexMsg]
  split <;> decide

theorem replies_append {s t : Ssh} {new : List Bundled} (h : t.bundled = new ++ s.bundled) :
    replies s t = (new.map Bundled.msg).filter fun msg => IsKexReply msg := by
  rw [replies, h, List.length_append, Nat.add_sub_cancel, List.take_left]

theorem replies_cons {s t : Ssh} {reply : Bundled} {new : List Bundled}
    (h : t.bundled = reply :: (new ++ s.bundled)) (hreply : IsKexReply reply.msg)
    (hnew : ∀ b ∈ new, ¬ IsKexReply b.msg) : replies s t = [reply.msg] := by
  have hnone : ((new.map Bundled.msg).filter fun msg => IsKexReply msg) = [] := by
    rw [List.filter_eq_nil_iff]
    intro msg hmsg
    obtain ⟨b, hb, rfl⟩ := List.mem_map.mp hmsg
    simpa using hnew b hb
  have heq : t.bundled = (reply :: new) ++ s.bundled := h
  rw [replies_append heq, List.map_cons,
    List.filter_cons_of_pos (by simpa using hreply), hnone]

theorem replies_nil {s t : Ssh} (h : ∃ new, t.bundled = new ++ s.bundled ∧
    ∀ b ∈ new, ¬ IsKexReply b.msg) : replies s t = [] := by
  obtain ⟨new, heq, hnew⟩ := h
  rw [replies_append heq, List.filter_eq_nil_iff]
  intro msg hmsg
  obtain ⟨b, hb, rfl⟩ := List.mem_map.mp hmsg
  simpa using hnew b hb

theorem sendFirstKexMsg_after {s t : Ssh} (env : KexSendEnv)
    (h : ∃ new, t.bundled = new ++ s.bundled ∧ ∀ b ∈ new, ¬ IsKexReply b.msg) {kexId : AlgoId}
    (hmethod : (t.handshake.map Handshake.kexId).getD .none = kexId) :
    replies s (t.sendFirstKexMsg env).1 =
      if (kexMethod kexId).isSome ∧ env.bundle = none then [firstKexMsg kexId] else [] := by
  cases hhs : t.handshake with
  | none =>
    rw [hhs] at hmethod
    have hnone : AlgoId.none = kexId := hmethod
    rw [Ssh.sendFirstKexMsg, hhs, ← hnone, if_neg (by simp [kexMethod])]
    exact replies_nil h
  | some hs =>
    obtain ⟨new, heq, hnew⟩ := h
    rw [hhs] at hmethod
    have hkex : hs.kexId = kexId := hmethod
    have hbundled := sendFirstKexMsg_replies env hhs
    rw [hkex] at hbundled
    split
    · rename_i hsends
      rw [if_pos hsends, heq] at hbundled
      exact replies_cons hbundled (firstKexMsg_isKexReply _) hnew
    · rename_i hsends
      rw [if_neg hsends] at hbundled
      exact replies_nil ⟨new, hbundled.trans heq, hnew⟩

theorem doPacket_kexInit {r : Run} (env : PacketEnv) (hlive : r.ssh.disconnected = false)
    (hallowed : (isMessageAllowed r.ssh msgidKexInit).isSome) :
    r.ssh.peerKeying = false ∧ ∃ peerSeq,
      (r.doPacket msgidKexInit env).ssh = { r.ssh.kexInitCase env with peerSeq := peerSeq } := by
  obtain ⟨s, hgate⟩ := Option.isSome_iff_exists.mp hallowed
  have hletIn : r.ssh.peerKeying = false ∧ s = r.ssh := by
    cases isMessageAllowed_kex hgate (by decide) (by decide) with
    | kexInit hkeying _ heq => exact ⟨hkeying, heq⟩
    | expected hmsg _ => exact absurd rfl hmsg
    | unguarded _ _ hmsg _ _ => exact absurd rfl hmsg
  obtain ⟨hkeying, rfl⟩ := hletIn
  refine ⟨hkeying, ((r.ssh.kexInitCase env).peerSeq + 1) % 2 ^ 32, ?_⟩
  rw [Run.doPacket, hgate]
  dsimp only
  rw [if_neg (by simp [hlive]), Run.handle]
  rw [if_neg fun h => absurd h.2.1 (by decide)]
  rfl

/-- Where `DoPacket` answers a KEXINIT. -/
def AnsweredInDoPacket (env : PacketEnv) (s : Ssh) (ret : Ret) : Prop :=
  s.connectState = .serverChannelRequestDone ∧ isKexMatchError ret = false ∧
    (env.len ≠ 0 ∨ s.selfKeying) ∧
    (kexMethod (methodAfter env.len env.kexInit s)).isSome ∧ env.send.bundle = none
deriving Decidable

theorem doKexInit_after (env : PacketEnv) {s : Ssh} (hside : s.side = .client)
    (hkeying : s.peerKeying = false) :
    let t := (s.doKexInit env.len env.kexInit).1
    (∃ new, t.bundled = new ++ s.bundled ∧ ∀ b ∈ new, ¬ IsKexReply b.msg) ∧
      (t.isKeying = (decide (env.len ≠ 0) || s.selfKeying)) ∧
      (t.handshake.map Handshake.kexId).getD .none = methodAfter env.len env.kexInit s := by
  intro t
  by_cases hlen : env.len = 0
  · have ht : t = s := by
      change (s.doKexInit env.len env.kexInit).1 = s
      rw [Ssh.doKexInit, if_pos hlen]
    rw [ht, methodAfter, if_neg fun h => h.1 hlen]
    exact ⟨⟨[], rfl, by simp⟩, by simp [Ssh.isKeying, hlen, hkeying], rfl⟩
  · have hopened : (s.opened env.kexInit).peerKeying = true ∧
        (s.opened env.kexInit).bundled = s.bundled := by
      rw [Ssh.opened]
      split <;> exact ⟨rfl, rfl⟩
    obtain ⟨hs, hhs, hmethod⟩ := Ssh.opened_handshake env.kexInit s hlen
    have hstep : NoReply (s.opened env.kexInit) t := by
      cases doKexInit_step hlen env.kexInit hside hkeying with
      | done _ _ _ h _ _ => exact h
      | rekeying _ _ _ h _ => exact h
      | failed _ _ _ h _ => exact h
    obtain ⟨hs', hhs', hkex⟩ := hstep.method hs hhs
    refine ⟨?_, ?_, ?_⟩
    · rw [← hopened.2]
      exact hstep.bundled
    · simp [Ssh.isKeying, hstep.peerKeying, hopened.1, hlen]
    · rw [hhs']
      exact hkex.trans hmethod

theorem kexInitCase_replies (env : PacketEnv) {s : Ssh} (hside : s.side = .client)
    (hkeying : s.peerKeying = false) :
    replies s (s.kexInitCase env) =
      if AnsweredInDoPacket env s (s.doKexInit env.len env.kexInit).2 then
        [firstKexMsg (methodAfter env.len env.kexInit s)]
      else [] := by
  obtain ⟨hbundled, hisKeying, hmethod⟩ := doKexInit_after env hside hkeying
  have hconnect := (doKexInit_frame env.len env.kexInit s).connectState
  rw [Ssh.kexInitCase]
  dsimp only
  rw [hconnect, hisKeying]
  split
  · rename_i hup
    rw [sendFirstKexMsg_after env.send hbundled hmethod]
    refine if_congr ?_ rfl rfl
    have hnotMatch : isKexMatchError (s.doKexInit env.len env.kexInit).2 = false := by
      simpa using hup.1
    exact ⟨fun h => ⟨hup.2.2, hnotMatch, by simpa using hup.2.1, h⟩, fun h => h.2.2.2⟩
  · rename_i hup
    rw [if_neg, replies_nil hbundled]
    intro hanswered
    exact hup ⟨by simp [hanswered.2.1], by simpa using hanswered.2.2.1, hanswered.1⟩

/-- A failure is what `DoKexInit` returns; without one it is done, or stops at `WS_REKEYING`. -/
theorem doKexInit_verdict (env : PacketEnv) {s : Ssh} (hside : s.side = .client)
    (hkeying : s.peerKeying = false) :
    match kexInitFailure env.len env.kexInit s with
    | none => env.len ≠ 0 ∧ Succeeded (s.doKexInit env.len env.kexInit).2 ∧
        if s.Rekeys env.kexInit then
          (s.doKexInit env.len env.kexInit).1.serverState = s.serverState
        else (s.doKexInit env.len env.kexInit).1.serverState = .kexInitDone ∧
          (s.doKexInit env.len env.kexInit).1.disconnected = s.disconnected
    | some e => (s.doKexInit env.len env.kexInit).2 = .error e ∧
        (s.doKexInit env.len env.kexInit).1.serverState = s.serverState := by
  by_cases hlen : env.len = 0
  · rw [kexInitFailure, if_pos hlen, Ssh.doKexInit, if_pos hlen]
    exact ⟨rfl, rfl⟩
  · have hopened : (s.opened env.kexInit).serverState = s.serverState ∧
        (s.opened env.kexInit).disconnected = s.disconnected := by
      rw [Ssh.opened]
      split <;> exact ⟨rfl, rfl⟩
    cases doKexInit_step hlen env.kexInit hside hkeying with
    | done hf hnot hret _ hstate hover =>
      rw [hf]
      refine ⟨hlen, hret, ?_⟩
      rw [if_neg hnot]
      exact ⟨hstate, hover.trans hopened.2⟩
    | rekeying hf hrekeys hret _ hstate =>
      rw [hf]
      refine ⟨hlen, by rw [hret]; exact .inr rfl, ?_⟩
      rw [if_pos hrekeys]
      exact hstate.trans hopened.1
    | failed e hf hret _ hstate =>
      rw [hf]
      exact ⟨hret, hstate.trans hopened.1⟩

theorem methodAfter_of_done {len : Nat} {env : KexInitEnv} {s : Ssh}
    (h : kexInitFailure len env s = none) : methodAfter len env s = env.kexId := by
  rw [kexInitFailure] at h
  split at h
  · cases h
  · rename_i hlen
    split at h
    · cases h
    · rw [listsFailure] at h
      cases hlist : env.kexList with
      | some e =>
        rw [hlist] at h
        cases h
      | none =>
        rw [hlist] at h
        by_cases hkex : env.kexId = .unknown
        · rw [if_pos hkex] at h
          cases h
        · rw [methodAfter, if_pos ⟨hlen, hlist, hkex⟩]

theorem Fails.or {a b : Option WsErr} (ha : Fails a) (hb : Fails b) : Fails (a.or b) := by
  cases a with
  | none => exact hb
  | some e => exact ha

theorem KexInitPacket.failure_fails (p : KexInitPacket) (s : Ssh) :
    Fails (kexInitFailure p.env.len p.env.kexInit s) := by
  have hanswer : Fails (answerFailure p.env.kexInit s) := by
    rw [answerFailure]
    split
    · exact p.hash
    · exact p.hash
    · simp [Fails]
    · rename_i e hwrite hrekeying _
      rintro e' he' (rfl | rfl)
      · exact hwrite (Option.some.inj he')
      · exact hrekeying (Option.some.inj he')
  have hrest := p.lists.or (p.reserved.or hanswer)
  rw [kexInitFailure]
  split
  · decide
  · split
    · decide
    · refine p.kexList.or ?_
      split
      · decide
      · rw [strictFailure]
        split
        · decide
        · exact hrest

theorem receiveKexInit_replies (inConnect : Bool) (env : PacketEnv) {r : Run}
    (hside : r.ssh.side = .client) (hlive : r.ssh.disconnected = false)
    (hallowed : (isMessageAllowed r.ssh msgidKexInit).isSome) :
    replies r.ssh (r.receiveKexInit inConnect env).ssh =
      if AnsweredInDoPacket env r.ssh (r.ssh.doKexInit env.len env.kexInit).2 ∨
          (inConnect ∧ r.ssh.connectState = .clientKexInitSent ∧
            r.ssh.serverState.val < ServerState.kexInitDone.val ∧ ¬ r.ssh.Rekeys env.kexInit ∧
            kexInitFailure env.len env.kexInit r.ssh = none ∧
            (kexMethod env.kexInit.kexId).isSome ∧ env.send.bundle = none) then
        [firstKexMsg (methodAfter env.len env.kexInit r.ssh)]
      else [] := by
  obtain ⟨hkeying, peerSeq, hssh⟩ := doPacket_kexInit env hlive hallowed
  have hverdict := doKexInit_verdict env hside hkeying
  obtain ⟨hbundled, -, hmethod⟩ := doKexInit_after env hside hkeying
  have hcase := kexInitCase_replies env hside hkeying
  by_cases hconnect : inConnect ∧ r.ssh.connectState = .clientKexInitSent ∧
      r.ssh.serverState.val < ServerState.kexInitDone.val
  · have hnot : ¬ AnsweredInDoPacket env r.ssh (r.ssh.doKexInit env.len env.kexInit).2 := by
      intro h
      have hstate := hconnect.2.1.symm.trans h.1
      cases hstate
    have hkexInit : r.ssh.kexInitCase env = (r.ssh.doKexInit env.len env.kexInit).1 := by
      have hstate := (doKexInit_frame env.len env.kexInit r.ssh).connectState
      rw [Ssh.kexInitCase]
      dsimp only
      rw [if_neg]
      rintro ⟨-, -, hup⟩
      rw [hstate, hconnect.2.1] at hup
      cases hup
    have hclient := (doKexInit_frame env.len env.kexInit r.ssh).side
    rw [hkexInit] at hssh
    rw [Run.receiveKexInit]
    cases hf : kexInitFailure env.len env.kexInit r.ssh with
    | none =>
      rw [hf] at hverdict
      obtain ⟨hlen, -, hstates⟩ := hverdict
      by_cases hrekeys : r.ssh.Rekeys env.kexInit
      · rw [if_pos hrekeys] at hstates
        rw [if_neg, if_neg]
        · rw [hssh]
          exact replies_nil hbundled
        · rintro (h | h)
          · exact hnot h
          · exact h.2.2.2.1 hrekeys
        · rintro ⟨-, -, -, hdone⟩
          rw [hssh, hstates] at hdone
          exact absurd hconnect.2.2 (Nat.not_lt.mpr hdone)
      rw [if_neg hrekeys] at hstates
      obtain ⟨hstate, hover⟩ := hstates
      rw [methodAfter_of_done hf] at hmethod ⊢
      rw [if_pos ⟨hconnect.1, hconnect.2.1, hconnect.2.2, by rw [hssh, hstate]⟩, Run.call,
        if_neg (by rw [hssh]; simp [hover, hlive]), hssh]
      dsimp only
      rw [Ssh.connectKex, if_pos (hclient.trans hside)]
      have hanswers : (AnsweredInDoPacket env r.ssh (r.ssh.doKexInit env.len env.kexInit).2 ∨
          (inConnect ∧ r.ssh.connectState = .clientKexInitSent ∧
            r.ssh.serverState.val < ServerState.kexInitDone.val ∧ ¬ r.ssh.Rekeys env.kexInit ∧
            (none : Option WsErr) = none ∧ (kexMethod env.kexInit.kexId).isSome ∧ env.send.bundle = none)) ↔
          ((kexMethod env.kexInit.kexId).isSome ∧ env.send.bundle = none) :=
        ⟨fun h => (h.resolve_left hnot).2.2.2.2.2,
          fun h => .inr ⟨hconnect.1, hconnect.2.1, hconnect.2.2, hrekeys, rfl, h⟩⟩
      rw [if_congr hanswers rfl rfl]
      exact sendFirstKexMsg_after
        (t := { (r.ssh.doKexInit env.len env.kexInit).1 with peerSeq := peerSeq }) env.send
        hbundled hmethod
    | some e =>
      rw [hf] at hverdict
      rw [if_neg, if_neg]
      · rw [hssh]
        exact replies_nil hbundled
      · rintro (h | h)
        · exact hnot h
        · cases h.2.2.2.2.1
      · rintro ⟨-, -, -, hdone⟩
        rw [hssh, hverdict.2] at hdone
        exact absurd hconnect.2.2 (Nat.not_lt.mpr hdone)
  · rw [Run.receiveKexInit]
    rw [if_neg fun h => hconnect ⟨h.1, h.2.1, h.2.2.1⟩, hssh]
    refine hcase.trans (if_congr ?_ rfl rfl)
    exact ⟨.inl, fun h => h.resolve_right fun h => hconnect ⟨h.1, h.2.1, h.2.2.1⟩⟩

/-- For every client, every state that lets a KEXINIT in and every KEXINIT. -/
theorem answers_iff (inConnect : Bool) (p : KexInitPacket) {r : Run} (hside : r.ssh.side = .client)
    (hlive : r.ssh.disconnected = false)
    (hallowed : (isMessageAllowed r.ssh msgidKexInit).isSome) :
    Answers inConnect p.env r ↔ AnswersWhen inConnect p.env r.ssh := by
  have hkeying := (doPacket_kexInit p.env hlive hallowed).1
  have hreplies := receiveKexInit_replies inConnect p.env hside hlive hallowed
  have hverdict := doKexInit_verdict p.env hside hkeying
  rw [AnswersWhen]
  cases hf : kexInitFailure p.env.len p.env.kexInit r.ssh with
  | none =>
    rw [hf] at hverdict
    obtain ⟨hlen, hret, -⟩ := hverdict
    rw [methodAfter_of_done hf] at hreplies
    have hsent : ∀ {c : Prop} [Decidable c] {msg : Nat},
        ((if c then [msg] else []) = [msg]) ↔ c := by
      intro c _ msg
      split <;> simp_all
    have hiff : Answers inConnect p.env r ↔
        replies r.ssh (r.receiveKexInit inConnect p.env).ssh = [firstKexMsg p.env.kexInit.kexId] :=
      ⟨fun h => h.success hret, fun h => ⟨fun _ => h, fun hnot => absurd hret hnot⟩⟩
    rw [hiff, hreplies, hsent]
    constructor
    · rintro (h | h)
      · exact ⟨.inl h.1, methodAfter_of_done hf ▸ h.2.2.2⟩
      · exact ⟨.inr ⟨h.1, h.2.1, h.2.2.1, h.2.2.2.1⟩, h.2.2.2.2.2⟩
    · rintro ⟨h | h, hsends⟩
      · exact .inl ⟨h, hret.not_match, .inl hlen, (methodAfter_of_done hf).symm ▸ hsends⟩
      · exact .inr ⟨h.1, h.2.1, h.2.2.1, h.2.2.2, hf, hsends⟩
  | some e =>
    rw [hf] at hverdict
    have hfailed : ¬ Succeeded (r.ssh.doKexInit p.env.len p.env.kexInit).2 := by
      rw [hverdict.1]
      exact p.failure_fails r.ssh e hf
    have hiff : Answers inConnect p.env r ↔
        replies r.ssh (r.receiveKexInit inConnect p.env).ssh = [] :=
      ⟨fun h => h.failure hfailed, fun h => ⟨fun hret => absurd hret hfailed, fun _ => h⟩⟩
    have hquiet : ∀ {c : Prop} [Decidable c] {msg : Nat},
        ((if c then [msg] else []) = []) ↔ ¬ c := by
      intro c _ msg
      split <;> simp_all
    rw [hiff, hreplies, hquiet, AnsweredInDoPacket, hverdict.1, hf]
    constructor
    · intro h
      by_contra hnot
      rw [not_or, not_or, not_or, not_or, not_not, Bool.not_eq_true, not_and] at hnot
      obtain ⟨hup, hmatch, hkeys, hmethod, hbundle⟩ := hnot
      refine h (.inl ⟨hup, hmatch, ?_, ?_, by simpa using hbundle⟩)
      · by_cases hlen : p.env.len = 0
        · exact .inr (by simpa using hkeys hlen)
        · exact .inl hlen
      · rwa [← Option.ne_none_iff_isSome]
    · rintro h (⟨hup, hmatch, hkeys, hmethod, hbundle⟩ | hdone)
      · rcases h with h | h | h | h | h
        · exact h hup
        · rw [hmatch] at h
          cases h
        · rcases hkeys with hlen | hself
          · exact hlen h.1
          · rw [h.2] at hself
            cases hself
        · rw [h] at hmethod
          cases hmethod
        · rw [hbundle] at h
          cases h
      · cases hdone.2.2.2.2.1

/-- A client that has been keyed and has sent its first USERAUTH_REQUEST. -/
def clientExchange : List Event :=
  [ .sendKexInit (.queued (.ok ())),
    .packet msgidKexInit { len := 100, kexInit := { kexId := .curve25519Sha256 } },
    .connectKex {},
    .packet msgidKexDhReply { len := 36 },
    .packet msgidNewKeys {},
    .connectState .clientUserauthSent ]

def clientRekey : KexInitPacket where
  env := { len := 100, kexInit := { kexId := .curve25519Sha256 } }

theorem answers_iff_first :
    let r := [Event.sendKexInit (.queued (.ok ())), .connectState .clientKexInitSent].foldl Run.step
      (start .client true)
    AnswersWhen true clientRekey.env r.ssh ∧ Answers true clientRekey.env r := by
  intro r
  have hwhen : AnswersWhen true clientRekey.env r.ssh := by decide
  exact ⟨hwhen, (answers_iff true clientRekey rfl rfl (by decide)).mpr hwhen⟩

/-- The server starts a rekey during user authentication. -/
theorem answers_not_during_userauth :
    ¬ ∀ es, ∀ r ∈ Runs.states Run.step (start .client true) es, r.ssh.disconnected = false →
      (isMessageAllowed r.ssh msgidKexInit).isSome →
        ∀ (inConnect : Bool) (p : KexInitPacket), Answers inConnect p.env r := by
  intro h
  have hanswers := h clientExchange _ (Runs.foldl_mem_states _ _) (by decide) (by decide) true
    clientRekey
  have hreplies := hanswers.success (by decide)
  exact absurd hreplies (by decide)

end WolfSsh.Session
