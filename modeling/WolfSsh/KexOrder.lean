import WolfSsh.StrictKex

/-! The order of the key exchange messages that reach a handler, and the keys that a NEWKEYS puts in
place. -/

namespace WolfSsh.Session

/-- The messages of a method before NEWKEYS, as the side that receives them sees them. -/
def opening (side : Endpoint) (kexId : AlgoId) : List Nat :=
  match side with
  | .server =>
    if kexId = .dhGexSha256 then [msgidKexDhGexRequest, msgidKexDhGexInit] else [msgidKexDhInit]
  | .client =>
    if kexId = .dhGexSha256 then [msgidKexDhGexGroup, msgidKexDhGexReply] else [msgidKexDhReply]

def order (side : Endpoint) (kexId : AlgoId) : List Nat := opening side kexId ++ [msgidNewKeys]

/-- The key exchange messages dispatched since the last KEXINIT, the latest first. -/
def exchange : List Dispatched → List Dispatched
  | [] => []
  | d :: older =>
    if d.msg = msgidKexInit then []
    else if msgidKexInit < d.msg ∧ d.msg ≤ 49 then d :: exchange older
    else exchange older

/-- At most one guess that was skipped, and then `msgs`. -/
def Follows (ex : List Dispatched) (msgs : List Nat) : Prop :=
  ∃ done guess, ex = done ++ guess ∧ guess.length ≤ 1 ∧ (∀ d ∈ guess, d.skipped) ∧
    (∀ d ∈ done, d.skipped = false) ∧ (done.map Dispatched.msg).reverse = msgs

/-- The messages so far are the first ones of the method. -/
def Ordered (side : Endpoint) (kexId : AlgoId) (ex : List Dispatched) : Prop :=
  ∃ msgs, Follows ex msgs ∧ msgs <+: order side kexId

/-- The message `next` is the one that the method has after those so far. -/
def Awaits (side : Endpoint) (kexId : AlgoId) (ex : List Dispatched) (next : Nat) : Prop :=
  ∃ msgs, Follows ex msgs ∧ msgs ++ [next] <+: order side kexId

theorem Follows.cons {ex : List Dispatched} {msgs : List Nat} (h : Follows ex msgs)
    {d : Dispatched} (hd : d.skipped = false) : Follows (d :: ex) (msgs ++ [d.msg]) := by
  obtain ⟨done, guess, rfl, hlen, hguess, hdone, rfl⟩ := h
  refine ⟨d :: done, guess, rfl, hlen, hguess, ?_, by simp⟩
  intro e he
  rw [List.mem_cons] at he
  rcases he with rfl | he
  · exact hd
  · exact hdone e he

theorem Follows.nil : Follows [] [] := ⟨[], [], rfl, by simp, by simp, by simp, rfl⟩

theorem Follows.guess {d : Dispatched} (hd : d.skipped) : Follows [d] [] :=
  ⟨[], [d], rfl, by simp, by simpa using hd, by simp, rfl⟩

theorem Ordered.nil (side : Endpoint) (kexId : AlgoId) : Ordered side kexId [] :=
  ⟨[], .nil, List.nil_prefix⟩

theorem Awaits.cons {side : Endpoint} {kexId : AlgoId} {ex : List Dispatched} {d : Dispatched}
    (h : Awaits side kexId ex d.msg) (hd : d.skipped = false) : Ordered side kexId (d :: ex) := by
  obtain ⟨msgs, hmsgs, hpre⟩ := h
  exact ⟨msgs ++ [d.msg], hmsgs.cons hd, hpre⟩

theorem prefix_next {l pre post : List Nat} {m next : Nat} (hnd : (pre ++ m :: next :: post).Nodup)
    (h : l ++ [m] <+: pre ++ m :: next :: post) : (l ++ [m]) ++ [next] <+: pre ++ m :: next :: post := by
  induction l generalizing pre with
  | nil =>
    cases pre with
    | nil => simp
    | cons a pre =>
      obtain ⟨t, ht⟩ := h
      simp only [List.nil_append, List.cons_append, List.cons.injEq] at ht
      obtain ⟨rfl, -⟩ := ht
      simp at hnd
  | cons a l ih =>
    cases pre with
    | nil =>
      obtain ⟨t, ht⟩ := h
      simp only [List.nil_append, List.cons_append, List.cons.injEq] at ht
      obtain ⟨rfl, ht⟩ := ht
      have hmem : a ∈ next :: post := by rw [← ht]; simp
      simp only [List.nil_append, List.nodup_cons] at hnd
      exact absurd hmem hnd.1
    | cons b pre =>
      rw [List.cons_append, List.cons_append, List.cons_prefix_cons] at h
      obtain ⟨rfl, h⟩ := h
      simp only [List.cons_append, List.cons_prefix_cons, true_and]
      exact ih (List.nodup_cons.mp hnd).2 h

theorem order_nodup (side : Endpoint) (kexId : AlgoId) : (order side kexId).Nodup := by
  rw [order]
  cases side <;> rw [opening] <;> split <;> decide

theorem Awaits.next {side : Endpoint} {kexId : AlgoId} {ex : List Dispatched} {d : Dispatched}
    {next : Nat} (h : Awaits side kexId ex d.msg) (hd : d.skipped = false)
    (hnext : ∃ pre post, order side kexId = pre ++ d.msg :: next :: post) :
    Awaits side kexId (d :: ex) next := by
  obtain ⟨msgs, hmsgs, hpre⟩ := h
  obtain ⟨pre, post, heq⟩ := hnext
  have hnd := order_nodup side kexId
  rw [heq] at hnd hpre
  refine ⟨msgs ++ [d.msg], hmsgs.cons hd, ?_⟩
  rw [heq]
  exact prefix_next hnd hpre

/-! What the handlers do to the handshake. -/

/-- The handshake after a handler: nothing more is expected than before, or `next` is; NEWKEYS only
once the keys are there, and on a client the host signature has been verified. -/
structure Rearms (side : Endpoint) (next : Nat) (hs hs' : Handshake) : Prop where
  kexId : hs'.kexId = hs.kexId
  ignores : hs'.ignoreNextKexMsg = hs.ignoreNextKexMsg
  expects : hs'.expectMsgId = hs.expectMsgId ∨ hs'.expectMsgId = next
  derived : hs'.expectMsgId = msgidNewKeys → hs.expectMsgId ≠ msgidNewKeys →
    hs'.keysDerived ∧ (side = .client → hs'.hostVerified)

theorem Rearms.refl (side : Endpoint) (next : Nat) (hs : Handshake) : Rearms side next hs hs :=
  ⟨rfl, rfl, .inl rfl, fun h h' => absurd h h'⟩

/-- A handler keeps the handshake, rearmed. -/
def RearmsIn (side : Endpoint) (next : Nat) (hs : Handshake) (t : Ssh) : Prop :=
  ∃ hs', t.handshake = some hs' ∧ Rearms side next hs hs'

theorem rearmsIn_of_eq {side : Endpoint} {next : Nat} {hs : Handshake} {t : Ssh}
    (h : t.handshake = some hs) : RearmsIn side next hs t :=
  ⟨hs, h, Rearms.refl side next hs⟩

theorem sendDisconnect_handshake (bundles : Bool) (s : Ssh) :
    (s.sendDisconnect bundles).handshake = s.handshake := by
  cases bundles <;> rfl

theorem saveSessionId_handshake (hSz : Nat) (s : Ssh) :
    (s.saveSessionId hSz).handshake = s.handshake := by
  rw [Ssh.saveSessionId]
  split <;> rfl

theorem sendNewKeys_handshake (env : NewKeysEnv) (s : Ssh) :
    (s.sendNewKeys env).1.handshake = s.handshake := by
  have hseq : ∀ t : Ssh, (if t.useStrictKex then { t with seq := 0 } else t).handshake =
      t.handshake := by
    intro t
    split <;> rfl
  rw [Ssh.sendNewKeys]
  split
  · rfl
  · dsimp only
    split
    · exact hseq _
    · rw [sendPendingChannelWindowAdjust_handshake]
      exact hseq _

theorem sendExtInfoMsg_handshake (sent : Sent) (s : Ssh) :
    (s.sendExtInfoMsg sent).1.handshake = s.handshake := by
  unfold Ssh.sendExtInfoMsg
  split <;> rfl

theorem disconnectOn_handshake (errs : List WsErr) (bundles : Bool) (r : Ssh × Ret) :
    (Ssh.disconnectOn errs bundles r).1.handshake = r.1.handshake := by
  rw [Ssh.disconnectOn]
  split
  · rfl
  · split
    · exact sendDisconnect_handshake _ _
    · rfl

theorem bundleAll_handshake (msgs : List Nat) (s : Ssh) :
    (s.bundleAll msgs).handshake = s.handshake := by
  induction msgs generalizing s with
  | nil => rfl
  | cons msg msgs ih => exact ih (s.bundlePacket msg)

theorem sendKexInit_handshake {s : Ssh} {hs : Handshake} (h : s.handshake = some hs) (sent : Sent) :
    (s.sendKexInit sent).1.handshake = some hs := by
  have hneed : s.needHandshake.handshake = some hs := by simp [Ssh.needHandshake, h]
  unfold Ssh.sendKexInit
  split
  · exact h
  · exact hneed
  · exact hneed
  · exact hneed

theorem sendKexDhReplyBundle_handshake (env : KexDhEnv) (method : KexMethod) {s : Ssh}
    {hs : Handshake} (h : s.handshake = some hs) :
    (s.sendKexDhReplyBundle env method).1.handshake = some hs ∨
      (s.sendKexDhReplyBundle env method).1.handshake =
        some { hs with expectMsgId := msgidNewKeys } := by
  rw [Ssh.sendKexDhReplyBundle]
  split
  · exact .inl h
  · right
    have hexpect : ((s.bundlePacket method.replyId.toNat).expect msgidNewKeys).handshake =
        some { hs with expectMsgId := msgidNewKeys } := by
      simp [Ssh.expect, Ssh.bundlePacket, h]
    have hnew := (sendNewKeys_handshake env.newKeys _).trans hexpect
    dsimp only
    split
    · exact (sendExtInfoMsg_handshake _ _).trans hnew
    · exact hnew

theorem sendKexDhReplyHashed_rearms (env : KexDhEnv) (method : KexMethod) {s : Ssh}
    {hs : Handshake} (h : s.handshake = some hs) :
    RearmsIn .server msgidNewKeys hs (s.sendKexDhReplyHashed env method).1 := by
  rw [Ssh.sendKexDhReplyHashed]
  split
  · exact rearmsIn_of_eq h
  · split
    · exact rearmsIn_of_eq h
    · have hkeys : (s.updHandshake fun hs => { hs with keysDerived := true }).handshake =
          some { hs with keysDerived := true } := by
        simp [Ssh.updHandshake, h]
      rcases sendKexDhReplyBundle_handshake env method hkeys with heq | heq
      · exact ⟨_, heq, rfl, rfl, .inl rfl, fun hnew hold => absurd hnew hold⟩
      · exact ⟨_, heq, rfl, rfl, .inr rfl, fun _ _ => ⟨rfl, by simp⟩⟩

theorem sendKexDhReply_rearms (env : KexDhEnv) (kexId : AlgoId) {s : Ssh} {hs : Handshake}
    (h : s.handshake = some hs) :
    RearmsIn .server msgidNewKeys hs (s.sendKexDhReply env kexId).1 := by
  rw [Ssh.sendKexDhReply]
  split
  · exact rearmsIn_of_eq h
  · split
    · exact rearmsIn_of_eq h
    · exact sendKexDhReplyHashed_rearms env _ ((saveSessionId_handshake env.hSz s).trans h)

theorem disconnectOn_rearms {side : Endpoint} {next : Nat} {hs : Handshake} (errs : List WsErr)
    (bundles : Bool) {r : Ssh × Ret} (h : RearmsIn side next hs r.1) :
    RearmsIn side next hs (Ssh.disconnectOn errs bundles r).1 := by
  rw [RearmsIn, disconnectOn_handshake]
  exact h

theorem doKexDhInit_rearms (len : Nat) (env : KexDhEnv) {s : Ssh} {hs : Handshake}
    (h : s.handshake = some hs) (hignore : hs.ignoreNextKexMsg = false) :
    RearmsIn .server msgidNewKeys hs (s.doKexDhInit len env).1 := by
  rw [Ssh.doKexDhInit, h]
  dsimp only
  split
  · exact rearmsIn_of_eq h
  · rw [if_neg (by simp [hignore])]
    apply disconnectOn_rearms
    split
    · exact rearmsIn_of_eq h
    · exact sendKexDhReply_rearms env hs.kexId rfl

theorem sendKexMsg_rearms (side : Endpoint) (env : KexSendEnv) (msg : Nat) {next : Nat}
    (hnext : next ≠ msgidNewKeys) {s : Ssh} {hs : Handshake} (h : s.handshake = some hs) :
    RearmsIn side next hs (s.sendKexMsg env msg next).1 := by
  rw [Ssh.sendKexMsg]
  split
  · exact rearmsIn_of_eq h
  · refine ⟨{ hs with expectMsgId := next }, by simp [Ssh.expect, Ssh.bundlePacket, h], rfl, rfl,
      .inr rfl, fun hnew _ => absurd hnew hnext⟩

theorem sendKexDhGexGroup_rearms (env : KexSendEnv) {s : Ssh} {hs : Handshake}
    (h : s.handshake = some hs) :
    RearmsIn .server msgidKexDhGexInit hs (s.sendKexDhGexGroup env).1 := by
  rw [Ssh.sendKexDhGexGroup, h]
  exact sendKexMsg_rearms _ env _ (by decide) h

theorem kexMethod_replyId {id : AlgoId} {method : KexMethod} (h : kexMethod id = some method) :
    method.replyId.toNat = if id = .dhGexSha256 then msgidKexDhGexReply else msgidKexDhReply := by
  cases id <;> simp [kexMethod] at h <;> subst h <;> decide

theorem sendKexDhInit_rearms (env : KexSendEnv) {s : Ssh} {hs : Handshake}
    (h : s.handshake = some hs) :
    RearmsIn .client (if hs.kexId = .dhGexSha256 then msgidKexDhGexReply else msgidKexDhReply) hs
      (s.sendKexDhInit env).1 := by
  rw [Ssh.sendKexDhInit, h]
  dsimp only
  cases hmethod : kexMethod hs.kexId with
  | none => exact rearmsIn_of_eq h
  | some method =>
    dsimp only
    rw [kexMethod_replyId hmethod]
    refine sendKexMsg_rearms _ env _ ?_ h
    split <;> decide

theorem sendFirstKexMsg_rearms (env : KexSendEnv) {s : Ssh} {hs : Handshake}
    (h : s.handshake = some hs) :
    RearmsIn .client msgidKexDhReply hs (s.sendFirstKexMsg env).1 := by
  rw [Ssh.sendFirstKexMsg, h]
  dsimp only
  split
  · rw [Ssh.sendKexDhGexRequest, h]
    exact sendKexMsg_rearms _ env _ (by decide) h
  · rename_i hgex
    have hrearms := sendKexDhInit_rearms env h
    rwa [if_neg hgex] at hrearms

theorem doKexDhGexRequest_rearms (len : Nat) (parse : Option WsErr) (send : KexSendEnv) {s : Ssh}
    {hs : Handshake} (h : s.handshake = some hs) (hignore : hs.ignoreNextKexMsg = false) :
    RearmsIn .server msgidKexDhGexInit hs (s.doKexDhGexRequest len parse send).1 := by
  unfold Ssh.doKexDhGexRequest
  rw [h]
  dsimp only
  split
  · exact rearmsIn_of_eq h
  · rw [if_neg (by simp [hignore])]
    split
    · exact rearmsIn_of_eq h
    · exact sendKexDhGexGroup_rearms send h

theorem doKexDhGexGroup_rearms (len : Nat) (parse : Option WsErr) (send : KexSendEnv)
    (bundles : Bool) {s : Ssh} {hs : Handshake} (h : s.handshake = some hs)
    (hgex : hs.kexId = .dhGexSha256) :
    RearmsIn .client msgidKexDhGexReply hs (s.doKexDhGexGroup len parse send bundles).1 := by
  unfold Ssh.doKexDhGexGroup
  apply disconnectOn_rearms
  split
  · exact rearmsIn_of_eq h
  · split
    · exact rearmsIn_of_eq h
    · have hrearms := sendKexDhInit_rearms send h
      rwa [if_pos hgex] at hrearms

theorem doKexDhReplyHashed_rearms (env : KexDhEnv) {s : Ssh} {hs : Handshake}
    (h : s.handshake = some hs) :
    RearmsIn .client msgidNewKeys hs (s.doKexDhReplyHashed env).1 := by
  have hsaved : (s.saveSessionId env.hSz).handshake = some hs :=
    (saveSessionId_handshake env.hSz s).trans h
  rw [Ssh.doKexDhReplyHashed]
  dsimp only
  split
  · exact rearmsIn_of_eq hsaved
  · split
    · exact ⟨{ hs with hostVerified := true }, by simp [Ssh.updHandshake, hsaved], rfl, rfl,
        .inl rfl, fun hnew hold => absurd hnew hold⟩
    · refine ⟨{ hs with hostVerified := true, keysDerived := true, expectMsgId := msgidNewKeys },
        ?_, rfl, rfl, .inr rfl, fun _ _ => ⟨rfl, fun _ => rfl⟩⟩
      rw [sendNewKeys_handshake]
      simp [Ssh.expect, Ssh.updHandshake, hsaved]

theorem doKexDhReply_rearms (len : Nat) (env : KexDhEnv) {s : Ssh} {hs : Handshake}
    (h : s.handshake = some hs) :
    RearmsIn .client msgidNewKeys hs (s.doKexDhReply len env).1 := by
  rw [Ssh.doKexDhReply]
  split
  · exact rearmsIn_of_eq h
  · apply disconnectOn_rearms
    split
    · exact rearmsIn_of_eq h
    · split
      · exact rearmsIn_of_eq h
      · exact doKexDhReplyHashed_rearms env h

/-! Where an exchange stands. -/

/-- A handshake that no KEXINIT has touched. -/
def Idle (hs : Handshake) : Prop :=
  hs.expectMsgId = msgidNone ∧ hs.kexId = .none ∧ hs.ignoreNextKexMsg = false

/-- Where an open exchange stands after the messages `ex`. -/
structure Stage (side : Endpoint) (kexId : AlgoId) (hs : Handshake) (ex : List Dispatched) :
    Prop where
  method : hs.kexId = kexId ∨ (Idle hs ∧ ex = [])
  ignoring : hs.ignoreNextKexMsg → side = .server ∧ hs.expectMsgId = msgidNone ∧ ex = []
  expecting : hs.expectMsgId ≠ msgidNone → Awaits side kexId ex hs.expectMsgId
  newKeys : hs.expectMsgId = msgidNewKeys →
    hs.keysDerived ∧ (side = .client → hs.hostVerified)

theorem Idle.stage {hs : Handshake} (h : Idle hs) (side : Endpoint) (kexId : AlgoId) :
    Stage side kexId hs [] where
  method := .inr ⟨h, rfl⟩
  ignoring := by simp [h.2.2]
  expecting := fun hne => absurd h.1 hne
  newKeys := by
    rw [h.1]
    intro hmsg
    cases hmsg

theorem Follows.of_nil {msgs : List Nat} (h : Follows [] msgs) : msgs = [] := by
  obtain ⟨done, guess, heq, -, -, -, rfl⟩ := h
  obtain ⟨rfl, -⟩ := List.append_eq_nil_iff.mp heq.symm
  rfl

theorem awaits_first_server (kexId : AlgoId) : [firstKexMsg kexId] <+: order .server kexId := by
  rw [firstKexMsg, order, opening]
  split <;> simp

theorem awaits_first_client (kexId : AlgoId) : [msgidKexDhReply] <+: order .client kexId := by
  rw [order, opening]
  split <;> simp

theorem not_awaits_newKeys (side : Endpoint) (kexId : AlgoId) :
    ¬ Awaits side kexId [] msgidNewKeys := by
  rintro ⟨msgs, hmsgs, hpre⟩
  rw [hmsgs.of_nil, order] at hpre
  cases side <;> rw [opening] at hpre <;> split at hpre <;> simp at hpre

theorem Stage.rearmed {side : Endpoint} {kexId : AlgoId} {hs hs' : Handshake}
    {ex : List Dispatched} {d : Dispatched} {next : Nat} (hkex : hs.kexId = kexId)
    (hignore : hs.ignoreNextKexMsg = false) (hawaits : Awaits side kexId ex d.msg)
    (hskip : d.skipped = false) (hnext : ∃ pre post, order side kexId = pre ++ d.msg :: next :: post)
    (h : Rearms side next { hs with expectMsgId := msgidNone } hs') :
    Stage side kexId hs' (d :: ex) where
  method := .inl (h.kexId.trans hkex)
  ignoring := by simp [h.ignores, hignore]
  expecting := by
    intro hne
    rcases h.expects with heq | heq
    · exact absurd heq hne
    · rw [heq]
      exact hawaits.next hskip hnext
  newKeys := fun hnew => h.derived hnew (by simp)

theorem Stage.opened {kexId : AlgoId} {hs hs' : Handshake} (hst : Stage .client kexId hs [])
    (hkex : hs.kexId ≠ .none) (h : Rearms .client msgidKexDhReply hs hs') :
    Stage .client kexId hs' [] where
  method := by
    rcases hst.method with heq | ⟨hidle, -⟩
    · exact .inl (h.kexId.trans heq)
    · exact absurd hidle.2.1 hkex
  ignoring := by
    intro hig
    rw [h.ignores] at hig
    exact absurd (hst.ignoring hig).1 (by decide)
  expecting := by
    intro hne
    rcases h.expects with heq | heq
    · rw [heq] at hne ⊢
      exact hst.expecting hne
    · rw [heq]
      exact ⟨[], .nil, awaits_first_client kexId⟩
  newKeys := by
    intro hnew
    refine h.derived hnew fun hold => ?_
    have hawaits := hst.expecting (by rw [hold]; decide)
    rw [hold] at hawaits
    exact not_awaits_newKeys .client kexId hawaits

theorem sendFirstKexMsg_idle (env : KexSendEnv) {s : Ssh}
    (h : ∀ hs, s.handshake = some hs → hs.kexId = .none) : (s.sendFirstKexMsg env).1 = s := by
  rw [Ssh.sendFirstKexMsg]
  split
  · rfl
  · rename_i hs hhs
    have hkex := h hs hhs
    rw [if_neg (by simp [hkex]), Ssh.sendKexDhInit, hhs]
    simp [hkex, kexMethod]

theorem sendFirstKexMsg_stage (env : KexSendEnv) {s : Ssh} {hs : Handshake} {kexId : AlgoId}
    (h : s.handshake = some hs) (hst : Stage .client kexId hs []) :
    ∃ hs', (s.sendFirstKexMsg env).1.handshake = some hs' ∧ Stage .client kexId hs' [] := by
  by_cases hkex : hs.kexId = .none
  · rw [sendFirstKexMsg_idle env (by rw [h]; rintro _ ⟨⟩; exact hkex)]
    exact ⟨hs, h, hst⟩
  · obtain ⟨hs', hhs', hrearms⟩ := sendFirstKexMsg_rearms env h
    exact ⟨hs', hhs', hst.opened hkex hrearms⟩

/-! A KEXINIT opens an exchange. -/

/-- The peer is keying and nothing of its exchange has come yet. -/
def Opened (t : Ssh) : Prop :=
  t.peerKeying ∧ ∃ hs, t.handshake = some hs ∧ Stage t.side t.kexId hs []

theorem Opened.frame {s t : Ssh} (h : Opened s) (hframe : Frame s t)
    (hhs : t.handshake = s.handshake) : Opened t := by
  rw [Opened, hframe.peerKeying, hframe.side, hframe.kexId, hhs]
  exact h

theorem doKexInitAnswer_opened (env : KexInitEnv) {s : Ssh} (h : Opened s)
    (hkex : ∀ hs, s.handshake = some hs → hs.kexId = s.kexId) :
    Opened (s.doKexInitAnswer env).1 := by
  obtain ⟨hkeying, hs, hhs, hst⟩ := h
  have hsend : Opened (if s.selfKeying then (s, .ok ()) else s.sendKexInit env.send).1 ∧
      (if s.selfKeying then (s, .ok ()) else s.sendKexInit env.send).1.handshake = some hs ∧
      (if s.selfKeying then (s, .ok ()) else s.sendKexInit env.send).1.kexId = s.kexId := by
    split
    · exact ⟨⟨hkeying, hs, hhs, hst⟩, hhs, rfl⟩
    · have hframe := Frame.sendKexInit env.send s
      have heq := sendKexInit_handshake hhs env.send
      exact ⟨Opened.frame ⟨hkeying, hs, hhs, hst⟩ hframe (heq.trans hhs.symm), heq, hframe.kexId⟩
  unfold Ssh.doKexInitAnswer
  generalize (if s.selfKeying then (s, .ok ()) else s.sendKexInit env.send : Ssh × Ret) = r at hsend ⊢
  obtain ⟨t, ret⟩ := r
  obtain ⟨hopened, hts, htk⟩ := hsend
  dsimp only at hopened hts htk ⊢
  split
  iterate 2
    split
    · exact hopened
    · split
      · rename_i hside
        dsimp only
        split
        · exact hopened
        · rename_i hignore
          have hignore' : hs.ignoreNextKexMsg = false := by
            simpa [Ssh.ignoresNext, hts] using hignore
          refine ⟨hopened.1, { hs with expectMsgId := firstKexMsg hs.kexId }, ?_, ?_⟩
          · simp [Ssh.expectClientKexMsg, Ssh.updHandshake, hts]
          · have hkexId : hs.kexId = t.kexId := (hkex hs hhs).trans htk.symm
            refine ⟨.inl hkexId, by simp [hignore'], fun _ => ?_, fun hnew => ?_⟩
            · change Awaits t.side t.kexId [] (firstKexMsg hs.kexId)
              rw [hside, hkexId]
              exact ⟨[], .nil, awaits_first_server t.kexId⟩
            · change firstKexMsg hs.kexId = msgidNewKeys at hnew
              rw [firstKexMsg] at hnew
              split at hnew <;> cases hnew
      · exact hopened
  · exact hopened

/-- The method is known and nothing is expected yet. -/
def Chosen (t : Ssh) : Prop :=
  t.peerKeying ∧ ∃ hs, t.handshake = some hs ∧ hs.kexId = t.kexId ∧
    hs.expectMsgId = msgidNone ∧ hs.ignoreNextKexMsg = false

theorem Chosen.opened {t : Ssh} (h : Chosen t) : Opened t := by
  obtain ⟨hkeying, hs, hhs, hkex, hexpect, hignore⟩ := h
  refine ⟨hkeying, hs, hhs, .inl hkex, by simp [hignore], fun hne => absurd hexpect hne, ?_⟩
  rw [hexpect]
  intro hmsg
  cases hmsg

theorem doKexInitRest_opened (env : KexInitEnv) {s : Ssh} (h : Chosen s) :
    Opened (s.doKexInitRest env).1 := by
  have hguess : ∀ t, t = (if env.wrongGuess ∧ s.side = .server then
      s.updHandshake fun hs => { hs with ignoreNextKexMsg := true } else s) →
      Opened t ∧ ∀ hs, t.handshake = some hs → hs.kexId = t.kexId := by
    obtain ⟨hkeying, hs, hhs, hkex, hexpect, hignore⟩ := h
    rintro t rfl
    split
    · rename_i hside
      have hnew : (s.updHandshake fun hs => { hs with ignoreNextKexMsg := true }).handshake =
          some { hs with ignoreNextKexMsg := true } := by
        simp [Ssh.updHandshake, hhs]
      refine ⟨⟨hkeying, _, hnew, .inl hkex, fun _ => ⟨hside.2, hexpect, rfl⟩, ?_, ?_⟩, ?_⟩
      · exact fun hne => absurd hexpect hne
      · intro hmsg
        rw [hexpect] at hmsg
        cases hmsg
      · intro hs' hhs'
        rw [hnew] at hhs'
        cases hhs'
        exact hkex
    · refine ⟨Chosen.opened ⟨hkeying, hs, hhs, hkex, hexpect, hignore⟩, ?_⟩
      intro hs' hhs'
      rw [hhs] at hhs'
      cases hhs'
      exact hkex
  rw [Ssh.doKexInitRest]
  split
  · exact h.opened
  · obtain ⟨hopened, hmethod⟩ := hguess _ rfl
    dsimp only
    split
    · exact hopened
    · exact doKexInitAnswer_opened env hopened hmethod

theorem doKexInitStrict_opened (env : KexInitEnv) {s : Ssh} (h : Chosen s) :
    Opened (s.doKexInitStrict env).1 := by
  have hmark : ∀ b, Chosen { s with useStrictKex := b } := fun _ => h
  rw [Ssh.doKexInitStrict]
  split
  · dsimp only
    split
    · exact (hmark _).opened.frame (Frame.sendDisconnect _ _) (sendDisconnect_handshake _ _)
    · exact doKexInitRest_opened env (hmark _)
  · exact doKexInitRest_opened env h

theorem doKexInitLists_opened (env : KexInitEnv) {s : Ssh} {hs : Handshake} (hkeying : s.peerKeying)
    (hhs : s.handshake = some hs) (hidle : Idle hs) : Opened (s.doKexInitLists env).1 := by
  have hopened : Opened s := ⟨hkeying, hs, hhs, hidle.stage s.side s.kexId⟩
  rw [Ssh.doKexInitLists]
  split
  · exact hopened
  · split
    · exact hopened
    · apply doKexInitStrict_opened
      refine ⟨hkeying, { hs with kexId := env.kexId }, ?_, rfl, hidle.1, hidle.2.2⟩
      simp [Ssh.updHandshake, hhs]

/-- A KEXINIT with an empty payload changes nothing; any other opens an exchange. -/
theorem doKexInit_opened (len : Nat) (env : KexInitEnv) {s : Ssh} (hkeying : s.peerKeying = false)
    (hidle : ∀ hs, s.handshake = some hs → Idle hs) :
    (s.doKexInit len env).1 = s ∨ Opened (s.doKexInit len env).1 := by
  rw [Ssh.doKexInit]
  split
  · exact .inl rfl
  · right
    rw [if_neg (by simp [hkeying])]
    have hneed : ∃ hs, ({ s.needHandshake with peerKeying := true } : Ssh).handshake = some hs ∧
        Idle hs := by
      refine ⟨s.handshake.getD {}, rfl, ?_⟩
      cases hs : s.handshake with
      | none => exact ⟨rfl, rfl, rfl⟩
      | some hs' => exact hidle hs' hs
    obtain ⟨hs, hhs, hidle'⟩ := hneed
    have hopened := doKexInitLists_opened env (s := { s.needHandshake with peerKeying := true }) rfl
      hhs hidle'
    dsimp only
    split
    · exact hopened.frame (Frame.sendDisconnect _ _) (sendDisconnect_handshake _ _)
    · exact hopened

theorem kexInitCase_opened (env : PacketEnv) {s : Ssh} (hkeying : s.peerKeying = false)
    (hidle : ∀ hs, s.handshake = some hs → Idle hs)
    (hconnect : s.side = .server → s.connectState = .begin) :
    s.kexInitCase env = s ∨ Opened (s.kexInitCase env) := by
  have hframe := doKexInit_frame env.len env.kexInit s
  have hopened := doKexInit_opened env.len env.kexInit hkeying hidle
  rw [Ssh.kexInitCase]
  generalize s.doKexInit env.len env.kexInit = r at hframe hopened
  obtain ⟨t, ret⟩ := r
  dsimp only at hframe hopened ⊢
  split
  · rename_i hrekey
    have hclient : t.side = .client := by
      cases hside : t.side with
      | client => rfl
      | server =>
        have hbegin := hconnect (hframe.side ▸ hside)
        rw [← hframe.connectState, hrekey.2.2] at hbegin
        cases hbegin
    rcases hopened with rfl | ⟨hkeying', hs, hhs, hst⟩
    · exact .inl (sendFirstKexMsg_idle env.send fun hs hhs => (hidle hs hhs).2.1)
    · right
      rw [hclient] at hst
      obtain ⟨hs', hhs', hst'⟩ := sendFirstKexMsg_stage env.send hhs hst
      have hf := Frame.sendFirstKexMsg env.send t
      refine ⟨hf.peerKeying.trans hkeying', hs', hhs', ?_⟩
      rw [hf.side, hf.kexId, hclient]
      exact hst'
  · exact hopened

/-! Runs. -/

/-- A server's key exchange message finds an expectation, or the guess to be skipped; a client opens
an exchange once. -/
def Guarded (r : Run) : Event → Prop
  | .packet msg env =>
    r.ssh.side = .server → r.ssh.disconnected = false → r.ssh.peerKeying → msgidKexInit < msg →
      msg ≤ 49 → msg ≠ msgidKexDhReply → msg ≠ msgidKexDhGexReply →
        ¬ r.ssh.ExpectsNone ∨ Run.skips r.ssh msg env.len
  | .connectKex _ => r.ssh.peerKeying → exchange r.dispatched = []
  | _ => True

instance (r : Run) : (e : Event) → Decidable (Guarded r e)
  | .packet msg env => inferInstanceAs (Decidable (r.ssh.side = .server →
      r.ssh.disconnected = false → r.ssh.peerKeying → msgidKexInit < msg → msg ≤ 49 →
        msg ≠ msgidKexDhReply → msg ≠ msgidKexDhGexReply →
          ¬ r.ssh.ExpectsNone ∨ Run.skips r.ssh msg env.len))
  | .connectKex _ => inferInstanceAs (Decidable (r.ssh.peerKeying → exchange r.dispatched = []))
  | .sendKexInit _ | .effects _ | .acceptState _ | .connectState _ => isTrue trivial

/-- What a NEWKEYS has copied had been derived, on a client from a verified exchange. -/
def Derived (side : Endpoint) (d : Dispatched) : Prop :=
  ∀ k, d.keys = some k →
    d.msg = msgidNewKeys ∧ d.skipped = false ∧ k.1 ∧ (side = .client → k.2)

structure OrderInv (r : Run) : Prop where
  ordered : Ordered r.ssh.side r.ssh.kexId (exchange r.dispatched)
  idle : r.ssh.peerKeying = false → ∀ hs, r.ssh.handshake = some hs → Idle hs
  live : r.ssh.disconnected = false → r.ssh.peerKeying →
    ∃ hs, r.ssh.handshake = some hs ∧ Stage r.ssh.side r.ssh.kexId hs (exchange r.dispatched)
  derived : ∀ d ∈ r.dispatched, Derived r.ssh.side d
  connect : r.ssh.side = .server → r.ssh.connectState = .begin

namespace OrderInv

variable {r : Run}

theorem consume (h : OrderInv r) (msg : Nat) (done : Bool) : OrderInv (r.consume msg done) := by
  rw [Run.consume]
  cases done <;> exact ⟨h.ordered, h.idle, h.live, h.derived, h.connect⟩

theorem keep (h : OrderInv r) {t : Ssh} (ht : Frame r.ssh t) (hhs : t.handshake = r.ssh.handshake) :
    OrderInv { r with ssh := t } where
  ordered := by
    dsimp only
    rw [ht.side, ht.kexId]
    exact h.ordered
  idle := by
    dsimp only
    rw [ht.peerKeying, hhs]
    exact h.idle
  live := by
    dsimp only
    rw [ht.peerKeying, hhs, ht.side, ht.kexId]
    intro hover
    refine h.live ?_
    cases hover' : r.ssh.disconnected with
    | false => rfl
    | true =>
      rw [ht.ended hover'] at hover
      cases hover
  derived := by
    dsimp only
    rw [ht.side]
    exact h.derived
  connect := by
    dsimp only
    rw [ht.side, ht.connectState]
    exact h.connect

theorem gateOver (h : OrderInv r) {msg : Nat} {s : Ssh} (hgate : isMessageAllowed r.ssh msg = some s)
    (hover : s.disconnected) : OrderInv { r with ssh := s } := by
  rcases isMessageAllowed_eq hgate with rfl | ⟨hkeying, -, -, rfl⟩
  · exact h
  · have hlive : ¬ (r.ssh.expect msgidNone).disconnected = false := by simp [hover]
    exact ⟨h.ordered, fun hnot => by simp [Ssh.expect, hkeying] at hnot,
      fun hnot => absurd hnot hlive, h.derived, h.connect⟩

theorem other (h : OrderInv r) {d : Dispatched} (hmsg : d.msg < 20 ∨ 49 < d.msg)
    (hd : d.keys = none) : OrderInv { r with dispatched := d :: r.dispatched } := by
  have hsame : exchange (d :: r.dispatched) = exchange r.dispatched := by
    rw [exchange, if_neg (show ¬ d.msg = 20 by omega), if_neg (show ¬ (20 < d.msg ∧ _) by omega)]
  refine ⟨?_, h.idle, ?_, ?_, h.connect⟩
  · dsimp only
    rw [hsame]
    exact h.ordered
  · dsimp only
    rw [hsame]
    exact h.live
  · intro e he
    rw [List.mem_cons] at he
    rcases he with rfl | he
    · intro k hk
      simp [hd] at hk
    · exact h.derived e he

end OrderInv

theorem exchange_kexInit {d : Dispatched} (h : d.msg = msgidKexInit) (older : List Dispatched) :
    exchange (d :: older) = [] := by
  rw [exchange, if_pos h]

theorem exchange_cons {d : Dispatched} (hlo : 20 < d.msg) (hhi : d.msg ≤ 49)
    (older : List Dispatched) : exchange (d :: older) = d :: exchange older := by
  rw [exchange, if_neg (show ¬ d.msg = 20 by omega), if_pos ⟨hlo, hhi⟩]

theorem dispatchOf_derived_of_ne {msg : Nat} (hmsg : msg ≠ msgidNewKeys) (env : PacketEnv) (s : Ssh)
    (side : Endpoint) : Derived side (Run.dispatchOf msg env s) := by
  intro k hk
  simp [Run.dispatchOf, hmsg] at hk

theorem OrderInv.kexInit {r : Run} (h : OrderInv r) (hkeying : r.ssh.peerKeying = false)
    (env : PacketEnv) :
    OrderInv { r with
      ssh := r.ssh.kexInitCase env
      dispatched := Run.dispatchOf msgidKexInit env r.ssh :: r.dispatched } := by
  have hframe := kexInitCase_frame env r.ssh
  have hopened := kexInitCase_opened env hkeying (h.idle hkeying) h.connect
  have hnil := exchange_kexInit (d := Run.dispatchOf msgidKexInit env r.ssh) rfl r.dispatched
  generalize r.ssh.kexInitCase env = t at *
  refine ⟨?_, ?_, ?_, ?_, ?_⟩
  · dsimp only
    rw [hnil]
    exact Ordered.nil _ _
  · dsimp only
    intro hnot
    rcases hopened with rfl | ⟨hk, -⟩
    · exact h.idle hkeying
    · rw [hk] at hnot
      cases hnot
  · dsimp only
    rw [hnil]
    intro _ hk
    rcases hopened with rfl | ⟨-, hst⟩
    · rw [hkeying] at hk
      cases hk
    · exact hst
  · dsimp only
    rw [hframe.side]
    intro d hd
    rw [List.mem_cons] at hd
    rcases hd with rfl | hd
    · exact dispatchOf_derived_of_ne (by decide) env r.ssh _
    · exact h.derived d hd
  · dsimp only
    rw [hframe.side, hframe.connectState]
    exact h.connect

theorem Awaits.mem {side : Endpoint} {kexId : AlgoId} {ex : List Dispatched} {msg : Nat}
    (h : Awaits side kexId ex msg) : msg ∈ order side kexId := by
  obtain ⟨msgs, -, hpre⟩ := h
  exact hpre.subset (by simp)

theorem order_server_gex : order .server .dhGexSha256 =
    [msgidKexDhGexRequest, msgidKexDhGexInit, msgidNewKeys] := rfl

theorem order_client_gex : order .client .dhGexSha256 =
    [msgidKexDhGexGroup, msgidKexDhGexReply, msgidNewKeys] := rfl

theorem order_server {kexId : AlgoId} (h : kexId ≠ .dhGexSha256) :
    order .server kexId = [msgidKexDhInit, msgidNewKeys] := by
  rw [order, opening, if_neg h]
  rfl

theorem order_client {kexId : AlgoId} (h : kexId ≠ .dhGexSha256) :
    order .client kexId = [msgidKexDhReply, msgidNewKeys] := by
  rw [order, opening, if_neg h]
  rfl

theorem order_bounds {side : Endpoint} {kexId : AlgoId} {msg : Nat} (h : msg ∈ order side kexId) :
    20 < msg ∧ msg ≤ 49 := by
  by_cases hgex : kexId = .dhGexSha256
  · subst hgex
    cases side with
    | server =>
      simp only [order_server_gex, List.mem_cons, List.not_mem_nil, or_false] at h
      rcases h with rfl | rfl | rfl <;> decide
    | client =>
      simp only [order_client_gex, List.mem_cons, List.not_mem_nil, or_false] at h
      rcases h with rfl | rfl | rfl <;> decide
  · cases side with
    | server =>
      simp only [order_server hgex, List.mem_cons, List.not_mem_nil, or_false] at h
      rcases h with rfl | rfl <;> decide
    | client =>
      simp only [order_client hgex, List.mem_cons, List.not_mem_nil, or_false] at h
      rcases h with rfl | rfl <;> decide

/-- The message that a live session awaits, past the gate. -/
structure Arrived (r : Run) (msg : Nat) (s : Ssh) (hs : Handshake) : Prop where
  live : r.ssh.disconnected = false
  keying : r.ssh.peerKeying
  gate : s = r.ssh.expect msgidNone
  handshake : s.handshake = some { hs with expectMsgId := msgidNone }
  method : hs.kexId = r.ssh.kexId
  ignores : hs.ignoreNextKexMsg = false
  awaits : Awaits r.ssh.side r.ssh.kexId (exchange r.dispatched) msg
  newKeys : msg = msgidNewKeys → hs.keysDerived ∧ (r.ssh.side = .client → hs.hostVerified)

theorem OrderInv.arrived {r : Run} (h : OrderInv r) (hlive : r.ssh.disconnected = false) {msg : Nat}
    {s : Ssh} (hmeets : Meets r.ssh msg s) : ∃ hs, Arrived r msg s hs := by
  obtain ⟨hkeying, ⟨hs, hhs, rfl⟩, hne, rfl⟩ := hmeets
  obtain ⟨hs', hhs', hst⟩ := h.live hlive hkeying
  rw [hhs] at hhs'
  cases hhs'
  refine ⟨hs, hlive, hkeying, rfl, by simp [Ssh.expect, hhs], ?_, ?_, hst.expecting hne, hst.newKeys⟩
  · rcases hst.method with heq | ⟨hidle, -⟩
    · exact heq
    · exact absurd hidle.1 hne
  · cases hig : hs.ignoreNextKexMsg with
    | false => rfl
    | true => exact absurd (hst.ignoring hig).2.1 hne

namespace Arrived

variable {r : Run} {msg : Nat} {s : Ssh} {hs : Handshake}

theorem skipped (a : Arrived r msg s hs) (env : PacketEnv) :
    (Run.dispatchOf msg env s).skipped = false := by
  simp [Run.dispatchOf, Run.skips, Ssh.ignoresNext, a.handshake, a.ignores]

theorem derived (a : Arrived r msg s hs) (env : PacketEnv) :
    Derived r.ssh.side (Run.dispatchOf msg env s) := by
  intro k hk
  rw [Run.dispatchOf, a.handshake] at hk
  dsimp only at hk
  split at hk
  · rename_i hmsg
    cases hk
    exact ⟨hmsg.1, a.skipped env, a.newKeys hmsg.1⟩
  · cases hk

theorem frame (a : Arrived r msg s hs) : Frame r.ssh s := by
  rw [a.gate]
  exact Frame.expect _ _

theorem rearmed (a : Arrived r msg s hs) (h : OrderInv r) (env : PacketEnv) {t : Ssh} {next : Nat}
    (ht : Frame s t)
    (hrearms : RearmsIn r.ssh.side next { hs with expectMsgId := msgidNone } t)
    (hnext : ∃ pre post, order r.ssh.side r.ssh.kexId = pre ++ msg :: next :: post) :
    OrderInv { r with ssh := t, dispatched := Run.dispatchOf msg env s :: r.dispatched } := by
  have hframe := a.frame.trans ht
  obtain ⟨hlo, hhi⟩ := order_bounds a.awaits.mem
  have hcons := exchange_cons (d := Run.dispatchOf msg env s) hlo hhi r.dispatched
  have hskip := a.skipped env
  obtain ⟨hs', hhs', hre⟩ := hrearms
  refine ⟨?_, ?_, ?_, ?_, ?_⟩
  · dsimp only
    rw [hcons, hframe.side, hframe.kexId]
    exact a.awaits.cons hskip
  · dsimp only
    rw [hframe.peerKeying, a.keying]
    intro hnot
    cases hnot
  · dsimp only
    rw [hcons, hframe.side, hframe.kexId]
    exact fun _ _ => ⟨hs', hhs', Stage.rearmed a.method a.ignores a.awaits hskip hnext hre⟩
  · dsimp only
    rw [hframe.side]
    intro d hd
    rw [List.mem_cons] at hd
    rcases hd with rfl | hd
    · exact a.derived env
    · exact h.derived d hd
  · dsimp only
    rw [hframe.side, hframe.connectState]
    exact h.connect

theorem installed (a : Arrived r msgidNewKeys s hs) (h : OrderInv r) (env : PacketEnv) :
    OrderInv { r with
      ssh := s.dispatch msgidNewKeys env
      dispatched := Run.dispatchOf msgidNewKeys env s :: r.dispatched } := by
  have hcons := exchange_cons (d := Run.dispatchOf msgidNewKeys env s) (show 20 < 21 by decide)
    (show 21 ≤ 49 by decide) r.dispatched
  have hskip := a.skipped env
  have hordered := a.awaits.cons hskip
  have hderived : ∀ d ∈ Run.dispatchOf msgidNewKeys env s :: r.dispatched,
      Derived r.ssh.side d := by
    intro d hd
    rw [List.mem_cons] at hd
    rcases hd with rfl | hd
    · exact a.derived env
    · exact h.derived d hd
  have hframe := a.frame
  change OrderInv { r with
    ssh := (s.doNewKeys env.len env.newKeys.cipher env.newKeys.adjusts env.newKeys.adjustRet).1
    dispatched := Run.dispatchOf msgidNewKeys env s :: r.dispatched }
  rcases doNewKeys_cases env.len env.newKeys.cipher env.newKeys.adjusts env.newKeys.adjustRet s
    with heq | ⟨-, -, heq⟩
  · rw [heq]
    refine ⟨?_, ?_, ?_, ?_, ?_⟩
    · dsimp only
      rw [hcons, hframe.side, hframe.kexId]
      exact hordered
    · dsimp only
      rw [hframe.peerKeying, a.keying]
      intro hnot
      cases hnot
    · dsimp only
      rw [hcons, hframe.side, hframe.kexId]
      refine fun _ _ => ⟨_, a.handshake, .inl a.method, by simp [a.ignores], by simp, ?_⟩
      intro hnot
      cases hnot
    · dsimp only
      rw [hframe.side]
      exact hderived
    · dsimp only
      rw [hframe.side, hframe.connectState]
      exact h.connect
  · have hnew := Frame.sendPendingChannelWindowAdjust env.newKeys.adjusts env.newKeys.adjustRet
      { s with peerKeying := false, handshake := none }
    have hnone := sendPendingChannelWindowAdjust_handshake env.newKeys.adjusts env.newKeys.adjustRet
      { s with peerKeying := false, handshake := none }
    rw [heq]
    generalize (Ssh.sendPendingChannelWindowAdjust env.newKeys.adjusts env.newKeys.adjustRet
      { s with peerKeying := false, handshake := none }).1 = t at hnew hnone
    refine ⟨?_, ?_, ?_, ?_, ?_⟩
    · dsimp only
      rw [hcons, hnew.side, hnew.kexId, hframe.side, hframe.kexId]
      exact hordered
    · dsimp only
      rw [hnone]
      intro _ _ hnot
      cases hnot
    · dsimp only
      rw [hnew.peerKeying]
      intro _ hnot
      cases hnot
    · dsimp only
      rw [hnew.side, hframe.side]
      exact hderived
    · dsimp only
      rw [hnew.side, hnew.connectState, hframe.side, hframe.connectState]
      exact h.connect

theorem dispatch_server (a : Arrived r msg s hs) (h : OrderInv r) (env : PacketEnv)
    (hside : r.ssh.side = .server) :
    OrderInv { r with
      ssh := s.dispatch msg env
      dispatched := Run.dispatchOf msg env s :: r.dispatched } := by
  have hmem := a.awaits.mem
  have hignore : ({ hs with expectMsgId := msgidNone } : Handshake).ignoreNextKexMsg = false :=
    a.ignores
  rw [hside] at hmem
  have hinit :
      (∃ pre post, order r.ssh.side r.ssh.kexId = pre ++ msg :: msgidNewKeys :: post) →
      OrderInv { r with
        ssh := (s.doKexDhInit env.len env.kexDh).1
        dispatched := Run.dispatchOf msg env s :: r.dispatched } := by
    intro hnext
    refine a.rearmed h env (Frame.doKexDhInit env.len env.kexDh s) ?_ hnext
    rw [hside]
    exact doKexDhInit_rearms env.len env.kexDh a.handshake hignore
  by_cases hgex : r.ssh.kexId = .dhGexSha256
  · have horder : order r.ssh.side r.ssh.kexId =
        [msgidKexDhGexRequest, msgidKexDhGexInit, msgidNewKeys] := by
      rw [hside, hgex, order_server_gex]
    rw [hgex, order_server_gex] at hmem
    simp only [List.mem_cons, List.not_mem_nil, or_false] at hmem
    rcases hmem with rfl | rfl | rfl
    · refine a.rearmed h env (Frame.doKexDhGexRequest env.len env.parse env.send s) ?_
        ⟨[], [msgidNewKeys], horder⟩
      rw [hside]
      exact doKexDhGexRequest_rearms env.len env.parse env.send a.handshake hignore
    · exact hinit ⟨[msgidKexDhGexRequest], [], horder⟩
    · exact a.installed h env
  · have horder : order r.ssh.side r.ssh.kexId = [msgidKexDhInit, msgidNewKeys] := by
      rw [hside, order_server hgex]
    rw [order_server hgex] at hmem
    simp only [List.mem_cons, List.not_mem_nil, or_false] at hmem
    rcases hmem with rfl | rfl
    · exact hinit ⟨[], [], horder⟩
    · exact a.installed h env

theorem dispatch_client (a : Arrived r msg s hs) (h : OrderInv r) (env : PacketEnv)
    (hside : r.ssh.side = .client) :
    OrderInv { r with
      ssh := s.dispatch msg env
      dispatched := Run.dispatchOf msg env s :: r.dispatched } := by
  have hmem := a.awaits.mem
  rw [hside] at hmem
  by_cases hgex : r.ssh.kexId = .dhGexSha256
  · have horder : order r.ssh.side r.ssh.kexId =
        [msgidKexDhGexGroup, msgidKexDhGexReply, msgidNewKeys] := by
      rw [hside, hgex, order_client_gex]
    rw [hgex, order_client_gex] at hmem
    simp only [List.mem_cons, List.not_mem_nil, or_false] at hmem
    rcases hmem with rfl | rfl | rfl
    · refine a.rearmed h env (Frame.kexDhReplyCase env s) ?_ ⟨[], [msgidNewKeys], horder⟩
      change RearmsIn _ _ _ (s.kexDhReplyCase env).1
      unfold Ssh.kexDhReplyCase
      rw [hside, a.handshake]
      dsimp only
      rw [if_pos (a.method.trans hgex)]
      exact doKexDhGexGroup_rearms _ _ _ _ a.handshake (a.method.trans hgex)
    · refine a.rearmed h env (Frame.doKexDhReply env.len env.kexDh s) ?_
        ⟨[msgidKexDhGexGroup], [], horder⟩
      rw [hside]
      exact doKexDhReply_rearms env.len env.kexDh a.handshake
    · exact a.installed h env
  · have horder : order r.ssh.side r.ssh.kexId = [msgidKexDhReply, msgidNewKeys] := by
      rw [hside, order_client hgex]
    rw [order_client hgex] at hmem
    simp only [List.mem_cons, List.not_mem_nil, or_false] at hmem
    rcases hmem with rfl | rfl
    · refine a.rearmed h env (Frame.kexDhReplyCase env s) ?_ ⟨[], [], horder⟩
      change RearmsIn _ _ _ (s.kexDhReplyCase env).1
      unfold Ssh.kexDhReplyCase
      rw [hside, a.handshake]
      dsimp only
      rw [if_neg (by rw [a.method]; exact hgex)]
      exact doKexDhReply_rearms env.len env.kexDh a.handshake
    · exact a.installed h env

theorem dispatch (a : Arrived r msg s hs) (h : OrderInv r) (env : PacketEnv) :
    OrderInv { r with
      ssh := s.dispatch msg env
      dispatched := Run.dispatchOf msg env s :: r.dispatched } := by
  cases hside : r.ssh.side with
  | server => exact a.dispatch_server h env hside
  | client => exact a.dispatch_client h env hside

end Arrived

theorem OrderInv.skip {r : Run} (h : OrderInv r) (hlive : r.ssh.disconnected = false)
    (hkeying : r.ssh.peerKeying) (hside : r.ssh.side = .server) {msg : Nat} (env : PacketEnv)
    (hskips : Run.skips r.ssh msg env.len) :
    OrderInv { r with
      ssh := r.ssh.dispatch msg env
      dispatched := Run.dispatchOf msg env r.ssh :: r.dispatched } := by
  obtain ⟨hs, hhs, hst⟩ := h.live hlive hkeying
  obtain ⟨hmsg, hlen, hignore⟩ : (msg = msgidKexDhInit ∨ msg = msgidKexDhGexInit ∨
      msg = msgidKexDhGexRequest) ∧ env.len ≠ 0 ∧ hs.ignoreNextKexMsg := by
    simpa [Run.skips, Ssh.ignoresNext, hhs] using hskips
  obtain ⟨-, -, hex⟩ := hst.ignoring hignore
  have hmethod : hs.kexId = r.ssh.kexId := by
    rcases hst.method with heq | ⟨hidle, -⟩
    · exact heq
    · simp [hidle.2.2] at hignore
  have hdispatch : r.ssh.dispatch msg env = r.ssh.skipGuessedKexMsg := by
    rcases hmsg with rfl | rfl | rfl
    · simp [Ssh.dispatch, Ssh.doKexDhInit, hhs, hlen, hignore]
    · simp [Ssh.dispatch, Ssh.doKexDhInit, hhs, hlen, hignore]
    · simp [Ssh.dispatch, Ssh.doKexDhGexRequest, hhs, hlen, hignore]
  have hbounds : 20 < msg ∧ msg ≤ 49 ∧ msg ≠ msgidNewKeys := by
    rcases hmsg with rfl | rfl | rfl <;> decide
  have hcons := exchange_cons (d := Run.dispatchOf msg env r.ssh) hbounds.1 hbounds.2.1 r.dispatched
  rw [hex] at hcons
  have hskipped : (Run.dispatchOf msg env r.ssh).skipped := hskips
  have hframe := Frame.skipGuessedKexMsg r.ssh
  have hnew : r.ssh.skipGuessedKexMsg.handshake =
      some { hs with ignoreNextKexMsg := false, expectMsgId := firstKexMsg hs.kexId } := by
    simp [Ssh.skipGuessedKexMsg, Ssh.updHandshake, Ssh.expectClientKexMsg, hhs, hside]
  rw [hdispatch]
  refine ⟨?_, ?_, ?_, ?_, ?_⟩
  · dsimp only
    rw [hcons]
    exact ⟨[], .guess hskipped, List.nil_prefix⟩
  · dsimp only
    rw [hframe.peerKeying, hkeying]
    intro hnot
    cases hnot
  · dsimp only
    rw [hcons, hframe.side, hframe.kexId, hnew, hside]
    refine fun _ _ => ⟨_, rfl, .inl hmethod, by simp, fun _ => ?_, ?_⟩
    · dsimp only
      rw [hmethod]
      exact ⟨[], .guess hskipped, awaits_first_server _⟩
    · dsimp only
      intro hnot
      rw [firstKexMsg] at hnot
      split at hnot <;> cases hnot
  · dsimp only
    rw [hframe.side]
    intro d hd
    rw [List.mem_cons] at hd
    rcases hd with rfl | hd
    · exact dispatchOf_derived_of_ne hbounds.2.2 env r.ssh _
    · exact h.derived d hd
  · dsimp only
    rw [hframe.side, hframe.connectState]
    exact h.connect

theorem OrderInv.handle {r : Run} (h : OrderInv r) {msg : Nat} {env : PacketEnv}
    (hguard : Guarded r (.packet msg env)) {s : Ssh} (hgate : isMessageAllowed r.ssh msg = some s)
    (hlive : s.disconnected → msg = msgidDisconnect) :
    OrderInv { r with
      ssh := s.dispatch msg env
      dispatched := Run.dispatchOf msg env s :: r.dispatched } := by
  by_cases hmsg : msg < 20 ∨ 49 < msg
  · have hs : s = r.ssh := isMessageAllowed_other hgate hmsg
    subst hs
    have hother : OrderInv { r with dispatched := Run.dispatchOf msg env r.ssh :: r.dispatched } := by
      refine h.other hmsg ?_
      rw [Run.dispatchOf]
      exact if_neg fun hnew => by
        have : msg = 21 := hnew.1
        omega
    have hframe : Frame r.ssh (r.ssh.dispatch msg env) := by
      cases dispatch_effect msg env r.ssh with
      | frame hf _ _ => exact hf
      | kexInit hinit _ =>
        have : msg = 20 := hinit
        omega
      | newKeys hnew _ _ =>
        have : msg = 21 := hnew
        omega
    refine hother.keep hframe ?_
    unfold Ssh.dispatch
    split
    · rfl
    · rw [if_neg (show ¬ msg = 20 by omega), if_neg (show ¬ msg = 21 by omega),
        if_neg (show ¬ (msg = 30 ∨ msg = 32) by omega), if_neg (show ¬ msg = 31 by omega),
        if_neg (show ¬ msg = 33 by omega), if_neg (show ¬ msg = 34 by omega)]
      split
      · exact bundleAll_handshake _ r.ssh
      · split <;> rfl
  · have hover : s.disconnected = false := by
      cases hover : s.disconnected with
      | false => rfl
      | true =>
        have : msg = 1 := hlive hover
        omega
    cases isMessageAllowed_kex hgate (by omega) (by omega) with
    | kexInit hkeying hinit heq =>
      subst hinit
      subst heq
      exact h.kexInit hkeying env
    | expected _ hmeets =>
      have hover' : r.ssh.disconnected = false := by
        obtain ⟨-, -, -, rfl⟩ := hmeets
        exact hover
      obtain ⟨hs, a⟩ := h.arrived hover' hmeets
      exact a.dispatch h env
    | unguarded hside hkeying hinit hnone heq =>
      subst heq
      have hlo : 20 < msg := by
        have : msg ≠ 20 := hinit
        omega
      obtain ⟨hreply, hgexReply⟩ := isMessageAllowed_noReply hside hgate
      have hskips := (hguard hside hover hkeying hlo (by omega) hreply hgexReply).resolve_left
        fun hnot => hnot hnone
      exact h.skip hover hkeying hside env hskips

theorem OrderInv.doPacket {r : Run} (h : OrderInv r) {msg : Nat} {env : PacketEnv}
    (hguard : Guarded r (.packet msg env)) : OrderInv (r.doPacket msg env) := by
  rw [Run.doPacket]
  split
  · split
    · split
      · exact h
      · exact h.keep (Frame.sendDisconnect _ _) (sendDisconnect_handshake _ _)
    · split
      · exact h.consume _ _
      · exact (h.keep (Frame.bundlePacket (by decide) _) rfl).consume _ _
  · rename_i s hgate
    split
    · rename_i hover
      exact (h.gateOver hgate hover.1).consume _ _
    · rename_i hlive
      have hhandle := h.handle hguard hgate fun hover => by
        by_contra hne
        exact hlive ⟨hover, hne⟩
      rw [Run.handle]
      split
      · exact hhandle
      · exact hhandle.consume _ _

theorem OrderInv.call {r : Run} (h : OrderInv r) {f : Ssh → Ssh}
    (hf : r.ssh.disconnected = false → OrderInv { r with ssh := f r.ssh }) : OrderInv (r.call f) := by
  rw [Run.call]
  split
  · exact h
  · rename_i hover
    exact hf (by simpa using hover)

theorem OrderInv.sendKexInit {r : Run} (h : OrderInv r) (hlive : r.ssh.disconnected = false)
    (sent : Sent) : OrderInv { r with ssh := (r.ssh.sendKexInit sent).1 } := by
  have hframe := Frame.sendKexInit sent r.ssh
  cases hhs : r.ssh.handshake with
  | some hs => exact h.keep hframe ((sendKexInit_handshake hhs sent).trans hhs.symm)
  | none =>
    have hkeying : r.ssh.peerKeying = false := by
      cases hk : r.ssh.peerKeying with
      | false => rfl
      | true =>
        obtain ⟨hs, hhs', -⟩ := h.live hlive hk
        simp [hhs] at hhs'
    have hnew : ∀ hs, (r.ssh.sendKexInit sent).1.handshake = some hs → Idle hs := by
      intro hs hhs'
      have hneed : r.ssh.needHandshake.handshake = some {} := by simp [Ssh.needHandshake, hhs]
      unfold Ssh.sendKexInit at hhs'
      split at hhs'
      · simp [hhs] at hhs'
      · rw [hneed] at hhs'
        cases hhs'
        exact ⟨rfl, rfl, rfl⟩
      · change r.ssh.needHandshake.handshake = some hs at hhs'
        rw [hneed] at hhs'
        cases hhs'
        exact ⟨rfl, rfl, rfl⟩
      · change r.ssh.needHandshake.handshake = some hs at hhs'
        rw [hneed] at hhs'
        cases hhs'
        exact ⟨rfl, rfl, rfl⟩
    refine ⟨?_, fun _ => hnew, ?_, ?_, ?_⟩
    · dsimp only
      rw [hframe.side, hframe.kexId]
      exact h.ordered
    · dsimp only
      rw [hframe.peerKeying, hkeying]
      intro _ hnot
      cases hnot
    · dsimp only
      rw [hframe.side]
      exact h.derived
    · dsimp only
      rw [hframe.side, hframe.connectState]
      exact h.connect

theorem OrderInv.connectKex {r : Run} (h : OrderInv r) (hlive : r.ssh.disconnected = false)
    {env : KexSendEnv} (hguard : Guarded r (.connectKex env)) :
    OrderInv { r with ssh := r.ssh.connectKex env } := by
  rw [Ssh.connectKex]
  split
  · rename_i hside
    cases hk : r.ssh.peerKeying with
    | false =>
      rw [sendFirstKexMsg_idle env fun hs hhs => (h.idle hk hs hhs).2.1]
      exact h
    | true =>
      have hex := hguard hk
      obtain ⟨hs, hhs, hst⟩ := h.live hlive hk
      rw [hside, hex] at hst
      obtain ⟨hs', hhs', hst'⟩ := sendFirstKexMsg_stage env hhs hst
      have hframe := Frame.sendFirstKexMsg env r.ssh
      refine ⟨?_, ?_, ?_, ?_, ?_⟩
      · dsimp only
        rw [hframe.side, hframe.kexId]
        exact h.ordered
      · dsimp only
        rw [hframe.peerKeying, hk]
        intro hnot
        cases hnot
      · dsimp only
        rw [hframe.side, hframe.kexId, hside, hex]
        exact fun _ _ => ⟨hs', hhs', hst'⟩
      · dsimp only
        rw [hframe.side]
        exact h.derived
      · dsimp only
        rw [hframe.side, hframe.connectState]
        exact h.connect
  · exact h

theorem OrderInv.step {r : Run} {e : Event} (h : OrderInv r) (hguard : Guarded r e) :
    OrderInv (r.step e) := by
  cases e with
  | packet msg env => exact h.doPacket hguard
  | sendKexInit sent =>
    exact h.call (f := fun ssh => (ssh.sendKexInit sent).1) fun hlive => h.sendKexInit hlive sent
  | connectKex env =>
    exact h.call (f := fun ssh => ssh.connectKex env) fun hlive => h.connectKex hlive hguard
  | effects fx =>
    exact h.call fun _ => h.keep (Frame.runEffects fx _) (bundleAll_handshake _ r.ssh)
  | acceptState st => exact ⟨h.ordered, h.idle, h.live, h.derived, h.connect⟩
  | connectState st =>
    rw [Run.step, Ssh.setConnectState]
    split
    · rename_i hside
      refine ⟨h.ordered, h.idle, h.live, h.derived, fun hserver => ?_⟩
      rw [hside] at hserver
      cases hserver
    · exact h

theorem start_order (side : Endpoint) (sendStrictKex : Bool) :
    OrderInv (start side sendStrictKex) where
  ordered := Ordered.nil _ _
  idle := by simp [start]
  live := by simp [start]
  derived := by simp [start]
  connect := fun _ => rfl

/-- What holds of the exchange in a state: the messages so far are the first ones of the method,
all of them once a NEWKEYS has copied keys, and those keys had been derived. -/
structure KexOrder (r : Run) : Prop where
  ordered : Ordered r.ssh.side r.ssh.kexId (exchange r.dispatched)
  complete : (∃ d ∈ exchange r.dispatched, d.keys.isSome) →
    Follows (exchange r.dispatched) (order r.ssh.side r.ssh.kexId)
  derived : ∀ d ∈ r.dispatched, Derived r.ssh.side d

theorem mem_of_mem_exchange {ds : List Dispatched} {d : Dispatched} (h : d ∈ exchange ds) :
    d ∈ ds := by
  induction ds with
  | nil => exact h
  | cons e ds ih =>
    rw [exchange] at h
    split at h
    · cases h
    · split at h
      · rw [List.mem_cons] at h ⊢
        exact h.imp_right ih
      · exact List.mem_cons_of_mem e (ih h)

theorem newKeys_not_mem_opening (side : Endpoint) (kexId : AlgoId) :
    msgidNewKeys ∉ opening side kexId := by
  cases side <;> rw [opening] <;> split <;> decide

theorem Ordered.complete {side : Endpoint} {kexId : AlgoId} {ex : List Dispatched}
    (h : Ordered side kexId ex) {d : Dispatched} (hd : d ∈ ex) (hmsg : d.msg = msgidNewKeys)
    (hskip : d.skipped = false) : Follows ex (order side kexId) := by
  obtain ⟨msgs, hmsgs, hpre⟩ := h
  rw [order, List.prefix_concat_iff] at hpre
  rcases hpre with heq | hpre
  · rw [order, ← heq]
    exact hmsgs
  · obtain ⟨done, guess, rfl, -, hguess, -, rfl⟩ := hmsgs
    rw [List.mem_append] at hd
    rcases hd with hd | hd
    · have hmem : msgidNewKeys ∈ (done.map Dispatched.msg).reverse := by
        rw [List.mem_reverse]
        exact List.mem_map.mpr ⟨d, hd, hmsg⟩
      exact absurd (hpre.subset hmem) (newKeys_not_mem_opening side kexId)
    · have hskip' := hguess d hd
      rw [hskip] at hskip'
      cases hskip'

theorem OrderInv.kexOrder {r : Run} (h : OrderInv r) : KexOrder r := by
  refine ⟨h.ordered, ?_, h.derived⟩
  rintro ⟨d, hd, hkeys⟩
  obtain ⟨k, hk⟩ := Option.isSome_iff_exists.mp hkeys
  obtain ⟨hmsg, hskip, -⟩ := h.derived d (mem_of_mem_exchange hd) k hk
  exact h.ordered.complete hd hmsg hskip

/-- In every state of every run that keeps to the guard. -/
theorem kex_order_run (side : Endpoint) (sendStrictKex : Bool) (es : List Event)
    (hes : Runs.Meets Run.step Guarded (start side sendStrictKex) es) :
    ∀ r ∈ Runs.states Run.step (start side sendStrictKex) es, KexOrder r := by
  intro r hr
  have h : OrderInv r := @Runs.invariant Run Event Run.step Guarded OrderInv
    (fun _ _ h hguard => h.step hguard) _ (start_order side sendStrictKex) es hes r hr
  exact h.kexOrder

theorem kex_order_run_server :
    Runs.Meets Run.step Guarded (start .server true) serverExchange ∧
      KexOrder (serverExchange.foldl Run.step (start .server true)) := by
  have hes : Runs.Meets Run.step Guarded (start .server true) serverExchange := by
    change ∀ p ∈ Runs.steps Run.step (start .server true) serverExchange, Guarded p.1 p.2
    decide
  exact ⟨hes, kex_order_run .server true serverExchange hes _ (Runs.foldl_mem_states _ _)⟩

/-- A rekey whose KEXINIT does not parse, and the NEWKEYS that is let in after it. -/
def underivedKeys : List Event :=
  serverExchange ++
    [ .packet msgidKexInit { len := 20, kexInit := { kexList := some .bufferE } },
      .packet msgidNewKeys {} ]

theorem kex_order_underived :
    ¬ ∀ es, ∀ r ∈ Runs.states Run.step (start .server true) es, KexOrder r := by
  intro h
  have hrun := h underivedKeys _ (Runs.foldl_mem_states _ _)
  have hmem : ⟨msgidNewKeys, false, false, some (false, false)⟩ ∈
      (underivedKeys.foldl Run.step (start .server true)).dispatched := by decide
  have hkeys := hrun.derived _ hmem (false, false) rfl
  exact absurd hkeys.2.2.1 (by decide)

end WolfSsh.Session
