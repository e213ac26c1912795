import WolfSsh.KexHash
import WolfSsh.NegotiateAgreement
import Mathlib.Data.List.TakeWhile

/-! Both sides of a key exchange hash the same octets, and these are the transcript that the
protocol asks for. -/

namespace WolfSsh

open Fallible

/-- An identification without its terminator. -/
def protoIdBody (id : Bytes) : Bytes := id.take (id.length - sshProtoEolSz)

theorem protoIdBody_append (body : Bytes) : protoIdBody (body ++ [0x0d, 0x0a]) = body := by
  simp [protoIdBody, sshProtoEolSz]

theorem validateProtoId_split {id : Bytes} (h : validateProtoId id = true) :
    ∃ body, id = body ++ [0x0d, 0x0a] ∧ body.length + 2 ≤ protoIdLimit ∧
      sshProtoIdPrefix.isPrefixOf id = true ∧ ∀ c ∈ body, 0x20 ≤ c.toNat := by
  simp only [validateProtoId, Bool.and_eq_true, decide_eq_true_eq, beq_iff_eq, List.all_eq_true]
    at h
  obtain ⟨⟨⟨⟨⟨hlen, hpre⟩, -⟩, hend⟩, hbody⟩, -⟩ := h
  have hid : id = protoIdBody id ++ [0x0d, 0x0a] := by
    rw [protoIdBody, ← hend, List.take_append_drop]
  have hsz := congrArg List.length hid
  rw [List.length_append] at hsz
  exact ⟨protoIdBody id, hid, hsz ▸ hlen.2, hpre, fun c hc => (hbody c hc).1⟩

theorem bne_of_printable {c b : UInt8} (hc : 0x20 ≤ c.toNat) (hb : b.toNat < 0x20) :
    (c != b) = true := by
  rw [bne_iff_ne]
  intro h
  rw [h] at hc
  omega

theorem getInputLine_crlf {body : Bytes} (more : Bytes) (hlen : body.length + 2 ≤ protoIdLimit)
    (hbody : ∀ c ∈ body, 0x20 ≤ c.toNat) :
    getInputLine (body ++ 0x0d :: 0x0a :: more) = .ok (body.length, 2) := by
  have htake : (body ++ 0x0d :: 0x0a :: more).take protoIdLimit
      = (body ++ [0x0d]) ++ 0x0a :: more.take (protoIdLimit - (body.length + 2)) := by
    have hsplit : body ++ 0x0d :: 0x0a :: more = (body ++ [0x0d, 0x0a]) ++ more := by simp
    have hsz : (body ++ [0x0d, 0x0a]).length = body.length + 2 := by simp
    rw [hsplit, List.take_append, List.take_of_length_le (by omega), hsz]
    simp
  have hno : ∀ b : UInt8, b.toNat < 0x20 → b ≠ 0x0d → b ∉ body ++ [0x0d] := by
    intro b hb hcr hmem
    rw [List.mem_append, List.mem_singleton] at hmem
    rcases hmem with hmem | hmem
    · exact absurd (hbody b hmem) (by omega)
    · exact hcr hmem
  have hlf : wstrnstr ((body ++ 0x0d :: 0x0a :: more).take protoIdLimit) [0x0a] = some (body.length + 1) := by
    rw [htake]
    refine (CStrings.find_eq_some_iff (by decide)).mpr ⟨body ++ [0x0d], _, rfl, by simp, ?_, ?_⟩
    · exact hno 0x0a (by decide) (by decide)
    · exact hno 0 (by decide) (by decide)
  have hget : (body ++ 0x0d :: 0x0a :: more).getD body.length 0 = 0x0d := by simp
  rw [getInputLine, hlf]
  dsimp only
  rw [Nat.add_sub_cancel, hget, if_pos ⟨Nat.succ_pos _, rfl⟩]

theorem doProtoId_valid {id : Bytes} (side : Endpoint) (banners : Nat) (more : Bytes)
    (h : validateProtoId id = true) :
    doProtoId side banners (id ++ more) = .ok (copyString (protoIdBody id), more) := by
  obtain ⟨body, rfl, hlen, hpre, hbody⟩ := validateProtoId_split h
  have happ : body ++ [0x0d, 0x0a] ++ more = body ++ 0x0d :: 0x0a :: more := by simp
  have hpre' : sshProtoIdPrefix <+: body ++ 0x0d :: 0x0a :: more := by
    rw [List.isPrefixOf_iff_prefix] at hpre
    exact happ ▸ hpre.trans (List.prefix_append _ more)
  have hssh : ascii "SSH-" <+: body ++ 0x0d :: 0x0a :: more :=
    List.IsPrefix.trans (by decide) hpre'
  have hline : (body ++ 0x0d :: 0x0a :: more).take body.length = body := by simp
  have hid : body.takeWhile (· != 0) = body := by
    rw [List.takeWhile_eq_self_iff]
    exact fun c hc => bne_of_printable (hbody c hc) (by decide)
  have hrest : (body ++ 0x0d :: 0x0a :: more).drop (body.length + 2) = more := by simp
  rw [← List.isPrefixOf_iff_prefix] at hpre' hssh
  rw [happ, protoIdBody_append, doProtoId.eq_def, getInputLine_crlf more hlen hbody]
  simp only [bind, Except.bind, hssh, hpre', hline, hid, hrest, if_true]
  rfl

def KexSession.config (ssh : KexSession) :=
  (ssh.side, ssh.algoListKex, ssh.algoListKey, ssh.algoListCipher, ssh.algoListMac,
    ssh.publicKeyAlgo, ssh.privateKeyCount, ssh.sendStrictKex, ssh.sessionIdSz)

theorem sendKexInitBody_config {a b : KexSession} (h : a.config = b.config) (cookie : Bytes) :
    sendKexInitBody a cookie = sendKexInitBody b cookie := by
  cases a
  cases b
  simp only [KexSession.config, Prod.mk.injEq] at h
  obtain ⟨rfl, rfl, rfl, rfl, rfl, rfl, rfl, rfl, rfl⟩ := h
  rfl

/-- What no KEXINIT of the peer changes. -/
def KexSession.fixed (ssh : KexSession) := (ssh.config, ssh.selfIsKeying)

abbrev KeepsConfig {α : Type} (m : KexInitM α) : Prop := Keeps (fun s => s.ssh.fixed) m

theorem update_keeps {f : KexSession → KexSession} (hf : ∀ ssh, (f ssh).fixed = ssh.fixed) :
    KeepsConfig (update f) := Keeps.modify (fun s => hf s.ssh)

theorem updateHandshake_keeps (f : HandshakeInfo → HandshakeInfo) :
    KeepsConfig (updateHandshake f) := update_keeps (fun _ => rfl)

theorem field_keeps {α : Type} (m : Reader α) : KeepsConfig (field m) :=
  Keeps.zoom m (fun _ _ => rfl)

theorem matchField_keeps (buf : Bytes) (own : Except WsErr (List AlgoId)) (e : WsErr) :
    KeepsConfig (matchField buf own e) :=
  (field_keeps _).bind fun _ => (Keeps.ofExcept _).bind fun _ => Keeps.get.bind fun _ =>
    (Keeps.require _ _).bind fun _ => Keeps.pure _

theorem matchMacField_keeps (buf : Bytes) (aeadMode : Bool) :
    KeepsConfig (matchMacField buf aeadMode) := by
  unfold matchMacField
  cases aeadMode
  · exact Keeps.get.bind fun _ => (matchField_keeps _ _ _).bind fun _ => Keeps.pure _
  · exact (field_keeps _).bind fun _ => Keeps.pure _

theorem noteStrictKex_fixed (list : List AlgoId) (ssh : KexSession) :
    (noteStrictKex list ssh).fixed = ssh.fixed := by
  unfold noteStrictKex
  split <;> rfl

theorem noteExtInfo_fixed (list : List AlgoId) (ssh : KexSession) :
    (noteExtInfo list ssh).fixed = ssh.fixed := by
  unfold noteExtInfo
  split <;> rfl

theorem matchKex_keeps (buf : Bytes) : KeepsConfig (matchKex buf) := by
  refine Keeps.get.bind fun _ => (matchField_keeps _ _ _).bind fun m => ?_
  refine (update_keeps fun ssh => ?_).bind fun _ => Keeps.get.bind fun _ =>
    (Keeps.require _ _).bind fun _ => Keeps.pure _
  rw [noteStrictKex_fixed, noteExtInfo_fixed]
  rfl

theorem matchKey_keeps (buf : Bytes) : KeepsConfig (matchKey buf) :=
  Keeps.get.bind fun _ => (matchField_keeps _ _ _).bind fun _ =>
    (updateHandshake_keeps _).bind fun _ => Keeps.pure _

theorem matchCiphers_keeps (buf : Bytes) : KeepsConfig (matchCiphers buf) :=
  Keeps.get.bind fun _ => (matchField_keeps _ _ _).bind fun _ => (matchField_keeps _ _ _).bind
    fun _ => (matchMacField_keeps _ _).bind fun _ => (matchMacField_keeps _ _).bind fun _ =>
      Keeps.pure _

theorem endKexInit_keeps (buf : Bytes) (kex key : Match) : KeepsConfig (endKexInit buf kex key) :=
  (matchField_keeps _ _ _).bind fun _ => (matchField_keeps _ _ _).bind fun _ =>
    (field_keeps _).bind fun _ => (field_keeps _).bind fun _ => (field_keeps _).bind fun _ =>
      Keeps.get.bind fun _ => (updateHandshake_keeps _).bind fun _ => (field_keeps _).bind
        fun _ => Keeps.require _ _

theorem negotiateKexInit_keeps (buf : Bytes) : KeepsConfig (negotiateKexInit buf) := by
  unfold negotiateKexInit
  refine Keeps.get.bind fun s => (Keeps.require _ _).bind fun _ => ?_
  refine Keeps.bind ?_ fun _ => ?_
  · exact Keeps.modify fun _ => rfl
  refine (matchKex_keeps buf).bind fun kex => (matchKey_keeps buf).bind fun key => ?_
  refine (matchCiphers_keeps buf).bind fun ciphers => ?_
  exact (endKexInit_keeps buf kex key).bind fun _ => updateHandshake_keeps _

theorem doKexInitNegotiate_fixed {buf : Bytes} {ssh ssh' : KexSession} {n : Nat}
    (h : doKexInitNegotiate buf ssh = (.ok n, ssh')) : ssh'.fixed = ssh.fixed := by
  have hkeep := negotiateKexInit_keeps buf ⟨0, started ssh⟩
  unfold doKexInitNegotiate at h
  by_cases hlen : buf.length = 0
  · simp [hlen] at h
  by_cases hkey : ssh.peerIsKeying = true
  · simp [hlen, hkey] at h
  rw [if_neg hlen, if_neg hkey] at h
  rcases hrun : (negotiateKexInit buf).runAt ⟨0, started ssh⟩ with ⟨_ | _, t⟩
  · rw [started] at hrun
    simp [hrun] at h
  · rw [hrun] at hkeep
    rw [started] at hrun
    simp only [hrun, Prod.mk.injEq] at h
    rw [← h.2]
    exact hkeep

/-- The KEXINIT as the exchange hash takes it. -/
def kexInitString (body : Bytes) : Bytes := copyString (msgidKexInit :: body)

theorem hashKexInit_client {me : KexSide} (buf : Bytes) (h : me.ssh.side = .client) :
    hashKexInit buf me = { me with
      kexHash := copyString (protoIdBody me.sshProtoIdStr) ++ (me.peerProtoId ++
        (me.handshake.kexInit ++ kexInitString buf)) } := by
  have hlen : (protoIdBody me.sshProtoIdStr).length = me.sshProtoIdStr.length - sshProtoEolSz := by
    simp [protoIdBody]
  simp [hashKexInit, KexSide.hashUpdate, h, copyString, kexInitString, KexSide.handshake, hlen]
  rfl

theorem hashKexInit_server {me : KexSide} (buf : Bytes) (h : me.ssh.side = .server) :
    hashKexInit buf me = { me with
      kexHash := me.peerProtoId ++ (copyString (protoIdBody me.sshProtoIdStr) ++
        (kexInitString buf ++ me.handshake.kexInit)) } := by
  have hlen : (protoIdBody me.sshProtoIdStr).length = me.sshProtoIdStr.length - sshProtoEolSz := by
    simp [protoIdBody]
  simp [hashKexInit, KexSide.hashUpdate, h, copyString, kexInitString, KexSide.handshake, hlen]
  rfl

def withKexInit (ssh : KexSession) (body : Bytes) : KexSession :=
  { ssh with
    selfIsKeying := true
    handshake := some { ssh.handshake.getD {} with kexInit := kexInitString body } }

theorem sendKexInit_ok {cookie : Bytes} {me me' : KexSide} {p : Payload}
    (h : sendKexInit cookie me = .ok (me', p)) :
    ∃ body, sendKexInitBody me.ssh cookie = .ok body ∧ p = ⟨msgidKexInit, body⟩ ∧
      me' = { me with ssh := withKexInit me.ssh body } := by
  simp only [sendKexInit, ok_bind_iff, ok_pure_iff, Prod.mk.injEq] at h
  obtain ⟨body, hbody, rfl, rfl⟩ := h
  refine ⟨body, hbody, rfl, ?_⟩
  simp [withKexInit, KexSide.handshake, kexInitString, copyString, msgIdSz, Nat.add_comm]

theorem doKexInit_ok {buf cookie : Bytes} {me me' : KexSide} {p : Option Payload}
    (h : doKexInit buf cookie me = .ok (me', p)) :
    ∃ n ssh, doKexInitNegotiate buf me.ssh = (.ok n, ssh) ∧
      ((me.ssh.selfIsKeying = true ∧ p = none ∧ me' = hashKexInit buf { me with ssh := ssh }) ∨
        (me.ssh.selfIsKeying = false ∧ ∃ me₁ p₁, sendKexInit cookie { me with ssh := ssh } =
          .ok (me₁, p₁) ∧ p = some p₁ ∧ me' = hashKexInit buf me₁)) := by
  unfold doKexInit at h
  rcases hrun : doKexInitNegotiate buf me.ssh with ⟨_ | n, ssh⟩
  · rw [hrun] at h
    cases h
  · have hself : ssh.selfIsKeying = me.ssh.selfIsKeying :=
      congrArg Prod.snd (doKexInitNegotiate_fixed hrun)
    refine ⟨n, ssh, rfl, ?_⟩
    simp only [hrun, hself] at h
    by_cases hs : me.ssh.selfIsKeying = true
    · rw [if_pos hs, ok_pure_iff, Prod.mk.injEq] at h
      exact .inl ⟨hs, h.2.symm, h.1.symm⟩
    · rw [if_neg hs] at h
      simp only [ok_bind_iff, ok_pure_iff, Prod.mk.injEq, Prod.exists] at h
      obtain ⟨me₁, p₁, hsend, rfl, rfl⟩ := h
      exact .inr ⟨by simpa using hs, me₁, p₁, hsend, rfl, rfl⟩

/-- How a side gets through with the KEXINITs: it takes the peer's with its own out already, or
sends its own on top of what it took. -/
theorem tradeKexInit_ok {starts : Bool} {cookie buf : Bytes} {me me' : KexSide} {p : Payload}
    (h : tradeKexInit starts cookie buf me = .ok (me', p)) :
    ∃ body n ssh, sendKexInitBody me.ssh cookie = .ok body ∧ p = ⟨msgidKexInit, body⟩ ∧
      ((doKexInitNegotiate buf (withKexInit me.ssh body) = (.ok n, ssh) ∧
          me' = hashKexInit buf { me with ssh := ssh }) ∨
        (doKexInitNegotiate buf me.ssh = (.ok n, ssh) ∧
          me' = hashKexInit buf { me with ssh := withKexInit ssh body })) := by
  cases starts with
  | true =>
    simp only [tradeKexInit, if_true, ok_bind_iff, ok_pure_iff, Prod.mk.injEq, Prod.exists] at h
    obtain ⟨me₁, p₁, hsend, me₂, p₂, hdo, rfl, rfl⟩ := h
    obtain ⟨body, hbody, hp, rfl⟩ := sendKexInit_ok hsend
    obtain ⟨n, ssh, hrun, ⟨-, -, hme⟩ | ⟨hself, -⟩⟩ := doKexInit_ok hdo
    · exact ⟨body, n, ssh, hbody, hp, .inl ⟨hrun, hme⟩⟩
    · cases hself
  | false =>
    simp only [tradeKexInit, Bool.false_eq_true, if_false, ok_bind_iff, Prod.exists] at h
    obtain ⟨me₂, p₂, hdo, hans⟩ := h
    obtain ⟨n, ssh, hrun, ⟨-, rfl, -⟩ | ⟨-, me₁, p₁, hsend, rfl, rfl⟩⟩ := doKexInit_ok hdo
    · cases hans
    · obtain ⟨body, hbody, hp, rfl⟩ := sendKexInit_ok hsend
      rw [sendKexInitBody_config (congrArg Prod.fst (doKexInitNegotiate_fixed hrun))] at hbody
      simp only [answered, Except.ok.injEq, Prod.mk.injEq] at hans
      exact ⟨body, n, ssh, hbody, hans.2 ▸ hp, .inr ⟨hrun, hans.1.symm⟩⟩

theorem sendKexInitBody_eq {ssh : KexSession} {cookie body : Bytes}
    (h : sendKexInitBody ssh cookie = .ok body) : body = kexInitBody ssh cookie := by
  unfold sendKexInitBody at h
  split_ifs at h
  exact (Except.ok.inj h).symm

theorem tradeKexInit_settled {starts : Bool} {cookie cookie' buf : Bytes} {me me' : KexSide}
    {p : Payload} {peer : KexSession} (hme : WellFormedLists me.ssh) (hpeer : WellFormedLists peer)
    (hkeying : me.ssh.peerIsKeying = false) (hcookie : cookie'.length = cookieSz)
    (hbuf : buf = kexInitBody peer cookie') (hsz : buf.length < 2 ^ 32)
    (h : tradeKexInit starts cookie buf me = .ok (me', p)) :
    ∃ ssh hs, me' = hashKexInit buf { me with ssh := ssh } ∧ ssh.side = me.ssh.side ∧
      ssh.handshake = some hs ∧ hs.kexId = chooseKex me.ssh peer ∧
      hs.kexInit = kexInitString p.body := by
  obtain ⟨body, n, ssh, hbody, rfl, hcase⟩ := tradeKexInit_ok h
  subst hbuf
  rcases hcase with ⟨hrun, rfl⟩ | ⟨hrun, rfl⟩
  · have hme' : WellFormedLists (withKexInit me.ssh body) :=
      ⟨hme.kex, hme.kexSent, hme.key, hme.cipher, hme.mac, hme.ownKey⟩
    have hside : ssh.side = me.ssh.side :=
      congrArg (fun f => f.1.1) (doKexInitNegotiate_fixed hrun)
    obtain ⟨-, m, hok⟩ | ⟨-, e, t, herr⟩ := doKexInitNegotiate_ok_iff hme' hpeer hkeying hcookie hsz
    · rw [hrun, Prod.mk.injEq] at hok
      obtain ⟨-, -, hhs⟩ := negotiated_started (withKexInit me.ssh body) peer
      rw [hok.2] at hside ⊢
      exact ⟨_, _, rfl, hside, hhs, rfl, rfl⟩
    · rw [hrun] at herr
      simp at herr
  · have hside : ssh.side = me.ssh.side :=
      congrArg (fun f => f.1.1) (doKexInitNegotiate_fixed hrun)
    obtain ⟨-, m, hok⟩ | ⟨-, e, t, herr⟩ := doKexInitNegotiate_ok_iff hme hpeer hkeying hcookie hsz
    · rw [hrun, Prod.mk.injEq] at hok
      obtain ⟨-, -, hhs⟩ := negotiated_started me.ssh peer
      refine ⟨_, _, rfl, hside, rfl, ?_, rfl⟩
      rw [hok.2, hhs]
      rfl
    · rw [hrun] at herr
      simp at herr

theorem readAt_of_yields {α : Type} {m : Reader α} {idx idx' : Nat} {a : α}
    (h : Yields m idx a idx') : readAt m idx = .ok (a, idx') := by
  rw [Yields] at h
  simp [readAt, h]

theorem c32toa_mod (n : Nat) : c32toa (n % 2 ^ 32) = c32toa n := by
  refine Octets.value_inj (by simp) ?_
  rw [c32toa, c32toa, Octets.value_be_mod, Octets.value_be_mod]
  omega

theorem readAt_getUint32 {buf rest : Bytes} {idx n : Nat} (h : Rest buf idx (c32toa n ++ rest)) :
    readAt (getUint32 buf) idx = .ok (n % 2 ^ 32, idx + 4) := by
  rw [← c32toa_mod] at h
  exact readAt_of_yields (getUint32_yields h (Nat.mod_lt _ (by decide)))

theorem readAt_getStringRef {buf str rest : Bytes} {idx : Nat}
    (h : Rest buf idx (copyString str ++ rest)) (hsz : buf.length < 2 ^ 32) :
    readAt (getStringRef buf) idx = .ok (str, idx + 4 + str.length) := by
  rw [copyString, List.append_assoc] at h
  have hlen := h.length
  simp only [List.length_append, c32toa_length] at hlen
  exact readAt_of_yields (getStringRef_yields h (by omega))

theorem readAt_getMpint {buf str rest : Bytes} {idx : Nat}
    (h : Rest buf idx (copyString str ++ rest)) (hsz : buf.length < 2 ^ 32)
    (htop : (msbPadded str).2 = false) :
    readAt (getMpint buf) idx = .ok (str, idx + 4 + str.length) := by
  rw [copyString, List.append_assoc] at h
  have hlen := h.length
  simp only [List.length_append, c32toa_length] at hlen
  refine readAt_of_yields (getMpint_yields h (by omega) ?_)
  rintro b bs rfl
  have hb : (b &&& 0x80 != 0) = false := htop
  rw [and_high_eq] at hb
  exact Nat.lt_of_not_le (of_decide_eq_false hb)

theorem copyMpint_padded (m : Bytes × Bool) : copyMpint m = copyString (padded m) :=
  copyMpint_eq m

theorem msbPadded_padded (bs : Bytes) :
    msbPadded (padded (msbPadded bs)) = (padded (msbPadded bs), false) := by
  cases bs with
  | nil => rfl
  | cons b bs =>
    by_cases hb : (b &&& 0x80 != 0) = true
    · simp [msbPadded, padded, padBytes, hb]
    · simp [msbPadded, padded, padBytes, hb]

theorem createMpint_of_head {b : UInt8} (bs : Bytes) (hb : b ≠ 0) :
    createMpint (b :: bs) = msbPadded (b :: bs) := by
  have hhigh := and_high_eq b
  simp [createMpint, msbPadded, hb, ← hhigh]

theorem selectKexDhGexGroup_mem {minBits preferredBits maxBits : Nat} {group : Bytes}
    (h : selectKexDhGexGroup minBits preferredBits maxBits = .ok group) :
    group ∈ gexCandidates.map Prod.snd := by
  have hscan : ∀ (lo pref hi : Nat) (cs : List (Nat × Bytes)) (best : Option Bytes) (g : Bytes),
      scanGexCandidates lo pref hi cs best = some g → g ∈ cs.map Prod.snd ∨ best = some g := by
    intro lo pref hi cs
    induction cs with
    | nil => exact fun best g hg => .inr hg
    | cons c cs ih =>
      intro best g hg
      rw [scanGexCandidates] at hg
      split_ifs at hg
      · exact (ih _ _ hg).imp (List.mem_cons_of_mem _) id
      · rw [Option.some.injEq] at hg
        exact .inl (by simp [hg])
      · rcases ih _ _ hg with hmem | heq
        · exact .inl (List.mem_cons_of_mem _ hmem)
        · rw [Option.some.injEq] at heq
          exact .inl (by simp [heq])
  unfold selectKexDhGexGroup at h
  simp only at h
  split at h
  · rename_i g hg
    cases h
    exact (hscan _ _ _ _ _ _ hg).resolve_right (by simp)
  · cases h

theorem gexCandidates_head : ∀ group ∈ gexCandidates.map Prod.snd, group.headD 0 ≠ 0 := by
  decide +kernel

theorem createMpint_group {minBits preferredBits maxBits : Nat} {group : Bytes}
    (h : selectKexDhGexGroup minBits preferredBits maxBits = .ok group) :
    createMpint group = msbPadded group := by
  have hhead := gexCandidates_head group (selectKexDhGexGroup_mem h)
  cases group with
  | nil => exact absurd rfl hhead
  | cons b bs => exact createMpint_of_head bs hhead

theorem hashUpdate_append (me : KexSide) (a b : Bytes) :
    (me.hashUpdate a).hashUpdate b = me.hashUpdate (a ++ b) := by
  simp [KexSide.hashUpdate]

theorem copyString_length (str : Bytes) : (copyString str).length = 4 + str.length := by
  simp [copyString]

theorem copyMpint_length (m : Bytes × Bool) : (copyMpint m).length = 4 + mpintSz m := by
  simp [copyMpint, mpintSz, Nat.add_comm]

theorem SigKeyBlock.hash_eq (b : SigKeyBlock) (me : KexSide) : b.hash me = me.hashUpdate b.copy := by
  cases b <;> simp [SigKeyBlock.hash, SigKeyBlock.copy, SigKeyBlock.sz, hashUpdate_append, copyString]

theorem SigKeyBlock.copy_string (b : SigKeyBlock) : ∃ ks, b.copy = copyString ks := by
  cases b with
  | rsa fmtName e n =>
    refine ⟨copyString fmtName ++ (copyMpint e ++ copyMpint n), ?_⟩
    simp only [SigKeyBlock.copy, SigKeyBlock.sz, lengthSz, copyString.eq_def (_ ++ _),
      List.length_append, copyString_length, copyMpint_length]
    congr 2
    omega
  | ecc fmtName primeName q =>
    refine ⟨copyString fmtName ++ (copyString primeName ++ copyString q), ?_⟩
    simp only [SigKeyBlock.copy, SigKeyBlock.sz, lengthSz, copyString.eq_def (_ ++ _),
      List.length_append, copyString_length]
    congr 2
    omega
  | raw fmtName q =>
    refine ⟨copyString fmtName ++ copyString q, ?_⟩
    simp only [SigKeyBlock.copy, SigKeyBlock.sz, lengthSz, copyString.eq_def (_ ++ _),
      List.length_append, copyString_length]
    congr 2
    omega
  | cert typeName der =>
    refine ⟨copyString typeName ++ (c32toa 1 ++ (copyString der ++ c32toa 0)), ?_⟩
    simp only [SigKeyBlock.copy, buildRFC6187Info, lengthSz, uint32Sz, copyString.eq_def (_ ++ _),
      List.length_append, copyString_length, c32toa_length]
    congr 2
    omega

/-- The bounds and the group of a group exchange, as they are hashed. -/
def gexBytes (me : KexSide) (primeGroup generator : Bytes × Bool) : Bytes :=
  c32toa me.dhGexMinSz ++ (c32toa me.dhGexPreferredSz ++ (c32toa me.dhGexMaxSz ++
    (copyMpint primeGroup ++ copyMpint generator)))

theorem hashGex_eq (primeGroup generator : Bytes × Bool) (me : KexSide) :
    hashGex primeGroup generator me = me.hashUpdate (gexBytes me primeGroup generator) := by
  simp [hashGex, gexBytes, KexSide.hashUpdate]

def ServerGex (me : KexSide) (gex : Bytes) : Prop :=
  if isGex me then
    ∃ primeGroup generator, getDHPrimeGroup me = .ok (primeGroup, generator) ∧
      gex = gexBytes me (createMpint primeGroup) (createMpint generator)
  else gex = []

def ClientGex (me : KexSide) (gex : Bytes) : Prop :=
  if isGex me then
    ∃ primeGroup generator, me.primeGroup = some primeGroup ∧ me.generator = some generator ∧
      gex = gexBytes me (msbPadded primeGroup) (msbPadded generator)
  else gex = []

theorem hashServerGex_ok {me me' : KexSide} {data : Bytes}
    (h : hashServerGex (me.hashUpdate data) = .ok me') :
    ∃ gex, ServerGex me gex ∧ me' = me.hashUpdate (data ++ gex) := by
  unfold hashServerGex at h
  by_cases hg : isGex me
  · have hg' : isGex (me.hashUpdate data) := hg
    rw [if_pos hg'] at h
    simp only [ok_bind_iff, ok_pure_iff, Prod.exists] at h
    obtain ⟨p, g, hpg, rfl⟩ := h
    refine ⟨gexBytes me (createMpint p) (createMpint g), ?_, ?_⟩
    · rw [ServerGex, if_pos hg]
      exact ⟨p, g, hpg, rfl⟩
    · rw [hashGex_eq, hashUpdate_append]
      rfl
  · have hg' : ¬ isGex (me.hashUpdate data) := hg
    rw [if_neg hg'] at h
    cases h
    exact ⟨[], by rw [ServerGex, if_neg hg], by rw [List.append_nil]⟩

theorem hashClientGex_ok {me me' : KexSide} {data : Bytes}
    (h : hashClientGex (me.hashUpdate data) = .ok me') :
    ∃ gex, ClientGex me gex ∧ me' = me.hashUpdate (data ++ gex) := by
  unfold hashClientGex at h
  by_cases hg : isGex me
  · have hg' : isGex (me.hashUpdate data) := hg
    rw [if_pos hg'] at h
    cases hp : me.primeGroup with
    | none => simp [KexSide.hashUpdate, hp] at h
    | some p =>
      cases hgen : me.generator with
      | none => simp [KexSide.hashUpdate, hp, hgen] at h
      | some g =>
        refine ⟨gexBytes me (msbPadded p) (msbPadded g), ?_, ?_⟩
        · rw [ClientGex, if_pos hg]
          exact ⟨p, g, hp, hgen, rfl⟩
        · simp only [KexSide.hashUpdate, hp, hgen] at h
          rw [← Except.ok.inj h, hashGex_eq]
          simp [KexSide.hashUpdate, gexBytes, hp, hgen]
  · have hg' : ¬ isGex (me.hashUpdate data) := hg
    rw [if_neg hg'] at h
    cases h
    exact ⟨[], by rw [ClientGex, if_neg hg], by rw [List.append_nil]⟩

/-- `ks` is a loaded host key in the format that was negotiated. -/
def HostKeyBlob (me : KexSide) (ks : Bytes) : Prop :=
  ∃ key ∈ me.privateKey, ∃ block, getSigningKey me.handshake.pubKeyId key.2 = .ok block ∧
    block.copy = copyString ks

theorem sendKexDhReply_ok {P : Primitives} {me me' : KexSide} {p : Payload}
    (h : sendKexDhReply P me = .ok (me', p)) :
    ∃ method ks gex f k sig, kexMethod me.handshake.kexId = some method ∧ HostKeyBlob me ks ∧
      ServerGex me gex ∧ P.keyAgreeServer me.e = .ok (f, k) ∧
      p.body = copyString ks ++ (copyMpint (serverPublic method f) ++ copyString sig) ∧
      me' = me.hashUpdate (copyString ks ++ (gex ++ (copyString me.e ++
        (copyMpint (serverPublic method f) ++ copyMpint (secretMpint method k))))) := by
  unfold sendKexDhReply at h
  cases hm : kexMethod me.handshake.kexId with
  | none =>
    simp only [hm] at h
    cases h
  | some method =>
    cases hkey : me.privateKey.find? (fun k => k.1 == pubKeyFmtId me.handshake.pubKeyId) with
    | none =>
      simp only [hm, hkey] at h
      cases h
    | some key =>
      simp only [hm, hkey, ok_bind_iff, ok_pure_iff, Prod.mk.injEq, Prod.exists] at h
      obtain ⟨block, hblock, me₁, hgex, f, k, hagree, sig, -, rfl, rfl⟩ := h
      obtain ⟨ks, hks⟩ := block.copy_string
      rw [block.hash_eq, hks] at hgex
      obtain ⟨gex, hserver, rfl⟩ := hashServerGex_ok hgex
      have hblob : HostKeyBlob me ks := ⟨key, List.mem_of_find?_eq_some hkey, block, hblock, hks⟩
      refine ⟨method, ks, gex, f, k, _, rfl, hblob, hserver, hagree, by rw [hks], ?_⟩
      simp [hashClientPublic, KexSide.hashUpdate, copyString]

theorem slice_of_rest {buf str rest : Bytes} {idx : Nat} (h : Rest buf idx (str ++ rest)) :
    slice buf idx str.length = str := by
  rw [slice, h, List.take_left]

theorem slice_string {buf str rest : Bytes} {idx : Nat}
    (h : Rest buf idx (copyString str ++ rest)) :
    slice buf idx (str.length + lengthSz) = copyString str ∧ slice buf (idx + 4) str.length = str := by
  constructor
  · have hlen : str.length + lengthSz = (copyString str).length := by
      rw [copyString_length, lengthSz, Nat.add_comm]
    rw [hlen, slice_of_rest h]
  · rw [copyString, List.append_assoc] at h
    exact slice_of_rest h.skip_uint32

theorem Rest.skip_string {buf str rest : Bytes} {idx : Nat}
    (h : Rest buf idx (copyString str ++ rest)) : Rest buf (idx + 4 + str.length) rest := by
  have hskip := h.skip
  rwa [copyString_length, ← Nat.add_assoc] at hskip

theorem readAt_stringSz {buf str rest : Bytes} {idx : Nat}
    (h : Rest buf idx (copyString str ++ rest)) (hsz : buf.length < 2 ^ 32) :
    readAt (getUint32 buf) idx = .ok (str.length, idx + 4) := by
  have hlen := h.length
  simp only [List.length_append, copyString_length] at hlen
  rw [copyString, List.append_assoc] at h
  rw [readAt_getUint32 h, Nat.mod_eq_of_lt (by omega)]

theorem agreeClient_ok {P : Primitives} {me : KexSide} {f k : Bytes} {method : KexMethod}
    (h : agreeClient P me f = .ok (method, k)) :
    P.keyAgreeClient f = .ok k ∧ kexMethod me.handshake.kexId = some method := by
  unfold agreeClient at h
  split at h
  · rename_i k' method' hk hm
    cases h
    exact ⟨hk, hm⟩
  · cases h

theorem doKexDhReply_ok {P : Primitives} {ks f sig : Bytes} {me me' : KexSide}
    (hsz : (copyString ks ++ (copyString f ++ copyString sig)).length < 2 ^ 32)
    (h : doKexDhReply P (copyString ks ++ (copyString f ++ copyString sig)) me = .ok me') :
    ∃ method gex k, kexMethod me.handshake.kexId = some method ∧ ClientGex me gex ∧
      P.keyAgreeClient f = .ok k ∧
      me' = me.hashUpdate (copyString ks ++ (gex ++ (copyString me.e ++
        (copyString f ++ copyMpint (secretMpint method k))))) := by
  generalize hbuf : copyString ks ++ (copyString f ++ copyString sig) = buf at h hsz
  have hkey : Rest buf 0 (copyString ks ++ (copyString f ++ copyString sig)) := by
    rw [Rest, hbuf, List.drop_zero]
  have hf := hkey.skip_string
  have hkeySz := readAt_stringSz hkey hsz
  have hfSz := readAt_stringSz hf hsz
  unfold doKexDhReply at h
  simp only [ok_bind_iff, ok_pure_iff, ok_ensure_iff, Prod.exists] at h
  obtain ⟨-, -, -, -, keySz, begin, hread, -, -, -, -, me₁, hgex, h⟩ := h
  rw [hkeySz, Except.ok.injEq, Prod.mk.injEq] at hread
  obtain ⟨rfl, rfl⟩ := hread
  obtain ⟨fSz, begin, hread, -, -, -, -, -, -, -, -, -, method, k, hagree, -, -, rfl⟩ := h
  rw [hfSz, Except.ok.injEq, Prod.mk.injEq] at hread
  obtain ⟨rfl, rfl⟩ := hread
  rw [(slice_string hf).2] at hagree
  obtain ⟨hk, hm⟩ := agreeClient_ok hagree
  have hstart : slice buf (0 + 4 - lengthSz) (ks.length + lengthSz) = copyString ks :=
    (slice_string hkey).1
  rw [hstart] at hgex
  obtain ⟨gex, hclient, rfl⟩ := hashClientGex_ok hgex
  refine ⟨method, gex, k, hm, hclient, hk, ?_⟩
  rw [(slice_string hf).1]
  simp [hashClientPublic, KexSide.hashUpdate, copyString]

theorem deliver_ok {p : Payload} {buf : Bytes} (h : deliver p = .ok buf) :
    buf = p.body ∧ buf.length < 2 ^ 32 := by
  unfold deliver at h
  split_ifs at h with hsz
  cases h
  exact ⟨rfl, by rw [maxPacketSz] at hsz; omega⟩

theorem answered_ok {r : KexSide × Option Payload} {me : KexSide} {p : Payload}
    (h : answered r = .ok (me, p)) : r = (me, some p) := by
  unfold answered at h
  split at h
  · cases h
    rfl
  · cases h

theorem sendKexDhInit_ok {P : Primitives} {me me' : KexSide} {p : Payload}
    (h : sendKexDhInit P me = .ok (me', p)) :
    ∃ method e, kexMethod me.handshake.kexId = some method ∧ P.makeKey = .ok e ∧
      p.body = copyMpint (clientPublic method e) ∧
      me' = { me with e := padded (clientPublic method e) } := by
  unfold sendKexDhInit at h
  cases hm : kexMethod me.handshake.kexId with
  | none =>
    simp only [hm] at h
    cases h
  | some method =>
    simp only [hm, ok_bind_iff, ok_pure_iff, Prod.mk.injEq] at h
    obtain ⟨e, he, rfl, rfl⟩ := h
    exact ⟨method, e, rfl, he, rfl, rfl⟩

theorem doKexDhInit_ok {P : Primitives} {e : Bytes × Bool} {me me' : KexSide} {p : Payload}
    (hsz : (copyMpint e).length < 2 ^ 32)
    (h : doKexDhInit P (copyMpint e) me = .ok (me', some p)) :
    sendKexDhReply P { me with e := padded e } = .ok (me', p) := by
  have hrest : Rest (copyMpint e) 0 (copyString (padded e) ++ []) := by
    rw [Rest, List.drop_zero, List.append_nil, copyMpint_padded]
  have hread := readAt_getStringRef hrest hsz
  unfold doKexDhInit at h
  by_cases hskip : me.handshake.ignoreNextKexMsg = true
  · simp only [hskip, if_true, ok_bind_iff, ok_pure_iff, Prod.mk.injEq] at h
    obtain ⟨-, -, -, habs⟩ := h
    cases habs
  · simp only [if_neg hskip, ok_bind_iff, ok_pure_iff, Prod.mk.injEq, Prod.exists,
      Option.some.injEq] at h
    obtain ⟨-, -, e', idx, hr, -, -, me₁, p₁, hsend, rfl, rfl⟩ := h
    rw [hread, Except.ok.injEq, Prod.mk.injEq] at hr
    obtain ⟨rfl, rfl⟩ := hr
    exact hsend

/-- The bounds of a group exchange reach the server up to their width. -/
structure SameBounds (c s : KexSide) : Prop where
  min : c32toa c.dhGexMinSz = c32toa s.dhGexMinSz
  preferred : c32toa c.dhGexPreferredSz = c32toa s.dhGexPreferredSz
  max : c32toa c.dhGexMaxSz = c32toa s.dhGexMaxSz

/-- The client and the server of a group exchange once the group is settled. -/
structure GroupSettled (c s : KexSide) (group : Bytes) : Prop where
  bounds : SameBounds c s
  server : s.primeGroup = some group
  mpint : createMpint group = msbPadded group
  clientGroup : c.primeGroup = some (padded (msbPadded group))
  clientGenerator : c.generator = some (padded (msbPadded dhGenerator))

theorem sendKexDhGexRequest_ok {me me' : KexSide} {p : Payload}
    (h : sendKexDhGexRequest me = .ok (me', p)) :
    p.body = c32toa me'.dhGexMinSz ++ (c32toa me'.dhGexPreferredSz ++ c32toa me'.dhGexMaxSz) ∧
      ∃ minSz preferredSz, me' = { me with
        dhGexMinSz := minSz, dhGexPreferredSz := preferredSz } := by
  simp only [sendKexDhGexRequest, ok_bind_iff, ok_pure_iff, Prod.mk.injEq] at h
  obtain ⟨-, -, rfl, rfl⟩ := h
  exact ⟨rfl, _, _, rfl⟩

theorem doKexDhGexRequest_ok {n₁ n₂ n₃ : Nat} {me me' : KexSide} {p : Payload}
    (h : doKexDhGexRequest (c32toa n₁ ++ (c32toa n₂ ++ c32toa n₃)) me = .ok (me', some p)) :
    ∃ group, createMpint group = msbPadded group ∧
      p.body = copyMpint (msbPadded group) ++ copyMpint (msbPadded dhGenerator) ∧
      me' = { me with
        dhGexMinSz := n₁ % 2 ^ 32
        dhGexPreferredSz := n₂ % 2 ^ 32
        dhGexMaxSz := n₃ % 2 ^ 32
        primeGroup := some group } := by
  generalize hbuf : c32toa n₁ ++ (c32toa n₂ ++ c32toa n₃) = buf at h
  have h₁ : Rest buf 0 (c32toa n₁ ++ (c32toa n₂ ++ (c32toa n₃ ++ []))) := by
    rw [Rest, List.drop_zero, List.append_nil, hbuf]
  have h₂ := h₁.skip_uint32
  have h₃ := h₂.skip_uint32
  unfold doKexDhGexRequest at h
  by_cases hskip : me.handshake.ignoreNextKexMsg = true
  · simp only [hskip, if_true, ok_bind_iff, ok_pure_iff, Prod.mk.injEq] at h
    obtain ⟨-, -, -, habs⟩ := h
    cases habs
  · simp only [if_neg hskip, ok_bind_iff, ok_pure_iff, Prod.mk.injEq, Prod.exists,
      Option.some.injEq] at h
    obtain ⟨-, -, m₁, i₁, hr₁, m₂, i₂, hr₂, m₃, i₃, hr₃, me₁, p₁, hsend, rfl, rfl⟩ := h
    rw [readAt_getUint32 h₁, Except.ok.injEq, Prod.mk.injEq] at hr₁
    obtain ⟨rfl, rfl⟩ := hr₁
    rw [readAt_getUint32 h₂, Except.ok.injEq, Prod.mk.injEq] at hr₂
    obtain ⟨rfl, rfl⟩ := hr₂
    rw [readAt_getUint32 h₃, Except.ok.injEq, Prod.mk.injEq] at hr₃
    obtain ⟨rfl, rfl⟩ := hr₃
    simp only [sendKexDhGexGroup, ok_bind_iff, ok_pure_iff, Prod.mk.injEq] at hsend
    obtain ⟨group, hgroup, rfl, rfl⟩ := hsend
    exact ⟨group, createMpint_group hgroup, rfl, rfl⟩

theorem doKexDhGexGroup_ok {P : Primitives} {group generator : Bytes} {me me' : KexSide}
    {p : Payload}
    (hsz : (copyMpint (msbPadded group) ++ copyMpint (msbPadded generator)).length < 2 ^ 32)
    (h : doKexDhGexGroup P (copyMpint (msbPadded group) ++ copyMpint (msbPadded generator)) me =
      .ok (me', p)) :
    sendKexDhInit P { me with
      primeGroup := some (padded (msbPadded group))
      generator := some (padded (msbPadded generator)) } = .ok (me', p) := by
  generalize hbuf : copyMpint (msbPadded group) ++ copyMpint (msbPadded generator) = buf at h hsz
  have hp : Rest buf 0 (copyString (padded (msbPadded group)) ++
      (copyString (padded (msbPadded generator)) ++ [])) := by
    rw [Rest, List.drop_zero, List.append_nil, ← hbuf, copyMpint_padded, copyMpint_padded]
  have hg := hp.skip_string
  have hreadp := readAt_getMpint hp hsz (by rw [msbPadded_padded])
  have hreadg := readAt_getMpint hg hsz (by rw [msbPadded_padded])
  simp only [doKexDhGexGroup, ok_bind_iff, Prod.exists] at h
  obtain ⟨-, -, p', i, hr, -, -, g', j, hr', -, -, hsend⟩ := h
  rw [hreadp, Except.ok.injEq, Prod.mk.injEq] at hr
  obtain ⟨rfl, rfl⟩ := hr
  rw [hreadg, Except.ok.injEq, Prod.mk.injEq] at hr'
  obtain ⟨rfl, rfl⟩ := hr'
  exact hsend

/-- Both sides with the client's public value made and the group, if any, settled. -/
structure KeysStarted (P : Primitives) (c s c' s' : KexSide) (p : Payload) : Prop where
  client : c'.ssh = c.ssh ∧ c'.kexHash = c.kexHash
  server : s'.ssh = s.ssh ∧ s'.kexHash = s.kexHash ∧ s'.generator = s.generator ∧
    s'.privateKey = s.privateKey
  publicKey : ∃ method e, kexMethod c.handshake.kexId = some method ∧ P.makeKey = .ok e ∧
    p.body = copyMpint (clientPublic method e) ∧ c'.e = padded (clientPublic method e)
  group : isGex c → ∃ group, GroupSettled c' s' group

theorem agreeGroup_ok {P : Primitives} {c s c₁ c' s' : KexSide} {p p' : Payload}
    (hstart : startKex P c = .ok (c₁, p)) (h : agreeGroup P c₁ s p = .ok (c', s', p')) :
    KeysStarted P c s c' s' p' := by
  unfold startKex at hstart
  unfold agreeGroup at h
  by_cases hg : c.handshake.kexId = .dhGexSha256
  · rw [if_pos hg] at hstart
    obtain ⟨hp, minSz, preferredSz, rfl⟩ := sendKexDhGexRequest_ok hstart
    have hg' : isGex { c with dhGexMinSz := minSz, dhGexPreferredSz := preferredSz } := hg
    rw [if_pos hg'] at h
    simp only [ok_bind_iff, ok_pure_iff, Prod.exists, Prod.mk.injEq] at h
    obtain ⟨buf, hbuf, s₁, q, hreq, s₂, p₂, hans, buf₂, hbuf₂, c₂, p₃, hgroup, rfl, rfl, rfl⟩ := h
    obtain ⟨rfl, -⟩ := deliver_ok hbuf
    obtain ⟨rfl, hsz⟩ := deliver_ok hbuf₂
    rw [hp] at hreq
    rw [answered_ok hans] at hreq
    obtain ⟨group, hmpint, hbody, rfl⟩ := doKexDhGexRequest_ok hreq
    rw [hbody] at hgroup hsz
    obtain ⟨method, e, hm, he, hbody', rfl⟩ := sendKexDhInit_ok (doKexDhGexGroup_ok hsz hgroup)
    refine ⟨⟨rfl, rfl⟩, ⟨rfl, rfl, rfl, rfl⟩, ⟨method, e, hm, he, hbody', rfl⟩, fun _ => ⟨group, ?_⟩⟩
    exact ⟨⟨(c32toa_mod _).symm, (c32toa_mod _).symm, (c32toa_mod _).symm⟩, rfl, hmpint, rfl, rfl⟩
  · rw [if_neg hg] at hstart
    obtain ⟨method, e, hm, he, hbody, rfl⟩ := sendKexDhInit_ok hstart
    have hg' : ¬ isGex { c with e := padded (clientPublic method e) } := hg
    rw [if_neg hg', Except.ok.injEq, Prod.mk.injEq, Prod.mk.injEq] at h
    obtain ⟨rfl, rfl, rfl⟩ := h
    exact ⟨⟨rfl, rfl⟩, ⟨rfl, rfl, rfl, rfl⟩, ⟨method, e, hm, he, hbody, rfl⟩, fun h => absurd h hg⟩

/-- The group goes into both hashes alike: the client hashes it with the pad it came with. -/
theorem gex_agree {c s : KexSide} {gc gs group : Bytes} (hset : GroupSettled c s group)
    (hgc : isGex c) (hgs : isGex s) (hgen : s.generator = none) (hc : ClientGex c gc)
    (hs : ServerGex s gs) :
    gc = gexBytes c (createMpint group) (createMpint dhGenerator) ∧ gs = gc := by
  have hsgroup : getDHPrimeGroup s = .ok (group, dhGenerator) := by
    rw [getDHPrimeGroup, hgs, hset.server, hgen]
    rfl
  rw [ClientGex, if_pos hgc] at hc
  obtain ⟨p, g, hp, hg, rfl⟩ := hc
  rw [hset.clientGroup, Option.some.injEq] at hp
  rw [hset.clientGenerator, Option.some.injEq] at hg
  rw [ServerGex, if_pos hgs] at hs
  obtain ⟨p', g', hpg, rfl⟩ := hs
  rw [hsgroup, Except.ok.injEq, Prod.mk.injEq] at hpg
  obtain ⟨rfl, rfl⟩ := hpg
  have hcopy : ∀ bs : Bytes, copyMpint (msbPadded (padded (msbPadded bs))) =
      copyMpint (msbPadded bs) := by
    intro bs
    rw [msbPadded_padded, copyMpint_padded, copyMpint_padded]
    rfl
  have hgencopy : createMpint dhGenerator = msbPadded dhGenerator := by decide
  have heq : gexBytes c (msbPadded p) (msbPadded g) =
      gexBytes c (createMpint group) (createMpint dhGenerator) := by
    rw [gexBytes, ← hp, ← hg, hcopy, hcopy, ← hset.mpint, ← hgencopy]
    rfl
  refine ⟨heq, ?_⟩
  rw [heq, gexBytes, gexBytes, hset.bounds.min, hset.bounds.preferred, hset.bounds.max]

def sshMpint (n : Nat) : Bytes := copyString (Octets.positive n)

theorem copyMpint_createMpint (bs : Bytes) : copyMpint (createMpint bs) = sshMpint (Octets.value bs) := by
  rw [copyMpint_padded, padded_createMpint, sshMpint]

/-- Plain DH and plain ECDH have their public values hashed as mpints, the others as strings. -/
def KexMethod.publicIsMpint (m : KexMethod) : Bool := m.useDh || (m.useEcdh && !m.useMlKem)

def publicValue (m : KexMethod) (v : Bytes) : Bytes :=
  if m.publicIsMpint then sshMpint (Octets.value v) else copyString v

def secretValue (m : KexMethod) (k : Bytes) : Bytes :=
  if m.useMlKem then copyString k else sshMpint (Octets.value k)

theorem kexMethod_publicIsMpint {id : AlgoId} {m : KexMethod} (h : kexMethod id = some m) :
    (!m.useMlKem && !m.useCurve25519) = m.publicIsMpint := by
  unfold kexMethod at h
  split at h <;> cases h <;> rfl

theorem copyMpint_plain (bs : Bytes) : copyMpint (bs, false) = copyString bs := by
  rw [copyMpint_padded]
  rfl

theorem copyMpint_clientPublic {id : AlgoId} {m : KexMethod} (h : kexMethod id = some m) (e : Bytes) :
    copyMpint (clientPublic m e) = publicValue m e := by
  rw [clientPublic, kexMethod_publicIsMpint h, publicValue]
  split
  · exact copyMpint_createMpint e
  · exact copyMpint_plain e

theorem copyMpint_serverPublic (m : KexMethod) (f : Bytes) :
    copyMpint (serverPublic m f) = publicValue m f := by
  unfold serverPublic publicValue KexMethod.publicIsMpint
  split
  · exact copyMpint_createMpint f
  · exact copyMpint_plain f

theorem copyMpint_secretMpint (m : KexMethod) (k : Bytes) :
    copyMpint (secretMpint m k) = secretValue m k := by
  unfold secretMpint secretValue
  cases m.useMlKem
  · exact copyMpint_createMpint k
  · exact copyMpint_plain k

structure GexValues where
  minSz : Nat
  preferredSz : Nat
  maxSz : Nat
  p : Nat
  g : Nat

def GexValues.bytes (v : GexValues) : Bytes :=
  c32toa v.minSz ++ (c32toa v.preferredSz ++ (c32toa v.maxSz ++ (sshMpint v.p ++ sshMpint v.g)))

/-- What the messages after the KEXINITs add to the exchange hash. -/
structure KeyValues where
  method : KexMethod
  kS : Bytes
  gex : Option GexValues
  e : Bytes
  f : Bytes
  k : Bytes

def KeyValues.bytes (v : KeyValues) : Bytes :=
  copyString v.kS ++ (v.gex.elim [] GexValues.bytes ++
    (publicValue v.method v.e ++ (publicValue v.method v.f ++ secretValue v.method v.k)))

/-- What the exchange hash of one key exchange covers. -/
structure Transcript where
  vC : Bytes
  vS : Bytes
  iC : Bytes
  iS : Bytes
  keys : KeyValues

def Transcript.bytes (t : Transcript) : Bytes :=
  copyString t.vC ++ (copyString t.vS ++ (copyString t.iC ++ (copyString t.iS ++ t.keys.bytes)))

/-- Each side has a valid identification and has read the peer's from the peer's first line. -/
structure Met (c s : KexSide) : Prop where
  clientId : validateProtoId c.sshProtoIdStr = true
  serverId : validateProtoId s.sshProtoIdStr = true
  clientRead : ∃ more rest, doProtoId .client maxBannerLines (s.sshProtoIdStr ++ more) =
    .ok (c.peerProtoId, rest)
  serverRead : ∃ more rest, doProtoId .server maxBannerLines (c.sshProtoIdStr ++ more) =
    .ok (s.peerProtoId, rest)

theorem Met.peerProtoIds {c s : KexSide} (h : Met c s) :
    c.peerProtoId = copyString (protoIdBody s.sshProtoIdStr) ∧
      s.peerProtoId = copyString (protoIdBody c.sshProtoIdStr) := by
  obtain ⟨more, rest, hc⟩ := h.clientRead
  obtain ⟨more', rest', hs⟩ := h.serverRead
  rw [doProtoId_valid _ _ _ h.serverId, Except.ok.injEq, Prod.mk.injEq] at hc
  rw [doProtoId_valid _ _ _ h.clientId, Except.ok.injEq, Prod.mk.injEq] at hs
  exact ⟨hc.1.symm, hs.1.symm⟩

/-- One complete key exchange, from the states before the KEXINITs to those after the reply. -/
structure KeyExchange (P : Primitives) (c s c' s' : KexSide) where
  startsC : Bool
  startsS : Bool
  cookieC : Bytes
  cookieS : Bytes
  pC : Payload
  pS : Payload
  bufC : Bytes
  bufS : Bytes
  c₁ : KexSide
  s₁ : KexSide
  cookies : cookieC.length = cookieSz ∧ cookieS.length = cookieSz
  deliverC : deliver pC = .ok bufC
  deliverS : deliver pS = .ok bufS
  tradeC : tradeKexInit startsC cookieC bufS c = .ok (c₁, pC)
  tradeS : tradeKexInit startsS cookieS bufC s = .ok (s₁, pS)
  agree : agreeKeys P c₁ s₁ = .ok (c', s')

/-- Both sides compute the same secret from the public values that they have sent each other: the
same octets with ML-KEM, else the same number. -/
def SameSecret (P : Primitives) (id : AlgoId) : Prop :=
  ∀ method, kexMethod id = some method → ∀ e f kS kC, P.makeKey = .ok e →
    P.keyAgreeServer (padded (clientPublic method e)) = .ok (f, kS) →
    P.keyAgreeClient (padded (serverPublic method f)) = .ok kC →
    if method.useMlKem then kC = kS else Octets.value kC = Octets.value kS

/-- The values are those of an exchange that left the sides at `c'` and `s'`. -/
structure RecordsKeys (P : Primitives) (c' s' : KexSide) (v : KeyValues) : Prop where
  method : kexMethod c'.handshake.kexId = some v.method
  kS : HostKeyBlob s' v.kS
  gex : v.gex.isSome ↔ isGex c'
  gexValues : ∀ w, v.gex = some w → w.minSz = c'.dhGexMinSz ∧ w.preferredSz = c'.dhGexPreferredSz ∧
    w.maxSz = c'.dhGexMaxSz ∧ s'.primeGroup.map Octets.value = some w.p ∧
    w.g = Octets.value dhGenerator
  e : P.makeKey = .ok v.e
  fk : P.keyAgreeServer s'.e = .ok (v.f, v.k)

structure Records {P : Primitives} {c s c' s' : KexSide} (x : KeyExchange P c s c' s')
    (t : Transcript) : Prop where
  vC : t.vC = protoIdBody c.sshProtoIdStr
  vS : t.vS = protoIdBody s.sshProtoIdStr
  iC : t.iC = msgidKexInit :: x.pC.body
  iS : t.iS = msgidKexInit :: x.pS.body
  keys : RecordsKeys P c' s' t.keys

theorem tradeKexInit_hashes {allowNone : Bool} {P : Primitives} {c s c' s' : KexSide}
    (hpair : KexPair allowNone c.ssh s.ssh) (hmet : Met c s) (x : KeyExchange P c s c' s') :
    ∃ hash, (∃ sshC, x.c₁ = { c with ssh := sshC, kexHash := hash }) ∧
      (∃ sshS, x.s₁ = { s with ssh := sshS, kexHash := hash }) ∧
      x.c₁.handshake.kexId = x.s₁.handshake.kexId ∧
      hash = copyString (protoIdBody c.sshProtoIdStr) ++ (copyString (protoIdBody s.sshProtoIdStr) ++
        (copyString (msgidKexInit :: x.pC.body) ++ copyString (msgidKexInit :: x.pS.body))) := by
  obtain ⟨bodyC, -, -, hsendC, hpC, -⟩ := tradeKexInit_ok x.tradeC
  obtain ⟨bodyS, -, -, hsendS, hpS, -⟩ := tradeKexInit_ok x.tradeS
  have hwc := hpair.clientLists.wellFormed hsendC
  have hws := hpair.serverLists.wellFormed hsendS
  obtain ⟨hbufC, hszC⟩ := deliver_ok x.deliverC
  obtain ⟨hbufS, hszS⟩ := deliver_ok x.deliverS
  have hbC : x.bufC = kexInitBody c.ssh x.cookieC := by
    rw [hbufC, hpC, ← sendKexInitBody_eq hsendC]
  have hbS : x.bufS = kexInitBody s.ssh x.cookieS := by
    rw [hbufS, hpS, ← sendKexInitBody_eq hsendS]
  obtain ⟨sshC, hsC, hc₁, hsideC, hhsC, hkexC, hinitC⟩ :=
    tradeKexInit_settled hwc hws hpair.notKeying.1 x.cookies.2 hbS hszS x.tradeC
  obtain ⟨sshS, hsS, hs₁, hsideS, hhsS, hkexS, hinitS⟩ :=
    tradeKexInit_settled hws hwc hpair.notKeying.2 x.cookies.1 hbC hszC x.tradeS
  rw [hashKexInit_client _ (hsideC.trans hpair.client)] at hc₁
  rw [hashKexInit_server _ (hsideS.trans hpair.server)] at hs₁
  obtain ⟨hpeerC, hpeerS⟩ := hmet.peerProtoIds
  have hcomm := chooseKex_comm hpair.clientLists hpair.serverLists hpair.client hpair.server
  refine ⟨_, ⟨sshC, ?_⟩, ⟨sshS, ?_⟩, ?_, rfl⟩
  · rw [hc₁]
    simp only [KexSide.handshake, hhsC, Option.getD_some, hinitC, hpeerC, kexInitString, hbufS]
  · rw [hs₁]
    simp only [KexSide.handshake, hhsS, Option.getD_some, hinitS, hpeerS, kexInitString, hbufC]
  · rw [hc₁, hs₁]
    simp only [KexSide.handshake, hhsC, hhsS, Option.getD_some, hkexC, hkexS, hcomm]

theorem secretValue_congr {m : KexMethod} {kC kS : Bytes}
    (h : if m.useMlKem then kC = kS else Octets.value kC = Octets.value kS) :
    secretValue m kC = secretValue m kS := by
  unfold secretValue
  split_ifs at h ⊢ with hm
  · rw [h]
  · rw [h]

theorem gex_values {c s : KexSide} {gexC gexS : Bytes} (hkex : c.handshake.kexId = s.handshake.kexId)
    (hset : isGex c → ∃ group, GroupSettled c s group) (hgen : s.generator = none)
    (hc : ClientGex c gexC) (hs : ServerGex s gexS) :
    ∃ gex : Option GexValues, gexC = gex.elim [] GexValues.bytes ∧
      gexS = gex.elim [] GexValues.bytes ∧ (gex.isSome ↔ isGex c) ∧
      ∀ w, gex = some w → w.minSz = c.dhGexMinSz ∧ w.preferredSz = c.dhGexPreferredSz ∧
        w.maxSz = c.dhGexMaxSz ∧ s.primeGroup.map Octets.value = some w.p ∧
        w.g = Octets.value dhGenerator := by
  by_cases hg : isGex c
  · have hg' : isGex s := hkex.symm.trans hg
    obtain ⟨group, hset⟩ := hset hg
    obtain ⟨hgc, hgs⟩ := gex_agree hset hg hg' hgen hc hs
    let w : GexValues := ⟨c.dhGexMinSz, c.dhGexPreferredSz, c.dhGexMaxSz, Octets.value group,
      Octets.value dhGenerator⟩
    have hw : gexC = w.bytes := by
      rw [hgc, gexBytes, copyMpint_createMpint, copyMpint_createMpint]
      rfl
    refine ⟨some w, hw, hgs.trans hw, by simp [hg], fun w' hw' => ?_⟩
    cases hw'
    exact ⟨rfl, rfl, rfl, by rw [hset.server]; rfl, rfl⟩
  · have hg' : ¬ isGex s := fun h => hg (hkex.trans h)
    rw [ClientGex, if_neg hg] at hc
    rw [ServerGex, if_neg hg'] at hs
    exact ⟨none, hc, hs, by simp [hg], by simp⟩

theorem agreeKeys_hashes {P : Primitives} {c s c' s' : KexSide}
    (hkex : c.handshake.kexId = s.handshake.kexId) (hgen : s.generator = none)
    (h : agreeKeys P c s = .ok (c', s')) (hsecret : SameSecret P c'.handshake.kexId) :
    ∃ v, RecordsKeys P c' s' v ∧ c'.kexHash = c.kexHash ++ v.bytes ∧
      s'.kexHash = s.kexHash ++ v.bytes := by
  simp only [agreeKeys, ok_bind_iff, ok_pure_iff, Prod.exists, Prod.mk.injEq] at h
  obtain ⟨c₂, p₂, hstart, c₃, s₃, p₃, hgroup, buf, hbuf, r, q, hinit, s₄, p₄, hans, buf', hbuf',
    c₄, hreply, rfl, rfl⟩ := h
  have hkeys := agreeGroup_ok hstart hgroup
  have hhsC : c₃.handshake = c.handshake := by
    rw [KexSide.handshake, hkeys.client.1]
    rfl
  have hhsS : s₃.handshake = s.handshake := by
    rw [KexSide.handshake, hkeys.server.1]
    rfl
  have hid : c₃.handshake.kexId = s₃.handshake.kexId := by rw [hhsC, hhsS, hkex]
  have hset : isGex c₃ → ∃ group, GroupSettled c₃ s₃ group := by
    rw [isGex, hhsC]
    exact hkeys.group
  obtain ⟨method, e, hm, he, hbody, hce⟩ := hkeys.publicKey
  rw [← hhsC] at hm
  obtain ⟨rfl, hsz⟩ := deliver_ok hbuf
  rw [hbody] at hinit hsz
  rw [answered_ok hans] at hinit
  obtain ⟨method', ks, gexS, f, k, sig, hm', hblob, hgexS, hfk, hbody', rfl⟩ :=
    sendKexDhReply_ok (doKexDhInit_ok hsz hinit)
  obtain ⟨rfl, hsz'⟩ := deliver_ok hbuf'
  rw [hbody', copyMpint_padded] at hreply hsz'
  obtain ⟨method'', gexC, kC, hm'', hgexC, hkC, rfl⟩ := doKexDhReply_ok hsz' hreply
  -- both sides switch on the same method
  have hm₁ : kexMethod s₃.handshake.kexId = some method' := hm'
  rw [← hid, hm, Option.some.injEq] at hm₁
  rw [hm, Option.some.injEq] at hm''
  subst hm₁
  subst hm''
  have hk : secretValue method kC = secretValue method k :=
    secretValue_congr (hsecret method hm _ _ _ _ he hfk hkC)
  have hgexS' : ServerGex s₃ gexS := hgexS
  obtain ⟨gex, rfl, rfl, hgex, hvalues⟩ :=
    gex_values hid hset (hkeys.server.2.2.1.trans hgen) hgexC hgexS'
  refine ⟨⟨method, ks, gex, e, f, k⟩, ⟨hm, hblob, hgex, hvalues, he, hfk⟩, ?_, ?_⟩
  · simp only [KexSide.hashUpdate, KeyValues.bytes, hkeys.client.2, hce, ← copyMpint_padded,
      copyMpint_clientPublic hm, copyMpint_serverPublic, copyMpint_secretMpint, hk]
  · simp only [KexSide.hashUpdate, KeyValues.bytes, hkeys.server.2.1, ← copyMpint_padded,
      copyMpint_clientPublic hm, copyMpint_serverPublic, copyMpint_secretMpint]

/-- Exchange-hash agreement: after one complete key exchange of any method both sides have
hashed the same octets, the transcript of this exchange. -/
theorem exchangeHash_agrees {allowNone : Bool} {P : Primitives} {c s c' s' : KexSide}
    (hpair : KexPair allowNone c.ssh s.ssh) (hmet : Met c s) (hnew : s.generator = none)
    (x : KeyExchange P c s c' s') (hsecret : SameSecret P c'.handshake.kexId) :
    c'.kexHash = s'.kexHash ∧ ∃ t : Transcript, Records x t ∧ c'.kexHash = t.bytes := by
  obtain ⟨hash, ⟨sshC, hc₁⟩, ⟨sshS, hs₁⟩, hkex, hhash⟩ := tradeKexInit_hashes hpair hmet x
  have hgen : x.s₁.generator = none := by rw [hs₁, hnew]
  obtain ⟨v, hv, hc, hs⟩ := agreeKeys_hashes hkex hgen x.agree hsecret
  have hstartC : x.c₁.kexHash = hash := by rw [hc₁]
  have hstartS : x.s₁.kexHash = hash := by rw [hs₁]
  rw [hstartC] at hc
  rw [hstartS] at hs
  refine ⟨hc.trans hs.symm, ?_⟩
  let t : Transcript := ⟨protoIdBody c.sshProtoIdStr, protoIdBody s.sshProtoIdStr,
    msgidKexInit :: x.pC.body, msgidKexInit :: x.pS.body, v⟩
  refine ⟨t, ⟨rfl, rfl, rfl, rfl, hv⟩, ?_⟩
  rw [hc, hhash]
  simp only [Transcript.bytes, t, List.append_assoc]

/-- Public values and the secret of a Curve25519 exchange. -/
def curveE : Bytes :=
  [ 0x85, 0x20, 0xf0, 0x09, 0x89, 0x30, 0xa7, 0x54, 0x74, 0x8b, 0x7d, 0xdc, 0xb4, 0x3e, 0xf7, 0x5a,
    0x0d, 0xbf, 0x3a, 0x0d, 0x26, 0x38, 0x1a, 0xf4, 0xeb, 0xa4, 0xa9, 0x8e, 0xaa, 0x9b, 0x4e, 0x6a ]

def curveF : Bytes :=
  [ 0xde, 0x9e, 0xdb, 0x7d, 0x7b, 0x7d, 0xc1, 0xb4, 0xd3, 0x5b, 0x61, 0xc2, 0xec, 0xe4, 0x35, 0x37,
    0x3f, 0x83, 0x43, 0xc8, 0x5b, 0x78, 0x67, 0x4d, 0xad, 0xfc, 0x7e, 0x14, 0x6f, 0x88, 0x2b, 0x4f ]

def curveK : Bytes :=
  [ 0x4a, 0x5d, 0x9d, 0x5b, 0xa4, 0xce, 0x2d, 0xe1, 0x72, 0x8e, 0x3b, 0xf4, 0x80, 0x35, 0x0f, 0x25,
    0xe0, 0x7e, 0x21, 0xc9, 0x47, 0xd1, 0x9e, 0x33, 0x76, 0xf0, 0x9b, 0x3c, 0x1e, 0x16, 0x17, 0x42 ]

/-- The crypto library as it answers in that exchange. -/
def curvePrimitives : Primitives where
  makeKey := .ok curveE
  keyAgreeServer e := if e = curveE then .ok (curveF, curveK) else .error .cryptoFailed
  keyAgreeClient f := if f = curveF then .ok curveK else .error .cryptoFailed
  signH _ := .ok (List.replicate 64 0)
  verifyH _ _ := .ok ()
  publicKeyCheck _ := true
  parsePubKey _ := true
  isPrime _ := false

def sampleProtoId : Bytes := ascii "SSH-2.0-wolfSSHv1.4.20\r\n"

def sampleClient : KexSide :=
  { ssh := repeatingClient 1
    sshProtoIdStr := sampleProtoId
    peerProtoId := copyString (protoIdBody sampleProtoId) }

def sampleServer : KexSide :=
  { ssh := plainServer
    sshProtoIdStr := sampleProtoId
    peerProtoId := copyString (protoIdBody sampleProtoId)
    privateKey := [(.ed25519, .raw (List.replicate 32 1))] }

/-- The client starts, the server answers, and the method runs to the reply. -/
def sampleTrade : Except WsErr ((KexSide × Payload) × (KexSide × Payload)) := do
  let c ← tradeKexInit true zeroCookie (kexInitBody plainServer zeroCookie) sampleClient
  let s ← tradeKexInit false zeroCookie (kexInitBody (repeatingClient 1) zeroCookie) sampleServer
  return (c, s)

def sampleTraded : (KexSide × Payload) × (KexSide × Payload) :=
  match sampleTrade with
  | .ok r => r
  | .error _ => ((sampleClient, ⟨0, []⟩), (sampleServer, ⟨0, []⟩))

def sampleKeyed : KexSide × KexSide :=
  match agreeKeys curvePrimitives sampleTraded.1.1 sampleTraded.2.1 with
  | .ok r => r
  | .error _ => (sampleClient, sampleServer)

def sampleExchange : KeyExchange curvePrimitives sampleClient sampleServer sampleKeyed.1 sampleKeyed.2 where
  startsC := true
  startsS := false
  cookieC := zeroCookie
  cookieS := zeroCookie
  pC := sampleTraded.1.2
  pS := sampleTraded.2.2
  bufC := kexInitBody (repeatingClient 1) zeroCookie
  bufS := kexInitBody plainServer zeroCookie
  c₁ := sampleTraded.1.1
  s₁ := sampleTraded.2.1
  cookies := by decide
  deliverC := by decide +kernel
  deliverS := by decide +kernel
  tradeC := by decide +kernel
  tradeS := by decide +kernel
  agree := by decide +kernel

theorem sample_met : Met sampleClient sampleServer := by
  have hvalid : validateProtoId sampleProtoId = true := by decide +kernel
  exact ⟨hvalid, hvalid, ⟨[], [], doProtoId_valid _ _ _ hvalid⟩, ⟨[], [], doProtoId_valid _ _ _ hvalid⟩⟩

theorem curvePrimitives_secret (id : AlgoId) : SameSecret curvePrimitives id := by
  intro method hm e f kS kC _ hS hC
  have hkS : kS = curveK := by
    simp only [curvePrimitives] at hS
    split_ifs at hS
    cases hS
    rfl
  have hkC : kC = curveK := by
    simp only [curvePrimitives] at hC
    split_ifs at hC
    cases hC
    rfl
  rw [hkS, hkC]
  split <;> rfl

theorem exchangeHash_agrees_curve25519 :
    sampleKeyed.1.kexHash = sampleKeyed.2.kexHash ∧
      ∃ t : Transcript, Records sampleExchange t ∧ sampleKeyed.1.kexHash = t.bytes :=
  exchangeHash_agrees (repeatingClient_pair (by decide +kernel)) sample_met rfl sampleExchange
    (curvePrimitives_secret _)

end WolfSsh
