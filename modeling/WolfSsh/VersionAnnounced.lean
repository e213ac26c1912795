import WolfSsh.VersionStream

/-! The streams that announce a version, and that the version exchange takes just these, in whatever
pieces they come in. -/

namespace WolfSsh.VersionExchange

open WordBuffer

/-- The stream is lines before the version, as many as are allowed, the version line, and `rest`. -/
structure Announces (side : Endpoint) (n : Nat) (stream line rest : Bytes) : Prop where
  lines : ∃ (banners : List Line) (version : Line),
    stream = banners.flatMap Line.octets ++ (version.octets ++ rest) ∧
    version.Valid ∧ version.text = line ∧ (∀ l ∈ banners, l.Valid ∧ ¬ ascii "SSH-" <+: l.text) ∧
    banners.length ≤ n ∧ (side = .server → banners = [])
  starts : sshProtoIdPrefix <+: line

theorem ssh_of_proto {line : Bytes} (h : sshProtoIdPrefix <+: line) : ascii "SSH-" <+: line :=
  List.IsPrefix.trans (by decide) h

/-- `DoProtoId` takes the streams that announce a version, and stores it. -/
theorem doProtoId_ok_iff {side : Endpoint} {n : Nat} {stream id rest : Bytes} :
    WolfSsh.doProtoId side n stream = .ok (id, rest) ↔
      ∃ line, Announces side n stream line rest ∧ id = copyString line := by
  constructor
  · intro h
    induction n using Nat.strong_induction_on generalizing stream with
    | h n ih =>
      cases hline : WolfSsh.getInputLine stream with
      | error e =>
        rw [WolfSsh.doProtoId.eq_def, hline] at h
        cases h
      | ok r =>
        obtain ⟨l, more, hl, rfl⟩ := getInputLine_ok hline
        rw [doProtoId_line hl] at h
        by_cases hs : ascii "SSH-" <+: l.text
        · rw [if_pos hs] at h
          by_cases hp : sshProtoIdPrefix <+: l.text
          · rw [if_pos hp] at h
            obtain ⟨rfl, rfl⟩ := Prod.mk.inj (Except.ok.inj h)
            exact ⟨l.text, ⟨⟨[], l, rfl, hl, rfl, List.forall_mem_nil _, Nat.zero_le _, fun _ => rfl⟩, hp⟩, rfl⟩
          · rw [if_neg hp] at h
            cases h
        · rw [if_neg hs] at h
          by_cases hb : side = .client ∧ 0 < n
          · rw [if_pos hb] at h
            obtain ⟨line, ⟨⟨banners, version, rfl, hv, htext, hbanners, hcount, -⟩, hpre⟩, rfl⟩ :=
              ih (n - 1) (by omega) h
            refine ⟨line, ⟨⟨l :: banners, version, ?_, hv, htext, ?_, ?_, ?_⟩, hpre⟩, rfl⟩
            · rw [List.flatMap_cons, List.append_assoc]
            · exact List.forall_mem_cons.mpr ⟨⟨hl, hs⟩, hbanners⟩
            · rw [List.length_cons]
              omega
            · rw [hb.1]
              rintro ⟨⟩
          · rw [if_neg hb] at h
            cases h
  · rintro ⟨line, ⟨⟨banners, version, rfl, hv, rfl, hbanners, hcount, hserver⟩, hpre⟩, rfl⟩
    induction banners generalizing n with
    | nil =>
      rw [List.flatMap_nil, List.nil_append, doProtoId_line hv, if_pos (ssh_of_proto hpre), if_pos hpre]
    | cons l banners ih =>
      obtain ⟨⟨hl, hs⟩, hbanners⟩ := List.forall_mem_cons.mp hbanners
      rw [List.length_cons] at hcount
      have hclient : side = .client := by
        cases side with
        | client => rfl
        | server => exact absurd (hserver rfl) (List.cons_ne_nil l banners)
      rw [List.flatMap_cons, List.append_assoc, doProtoId_line hl, if_neg hs, if_pos ⟨hclient, by omega⟩]
      exact ih hbanners (by omega) fun hside => absurd (hclient.symm.trans hside) (by decide)

theorem announces_valid {id : Bytes} (side : Endpoint) (n : Nat) (more : Bytes) (h : validateProtoId id = true) :
    Announces side n (id ++ more) (protoIdBody id) more := by
  obtain ⟨line, hann, hcopy⟩ := doProtoId_ok_iff.mp (doProtoId_valid side n more h)
  have hdrop := congrArg (List.drop 4) hcopy
  have hbody : ∀ s : Bytes, (copyString s).drop 4 = s := fun s => List.drop_left' (c32toa_length _)
  rw [hbody, hbody] at hdrop
  exact hdrop ▸ hann

/-- The verdict over a whole stream: where it ends early the peer has hung up, or is waited for. -/
def verdict (hung : Bool) : Except WsErr (Bytes × Bytes) → Ret
  | .ok _ => .success
  | .error .socketErrorE => if hung then .failed .socketErrorE else .pending
  | .error e => .failed e

theorem ok_of_verdict {hung : Bool} {r : Except WsErr (Bytes × Bytes)} (h : verdict hung r = .success) :
    ∃ x, r = .ok x := by
  cases r with
  | ok x => exact ⟨x, rfl⟩
  | error e => cases e <;> cases hung <;> simp [verdict] at h

def unsplit (stream : Bytes) (hung : Bool) : List Received :=
  (if stream = [] then [] else [.chunk stream]) ++ if hung then [.error .connClose] else []

theorem unsplit_spec (stream : Bytes) (hung : Bool) :
    Split (unsplit stream hung) ∧ data (unsplit stream hung) = stream ∧ hungUp (unsplit stream hung) = hung := by
  rw [unsplit]
  by_cases hs : stream = []
  · rw [if_pos hs, hs]
    cases hung <;> exact ⟨trivial, rfl, rfl⟩
  · rw [if_neg hs]
    cases hung with
    | true =>
      refine ⟨.inr trivial, (if_neg hs).trans (List.append_nil _), ?_⟩
      exact Bool.or_true _
    | false =>
      refine ⟨.inr trivial, (if_neg hs).trans (List.append_nil _), ?_⟩
      exact (Bool.or_false _).trans (List.isEmpty_eq_false_iff.mpr hs)

theorem versionExchange_verdict (side : Endpoint) {io : List Received} (hio : Split io) {calls : Nat}
    (hcalls : ioSize io < calls) :
    ∃ ssh io', versionExchange calls io (start side)
        = some (verdict (hungUp io) (WolfSsh.doProtoId side maxBannerLines (data io)), ssh, io') ∧
      ∀ id rest, WolfSsh.doProtoId side maxBannerLines (data io) = .ok (id, rest) →
        ssh.peerProtoId = id ∧ ssh.inputBuffer.unread ++ data io' = rest := by
  have hkept : Kept (some (bufferInit grants 0)) := bufferInit_kept grants (.inl (by decide))
  obtain ⟨_, b, hinit, hinv, -⟩ := hkept
  have hb : (bufferInit grants 0).2 = b := congrArg Prod.snd (Option.some.inj hinit)
  have hqueue : b.queue = [] := by
    rw [← hb]
    decide
  have hbuffer : (start side).inputBuffer = b := hb
  have hshort : (start side).inputBuffer.queue.length ≤ WolfSsh.protoIdLimit := by
    rw [hbuffer, hqueue]
    exact Nat.zero_le _
  obtain ⟨ret, ssh, io', hrun, hne, hout⟩ :=
    versionExchange_outcome (hbuffer ▸ hinv) hshort (Nat.zero_le _) hio hcalls
  have hstream : (start side).inputBuffer.queue ++ data io = data io := by
    rw [hbuffer, hqueue, List.nil_append]
  rw [hstream] at hout
  cases hout with
  | accepted id rest more _ _ hok hdata haccepted =>
    have hok : WolfSsh.doProtoId side maxBannerLines (data io) = .ok (id, rest ++ more) := hok
    refine ⟨ssh, io', by rw [hok]; exact hrun, fun id' rest' h => ?_⟩
    obtain ⟨rfl, rfl⟩ := Prod.mk.inj (Except.ok.inj (hok.symm.trans h))
    exact ⟨haccepted.peerProtoId, by rw [haccepted.unread, hdata]⟩
  | wantRead _ _ _ _ _ _ _ _ _ => exact absurd rfl hne
  | refused _ _ herr =>
    have herr : WolfSsh.doProtoId side maxBannerLines (data io) = .error .versionE := herr
    refine ⟨ssh, io', by rw [herr]; exact hrun, fun id' rest' h => ?_⟩
    rw [herr] at h
    exact nomatch h
  | ended _ _ herr =>
    have herr : WolfSsh.doProtoId side maxBannerLines (data io) = .error .socketErrorE := herr
    refine ⟨ssh, io', by rw [herr]; exact hrun, fun id' rest' h => ?_⟩
    rw [herr] at h
    exact nomatch h

/-- A session that has the version of its peer hashes the two lines without their terminators, the
client's first. -/
theorem hashKexInit_versions {me : KexSide} {peer : Bytes} (buf : Bytes)
    (hpeer : me.peerProtoId = copyString peer) :
    ∃ tail, (hashKexInit buf me).kexHash =
      (match me.ssh.side with
        | .client => copyString (protoIdBody me.sshProtoIdStr) ++ copyString peer
        | .server => copyString peer ++ copyString (protoIdBody me.sshProtoIdStr)) ++ tail := by
  cases hside : me.ssh.side with
  | client =>
    rw [hashKexInit_client buf hside, hpeer]
    exact ⟨_, (List.append_assoc _ _ _).symm⟩
  | server =>
    rw [hashKexInit_server buf hside, hpeer]
    exact ⟨_, (List.append_assoc _ _ _).symm⟩

section Chunking

variable {io : List Received} {calls : Nat}

/-- However a stream is split into reads and waits, the exchange does what it does with the whole of
it in one read: it takes just the streams that announce a version, stores the line, and leaves what
follows it. The lines that may be sent announce themselves, and both sides hash what is stored. -/
theorem version_exchange_chunking (side : Endpoint) (hio : Split io) (hcalls : ioSize io < calls) :
    (∃ ret ssh io', versionExchange calls io (start side) = some (ret, ssh, io') ∧
      (∀ calls', ioSize (unsplit (data io) (hungUp io)) < calls' → ∃ ssh' io'',
        versionExchange calls' (unsplit (data io) (hungUp io)) (start side) = some (ret, ssh', io'') ∧
        (ret = .success → ssh'.peerProtoId = ssh.peerProtoId ∧
          ssh'.inputBuffer.unread ++ data io'' = ssh.inputBuffer.unread ++ data io')) ∧
      (ret = .success ↔ ∃ line rest, Announces side maxBannerLines (data io) line rest) ∧
      ∀ line rest, Announces side maxBannerLines (data io) line rest →
        ssh.peerProtoId = copyString line ∧ ssh.inputBuffer.unread ++ data io' = rest) ∧
    (∀ id more, validateProtoId id = true →
      Announces side maxBannerLines (id ++ more) (protoIdBody id) more) ∧
    ∀ (me : KexSide) (peer buf : Bytes), me.peerProtoId = copyString peer → ∃ tail,
      (hashKexInit buf me).kexHash =
        (match me.ssh.side with
          | .client => copyString (protoIdBody me.sshProtoIdStr) ++ copyString peer
          | .server => copyString peer ++ copyString (protoIdBody me.sshProtoIdStr)) ++ tail := by
  obtain ⟨hsplit, hdata, hhung⟩ := unsplit_spec (data io) (hungUp io)
  obtain ⟨ssh, io', hrun, hok⟩ := versionExchange_verdict side hio hcalls
  refine ⟨⟨_, ssh, io', hrun, ?_, ?_, ?_⟩, fun id more h => announces_valid side _ more h,
    fun me peer buf h => hashKexInit_versions buf h⟩
  · intro calls' hcalls'
    obtain ⟨ssh', io'', hrun', hok'⟩ := versionExchange_verdict side hsplit hcalls'
    rw [hdata, hhung] at hrun'
    rw [hdata] at hok'
    refine ⟨ssh', io'', hrun', fun hret => ?_⟩
    obtain ⟨r, hwhole⟩ := ok_of_verdict hret
    obtain ⟨hid, hrest⟩ := hok r.1 r.2 hwhole
    obtain ⟨hid', hrest'⟩ := hok' r.1 r.2 hwhole
    exact ⟨hid'.trans hid.symm, hrest'.trans hrest.symm⟩
  · constructor
    · intro hret
      obtain ⟨r, hwhole⟩ := ok_of_verdict hret
      obtain ⟨line, hann, -⟩ := doProtoId_ok_iff.mp hwhole
      exact ⟨line, r.2, hann⟩
    · rintro ⟨line, rest, hann⟩
      rw [doProtoId_ok_iff.mpr ⟨line, hann, rfl⟩]
      rfl
  · intro line rest hann
    exact hok _ _ (doProtoId_ok_iff.mpr ⟨line, hann, rfl⟩)

/-- A line before the version, and two octets behind it, in four reads. -/
def sampleReads : List Received :=
  [.chunk (ascii "hi\r"), .error .want, .chunk (ascii "\nSSH-2.0"), .error .isr, .chunk (ascii "-x\n"),
    .chunk [0, 7]]

theorem version_exchange_chunking_sample :
    ∃ ssh io', versionExchange 99 sampleReads (start .client) = some (.success, ssh, io') ∧
      ssh.peerProtoId = copyString (ascii "SSH-2.0-x") ∧ ssh.inputBuffer.unread ++ data io' = [0, 7] := by
  have hsplit : Split sampleReads := .inr (.inr (.inr (.inr trivial)))
  have hann : Announces .client maxBannerLines (data sampleReads) (ascii "SSH-2.0-x") [0, 7] := by
    refine ⟨⟨[⟨ascii "hi", true⟩], ⟨ascii "SSH-2.0-x", false⟩, by decide, ?_, rfl, ?_, by decide, nofun⟩,
      by decide⟩
    · exact ⟨by decide, by decide, fun _ => by decide, by decide⟩
    · intro l hl
      rw [List.mem_singleton] at hl
      subst hl
      exact ⟨⟨by decide, by decide, nofun, by decide⟩, by decide⟩
  obtain ⟨⟨ret, ssh, io', hrun, -, htaken, hstored⟩, -⟩ :=
    version_exchange_chunking .client hsplit (show ioSize sampleReads < 99 by decide)
  obtain rfl := htaken.mpr ⟨_, _, hann⟩
  exact ⟨ssh, io', hrun, hstored _ _ hann⟩

end Chunking

end WolfSsh.VersionExchange
