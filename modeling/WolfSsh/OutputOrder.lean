import WolfSsh.OutputQueue
import WolfSsh.Lib.Runs

/-! What reaches the send callback is what was framed, in order and without a gap, as long as no
sender that fails finds earlier packets in the output buffer. -/

namespace WolfSsh.OutputQueue

open Packet (Crypto Direction Sender Buffer)

/-- The number of the packet after one that counts this way. -/
def Numbering.next (n : Nat) : Numbering → Nat
  | .counted => (n + 1) % 2 ^ 32
  | .restarts => 0
  | .unnumbered => n

/-- The number that the peer gives to the packet after these. -/
def peerSeq (framed : List Framed) : Nat := framed.foldl (fun n f => f.numbering.next n) 0

variable {κ : Type} {cr : Crypto κ}

/-- Everything that was framed has gone out or is still queued, and the peer is to number the next
packet as this side does. -/
structure InOrder (o : Output κ) : Prop where
  octets : o.wire ++ o.queue = (o.framed.map Framed.octets).flatten
  number : o.seq = peerSeq o.framed

/-! The buffer. -/

section Buffer

variable {b : Buffer}

theorem growBuffer_idx (h : b.idx ≤ b.length) (sz : Nat) :
    (b.growBuffer sz).idx ≤ (b.growBuffer sz).length := by
  rw [Buffer.growBuffer]
  split
  · exact Nat.zero_le _
  · split
    · exact Nat.zero_le _
    · exact h

theorem growBuffer_unread (sz : Nat) : (b.growBuffer sz).unread = b.unread := by
  rw [Buffer.growBuffer]
  split
  · rfl
  · split <;> rfl

theorem append_idx (h : b.idx ≤ b.length) (bs : Bytes) : (b.append bs).idx ≤ (b.append bs).length := by
  simp only [Buffer.append, Buffer.length, List.length_append] at h ⊢
  omega

theorem append_unread (h : b.idx ≤ b.length) (bs : Bytes) :
    (b.append bs).unread = b.unread ++ bs :=
  List.drop_append_of_le_length h

end Buffer

/-! One packet. -/

section Bundle

variable {s t : Sender κ} {env : SendEnv}

theorem protectPacket_seq {tx tx' : Direction κ} {packet : Bytes} {ret : Except WsErr Bytes}
    (h : Sender.protectPacket cr tx packet = (tx', ret)) :
    tx'.seq = match ret with
      | .ok _ => (tx.seq + 1) % 2 ^ 32
      | .error _ => tx.seq := by
  rw [Sender.protectPacket] at h
  split at h
  · split at h
    · obtain ⟨rfl, rfl⟩ := Prod.mk.inj h
      rfl
    · split at h
      · obtain ⟨rfl, rfl⟩ := Prod.mk.inj h
        rfl
      · rename_i henc
        obtain ⟨rfl, rfl⟩ := Prod.mk.inj h
        rw [Direction.encrypt] at henc
        split at henc
        · obtain ⟨rfl, -⟩ := Prod.mk.inj (Except.ok.inj henc)
          rfl
        · split at henc
          · split at henc
            · cases henc
            · split at henc
              · obtain ⟨rfl, -⟩ := Prod.mk.inj (Except.ok.inj henc)
                rfl
              · cases henc
          · cases henc
  · rw [Direction.encryptAead] at h
    split at h
    · rename_i heq
      obtain ⟨rfl, rfl⟩ := Prod.mk.inj h
      obtain ⟨rfl, -⟩ := Prod.mk.inj heq
      rfl
    · rename_i heq
      obtain ⟨rfl, rfl⟩ := Prod.mk.inj h
      obtain ⟨rfl, -⟩ := Prod.mk.inj heq
      rfl

/-- `BundlePacket` takes everything from `packetStartIdx` on for the packet: that is replaced by its
frame, or dropped. -/
structure Bundled (s t : Sender κ) (ret : Ret) : Prop where
  wire : t.wire = s.wire
  idx : t.outputBuffer.idx = s.outputBuffer.idx
  start : t.packetStartIdx = s.packetStartIdx
  bytes : ∃ out, t.outputBuffer.bytes = s.outputBuffer.bytes.take s.packetStartIdx ++ out ∧
    (ret.isOk = false → out = [])
  seq : t.tx.seq = if ret.isOk then (s.tx.seq + 1) % 2 ^ 32 else s.tx.seq

theorem bundlePacket_bundled (cr : Crypto κ) (env : SendEnv) (s : Sender κ) :
    Bundled s (bundlePacket cr env s).1 (bundlePacket cr env s).2 := by
  have hdropped : ∀ e, Bundled s { s with outputBuffer :=
      { s.outputBuffer with bytes := s.outputBuffer.bytes.take s.packetStartIdx } } (.error e) :=
    fun e => ⟨rfl, rfl, rfl, ⟨[], (List.append_nil _).symm, fun _ => rfl⟩, rfl⟩
  rw [bundlePacket]
  split
  · exact hdropped _
  · rw [Sender.bundlePacket]
    dsimp only
    split
    · exact hdropped _
    · split
      · exact hdropped _
      · split
        · rename_i hprot
          exact ⟨rfl, rfl, rfl, ⟨[], (List.append_nil _).symm, fun _ => rfl⟩, protectPacket_seq hprot⟩
        · rename_i hprot
          exact ⟨rfl, rfl, rfl, ⟨_, rfl, nofun⟩, protectPacket_seq hprot⟩

theorem preparePacket_ok {payloadSz : Nat} (hidx : s.outputBuffer.idx ≤ s.outputBuffer.length)
    (h : preparePacket env payloadSz s = .ok t) :
    t.tx = s.tx ∧ t.wire = s.wire ∧ ∃ b : Buffer, b.idx ≤ b.length ∧
      b.unread = s.outputBuffer.unread ∧ t.packetStartIdx = b.length ∧
      t.outputBuffer = b.append (List.replicate (lengthSz + padLengthSz) 0) := by
  rw [preparePacket, if_neg (Nat.not_lt.mpr hidx)] at h
  dsimp only [growBuffer] at h
  split at h
  · cases h
  · rename_i heq
    split at heq
    · cases heq
    · obtain rfl := Except.ok.inj heq
      obtain rfl := Except.ok.inj h
      exact ⟨rfl, rfl, _, growBuffer_idx hidx _, growBuffer_unread _, rfl, rfl⟩

end Bundle

/-! The flush. -/

/-- Octets go from the buffer to the wire, and nothing else happens. -/
structure Flushed (s t : Sender κ) : Prop where
  octets : t.wire ++ t.outputBuffer.unread = s.wire ++ s.outputBuffer.unread
  tx : t.tx = s.tx
  idx : s.outputBuffer.idx ≤ s.outputBuffer.length → t.outputBuffer.idx ≤ t.outputBuffer.length

theorem Flushed.refl (s : Sender κ) : Flushed s s := ⟨rfl, rfl, id⟩

theorem Flushed.trans {s t u : Sender κ} (h : Flushed s t) (h' : Flushed t u) : Flushed s u :=
  ⟨h'.octets.trans h.octets, h'.tx.trans h.tx, fun hidx => h'.idx (h.idx hidx)⟩

theorem shrink_flushed (s : Sender κ) : Flushed s (shrink s) := by
  have hunread : (s.outputBuffer.shrinkBuffer false).unread = s.outputBuffer.unread := by
    rw [Buffer.shrinkBuffer]
    split <;> rfl
  have hidx : s.outputBuffer.idx ≤ s.outputBuffer.length →
      (s.outputBuffer.shrinkBuffer false).idx ≤ (s.outputBuffer.shrinkBuffer false).length := by
    intro h
    rw [Buffer.shrinkBuffer]
    split
    · exact h
    · exact Nat.zero_le _
  exact ⟨congrArg (s.wire ++ ·) hunread, rfl, hidx⟩

theorem took_flushed (n : Nat) (s : Sender κ) : Flushed s (took n s) := by
  refine ⟨?_, rfl, fun hidx => ?_⟩
  · have hsplit : s.outputBuffer.unread.take n ++
        s.outputBuffer.bytes.drop (s.outputBuffer.idx + (s.outputBuffer.unread.take n).length) =
          s.outputBuffer.unread := by
      rw [← List.drop_drop, ← Buffer.unread, List.length_take]
      by_cases hn : n ≤ s.outputBuffer.unread.length
      · rw [Nat.min_eq_left hn, List.take_append_drop]
      · rw [Nat.min_eq_right (by omega), List.drop_length, List.append_nil,
          List.take_of_length_le (by omega)]
    change s.wire ++ s.outputBuffer.unread.take n ++
      s.outputBuffer.bytes.drop (s.outputBuffer.idx + (s.outputBuffer.unread.take n).length) = _
    rw [List.append_assoc, hsplit]
  · simp only [took, Buffer.length, Buffer.unread, List.length_take, List.length_drop] at hidx ⊢
    omega

theorem sendPacketFlush_flushed (answers : List IoSend) (s : Sender κ) :
    Flushed s (sendPacketFlush answers s).1 := by
  induction answers generalizing s with
  | nil =>
    unfold sendPacketFlush
    split
    · exact shrink_flushed s
    · exact .refl s
  | cons answer answers ih =>
    unfold sendPacketFlush
    split
    · exact shrink_flushed s
    · cases answer with
      | wantWrite => exact .refl s
      | isr => exact ih s
      | sent n => exact (took_flushed n s).trans (ih (took n s))

theorem shrink_unread {s : Sender κ} (h : s.outputBuffer.unread = []) :
    (shrink s).outputBuffer.unread = [] := by
  rw [shrink, Buffer.shrinkBuffer]
  dsimp only
  split
  · exact h
  · simpa [Buffer.unread] using h

theorem sendPacketFlush_drained (answers : List IoSend) (s : Sender κ) :
    (sendPacketFlush answers s).2 = .error .wantWrite ∨
      (sendPacketFlush answers s).2 = .ok () ∧
        (sendPacketFlush answers s).1.outputBuffer.unread = [] := by
  induction answers generalizing s with
  | nil =>
    unfold sendPacketFlush
    split
    · rename_i hempty
      exact .inr ⟨rfl, shrink_unread hempty⟩
    · exact .inl rfl
  | cons answer answers ih =>
    unfold sendPacketFlush
    split
    · rename_i hempty
      exact .inr ⟨rfl, shrink_unread hempty⟩
    · cases answer with
      | wantWrite => exact .inl rfl
      | isr => exact ih s
      | sent n => exact ih (took n s)

/-! The senders. -/

structure Inv (o : Output κ) : Prop extends InOrder o where
  idx : o.sender.outputBuffer.idx ≤ o.sender.outputBuffer.length

namespace Output

variable {o p : Output κ} {a : Sending} {numbering : Numbering}

theorem bundle_error {e : WsErr} (hidx : o.sender.outputBuffer.idx ≤ o.sender.outputBuffer.length)
    (h : o.bundle cr a numbering = (p, .error e)) :
    p.sender.outputBuffer.idx ≤ p.sender.outputBuffer.length ∧ p.framed = o.framed ∧
      p.wire = o.wire ∧ p.seq = o.seq ∧
      ((∀ u, a.unbuilt = some u → u.val ≠ e) → p.queue = o.queue) := by
  rw [bundle] at h
  split at h
  · obtain ⟨rfl, -⟩ := Prod.mk.inj h
    exact ⟨hidx, rfl, rfl, rfl, fun _ => rfl⟩
  · split at h
    · obtain ⟨rfl, -⟩ := Prod.mk.inj h
      exact ⟨hidx, rfl, rfl, rfl, fun _ => rfl⟩
    · rename_i s hprep
      obtain ⟨htx, hwire, b, hb, hunread, hstart, hbuf⟩ := preparePacket_ok hidx hprep
      split at h
      · rename_i u hunbuilt
        obtain ⟨rfl, he⟩ := Prod.mk.inj h
        refine ⟨?_, rfl, hwire, congrArg Direction.seq htx, fun hbuilt => ?_⟩
        · dsimp only
          rw [hbuf]
          exact append_idx hb _
        · exact absurd (Except.error.inj he) (hbuilt u hunbuilt)
      · have hbundled := bundlePacket_bundled cr a.env
          { s with outputBuffer := s.outputBuffer.append a.payload.octets }
        split at h
        · rename_i t e' heq
          obtain ⟨rfl, -⟩ := Prod.mk.inj h
          rw [heq] at hbundled
          obtain ⟨out, hbytes, hout⟩ := hbundled.bytes
          obtain rfl := hout rfl
          have hbuffer : t.outputBuffer.bytes = b.bytes := by
            rw [hbytes, List.append_nil]
            dsimp only
            rw [hbuf, hstart, Buffer.append, Buffer.append]
            dsimp only
            rw [List.append_assoc, Buffer.length, List.take_left]
          have hbidx : t.outputBuffer.idx = b.idx := by
            rw [hbundled.idx]
            dsimp only
            rw [hbuf]
            rfl
          refine ⟨?_, rfl, hbundled.wire.trans hwire, ?_, fun _ => ?_⟩
          · dsimp only [Buffer.length] at hb ⊢
            rw [hbidx, hbuffer]
            exact hb
          · exact hbundled.seq.trans (congrArg Direction.seq htx)
          · rw [queue, queue, ← hunread, Buffer.unread, Buffer.unread]
            dsimp only
            rw [hbidx, hbuffer]
        · cases h

theorem bundle_ok (hidx : o.sender.outputBuffer.idx ≤ o.sender.outputBuffer.length)
    (h : o.bundle cr a numbering = (p, .ok ())) :
    p.sender.outputBuffer.idx ≤ p.sender.outputBuffer.length ∧ p.wire = o.wire ∧
      p.seq = (o.seq + 1) % 2 ^ 32 ∧ p.useStrictKex = o.useStrictKex ∧
      ∃ octets, p.framed = o.framed ++ [⟨octets, numbering⟩] ∧ p.queue = o.queue ++ octets := by
  rw [bundle] at h
  split at h
  · cases h
  · split at h
    · cases h
    · rename_i s hprep
      obtain ⟨htx, hwire, b, hb, hunread, hstart, hbuf⟩ := preparePacket_ok hidx hprep
      split at h
      · cases h
      · have hbundled := bundlePacket_bundled cr a.env
          { s with outputBuffer := s.outputBuffer.append a.payload.octets }
        split at h
        · cases h
        · rename_i t _ heq
          obtain ⟨rfl, -⟩ := Prod.mk.inj h
          rw [heq] at hbundled
          obtain ⟨out, hbytes, -⟩ := hbundled.bytes
          have hbuffer : t.outputBuffer.bytes = b.bytes ++ out := by
            rw [hbytes]
            dsimp only
            rw [hbuf, hstart, Buffer.append, Buffer.append]
            dsimp only
            rw [List.append_assoc b.bytes, Buffer.length, List.take_left]
          have hbidx : t.outputBuffer.idx = b.idx := by
            rw [hbundled.idx]
            dsimp only
            rw [hbuf]
            rfl
          refine ⟨?_, hbundled.wire.trans hwire, ?_, rfl, out, ?_, ?_⟩
          · dsimp only [Buffer.length] at hb ⊢
            rw [hbidx, hbuffer, List.length_append]
            omega
          · have hseq : t.tx.seq = (s.tx.seq + 1) % 2 ^ 32 := hbundled.seq
            rw [seq, hseq, htx]
            rfl
          · dsimp only
            rw [hbundled.start, hstart, hbuffer, Buffer.length, List.drop_left]
          · rw [queue, queue, ← hunread, Buffer.unread, Buffer.unread]
            dsimp only
            rw [hbidx, hbuffer, List.drop_append_of_le_length hb]

theorem switchKeys_seq (o : Output κ) (n : NewKeys κ) :
    (o.switchKeys n).seq = if o.useStrictKex then 0 else o.seq := rfl

end Output

theorem peerSeq_append (framed : List Framed) (f : Framed) :
    peerSeq (framed ++ [f]) = f.numbering.next (peerSeq framed) := by
  rw [peerSeq, List.foldl_append]
  rfl

namespace Inv

open Output

variable {o p : Output κ} {a : Sending}

theorem record (h : Inv o) {octets : Bytes} {numbering : Numbering}
    (hidx : p.sender.outputBuffer.idx ≤ p.sender.outputBuffer.length) (hwire : p.wire = o.wire)
    (hframed : p.framed = o.framed ++ [⟨octets, numbering⟩]) (hqueue : p.queue = o.queue ++ octets)
    (hseq : p.seq = numbering.next o.seq) : Inv p := by
  refine ⟨⟨?_, ?_⟩, hidx⟩
  · rw [hwire, hqueue, hframed, List.map_append, List.flatten_append, ← h.octets, List.append_assoc]
    simp
  · rw [hseq, hframed, peerSeq_append, h.number]

theorem bundle (h : Inv o) (hok : o.bundle cr a .counted = (p, .ok ())) : Inv p := by
  obtain ⟨hidx, hwire, hseq, -, octets, hframed, hqueue⟩ := bundle_ok h.idx hok
  exact h.record hidx hwire hframed hqueue hseq

theorem bundle_failed (h : Inv o) {numbering : Numbering} {e : WsErr}
    (hbuilt : ∀ u, a.unbuilt = some u → u.val ≠ e)
    (herr : o.bundle cr a numbering = (p, .error e)) : Inv p ∧ p.queue = o.queue := by
  obtain ⟨hidx, hframed, hwire, hseq, hqueue⟩ := bundle_error h.idx herr
  refine ⟨⟨⟨?_, ?_⟩, hidx⟩, hqueue hbuilt⟩
  · rw [hwire, hqueue hbuilt, hframed]
    exact h.octets
  · rw [hseq, hframed]
    exact h.number

theorem bundle_unbundled (h : Inv o) {numbering : Numbering} {e : WsErr} (hbuilt : a.unbuilt = none)
    (herr : o.bundle cr a numbering = (p, .error e)) : Inv p ∧ p.queue = o.queue := by
  refine h.bundle_failed (fun u hu => ?_) herr
  rw [hbuilt] at hu
  cases hu

theorem purge (hwire : o.wire = (o.framed.map Framed.octets).flatten)
    (hseq : o.seq = peerSeq o.framed) : Inv o.purgePacket := by
  refine ⟨⟨?_, hseq⟩, Nat.zero_le _⟩
  change o.wire ++ [] = _
  rw [List.append_nil]
  exact hwire

theorem drained (h : Inv o) (hq : o.queue = []) : Inv o.purgePacket := by
  refine purge ?_ h.number
  have hoctets := h.octets
  rwa [hq, List.append_nil] at hoctets

theorem purge_failed (h : Inv o) (hq : o.queue = []) {e : WsErr}
    (herr : o.bundle cr a .counted = (p, .error e)) : Inv p.purgePacket := by
  obtain ⟨-, hframed, hwire, hseq, -⟩ := bundle_error h.idx herr
  have hoctets := h.octets
  rw [hq, List.append_nil] at hoctets
  refine purge ?_ ?_
  · rw [hwire, hframed]
    exact hoctets
  · rw [hseq, hframed]
    exact h.number

theorem sendPacket (h : Inv o) (env : SendEnv) : Inv (o.sendPacket env).1 := by
  have hf := sendPacketFlush_flushed env.io o.sender
  have hinv : Inv { o with sender := (sendPacketFlush env.io o.sender).1 } :=
    ⟨⟨hf.octets.trans h.octets, (congrArg Direction.seq hf.tx).trans h.number⟩, hf.idx h.idx⟩
  rw [Output.sendPacket]
  split
  · rename_i heq
    rw [heq] at hinv
    exact hinv
  · rename_i heq
    rw [heq] at hinv
    exact hinv

end Inv

namespace Output

variable {o : Output κ}

theorem sendPacket_drained (o : Output κ) (env : SendEnv) :
    (o.sendPacket env).2 = .error .wantWrite ∨ (o.sendPacket env).1.queue = [] := by
  have hd := sendPacketFlush_drained env.io o.sender
  rw [sendPacket]
  split
  · rename_i heq
    rw [heq] at hd
    rcases hd with hd | ⟨-, hd⟩
    · cases hd
    · exact .inr hd
  · rename_i heq
    rw [heq] at hd
    rcases hd with hd | ⟨hd, -⟩
    · exact .inl hd
    · cases hd

end Output

namespace Inv

open Output

variable {o : Output κ}

theorem send (h : Inv o) (cr : Crypto κ) (a : Sending) : Inv (o.send cr a).1 := by
  rw [Output.send]
  split
  · rename_i herr
    exact (h.bundle_unbundled rfl herr).1
  · rename_i hok
    exact (h.bundle hok).sendPacket a.env

theorem send_drained (h : Inv o) (cr : Crypto κ) (a : Sending) (hq : o.queue = []) :
    (o.send cr a).2 = .error .wantWrite ∨ (o.send cr a).1.queue = [] := by
  rw [Output.send]
  split
  · rename_i herr
    exact .inr ((h.bundle_unbundled rfl herr).2.trans hq)
  · exact sendPacket_drained _ a.env

theorem sendAll (h : Inv o) (cr : Crypto κ) (as : List Sending) : Inv (o.sendAll cr as).1 := by
  induction as generalizing o with
  | nil => exact h
  | cons a as ih => exact ih (h.send cr a)

theorem sendServiceAccept (h : Inv o) (cr : Crypto κ) (a : Sending) (banner : Option Sending) :
    Inv (o.sendServiceAccept cr a banner).1 := by
  rw [Output.sendServiceAccept]
  split
  · rename_i herr
    exact (h.bundle_unbundled rfl herr).1
  · rename_i hok
    cases banner with
    | none => exact (h.bundle hok).sendPacket a.env
    | some b => exact (h.bundle hok).send cr b

theorem sendProtoId (h : Inv o) (line : Bytes) (env : SendEnv) : Inv (o.sendProtoId line env).1 := by
  rw [Output.sendProtoId]
  split
  · exact h
  · rename_i out hgrow
    rw [growBuffer] at hgrow
    split at hgrow
    · cases hgrow
    · obtain rfl := Except.ok.inj hgrow
      have hidx := growBuffer_idx h.idx line.length
      have hqueue : ((o.sender.outputBuffer.growBuffer line.length).append line).unread =
          o.queue ++ line := by
        rw [append_unread hidx, growBuffer_unread]
        rfl
      have hinv : Inv { o with
          sender := { o.sender with
            outputBuffer := (o.sender.outputBuffer.growBuffer line.length).append line }
          framed := o.framed ++ [Framed.mk line .unnumbered] } :=
        h.record (append_idx hidx line) rfl rfl hqueue rfl
      exact hinv.sendPacket env

theorem newKeys (h : Inv o) {n : NewKeys κ} {p : Output κ}
    (hok : o.bundle cr n.sending (if o.useStrictKex then .restarts else .counted) = (p, .ok ())) :
    Inv (p.switchKeys n) := by
  obtain ⟨hidx, hwire, hseq, hstrict, octets, hframed, hqueue⟩ := bundle_ok h.idx hok
  refine h.record (p := p.switchKeys n) hidx hwire hframed hqueue ?_
  rw [switchKeys_seq, hstrict, hseq]
  cases o.useStrictKex <;> rfl

theorem sendNewKeys (h : Inv o) (cr : Crypto κ) (n : NewKeys κ) (adjusts : List Sending) :
    Inv (o.sendNewKeys cr n adjusts).1 := by
  rw [Output.sendNewKeys]
  split
  · rename_i herr
    exact (h.bundle_unbundled rfl herr).1
  · rename_i hok
    cases hkey : n.cipherSetKey with
    | some e => exact h.newKeys hok
    | none => exact ((h.newKeys hok).sendPacket n.env).sendAll cr adjusts

end Inv

/-- NEWKEYS is framed and its keys are set. -/
def Output.Switches (cr : Crypto κ) (n : NewKeys κ) (o : Output κ) : Prop :=
  (o.bundle cr n.sending (if o.useStrictKex then .restarts else .counted)).2.isOk ∧
    n.cipherSetKey = none

theorem Output.sendNewKeys_drained {o : Output κ} {n : NewKeys κ} (h : o.Switches cr n) :
    (o.sendNewKeys cr n []).2 = .error .wantWrite ∨ (o.sendNewKeys cr n []).1.queue = [] := by
  obtain ⟨hok, hkey⟩ := h
  rw [sendNewKeys]
  split
  · rename_i herr
    rw [herr] at hok
    cases hok
  · rename_i p _ _
    rw [hkey]
    have hd := sendPacket_drained (p.switchKeys n) n.env
    dsimp only [sendAll]
    rcases hd with hd | hd
    · left
      rw [hd]
      rfl
    · exact .inr hd

/-- The packet of a sender that purges when it fails is framed, unless nothing is queued; and behind a
reply to a key exchange its NEWKEYS is. -/
def KeepsQueue (cr : Crypto κ) (o : Output κ) : Op κ → Prop
  | .kexInit a | .userAuthRequest a | .userAuthKeyboard a =>
    o.queue = [] ∨ (o.bundle cr a .counted).2.isOk
  | .kexDhReply a n _ =>
    (o.queue = [] ∨ (o.bundle cr a .counted).2.isOk) ∧
      ((o.bundle cr a .counted).2.isOk → (o.bundle cr a .counted).1.Switches cr n)
  | .protoId _ _ | .flush _ | .send _ | .serviceAccept _ _ | .newKeys _ _ => True

instance (cr : Crypto κ) (n : NewKeys κ) (o : Output κ) : Decidable (o.Switches cr n) :=
  inferInstanceAs (Decidable (_ ∧ _))

instance (cr : Crypto κ) (o : Output κ) (op : Op κ) : Decidable (KeepsQueue cr o op) :=
  match op with
  | .kexInit _ | .userAuthRequest _ | .userAuthKeyboard _ => inferInstanceAs (Decidable (_ ∨ _))
  | .kexDhReply _ _ _ => inferInstanceAs (Decidable (_ ∧ _))
  | .protoId _ _ | .flush _ | .send _ | .serviceAccept _ _ | .newKeys _ _ =>
    inferInstanceAs (Decidable True)

namespace Inv

open Output

variable {o : Output κ} {a : Sending}

theorem sendKexInit (h : Inv o) (hk : o.queue = [] ∨ (o.bundle cr a .counted).2.isOk) :
    Inv (o.sendKexInit cr a).1 := by
  rw [Output.sendKexInit]
  split
  · rename_i herr
    rw [herr] at hk
    exact h.purge_failed (hk.resolve_right nofun) herr
  · rename_i hok
    exact (h.bundle hok).sendPacket a.env

theorem sendUserAuthRequest (h : Inv o) (hk : o.queue = [] ∨ (o.bundle cr a .counted).2.isOk) :
    Inv (o.sendUserAuthRequest cr a).1 := h.sendKexInit hk

/-- A sender that purges at its end, with its packet bundled, has nothing queued by then. -/
theorem purgeOnError {r : Output κ × Ret} (h : Inv r.1)
    (hd : r.2 = .error .wantWrite ∨ r.1.queue = []) : Inv (Output.purgeOnError r).1 := by
  rw [Output.purgeOnError]
  split
  · rename_i hret
    exact h.drained (hd.resolve_left hret.1)
  · exact h

theorem purgeOnError_failed (h : Inv o) (hq : o.queue = []) {p : Output κ} {e : WsErr}
    (herr : o.bundle cr a .counted = (p, .error e)) : Inv (Output.purgeOnError (p, .error e)).1 := by
  rw [Output.purgeOnError]
  split
  · exact h.purge_failed hq herr
  · rename_i hret
    obtain rfl : e = .wantWrite := by simpa using hret
    exact (h.bundle_failed (fun u _ => u.property) herr).1

theorem sendUserAuthKeyboard (h : Inv o) (hk : o.queue = [] ∨ (o.bundle cr a .counted).2.isOk) :
    Inv (o.sendUserAuthKeyboard cr a).1 := by
  rw [Output.sendUserAuthKeyboard]
  split
  · rename_i herr
    rw [herr] at hk
    exact h.purgeOnError_failed (hk.resolve_right nofun) herr
  · rename_i hok
    exact ((h.bundle hok).sendPacket a.env).purgeOnError (sendPacket_drained _ a.env)

theorem sendKexDhReply (h : Inv o) {n : NewKeys κ} (extInfo : Option Sending)
    (hk : o.queue = [] ∨ (o.bundle cr a .counted).2.isOk)
    (hn : (o.bundle cr a .counted).2.isOk → (o.bundle cr a .counted).1.Switches cr n) :
    Inv (o.sendKexDhReply cr a n extInfo).1 := by
  rw [Output.sendKexDhReply]
  split
  · rename_i herr
    rw [herr] at hk
    exact h.purgeOnError_failed (hk.resolve_right nofun) herr
  · rename_i p _ hok
    rw [hok] at hn
    have hnew := (h.bundle hok).sendNewKeys cr n []
    have hd := Output.sendNewKeys_drained (hn rfl)
    split
    · rename_i heq
      rw [heq] at hnew hd
      exact hnew.purgeOnError hd
    · rename_i heq
      rw [heq] at hnew hd
      have hq := hd.resolve_left nofun
      cases extInfo with
      | none => exact hnew.purgeOnError (.inr hq)
      | some e => exact (hnew.send cr e).purgeOnError (hnew.send_drained cr e hq)

theorem step (h : Inv o) {op : Op κ} (hk : KeepsQueue cr o op) : Inv (OutputQueue.step cr o op) := by
  cases op with
  | protoId line env => exact h.sendProtoId line env
  | flush env => exact h.sendPacket env
  | send a => exact h.send cr a
  | serviceAccept a banner => exact h.sendServiceAccept cr a banner
  | newKeys n adjusts => exact h.sendNewKeys cr n adjusts
  | kexInit a => exact h.sendKexInit hk
  | kexDhReply a n extInfo => exact h.sendKexDhReply extInfo hk.1 hk.2
  | userAuthRequest a => exact h.sendUserAuthRequest hk
  | userAuthKeyboard a => exact h.sendUserAuthKeyboard hk

theorem of_start (tx : Direction κ) (useStrictKex : Bool) : Inv (start tx useStrictKex) :=
  ⟨⟨rfl, rfl⟩, Nat.zero_le _⟩

end Inv

theorem output_in_order_run (cr : Crypto κ) (tx : Direction κ) (useStrictKex : Bool)
    (ops : List (Op κ))
    (hops : Runs.Meets (step cr) (KeepsQueue cr) (start tx useStrictKex) ops) :
    ∀ o ∈ Runs.states (step cr) (start tx useStrictKex) ops, InOrder o :=
  fun o ho => (Runs.invariant (fun _ _ h hk => h.step hk) (Inv.of_start tx useStrictKex) hops o
    ho).toInOrder

/-- No keys are set, so nothing is encrypted. -/
def noCrypto : Crypto Unit where
  encrypt _ _ _ := none
  decrypt _ _ _ := none
  hmac _ _ _ := []
  gcmEncrypt _ _ _ _ _ := none
  gcmDecrypt _ _ _ _ _ := none

def plain : Direction Unit := { algos := {}, cipher := (), macKey := [], iv := [], seq := 0 }

/-- A packet with no body, for which the callback answers `io`. -/
def short (msg : UInt8) (io : List IoSend) : Sending where
  payloadSz := msgIdSz
  payload := ⟨msg, []⟩
  env := { io := io }

/-- A KEXINIT that is taken octet by octet, and the failing answer to a KEXDH_INIT once it is out. -/
def drainedFirst : List (Op Unit) :=
  [ .kexInit (short 20 [.sent 3, .isr, .wantWrite]), .flush { io := [.sent 100] },
    .kexDhReply { short 31 [] with refused := some .cryptoFailed } { tx := plain } none,
    .newKeys { tx := plain } [] ]

theorem output_in_order_run_drained :
    Runs.Meets (step noCrypto) (KeepsQueue noCrypto) (start plain true) drainedFirst ∧
      InOrder (drainedFirst.foldl (step noCrypto) (start plain true)) := by
  have hops : Runs.Meets (step noCrypto) (KeepsQueue noCrypto) (start plain true) drainedFirst := by
    change ∀ p ∈ Runs.steps (step noCrypto) (start plain true) drainedFirst,
      KeepsQueue noCrypto p.1 p.2
    decide +kernel
  exact ⟨hops, output_in_order_run noCrypto plain true _ hops _ (Runs.foldl_mem_states _ _)⟩

/-- The KEXINIT is still queued when the answer to the KEXDH_INIT fails. -/
def queuedFirst : List (Op Unit) :=
  [ .kexInit (short 20 [.sent 3, .wantWrite]),
    .kexDhReply { short 31 [] with refused := some .cryptoFailed } { tx := plain } none ]

theorem output_lost_to_purge :
    ¬ ∀ ops, ∀ o ∈ Runs.states (step noCrypto) (start plain false) ops, InOrder o := by
  intro h
  have hlast := (h queuedFirst _ (Runs.foldl_mem_states _ _)).octets
  exact absurd hlast (by decide +kernel)

end WolfSsh.OutputQueue
