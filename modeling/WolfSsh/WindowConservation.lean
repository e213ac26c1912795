import WolfSsh.Window
import WolfSsh.Lib.Runs

/-! Receive-window conservation: the window, what is buffered and what is owed to the peer add
up in every state of a run whose sends do not fail in the ways that lose or repeat credit. -/

namespace WolfSsh.Window

def credit (id : Nat) : Option (Nat × Nat) → Nat
  | some (c, n) => if c = id then n else 0
  | none => 0

def adjusts (id : Nat) (ps : List OutPacket) : Nat := (ps.map (fun p => credit id p.adjust)).sum

def takenOf (id : Nat) (taken : List (Nat × Nat)) : Nat :=
  (taken.map (fun t => credit id (some t))).sum

theorem adjusts_append (id : Nat) (ps qs : List OutPacket) :
    adjusts id (ps ++ qs) = adjusts id ps + adjusts id qs := by
  simp [adjusts]

@[simp] theorem adjusts_nil (id : Nat) : adjusts id [] = 0 := rfl

theorem takeSent_adjusts (id n : Nat) (ps : List OutPacket) :
    adjusts id (takeSent n ps).1 + adjusts id (takeSent n ps).2 = adjusts id ps := by
  induction ps generalizing n with
  | nil => rfl
  | cons p ps ih =>
    by_cases hp : p.left ≤ n
    · have hrest := ih (n - p.left)
      simp only [takeSent, hp, if_true, adjusts, List.map_cons, List.sum_cons] at hrest ⊢
      omega
    · simp [takeSent, hp, adjusts]

/-- What was in the buffer is out or still there, unless a general error discarded it. -/
theorem sendPacketFlush_adjusts {io : List IoSend} {out : List OutPacket} (id : Nat)
    (hio : (sendPacketFlush io out).ret = .error .socketErrorE → .general ∉ io) :
    adjusts id (sendPacketFlush io out).went + adjusts id (sendPacketFlush io out).out =
      adjusts id out := by
  induction io generalizing out with
  | nil => cases out <;> simp [sendPacketFlush]
  | cons a io ih =>
    cases out with
    | nil => simp [sendPacketFlush]
    | cons p ps =>
      have hrest : .general ∉ a :: io → .general ∉ io := fun h hm => h (List.mem_cons_of_mem _ hm)
      cases a with
      | sent n =>
        have htake := takeSent_adjusts id n (p :: ps)
        have hflush := @ih (takeSent n (p :: ps)).2 (fun h => hrest (hio h))
        simp only [sendPacketFlush, adjusts_append]
        omega
      | isr => exact ih (fun h => hrest (hio h))
      | general => exact absurd (List.mem_cons_self ..) (hio rfl)
      | wantWrite => simp [sendPacketFlush]
      | connRst => simp [sendPacketFlush]
      | connClose => simp [sendPacketFlush]
      | timeout => simp [sendPacketFlush]

theorem takeSent_last (id n : Nat) (q : List OutPacket) (p : OutPacket) :
    (takeSent n (q ++ [p])).2 = [] ∨ ∃ q' p', (takeSent n (q ++ [p])).2 = q' ++ [p'] ∧
      adjusts id (takeSent n (q ++ [p])).1 + adjusts id q' = adjusts id q := by
  induction q generalizing n with
  | nil =>
    by_cases hp : p.left ≤ n
    · exact .inl (by simp [takeSent, hp])
    · exact .inr ⟨[], { p with left := p.left - n }, by simp [takeSent, hp], by simp [takeSent, hp]⟩
  | cons r q ih =>
    by_cases hr : r.left ≤ n
    · rcases ih (n - r.left) with hnil | ⟨q', p', hq, hsum⟩
      · exact .inl (by simp [takeSent, hr, hnil])
      · refine .inr ⟨q', p', by simp [takeSent, hr, hq], ?_⟩
        simp only [List.cons_append, takeSent, hr, if_true, adjusts, List.map_cons,
          List.sum_cons] at hsum ⊢
        omega
    · refine .inr ⟨{ r with left := r.left - n } :: q, p, by simp [takeSent, hr], ?_⟩
      simp [takeSent, hr, adjusts]

theorem sendPacketFlush_last {io : List IoSend} {q : List OutPacket} {p : OutPacket} {e : WsErr}
    (id : Nat) (hret : (sendPacketFlush io (q ++ [p])).ret = .error e) :
    adjusts id (sendPacketFlush io (q ++ [p])).went ≤ adjusts id q := by
  induction io generalizing q p with
  | nil => cases q <;> simp [sendPacketFlush]
  | cons a io ih =>
    obtain ⟨r, rs, hcons⟩ : ∃ r rs, q ++ [p] = r :: rs := by cases q <;> simp
    cases a with
    | sent n =>
      have hflush : sendPacketFlush (.sent n :: io) (q ++ [p]) =
          { sendPacketFlush io (takeSent n (q ++ [p])).2 with
            went := (takeSent n (q ++ [p])).1 ++ (sendPacketFlush io (takeSent n (q ++ [p])).2).went } := by
        rw [hcons]
        rfl
      rw [hflush] at hret ⊢
      rcases takeSent_last id n q p with hnil | ⟨q', p', hq, hsum⟩
      · rw [hnil] at hret
        cases io <;> simp [sendPacketFlush] at hret
      · rw [hq] at hret ⊢
        have hle := ih hret
        simp only [adjusts_append]
        omega
    | isr =>
      have hflush : sendPacketFlush (.isr :: io) (q ++ [p]) = sendPacketFlush io (q ++ [p]) := by
        rw [hcons]
        rfl
      rw [hflush] at hret ⊢
      exact ih hret
    | wantWrite => simp [hcons, sendPacketFlush]
    | connRst => simp [hcons, sendPacketFlush]
    | connClose => simp [hcons, sendPacketFlush]
    | timeout => simp [hcons, sendPacketFlush]
    | general => simp [hcons, sendPacketFlush]

/-- The answers for which a failed send keeps the output buffer. -/
def IoSend.keeps (a : IoSend) : Bool := a = .connRst || a = .connClose || a = .timeout

theorem sendPacketFlush_error {io : List IoSend} {out : List OutPacket} {e : WsErr}
    (hio : ∀ a ∈ io, a.keeps = false) (hret : (sendPacketFlush io out).ret = .error e) :
    e = .wantWrite ∨ (e = .socketErrorE ∧ .general ∈ io ∧ (sendPacketFlush io out).out = []) := by
  induction io generalizing out with
  | nil =>
    cases out with
    | nil => simp [sendPacketFlush] at hret
    | cons p ps =>
      left
      simpa [sendPacketFlush] using hret.symm
  | cons a io ih =>
    cases out with
    | nil => simp [sendPacketFlush] at hret
    | cons p ps =>
      have hrest : ∀ b ∈ io, b.keeps = false := fun b hb => hio b (List.mem_cons_of_mem _ hb)
      have ha := hio a (List.mem_cons_self ..)
      cases a with
      | sent n =>
        rcases @ih (takeSent n (p :: ps)).2 hrest hret with h | ⟨h, hmem, hout⟩
        · exact .inl h
        · exact .inr ⟨h, List.mem_cons_of_mem _ hmem, hout⟩
      | isr =>
        rcases ih hrest hret with h | ⟨h, hmem, hout⟩
        · exact .inl h
        · exact .inr ⟨h, List.mem_cons_of_mem _ hmem, hout⟩
      | general => exact .inr ⟨(Except.error.inj hret).symm, List.mem_cons_self .., rfl⟩
      | wantWrite => exact .inl (Except.error.inj hret).symm
      | connRst => cases ha
      | connClose => cases ha
      | timeout => cases ha

theorem sendPacketFlush_io {io : List IoSend} {out : List OutPacket} :
    ∀ a ∈ (sendPacketFlush io out).io, a ∈ io := by
  induction io generalizing out with
  | nil => cases out <;> simp [sendPacketFlush]
  | cons a io ih =>
    intro b hb
    cases out with
    | nil => exact hb
    | cons p ps =>
      cases a <;>
        first
        | exact List.mem_cons_of_mem _ (ih b hb)
        | exact List.mem_cons_of_mem _ hb

theorem sendPacketFlush_ok {io : List IoSend} {out : List OutPacket} {u : Unit}
    (hret : (sendPacketFlush io out).ret = .ok u) : (sendPacketFlush io out).out = [] := by
  induction io generalizing out with
  | nil => cases out <;> simp_all [sendPacketFlush]
  | cons a io ih =>
    cases out with
    | nil => rfl
    | cons p ps =>
      cases a <;>
        first
        | exact ih hret
        | cases hret

theorem sendPacketFlush_le (id : Nat) (io : List IoSend) (out : List OutPacket) :
    adjusts id (sendPacketFlush io out).went + adjusts id (sendPacketFlush io out).out ≤
      adjusts id out := by
  induction io generalizing out with
  | nil => cases out <;> simp [sendPacketFlush]
  | cons a io ih =>
    cases out with
    | nil => simp [sendPacketFlush]
    | cons p ps =>
      cases a with
      | sent n =>
        have htake := takeSent_adjusts id n (p :: ps)
        have hflush := ih (takeSent n (p :: ps)).2
        simp only [sendPacketFlush, adjusts_append]
        omega
      | isr => exact ih (p :: ps)
      | general => simp [sendPacketFlush]
      | wantWrite => simp [sendPacketFlush]
      | connRst => simp [sendPacketFlush]
      | connClose => simp [sendPacketFlush]
      | timeout => simp [sendPacketFlush]

/-- No WINDOW_ADJUST waits in the output buffer. -/
def NoQueued (ssh : Session) : Prop := ∀ p ∈ ssh.outputBuffer, p.adjust = none

theorem NoQueued.adjusts {ssh : Session} (h : NoQueued ssh) (id : Nat) :
    adjusts id ssh.outputBuffer = 0 := by
  have hzero : ∀ out : List OutPacket, (∀ p ∈ out, p.adjust = none) → Window.adjusts id out = 0 := by
    intro out hout
    induction out with
    | nil => rfl
    | cons p out ih =>
      have hp := hout p (List.mem_cons_self ..)
      have hrest := ih (fun q hq => hout q (List.mem_cons_of_mem _ hq))
      simp only [Window.adjusts, List.map_cons, List.sum_cons, hp, credit] at hrest ⊢
      omega
  exact hzero ssh.outputBuffer h

/-- A send moves credit from the output buffer to the wire and does nothing else to it. -/
structure Moved (ssh ssh' : Session) : Prop where
  channels : ssh'.channelList = ssh.channelList
  next : ssh'.nextChannel = ssh.nextChannel
  taken : ssh'.taken = ssh.taken
  opened : ssh'.opened = ssh.opened
  grows : ∀ id, adjusts id ssh.wire ≤ adjusts id ssh'.wire
  adjusts : ∀ id, adjusts id ssh'.wire + adjusts id ssh'.outputBuffer =
    adjusts id ssh.wire + adjusts id ssh.outputBuffer

theorem flushed_moved {ssh : Session} {io : List IoSend}
    (h : ∀ id, adjusts id (sendPacketFlush io ssh.outputBuffer).went +
      adjusts id (sendPacketFlush io ssh.outputBuffer).out = adjusts id ssh.outputBuffer) :
    Moved ssh (ssh.flushed (sendPacketFlush io ssh.outputBuffer)) := by
  refine ⟨rfl, rfl, rfl, rfl, fun id => ?_, fun id => ?_⟩
  · simp only [Session.flushed, adjusts_append]
    omega
  · have hid := h id
    simp only [Session.flushed, adjusts_append]
    omega

theorem flush_moved (ssh : Session) (io : List IoSend)
    (h : (sendPacketFlush io ssh.outputBuffer).ret = .error .socketErrorE → .general ∈ io →
      ∀ id, adjusts id ssh.outputBuffer = 0) :
    Moved ssh (ssh.flushed (sendPacketFlush io ssh.outputBuffer)) := by
  by_cases hret : (sendPacketFlush io ssh.outputBuffer).ret = .error .socketErrorE
  · by_cases hgen : .general ∈ io
    · have hzero := h hret hgen
      refine flushed_moved fun id => ?_
      have hle := sendPacketFlush_le id io ssh.outputBuffer
      have hid := hzero id
      omega
    · exact flushed_moved fun id => sendPacketFlush_adjusts id (fun _ => hgen)
  · exact flushed_moved fun id => sendPacketFlush_adjusts id (fun h => absurd h hret)

theorem sendKexInit_moved {ssh : Session} (io : List IoSend) (sz : Nat)
    (h : ssh.outputBuffer = []) : Moved ssh (ssh.sendKexInit io sz).2 := by
  have hzero : ∀ id, adjusts id (ssh.queue { left := sz }).outputBuffer = 0 := by
    intro id
    simp [Session.queue, h, adjusts, credit]
  have hmoved := flush_moved (ssh.queue { left := sz }) io (fun _ _ => hzero)
  have hold : ∀ id, adjusts id ssh.outputBuffer = 0 := fun id => by rw [h, adjusts_nil]
  unfold Session.sendKexInit
  simp only
  split
  · refine ⟨hmoved.channels, hmoved.next, hmoved.taken, hmoved.opened, hmoved.grows, fun id => ?_⟩
    rw [hold id, ← hzero id]
    exact hmoved.adjusts id
  · refine ⟨hmoved.channels, hmoved.next, hmoved.taken, hmoved.opened, hmoved.grows, fun id => ?_⟩
    rw [hold id, ← hzero id]
    exact hmoved.adjusts id
  · refine ⟨hmoved.channels, hmoved.next, hmoved.taken, hmoved.opened, hmoved.grows, fun id => ?_⟩
    have hid := hmoved.adjusts id
    rw [hzero id] at hid
    have hle := sendPacketFlush_le id io (ssh.queue { left := sz }).outputBuffer
    rw [hzero id] at hle
    have hout : adjusts id ((ssh.queue { left := sz }).flushed
        (sendPacketFlush io (ssh.queue { left := sz }).outputBuffer)).outputBuffer = 0 := by
      simp only [Session.flushed]
      omega
    rw [hold id]
    simp only [Session.purgePacket, adjusts_nil]
    rw [hout] at hid
    exact hid

theorem sendPacket_moved {env : SendEnv} {ssh : Session}
    (h : .general ∈ env.io → ∀ id, adjusts id ssh.outputBuffer = 0) :
    Moved ssh (ssh.sendPacket env).2 := by
  have hmoved := flush_moved ssh env.io (fun _ => h)
  unfold Session.sendPacket
  simp only
  split
  · rename_i u sz hret hre
    split
    · exact hmoved
    · have hempty : (ssh.flushed (sendPacketFlush env.io ssh.outputBuffer)).outputBuffer = [] :=
        sendPacketFlush_ok hret
      have hkex := sendKexInit_moved (sendPacketFlush env.io ssh.outputBuffer).io sz hempty
      exact ⟨hkex.channels.trans hmoved.channels, hkex.next.trans hmoved.next,
        hkex.taken.trans hmoved.taken, hkex.opened.trans hmoved.opened,
        fun id => (hmoved.grows id).trans (hkex.grows id), fun id => (hkex.adjusts id).trans (hmoved.adjusts id)⟩
  · exact hmoved
  · exact hmoved

theorem find_put_self {ssh : Session} (ch : Channel) {old : Channel}
    (h : ssh.channelFind ch.channel = some old) :
    (ssh.put ch).channelFind ch.channel = some ch := by
  unfold Session.channelFind Session.put at *
  generalize ssh.channelList = l at h ⊢
  induction l with
  | nil => simp at h
  | cons c l ih =>
    by_cases hc : c.channel = ch.channel
    · simp [hc]
    · simp only [List.map_cons, hc, if_false]
      rw [List.find?_cons_of_neg (by simpa using hc)] at h ⊢
      exact ih h

theorem find_put_other (ssh : Session) (ch : Channel) {id : Nat} (h : id ≠ ch.channel) :
    (ssh.put ch).channelFind id = ssh.channelFind id := by
  unfold Session.channelFind Session.put
  generalize ssh.channelList = l
  induction l with
  | nil => rfl
  | cons c l ih =>
    by_cases hc : c.channel = ch.channel
    · have hne : ¬ c.channel = id := fun hcid => h (hcid.symm.trans hc)
      simp only [List.map_cons, hc, if_true]
      rw [List.find?_cons_of_neg (by simpa using Ne.symm h),
        List.find?_cons_of_neg (by simpa using hne)]
      exact ih
    · simp only [List.map_cons, hc, if_false]
      by_cases hid : c.channel = id
      · rw [List.find?_cons_of_pos (by simpa using hid), List.find?_cons_of_pos (by simpa using hid)]
      · rw [List.find?_cons_of_neg (by simpa using hid), List.find?_cons_of_neg (by simpa using hid)]
        exact ih

theorem find_channel {ssh : Session} {id : Nat} {ch : Channel} (h : ssh.channelFind id = some ch) :
    ch.channel = id := by
  simpa using List.find?_some h

theorem Moved.find {ssh ssh' : Session} (h : Moved ssh ssh') (id : Nat) :
    ssh'.channelFind id = ssh.channelFind id := by
  rw [Session.channelFind, Session.channelFind, h.channels]

/-- Credit of `amount` to one channel: it is owed, queued or out, and nothing else changed. -/
structure Credited (ssh ssh' : Session) (ch : Channel) (amount : Nat) : Prop where
  found : ∃ owed, ssh'.channelFind ch.channel = some { ch with pendingWindowAdjust := owed } ∧
    owed + (adjusts ch.channel ssh'.wire + adjusts ch.channel ssh'.outputBuffer) =
      ch.pendingWindowAdjust + amount +
        (adjusts ch.channel ssh.wire + adjusts ch.channel ssh.outputBuffer)
  others : ∀ id, id ≠ ch.channel → ssh'.channelFind id = ssh.channelFind id ∧
    adjusts id ssh'.wire + adjusts id ssh'.outputBuffer =
      adjusts id ssh.wire + adjusts id ssh.outputBuffer
  next : ssh'.nextChannel = ssh.nextChannel
  taken : ssh'.taken = ssh.taken
  opened : ssh'.opened = ssh.opened

/-- The credit can be parked or its send fails in no way that repeats or loses any. -/
def CleanCredit (ssh : Session) (ch : Channel) (env : SendEnv) (amount : Nat) : Prop :=
  ch.pendingWindowAdjust + amount ≤ uint32Max ∧
    (ssh.isKeying = true ∨ ssh.disconnected = true ∨ env.bundles = false ∨
      ch.pendingWindowAdjust + amount = 0 ∨
      ((∀ a ∈ env.io, a.keeps = false) ∧
        (.general ∈ env.io → NoQueued ssh ∧ env.rekeys = none)))

theorem credited_park {ssh : Session} {ch : Channel} {amount : Nat}
    (hfind : ssh.channelFind ch.channel = some ch) :
    Credited ssh (ssh.put { ch with pendingWindowAdjust := ch.pendingWindowAdjust + amount }) ch
      amount := by
  exact ⟨⟨_, find_put_self _ hfind, rfl⟩, fun id hid => ⟨find_put_other ssh _ hid, rfl⟩, rfl, rfl,
    rfl⟩

theorem adjusts_queued (id c n sz : Nat) (out : List OutPacket) :
    adjusts id (out ++ [⟨some (c, n), sz⟩]) = adjusts id out + (if c = id then n else 0) := by
  simp [adjusts, credit]

theorem credited_of_moved {ssh ssh' : Session} {ch : Channel} {amount packetSz : Nat}
    (hfind : ssh.channelFind ch.channel = some ch)
    (hmoved : Moved ((ssh.put { ch with pendingWindowAdjust := 0 }).queue
      ⟨some (ch.channel, ch.pendingWindowAdjust + amount), packetSz⟩) ssh') :
    Credited ssh ssh' ch amount := by
  have hself := find_put_self { ch with pendingWindowAdjust := 0 } hfind
  refine ⟨⟨0, (hmoved.find _).trans hself, ?_⟩, fun id hid => ⟨?_, ?_⟩, hmoved.next, hmoved.taken,
    hmoved.opened⟩
  · have hadd := hmoved.adjusts ch.channel
    simp only [Session.queue, Session.put, adjusts_queued, if_true] at hadd
    omega
  · exact (hmoved.find id).trans (find_put_other ssh _ hid)
  · have hadd := hmoved.adjusts id
    simp only [Session.queue, Session.put, adjusts_queued, if_neg (Ne.symm hid)] at hadd
    exact hadd

/-- A send that a general error stopped has put nothing of the last packet out, so its credit can
be owed again. -/
theorem credited_of_discarded {ssh ssh' : Session} {ch : Channel} {amount : Nat}
    (hfind : ssh.channelFind ch.channel = some ch)
    (hmoved : Moved (ssh.put { ch with pendingWindowAdjust := 0 }) ssh') :
    Credited ssh (ssh'.put { ch with pendingWindowAdjust := ch.pendingWindowAdjust + amount }) ch
      amount := by
  have hself := find_put_self { ch with pendingWindowAdjust := 0 } hfind
  have hfound : ssh'.channelFind ch.channel = some { ch with pendingWindowAdjust := 0 } :=
    (hmoved.find _).trans hself
  refine ⟨⟨_, find_put_self _ hfound, ?_⟩, fun id hid => ⟨?_, hmoved.adjusts id⟩, hmoved.next,
    hmoved.taken, hmoved.opened⟩
  · have hadd := hmoved.adjusts ch.channel
    simp only [Session.put] at hadd ⊢
    omega
  · have hput := find_put_other ssh'
      { ch with pendingWindowAdjust := ch.pendingWindowAdjust + amount } hid
    exact hput.trans ((hmoved.find id).trans (find_put_other ssh _ hid))

theorem sendPacket_eq_flush {env : SendEnv} (ssh : Session) (h : env.rekeys = none) :
    ssh.sendPacket env = ((sendPacketFlush env.io ssh.outputBuffer).ret,
      ssh.flushed (sendPacketFlush env.io ssh.outputBuffer)) := by
  unfold Session.sendPacket
  simp only [h]
  split <;> simp_all

theorem sendPacket_error {env : SendEnv} {ssh : Session} {e : WsErr}
    (hkeeps : ∀ a ∈ env.io, a.keeps = false) (hgen : .general ∉ env.io)
    (hret : (ssh.sendPacket env).1 = .error e) : e = .wantWrite := by
  unfold Session.sendPacket at hret
  simp only at hret
  split at hret
  · split at hret
    · cases hret
    · rename_i u sz hok hre hdis
      unfold Session.sendKexInit at hret
      simp only at hret
      have hsub := @sendPacketFlush_io env.io ssh.outputBuffer
      have herr : (sendPacketFlush (sendPacketFlush env.io ssh.outputBuffer).io
          ((ssh.flushed (sendPacketFlush env.io ssh.outputBuffer)).queue
            { left := sz }).outputBuffer).ret = .error e := by
        split at hret <;> exact hret
      rcases sendPacketFlush_error (fun a ha => hkeeps a (hsub a ha)) herr with h | ⟨-, hmem, -⟩
      · exact h
      · exact absurd (hsub _ hmem) hgen
  · cases hret
  · rename_i e' re herr
    rcases sendPacketFlush_error hkeeps (herr.trans hret) with h | ⟨-, hmem, -⟩
    · exact h
    · exact absurd hmem hgen

/-- The send of a credit whose WINDOW_ADJUST is queued: it moves, or a general error took the
packet and nothing else. -/
theorem sendPacket_credit {ssh ssh' : Session} {env : SendEnv} {adjust : Nat × Nat}
    {ret : Except WsErr Unit} (hkeeps : ∀ a ∈ env.io, a.keeps = false)
    (hgen : .general ∈ env.io → NoQueued ssh ∧ env.rekeys = none)
    (hr : (ssh.queue ⟨some adjust, env.packetSz⟩).sendPacket env = (ret, ssh')) :
    (ret ≠ .error .socketErrorE ∧ Moved (ssh.queue ⟨some adjust, env.packetSz⟩) ssh') ∨
      (ret = .error .socketErrorE ∧ Moved ssh ssh') := by
  by_cases hmem : .general ∈ env.io
  · obtain ⟨hno, hre⟩ := hgen hmem
    rw [sendPacket_eq_flush _ hre] at hr
    obtain ⟨rfl, rfl⟩ := Prod.mk.inj hr
    by_cases hret : (sendPacketFlush env.io
        (ssh.queue ⟨some adjust, env.packetSz⟩).outputBuffer).ret = .error .socketErrorE
    · refine .inr ⟨hret, ?_⟩
      rcases sendPacketFlush_error hkeeps hret with h | ⟨-, -, hout⟩
      · cases h
      have hlast : ∀ id, adjusts id (sendPacketFlush env.io
          (ssh.queue ⟨some adjust, env.packetSz⟩).outputBuffer).went = 0 := by
        intro id
        have hle := sendPacketFlush_last id hret
        rw [hno.adjusts id] at hle
        exact Nat.le_zero.mp hle
      refine ⟨rfl, rfl, rfl, rfl, fun id => ?_, fun id => ?_⟩
      · simp only [Session.flushed, adjusts_append, hlast id]
        exact Nat.le_refl _
      · simp only [Session.flushed, hout, adjusts_nil, adjusts_append, hno.adjusts id, hlast id]
        rfl
    · exact .inl ⟨hret, flush_moved _ _ (fun h => absurd h hret)⟩
  · have herr : ret ≠ .error .socketErrorE := by
      intro h
      have hblocks := sendPacket_error hkeeps hmem ((congrArg Prod.fst hr).trans h)
      cases hblocks
    have hmoved := @sendPacket_moved env (ssh.queue ⟨some adjust, env.packetSz⟩)
      (fun h => absurd h hmem)
    rw [hr] at hmoved
    exact .inl ⟨herr, hmoved⟩

theorem channelCreditWindow_credited {ssh : Session} {ch : Channel} {env : SendEnv} {amount : Nat}
    (hfind : ssh.channelFind ch.channel = some ch) (hclean : CleanCredit ssh ch env amount) :
    Credited ssh (ssh.channelCreditWindow env ch amount).2 ch amount := by
  obtain ⟨hfits, hway⟩ := hclean
  have hover : ¬ amount > uint32Max - ch.pendingWindowAdjust := by omega
  unfold Session.channelCreditWindow
  simp only [if_neg hover]
  by_cases hzero : ch.pendingWindowAdjust + amount = 0
  · simp only [if_pos hzero]
    refine ⟨⟨ch.pendingWindowAdjust, hfind, by omega⟩, fun id hid => ⟨rfl, rfl⟩, rfl, rfl, rfl⟩
  simp only [if_neg hzero]
  by_cases hpark : (ssh.isKeying || ssh.disconnected) = true
  · simp only [if_pos hpark]
    exact credited_park hfind
  simp only [if_neg hpark]
  unfold Session.sendChannelWindowAdjust
  by_cases hbundles : env.bundles = true
  · simp only [if_pos hbundles, Bool.not_true, Bool.false_or]
    have hkeying : ssh.isKeying = false ∧ ssh.disconnected = false := by
      simpa using hpark
    obtain ⟨hkeeps, hgen⟩ : (∀ a ∈ env.io, a.keeps = false) ∧
        (.general ∈ env.io → NoQueued ssh ∧ env.rekeys = none) := by
      rcases hway with h | h | h | h | h
      · rw [hkeying.1] at h
        cases h
      · rw [hkeying.2] at h
        cases h
      · rw [hbundles] at h
        cases h
      · exact absurd h hzero
      · exact h
    rcases hsend : ((ssh.put { ch with pendingWindowAdjust := 0 }).queue
      ⟨some (ch.channel, ch.pendingWindowAdjust + amount), env.packetSz⟩).sendPacket env with ⟨ret, ssh'⟩
    have hgen' : .general ∈ env.io →
        NoQueued (ssh.put { ch with pendingWindowAdjust := 0 }) ∧ env.rekeys = none := hgen
    rcases sendPacket_credit hkeeps hgen' hsend with ⟨hret, hmoved⟩ | ⟨hret, hmoved⟩
    · rcases ret with e | u
      · cases e <;> first
          | exact absurd rfl hret
          | exact credited_of_moved hfind hmoved
      · exact credited_of_moved hfind hmoved
    · subst hret
      exact credited_of_discarded hfind hmoved
  · simp only [if_neg hbundles, Bool.not_false, Bool.true_or, if_true]
    exact credited_of_discarded hfind
      ⟨rfl, rfl, rfl, rfl, fun _ => Nat.le_refl _, fun _ => rfl⟩

/-- One channel's books: the window and what is buffered fill the initial window, and what was
granted is what was taken plus what is left. -/
structure Balanced (ssh : Session) (ch : Channel) : Prop where
  idx : ch.inputBuffer.idx ≤ ch.inputBuffer.length
  extIdx : ch.extDataBuffer.idx ≤ ch.extDataBuffer.length
  room : ch.windowSz + ch.inputBuffer.length + ch.extDataBuffer.unread = ch.inputBuffer.bufferSz
  ledger : ch.inputBuffer.bufferSz + ch.pendingWindowAdjust +
    (adjusts ch.channel ssh.wire + adjusts ch.channel ssh.outputBuffer) =
      ch.windowSz + takenOf ch.channel ssh.taken

/-- The invariant of a session. A channel number that was not given out yet has no history. -/
structure Inv (ssh : Session) : Prop where
  fresh : ∀ id, ssh.nextChannel ≤ id → ssh.channelFind id = none ∧
    adjusts id ssh.wire + adjusts id ssh.outputBuffer = 0 ∧ takenOf id ssh.taken = 0
  openedLt : ∀ id w, (id, w) ∈ ssh.opened → id < ssh.nextChannel
  initial : ∀ id w ch, (id, w) ∈ ssh.opened → ssh.channelFind id = some ch →
    ch.inputBuffer.bufferSz = w
  balanced : ∀ id ch, ssh.channelFind id = some ch → Balanced ssh ch

/-- What a step may do to the channel `id`: nothing, remove it, or leave it balanced. -/
def Kept (ssh ssh' : Session) (id : Nat) : Prop :=
  ((ssh'.channelFind id = ssh.channelFind id ∨ ssh'.channelFind id = none) ∧
    adjusts id ssh'.wire + adjusts id ssh'.outputBuffer =
      adjusts id ssh.wire + adjusts id ssh.outputBuffer ∧
    takenOf id ssh'.taken = takenOf id ssh.taken) ∨
  ∃ ch ch', ssh.channelFind id = some ch ∧ ssh'.channelFind id = some ch' ∧
    ch'.inputBuffer.bufferSz = ch.inputBuffer.bufferSz ∧ Balanced ssh' ch'

theorem Inv.update {ssh ssh' : Session} (h : Inv ssh) (hnext : ssh'.nextChannel = ssh.nextChannel)
    (hopened : ssh'.opened = ssh.opened) (hkept : ∀ id, Kept ssh ssh' id) : Inv ssh' := by
  refine ⟨?_, ?_, ?_, ?_⟩
  · intro id hid
    rw [hnext] at hid
    obtain ⟨hnone, hzero, htaken⟩ := h.fresh id hid
    rcases hkept id with ⟨hfind, hadj, htk⟩ | ⟨ch, -, hsome, -⟩
    · rw [hnone, or_self] at hfind
      exact ⟨hfind, hadj.trans hzero, htk.trans htaken⟩
    · rw [hnone] at hsome
      cases hsome
  · intro id w hw
    rw [hopened] at hw
    rw [hnext]
    exact h.openedLt id w hw
  · intro id w ch' hw hfind'
    rw [hopened] at hw
    rcases hkept id with ⟨hfind | hnone, -, -⟩ | ⟨ch, c, hsome, hc, hsz, -⟩
    · exact h.initial id w ch' hw (hfind ▸ hfind')
    · rw [hnone] at hfind'
      cases hfind'
    · rw [hc] at hfind'
      cases hfind'
      exact hsz.trans (h.initial id w ch hw hsome)
  · intro id ch' hfind'
    rcases hkept id with ⟨hfind | hnone, hadj, htk⟩ | ⟨ch, c, hsome, hc, -, hbal⟩
    · have hb := h.balanced id ch' (hfind ▸ hfind')
      have hid : ch'.channel = id := find_channel hfind'
      refine ⟨hb.idx, hb.extIdx, hb.room, ?_⟩
      have hl := hb.ledger
      rw [hid] at hl ⊢
      omega
    · rw [hnone] at hfind'
      cases hfind'
    · rw [hc] at hfind'
      cases hfind'
      exact hbal

theorem Inv.moved {ssh ssh' : Session} (h : Inv ssh) (hm : Moved ssh ssh') : Inv ssh' := by
  refine h.update hm.next hm.opened fun id => .inl ⟨.inl (hm.find id), hm.adjusts id, ?_⟩
  rw [hm.taken]

theorem takenOf_take (ssh : Session) (id c n : Nat) :
    takenOf id (ssh.take c n).taken = takenOf id ssh.taken + (if c = id then n else 0) := by
  simp [takenOf, Session.take, credit]
  omega

theorem Inv.put {ssh : Session} (h : Inv ssh) {ch ch' : Channel} {n : Nat}
    (hfind : ssh.channelFind ch'.channel = some ch)
    (hsz : ch'.inputBuffer.bufferSz = ch.inputBuffer.bufferSz)
    (hbal : Balanced ((ssh.put ch').take ch'.channel n) ch') :
    Inv ((ssh.put ch').take ch'.channel n) := by
  refine h.update rfl rfl fun id => ?_
  by_cases hid : id = ch'.channel
  · subst hid
    exact .inr ⟨ch, ch', hfind, find_put_self ch' hfind, hsz, hbal⟩
  · refine .inl ⟨.inl (find_put_other ssh ch' hid), rfl, ?_⟩
    rw [takenOf_take, if_neg (Ne.symm hid)]
    rfl

/-- A credit from a session whose other channels are balanced leaves it balanced, if it closes the
books of its own channel. -/
theorem Inv.credited {ssh mid ssh' : Session} (h : Inv ssh) {ch old : Channel} {amount : Nat}
    (hcredited : Credited mid ssh' ch amount) (hfind : ssh.channelFind ch.channel = some old)
    (hsz : ch.inputBuffer.bufferSz = old.inputBuffer.bufferSz)
    (hnext : mid.nextChannel = ssh.nextChannel) (hopened : mid.opened = ssh.opened)
    (hothers : ∀ id, id ≠ ch.channel → mid.channelFind id = ssh.channelFind id ∧
      adjusts id mid.wire + adjusts id mid.outputBuffer =
        adjusts id ssh.wire + adjusts id ssh.outputBuffer ∧
      takenOf id mid.taken = takenOf id ssh.taken)
    (hidx : ch.inputBuffer.idx ≤ ch.inputBuffer.length)
    (hext : ch.extDataBuffer.idx ≤ ch.extDataBuffer.length)
    (hroom : ch.windowSz + ch.inputBuffer.length + ch.extDataBuffer.unread =
      ch.inputBuffer.bufferSz)
    (hledger : ch.inputBuffer.bufferSz + (ch.pendingWindowAdjust + amount) +
      (adjusts ch.channel mid.wire + adjusts ch.channel mid.outputBuffer) =
        ch.windowSz + takenOf ch.channel mid.taken) : Inv ssh' := by
  refine h.update (hcredited.next.trans hnext) (hcredited.opened.trans hopened) fun id => ?_
  by_cases hid : id = ch.channel
  · subst hid
    obtain ⟨owed, hfound, howed⟩ := hcredited.found
    refine .inr ⟨old, _, hfind, hfound, hsz, ⟨hidx, hext, hroom, ?_⟩⟩
    simp only [hcredited.taken]
    omega
  · obtain ⟨hfind', hadj⟩ := hcredited.others id hid
    obtain ⟨hmid, hmadj, hmtk⟩ := hothers id hid
    refine .inl ⟨.inl (hfind'.trans hmid), hadj.trans hmadj, ?_⟩
    rw [hcredited.taken, hmtk]

/-- No octets for an open channel come after a disconnect. -/
def InSession (ssh : Session) (id dataSz : Nat) : Prop :=
  ssh.disconnected = true → dataSz = 0 ∨ ssh.channelFind id = none

/-- The condition on a step: a credit is clean, a packet that a failed send or a purge throws
away is no WINDOW_ADJUST, and data comes before a disconnect. -/
def Clean (ssh : Session) : Event → Prop
  | .channelData id dataSz => InSession ssh id dataSz
  | .channelExtendedData id dataTypeCode dataSz env => InSession ssh id dataSz ∧
    (ssh.disconnected = false → dataTypeCode ≠ channelExtendedDataStderr →
      ∀ ch, ssh.channelFind id = some ch → CleanCredit ssh ch env dataSz)
  | .channelRead id bufSz env => ∀ ch, ssh.channelFind id = some ch →
    ch.inputBuffer.length > ch.inputBuffer.bufferSz / 2 ∨ ch.windowSz = 0 →
      CleanCredit ssh ch env (ch.inputBuffer.idx + min bufSz ch.inputBuffer.unread)
  | .channelReadExt id bufSz env => ∀ ch, ssh.channelFind id = some ch →
    CleanCredit ssh ch env (min bufSz ch.extDataBuffer.unread)
  | .creditPending id env => ∀ ch, ssh.channelFind id = some ch → CleanCredit ssh ch env 0
  | .sendOther purges env => (.general ∈ env.io → NoQueued ssh) ∧
    (purges = true → env.bundles = false ∨ (∃ a ∈ env.io, a.keeps = true) → NoQueued ssh)
  | .sendPacket env => .general ∈ env.io → NoQueued ssh
  | _ => True

theorem channelNew_inv {ssh : Session} (h : Inv ssh) (w m : Nat) : Inv (ssh.channelNew w m) := by
  have hfind : ∀ id, (ssh.channelNew w m).channelFind id = if id = ssh.nextChannel then
      some { channel := ssh.nextChannel, windowSz := w, maxPacketSz := m,
             inputBuffer := { bufferSz := w } } else ssh.channelFind id := by
    intro id
    unfold Session.channelFind Session.channelNew
    simp only [List.find?_append]
    by_cases hid : id = ssh.nextChannel
    · have hnone := (h.fresh id (by omega)).1
      unfold Session.channelFind at hnone
      rw [hnone, if_pos hid, hid]
      simp
    · simp [hid, Ne.symm hid]
  refine ⟨?_, ?_, ?_, ?_⟩
  · intro id hid
    have hlt : ssh.nextChannel + 1 ≤ id := hid
    have hne : id ≠ ssh.nextChannel := by omega
    rw [hfind, if_neg hne]
    exact h.fresh id (by omega)
  · intro id v hv
    have hlt : id < ssh.nextChannel + 1 := by
      rcases List.mem_cons.mp hv with hv | hv
      · cases hv
        omega
      · have := h.openedLt id v hv
        omega
    exact hlt
  · intro id v ch hv hch
    rw [hfind] at hch
    by_cases hid : id = ssh.nextChannel
    · rw [if_pos hid] at hch
      cases hch
      rcases List.mem_cons.mp hv with hv | hv
      · cases hv
        rfl
      · have := h.openedLt id v hv
        omega
    · rw [if_neg hid] at hch
      rcases List.mem_cons.mp hv with hv | hv
      · cases hv
        exact absurd rfl hid
      · exact h.initial id v ch hv hch
  · intro id ch hch
    rw [hfind] at hch
    by_cases hid : id = ssh.nextChannel
    · rw [if_pos hid] at hch
      cases hch
      obtain ⟨-, hzero, htaken⟩ := h.fresh ssh.nextChannel (Nat.le_refl _)
      refine ⟨Nat.le_refl _, Nat.le_refl _, by simp [ChanBuffer.unread], ?_⟩
      simp only [Session.channelNew]
      omega
    · rw [if_neg hid] at hch
      have hb := h.balanced id ch hch
      exact ⟨hb.idx, hb.extIdx, hb.room, hb.ledger⟩

theorem channelRemove_inv {ssh : Session} (h : Inv ssh) (id : Nat) :
    Inv (step ssh (.channelRemove id)) := by
  refine h.update rfl rfl fun id' => .inl ⟨?_, rfl, rfl⟩
  simp only [step, Session.channelFind]
  by_cases hid : id' = id
  · right
    subst hid
    rw [List.find?_eq_none]
    intro ch hch
    have := (List.mem_filter.mp hch).2
    simp_all
  · left
    rw [List.find?_filter]
    congr 1
    funext ch
    by_cases hch : ch.channel = id'
    · simp [hch, hid]
    · simp [hch]

theorem takenOf_self (ssh : Session) (id n : Nat) :
    takenOf id (ssh.take id n).taken = takenOf id ssh.taken + n := by
  rw [takenOf_take, if_pos rfl]

theorem doChannelData_inv {ssh : Session} (h : Inv ssh) (id dataSz : Nat) :
    Inv (ssh.doChannelData id dataSz).2 := by
  unfold Session.doChannelData
  split
  · exact h
  · rename_i ch hfind
    split
    · exact h
    · unfold Session.channelPutData
      simp only
      split
      · exact h
      · rename_i ch' hput
        have hid := find_channel hfind
        have hb := h.balanced id ch hfind
        split at hput
        · cases hput
        · rename_i hwin
          split at hput
          · cases hput
            subst hid
            refine h.put hfind rfl ⟨?_, hb.extIdx, ?_, ?_⟩
            · have := hb.idx
              simp only
              omega
            · have := hb.room
              simp only
              omega
            · have := hb.ledger
              simp only [takenOf_self]
              simp only [Session.take, Session.put]
              omega
          · cases hput

theorem doChannelExtendedData_inv {ssh : Session} (h : Inv ssh) {env : SendEnv}
    {id dataTypeCode dataSz : Nat} (hclean : dataTypeCode ≠ channelExtendedDataStderr →
      ∀ ch, ssh.channelFind id = some ch → CleanCredit ssh ch env dataSz) :
    Inv (ssh.doChannelExtendedData env id dataTypeCode dataSz).2 := by
  unfold Session.doChannelExtendedData
  split
  · exact h
  · rename_i ch hfind
    have hid := find_channel hfind
    have hb := h.balanced id ch hfind
    split
    · exact h
    split
    · exact h
    rename_i hwin
    split
    · subst hid
      refine h.put hfind rfl ⟨hb.idx, ?_, ?_, ?_⟩
      · simp [Session.appendBuffer]
      · have := hb.room
        simp only [Session.appendBuffer, ChanBuffer.unread] at this ⊢
        omega
      · have := hb.ledger
        simp only [takenOf_self]
        simp only [Session.take, Session.put]
        omega
    · rename_i hcode
      subst hid
      have hcredit := hclean hcode ch hfind
      have hcredited : Credited (ssh.take ch.channel dataSz)
          ((ssh.take ch.channel dataSz).channelCreditWindow env ch dataSz).2 ch dataSz :=
        channelCreditWindow_credited hfind hcredit
      refine h.credited hcredited hfind rfl rfl rfl (fun id' hne => ⟨rfl, rfl, ?_⟩) hb.idx hb.extIdx
        hb.room ?_
      · rw [takenOf_take, if_neg (Ne.symm hne)]
        rfl
      · have := hb.ledger
        rw [takenOf_self]
        simp only [Session.take]
        omega

theorem dropData_inv {ssh : Session} (h : Inv ssh) {id dataSz : Nat}
    (hclean : dataSz = 0 ∨ ssh.channelFind id = none) : Inv (ssh.dropData id dataSz) := by
  unfold Session.dropData
  split
  · rename_i hsome
    rcases hclean with hzero | hnone
    · refine h.update rfl rfl fun id' => .inl ⟨.inl rfl, rfl, ?_⟩
      rw [takenOf_take, hzero, ite_self, Nat.add_zero]
    · rw [hnone] at hsome
      cases hsome
  · exact h

theorem creditPending_inv {ssh : Session} (h : Inv ssh) {env : SendEnv} {id : Nat}
    (hclean : Clean ssh (.creditPending id env)) : Inv (ssh.creditPending env id) := by
  unfold Session.creditPending
  split
  · exact h
  · rename_i ch hfind
    split
    · exact h
    · have hid := find_channel hfind
      have hb := h.balanced id ch hfind
      have hcredit := hclean ch hfind
      subst hid
      exact h.credited (channelCreditWindow_credited hfind hcredit) hfind rfl rfl rfl
        (fun id' hne => ⟨rfl, rfl, rfl⟩) hb.idx hb.extIdx hb.room hb.ledger

theorem channelReadExt_inv {ssh : Session} (h : Inv ssh) {env : SendEnv} {id bufSz : Nat}
    (hclean : Clean ssh (.channelReadExt id bufSz env)) : Inv (ssh.channelReadExt env id bufSz) := by
  unfold Session.channelReadExt
  split
  · exact h
  · rename_i ch hfind
    simp only
    split
    · have hid := find_channel hfind
      have hb := h.balanced id ch hfind
      have hcredit := hclean ch hfind
      subst hid
      generalize hch' : ({ ch with
        extDataBuffer := Session.shrunk (Session.bufferTake ch.extDataBuffer
          (min bufSz ch.extDataBuffer.unread))
        windowSz := ch.windowSz + min bufSz ch.extDataBuffer.unread } : Channel) = ch'
      have hsame : ch'.channel = ch.channel := by rw [← hch']
      have hfind' : (ssh.put ch').channelFind ch'.channel = some ch' :=
        find_put_self ch' (hsame ▸ hfind)
      have hcredited := @channelCreditWindow_credited (ssh.put ch') ch' env
        (min bufSz ch.extDataBuffer.unread) hfind' (by rw [← hch']; exact hcredit)
      have hextIdx := hb.extIdx
      have hsz : ch'.extDataBuffer.idx ≤ ch'.extDataBuffer.length ∧ ch'.extDataBuffer.unread =
          ch.extDataBuffer.unread - min bufSz ch.extDataBuffer.unread := by
        rw [← hch']
        unfold Session.shrunk Session.bufferTake ChanBuffer.unread
        simp only
        split <;> simp only <;> omega
      refine h.credited hcredited (hsame ▸ hfind) (by rw [← hch']) rfl rfl
        (fun id' hne => ⟨find_put_other ssh ch' hne, rfl, rfl⟩) ?_ hsz.1 ?_ ?_
      · rw [← hch']
        exact hb.idx
      · have := hb.room
        rw [hsz.2, ← hch']
        simp only
        omega
      · have := hb.ledger
        rw [← hch']
        simp only [Session.put]
        omega
    · exact h

theorem Credited.grow {mid ssh' : Session} {ch : Channel} {amount : Nat}
    (h : Credited mid ssh' ch amount) (n : Nat) :
    ∃ owed, ssh'.channelFind ch.channel = some { ch with pendingWindowAdjust := owed } ∧
      Credited (mid.put { ch with windowSz := ch.windowSz + n })
        (ssh'.put { ch with windowSz := ch.windowSz + n, pendingWindowAdjust := owed })
        { ch with windowSz := ch.windowSz + n } amount := by
  obtain ⟨owed, hfound, howed⟩ := h.found
  refine ⟨owed, hfound, ⟨⟨owed, find_put_self _ hfound, howed⟩, fun id hid => ⟨?_, ?_⟩, h.next,
    h.taken, h.opened⟩⟩
  · have hput := find_put_other ssh'
      { ch with windowSz := ch.windowSz + n, pendingWindowAdjust := owed } hid
    have hmid := find_put_other mid { ch with windowSz := ch.windowSz + n } hid
    exact hput.trans ((h.others id hid).1.trans hmid.symm)
  · exact (h.others id hid).2

theorem compact_spec {b : ChanBuffer} (h : b.idx ≤ b.length) :
    b.compact.idx ≤ b.compact.length ∧ b.compact.bufferSz = b.bufferSz ∧
      b.compact.length + b.idx = b.length := by
  unfold ChanBuffer.compact ChanBuffer.unread
  split
  · exact ⟨Nat.zero_le _, rfl, Nat.sub_add_cancel h⟩
  · refine ⟨h, rfl, ?_⟩
    omega

/-- The channel `ch` is the one in the session, less what was just read from its buffer. -/
theorem updateChannelWindow_inv {ssh : Session} (h : Inv ssh) {env : SendEnv} {ch old : Channel}
    (hfind : ssh.channelFind ch.channel = some old)
    (hsz : ch.inputBuffer.bufferSz = old.inputBuffer.bufferSz) (hb : Balanced ssh ch)
    (hclean : ch.inputBuffer.length > ch.inputBuffer.bufferSz / 2 ∨ ch.windowSz = 0 →
      CleanCredit ssh ch env ch.inputBuffer.idx) :
    Inv (ssh.updateChannelWindow env ch) := by
  obtain ⟨hidx, hbuf, hlen⟩ := compact_spec hb.idx
  have hroom := hb.room
  have hledger := hb.ledger
  unfold Session.updateChannelWindow
  simp only
  split
  · rename_i hfire
    have hput := find_put_self { ch with inputBuffer := ch.inputBuffer.compact } hfind
    have hcredited := channelCreditWindow_credited hput (hclean hfire)
    obtain ⟨owed, hfound, hgrown⟩ := hcredited.grow ch.inputBuffer.idx
    rw [hfound]
    refine h.credited hgrown hfind (hbuf.trans hsz) rfl rfl (fun id hid => ?_) hidx hb.extIdx ?_ ?_
    · have hother := find_put_other (ssh.put { ch with inputBuffer := ch.inputBuffer.compact })
        { ch with
          inputBuffer := ch.inputBuffer.compact
          windowSz := ch.windowSz + ch.inputBuffer.idx } hid
      exact ⟨hother.trans (find_put_other ssh _ hid), rfl, rfl⟩
    · simp only [hbuf]
      omega
    · simp only [hbuf, Session.put]
      omega
  · refine h.update rfl rfl fun id => ?_
    by_cases hid : id = ch.channel
    · subst hid
      exact .inr ⟨old, ch, hfind, find_put_self ch hfind, hsz, ⟨hb.idx, hb.extIdx, hroom, hledger⟩⟩
    · exact .inl ⟨.inl (find_put_other ssh ch hid), rfl, rfl⟩

theorem channelRead_inv {ssh : Session} (h : Inv ssh) {env : SendEnv} {id bufSz : Nat}
    (hclean : Clean ssh (.channelRead id bufSz env)) : Inv (ssh.channelRead env id bufSz) := by
  unfold Session.channelRead
  split
  · exact h
  · rename_i ch hfind
    have hid := find_channel hfind
    have hb := h.balanced id ch hfind
    have hidx := hb.idx
    subst hid
    refine updateChannelWindow_inv h hfind rfl ⟨?_, hb.extIdx, hb.room, hb.ledger⟩ (hclean ch hfind)
    simp only [Session.bufferTake, ChanBuffer.unread]
    omega

theorem adjusts_queue_other (ssh : Session) (id sz : Nat) :
    adjusts id (ssh.queue { left := sz }).outputBuffer = adjusts id ssh.outputBuffer := by
  simp [Session.queue, adjusts, credit]

theorem Inv.purge {ssh : Session} (h : Inv ssh)
    (hzero : ∀ id, adjusts id ssh.outputBuffer = 0) : Inv ssh.purgePacket := by
  refine h.update rfl rfl fun id => .inl ⟨.inl rfl, ?_, rfl⟩
  rw [hzero id]
  rfl

theorem sendOther_inv {ssh : Session} (h : Inv ssh) {env : SendEnv} {purges : Bool}
    (hclean : Clean ssh (.sendOther purges env)) : Inv (ssh.sendOther env purges) := by
  obtain ⟨hgen, hpurge⟩ := hclean
  unfold Session.sendOther
  by_cases hbundles : env.bundles = true
  · rw [if_pos hbundles]
    have hqueued : Inv (ssh.queue { left := env.packetSz }) := by
      refine h.update rfl rfl fun id => .inl ⟨.inl rfl, ?_, rfl⟩
      rw [adjusts_queue_other]
      rfl
    have hmoved := @sendPacket_moved env (ssh.queue { left := env.packetSz }) (by
      intro hmem id
      rw [adjusts_queue_other]
      exact (hgen hmem).adjusts id)
    rcases hsend : (ssh.queue { left := env.packetSz }).sendPacket env with ⟨ret, ssh'⟩
    rw [hsend] at hmoved
    have hsent := hqueued.moved hmoved
    split
    · rename_i heq
      cases heq
      exact hsent
    · rename_i heq
      cases heq
      exact hsent
    · rename_i e ssh'' hne heq
      cases heq
      split
      · rename_i hp
        -- a failed send that purges: nothing but its own packet was in the buffer
        have hno : NoQueued ssh := by
          by_cases hkeeps : ∃ a ∈ env.io, a.keeps = true
          · exact hpurge hp (.inr hkeeps)
          · by_cases hmem : .general ∈ env.io
            · exact hgen hmem
            · have hblocks := @sendPacket_error env (ssh.queue { left := env.packetSz }) e
                (by simpa using hkeeps) hmem (congrArg Prod.fst hsend)
              exact absurd hblocks hne
        refine hsent.purge fun id => ?_
        have hadj := hmoved.adjusts id
        have hgrows := hmoved.grows id
        rw [adjusts_queue_other, hno.adjusts id] at hadj
        omega
      · exact hsent
  · rw [if_neg hbundles]
    split
    · rename_i hp
      exact h.purge (hpurge hp (.inl (by simpa using hbundles))).adjusts
    · exact h

theorem step_inv (ssh : Session) (ev : Event) (h : Inv ssh) (hclean : Clean ssh ev) :
    Inv (step ssh ev) := by
  cases ev with
  | channelNew w m => exact channelNew_inv h w m
  | channelRemove id => exact channelRemove_inv h id
  | channelData id dataSz =>
    simp only [step]
    by_cases hdis : ssh.disconnected = true
    · rw [if_pos hdis]
      exact dropData_inv h (hclean hdis)
    · rw [if_neg hdis]
      exact doChannelData_inv h id dataSz
  | channelExtendedData id code dataSz env =>
    simp only [step]
    by_cases hdis : ssh.disconnected = true
    · rw [if_pos hdis]
      exact dropData_inv h (hclean.1 hdis)
    · rw [if_neg hdis]
      exact doChannelExtendedData_inv h (hclean.2 (Bool.eq_false_of_not_eq_true hdis))
  | channelRead id bufSz env => exact channelRead_inv h hclean
  | channelReadExt id bufSz env => exact channelReadExt_inv h hclean
  | creditPending id env => exact creditPending_inv h hclean
  | keying b => exact h.update rfl rfl fun id => .inl ⟨.inl rfl, rfl, rfl⟩
  | disconnect => exact h.update rfl rfl fun id => .inl ⟨.inl rfl, rfl, rfl⟩
  | sendOther purges env => exact sendOther_inv h hclean
  | sendPacket env => exact h.moved (sendPacket_moved fun hmem => (hclean hmem).adjusts)

theorem inv_start : Inv {} := by
  refine ⟨fun id _ => ⟨rfl, rfl, rfl⟩, ?_, ?_, ?_⟩
  · intro id w hw
    cases hw
  · intro id w ch hw
    cases hw
  · intro id ch hch
    cases hch

/-- Window conservation: the window and what is buffered make up the initial window `w`, and the
window that the peer can believe to have is what is left of it here less what is still owed. -/
structure Conserved (ssh : Session) : Prop where
  room : ∀ id w ch, (id, w) ∈ ssh.opened → ssh.channelFind id = some ch →
    ch.windowSz + ch.inputBuffer.length + ch.extDataBuffer.unread = w
  peer : ∀ id w ch, (id, w) ∈ ssh.opened → ssh.channelFind id = some ch →
    (w : ℤ) + adjusts id ssh.wire - takenOf id ssh.taken =
      ch.windowSz - ch.pendingWindowAdjust - adjusts id ssh.outputBuffer

theorem Inv.conserved {ssh : Session} (h : Inv ssh) : Conserved ssh := by
  refine ⟨?_, ?_⟩
  · intro id w ch hw hfind
    exact (h.balanced id ch hfind).room.trans (h.initial id w ch hw hfind)
  · intro id w ch hw hfind
    have hledger := (h.balanced id ch hfind).ledger
    have hsz := h.initial id w ch hw hfind
    rw [find_channel hfind] at hledger
    omega

/-- Data within the window is taken until a disconnect, stderr or not. Only `ChannelPutData`
refuses octets it has not got: a full buffer refuses the empty string. -/
def AcceptsWindow (ssh : Session) : Prop :=
  ssh.disconnected = false → ∀ id ch dataSz, ssh.channelFind id = some ch → dataSz ≤ ch.windowSz → dataSz ≤ ch.maxPacketSz →
    (dataSz = 0 → ch.inputBuffer.length < ch.inputBuffer.bufferSz) →
    (ssh.doChannelData id dataSz).1 = .ok () ∧
      ∀ env, (ssh.doChannelExtendedData env id channelExtendedDataStderr dataSz).1 = .ok ()

theorem Inv.acceptsWindow {ssh : Session} (h : Inv ssh) : AcceptsWindow ssh := by
  intro _ id ch dataSz hfind hwin hmax hzero
  have hroom := (h.balanced id ch hfind).room
  have hlt : ch.inputBuffer.length < ch.inputBuffer.bufferSz := by
    by_cases hd : dataSz = 0
    · exact hzero hd
    · omega
  have hfits : ch.inputBuffer.length + dataSz ≤ ch.inputBuffer.bufferSz := by omega
  refine ⟨?_, fun env => ?_⟩
  · simp [Session.doChannelData, hfind, Session.channelPutData, Nat.not_lt.mpr hmax,
      Nat.not_lt.mpr hwin, hlt, hfits]
  · simp [Session.doChannelExtendedData, hfind, Nat.not_lt.mpr hmax, Nat.not_lt.mpr hwin]

/-- In a run whose steps are all clean every state conserves every channel's window and takes the
data that is within it. -/
theorem window_conserved (es : List Event) (hclean : Runs.Meets step Clean {} es) :
    ∀ ssh ∈ Runs.states step {} es, Conserved ssh ∧ AcceptsWindow ssh := by
  intro ssh hssh
  have hinv := Runs.invariant step_inv inv_start hclean ssh hssh
  exact ⟨hinv.conserved, hinv.acceptsWindow⟩

/-- A read credits while the transport blocks; the credit is out after the next flush. -/
def blockedRun : List Event :=
  [.channelNew 100 100, .channelData 0 60, .channelRead 0 60 { io := [.wantWrite] },
    .sendPacket { io := [.sent 32] }]

theorem window_conserved_blocked :
    Conserved (blockedRun.foldl step {}) ∧ AcceptsWindow (blockedRun.foldl step {}) := by
  refine window_conserved blockedRun ?_ _ (Runs.foldl_mem_states _ _)
  unfold blockedRun
  intro p hp
  simp only [Runs.steps, List.mem_cons, List.not_mem_nil, or_false] at hp
  rcases hp with rfl | rfl | rfl | rfl
  · trivial
  · intro hdis
    cases hdis
  · intro ch hch _
    cases hch
    refine ⟨by decide, .inr (.inr (.inr (.inr ⟨?_, ?_⟩)))⟩
    · decide
    · intro h
      cases h with
      | tail _ h => cases h
  · intro h
    cases h with
    | tail _ h => cases h

/-- A send that times out keeps its packet in the buffer and its credit on the channel: the peer
gets the 60 octets that it sent twice over. -/
theorem window_credit_delivered_twice :
    ¬ ∀ es, ∀ ssh ∈ Runs.states step {} es, Conserved ssh := by
  intro h
  have hlast := (h [.channelNew 100 100, .channelData 0 60, .channelRead 0 60 { io := [.timeout] },
    .sendPacket { io := [.sent 32] }, .creditPending 0 { io := [.sent 32] }]
    { channelList := [{ channel := 0, windowSz := 100, maxPacketSz := 100,
                        inputBuffer := { bufferSz := 100 } }]
      nextChannel := 1
      wire := [⟨some (0, 60), 32⟩, ⟨some (0, 60), 32⟩]
      taken := [(0, 60)]
      opened := [(0, 100)] } (by decide)).peer 0 100 _ (by decide) rfl
  exact absurd hlast (by decide)

end WolfSsh.Window
