import WolfSsh.Packet
import WolfSsh.Lib.Runs

/-! Sequence numbers and AEAD nonces of one direction of traffic: the counters that a sender moves
when it bundles packets and changes keys, and those that the receiver moves when it processes
them. -/

namespace WolfSsh.Lockstep

open WolfSsh.Packet (aeadIncrementExpIv aeadCarry aeadImpIvSz aeadExpIvSz)

inductive Protection where
  | none | mac | aead
deriving DecidableEq, Repr

/-- What the counters need to know of a key set. -/
structure KeySet where
  protection : Protection
  iv : Bytes
  ivSz : protection = .aead → iv.length = aeadNonceSz
deriving DecidableEq

structure Counters where
  seq : Nat
  keys : KeySet
deriving DecidableEq

/-- A packet with the counters it was bundled under; a NEWKEYS comes with the key set of the
exchange, which both sides have derived. -/
structure Bundled where
  seq : Nat
  keys : KeySet
  newKeys : Option KeySet
deriving DecidableEq

/-- A packet with the counters that the receiver had for it. -/
structure Processed where
  packet : Bundled
  peerSeq : Nat
  peerKeys : KeySet
deriving DecidableEq

/-- Both ends of a direction and the packets between them. `held` is the packet at
`PROCESS_PACKET`; `dead` is an input that cannot be resynced. -/
structure State where
  useStrictKex : Bool
  tx : Counters
  outputBuffer : List Bundled := []
  stream : List Bundled := []
  rx : Counters
  held : Option Bundled := none
  dead : Bool := false
  bundled : List Bundled := []
  processed : List Processed := []

theorem aeadCarry_length (bs : Bytes) : (aeadCarry bs).2.length = bs.length := by
  induction bs with
  | nil => rfl
  | cons b bs ih => simp [aeadCarry, ih]

theorem aeadIncrementExpIv_length {iv : Bytes} (h : iv.length = aeadNonceSz) :
    (aeadIncrementExpIv iv).length = aeadNonceSz := by
  simp only [aeadIncrementExpIv, List.length_append, List.length_take, List.length_drop,
    aeadCarry_length, h]
  decide

def KeySet.used (k : KeySet) : KeySet :=
  if h : k.protection = .aead then
    { k with iv := aeadIncrementExpIv k.iv, ivSz := fun _ => aeadIncrementExpIv_length (k.ivSz h) }
  else k

def nextSeq (seq : Nat) : Nat := (seq + 1) % 2 ^ 32

namespace State

def bundlePacket (newKeys : Option KeySet) (s : State) : State :=
  let p : Bundled := { seq := s.tx.seq, keys := s.tx.keys, newKeys := newKeys }
  { s with
    tx := { seq := nextSeq s.tx.seq, keys := s.tx.keys.used }
    outputBuffer := s.outputBuffer ++ [p]
    bundled := s.bundled ++ [p] }

/-- `EncryptAead` moves the nonce before `BundlePacket` drops the packet. -/
def bundleFails (s : State) : State := { s with tx := { s.tx with keys := s.tx.keys.used } }

def sendNewKeys (keys : KeySet) (s : State) : State :=
  let s := s.bundlePacket (some keys)
  { s with tx := { seq := if s.useStrictKex then 0 else s.tx.seq, keys := keys } }

/-- The MAC covers the sequence number and the AEAD seal is under the nonce. -/
def opens (rx : Counters) (p : Bundled) : Bool :=
  rx.keys.protection = p.keys.protection &&
    match rx.keys.protection with
    | .none => true
    | .mac => rx.seq = p.seq
    | .aead => rx.keys.iv = p.keys.iv

end State

/-- How `DoPacket` leaves a packet: pending, or stepped over, and then whether a NEWKEYS has
installed its keys. -/
inductive Outcome where
  | held
  | consumed (installs : Bool)
deriving DecidableEq, Repr

namespace State

def doPacket (o : Outcome) (p : Bundled) (s : State) : State :=
  match o with
  | .held => { s with held := some p }
  | .consumed installs =>
    match p.newKeys, installs with
    | some keys, true =>
      { s with
        held := none
        rx := { seq := if s.useStrictKex then 0 else nextSeq s.rx.seq, keys := keys } }
    | _, _ => { s with held := none, rx := { s.rx with seq := nextSeq s.rx.seq } }

def doReceive (o : Outcome) (s : State) : State :=
  if s.dead then s
  else
    match s.held with
    | some p => s.doPacket o p
    | none =>
      match s.stream with
      | [] => s
      | p :: stream =>
        let s' : State := { s with
          stream := stream
          processed := s.processed ++ [⟨p, s.rx.seq, s.rx.keys⟩]
          rx := { s.rx with keys := s.rx.keys.used } }
        if opens s.rx p then s'.doPacket o p else { s' with dead := true }

end State

inductive Event where
  | bundle
  | bundleFails
  | sendNewKeys (keys : KeySet)
  | flush (n : Nat)
  | discard
  | doReceive (o : Outcome)
  | dropHeld

/-- A flush lets whole packets out, a general error or a purge drops what is bundled, and
`dropHeld` is the receiver's `wolfSSH_accept` or `wolfSSH_connect` that has sent its pending output
and steps over the packet at `PROCESS_PACKET`. -/
def step (s : State) : Event → State
  | .bundle => s.bundlePacket none
  | .bundleFails => s.bundleFails
  | .sendNewKeys keys => s.sendNewKeys keys
  | .flush n =>
    { s with
      stream := s.stream ++ s.outputBuffer.take n
      outputBuffer := s.outputBuffer.drop n }
  | .discard => { s with outputBuffer := [] }
  | .doReceive o => s.doReceive o
  | .dropHeld => { s with held := none }

/-! The nonce as a counter. -/

theorem aeadCarry_value (bs : Bytes) :
    (aeadCarry bs).1 * 256 ^ bs.length + Octets.value (aeadCarry bs).2 = Octets.value bs + 1 ∧
      (aeadCarry bs).1 ≤ 1 := by
  induction bs with
  | nil => simp [aeadCarry, Octets.value]
  | cons b bs ih =>
    obtain ⟨hvalue, hcarry⟩ := ih
    have hb := b.toNat_lt
    have hlen := aeadCarry_length bs
    have hsum : b.toNat + (aeadCarry bs).1 < 512 := by omega
    have hbyte : (UInt8.ofNat (b.toNat + (aeadCarry bs).1)).toNat =
        (b.toNat + (aeadCarry bs).1) % 256 := UInt8.toNat_ofNat'
    have hdiv : (b.toNat + (aeadCarry bs).1) / 256 % 2 = (b.toNat + (aeadCarry bs).1) / 256 := by
      omega
    have hdm := Nat.div_add_mod (b.toNat + (aeadCarry bs).1) 256
    simp only [aeadCarry, Octets.value, List.length_cons, hbyte, hdiv, hlen, pow_succ]
    refine ⟨?_, by omega⟩
    generalize (b.toNat + (aeadCarry bs).1) / 256 = q at *
    generalize (b.toNat + (aeadCarry bs).1) % 256 = m at *
    have hexpand : q * (256 ^ bs.length * 256) + m * 256 ^ bs.length =
        (b.toNat + (aeadCarry bs).1) * 256 ^ bs.length := by
      rw [← hdm]
      ring
    rw [add_mul] at hexpand
    omega

/-- The last eight octets of a nonce count up modulo `2 ^ 64`, and the first four stay. -/
theorem aeadIncrementExpIv_spec {iv : Bytes} (h : iv.length = aeadNonceSz) :
    (aeadIncrementExpIv iv).take aeadImpIvSz = iv.take aeadImpIvSz ∧
      Octets.value ((aeadIncrementExpIv iv).drop aeadImpIvSz) =
        (Octets.value (iv.drop aeadImpIvSz) + 1) % 2 ^ 64 := by
  have hrest : iv.drop (aeadImpIvSz + aeadExpIvSz) = [] := List.drop_eq_nil_of_le (by rw [h]; decide)
  have hexp : (iv.drop aeadImpIvSz).take aeadExpIvSz = iv.drop aeadImpIvSz :=
    List.take_of_length_le (by rw [List.length_drop, h]; decide)
  have hlen : (iv.drop aeadImpIvSz).length = 8 := by rw [List.length_drop, h]; rfl
  have hfirst : (iv.take aeadImpIvSz).length = aeadImpIvSz := by rw [List.length_take, h]; rfl
  obtain ⟨hvalue, hcarry⟩ := aeadCarry_value (iv.drop aeadImpIvSz)
  have hlt := Octets.value_lt (aeadCarry (iv.drop aeadImpIvSz)).2
  rw [aeadCarry_length, hlen] at hlt
  rw [hlen] at hvalue
  unfold aeadIncrementExpIv
  rw [hrest, hexp, List.append_nil]
  refine ⟨List.take_left' hfirst, ?_⟩
  rw [List.drop_left' hfirst, ← hvalue]
  omega

@[simp] theorem used_protection (k : KeySet) : k.used.protection = k.protection := by
  unfold KeySet.used
  split <;> rfl

/-- After `n` packets under an AEAD key set. -/
theorem used_iterate {k : KeySet} (h : k.protection = .aead) (n : Nat) :
    (KeySet.used^[n] k).protection = .aead ∧
      (KeySet.used^[n] k).iv.take aeadImpIvSz = k.iv.take aeadImpIvSz ∧
      Octets.value ((KeySet.used^[n] k).iv.drop aeadImpIvSz) =
        (Octets.value (k.iv.drop aeadImpIvSz) + n) % 2 ^ 64 := by
  induction n with
  | zero =>
    have hlt := Octets.value_lt (k.iv.drop aeadImpIvSz)
    have hlen : (k.iv.drop aeadImpIvSz).length = 8 := by
      rw [List.length_drop, k.ivSz h]
      rfl
    rw [hlen] at hlt
    refine ⟨h, rfl, ?_⟩
    rw [Function.iterate_zero, id_eq, Nat.add_zero, Nat.mod_eq_of_lt (by omega)]
  | succ n ih =>
    obtain ⟨hprot, htake, hvalue⟩ := ih
    rw [Function.iterate_succ_apply']
    have hused : (KeySet.used (KeySet.used^[n] k)).iv = aeadIncrementExpIv (KeySet.used^[n] k).iv := by
      rw [KeySet.used, dif_pos hprot]
    obtain ⟨htake', hvalue'⟩ := aeadIncrementExpIv_spec ((KeySet.used^[n] k).ivSz hprot)
    refine ⟨by rw [used_protection, hprot], by rw [hused, htake', htake], ?_⟩
    rw [hused, hvalue', hvalue, Nat.mod_add_mod, Nat.add_assoc]

/-- The counters after a packet that was bundled, or processed, under `c`. -/
def after (strict : Bool) (c : Counters) (p : Bundled) : Counters :=
  match p.newKeys with
  | some keys => { seq := if strict then 0 else nextSeq c.seq, keys := keys }
  | none => { seq := nextSeq c.seq, keys := c.keys.used }

/-- The packets were bundled one after the other, from the counters `c` to the counters `t`. -/
def Chain (strict : Bool) (c : Counters) : List Bundled → Counters → Prop
  | [], t => c = t
  | p :: ps, t => p.seq = c.seq ∧ p.keys = c.keys ∧ Chain strict (after strict c p) ps t

theorem Chain.append {strict : Bool} {c t : Counters} {ps : List Bundled} (h : Chain strict c ps t)
    {p : Bundled} (hseq : p.seq = t.seq) (hkeys : p.keys = t.keys) :
    Chain strict c (ps ++ [p]) (after strict t p) := by
  induction ps generalizing c with
  | nil =>
    subst h
    exact ⟨hseq, hkeys, rfl⟩
  | cons q ps ih => exact ⟨h.1, h.2.1, ih h.2.2⟩

theorem Chain.drop {strict : Bool} {c t : Counters} {ps qs : List Bundled}
    (h : Chain strict c (ps ++ qs) t) : ∃ c', Chain strict c' qs t := by
  induction ps generalizing c with
  | nil => exact ⟨c, h⟩
  | cons p ps ih => exact ih h.2.2

theorem Chain.keys {strict : Bool} {c t : Counters} {ps qs : List Bundled} {q : Bundled}
    (h : Chain strict c (ps ++ q :: qs) t) (hnone : ∀ p ∈ ps, p.newKeys = none) :
    q.keys = KeySet.used^[ps.length] c.keys := by
  induction ps generalizing c with
  | nil => exact h.2.1
  | cons p ps ih =>
    have hp := hnone p (List.mem_cons_self ..)
    have hrest := ih h.2.2 (fun p' hp' => hnone p' (List.mem_cons_of_mem _ hp'))
    rw [hrest, List.length_cons, Function.iterate_succ_apply]
    simp only [after, hp]

/-- The counters of the receiver once it is done with the packet that it holds. -/
def State.ahead (s : State) : Counters :=
  match s.held with
  | none => s.rx
  | some p => after s.useStrictKex ⟨p.seq, p.keys⟩ p

structure Inv (c₀ : Counters) (s : State) : Prop where
  alive : s.dead = false
  order : s.processed.map Processed.packet ++ s.stream ++ s.outputBuffer = s.bundled
  agree : ∀ r ∈ s.processed, r.peerSeq = r.packet.seq ∧ r.peerKeys = r.packet.keys
  held : ∀ p, s.held = some p → s.rx = ⟨p.seq, p.keys.used⟩
  between : Chain s.useStrictKex s.ahead (s.stream ++ s.outputBuffer) s.tx
  sent : Chain s.useStrictKex c₀ s.bundled s.tx

/-- The condition on a step: no seal fails, nothing that is bundled is thrown away, a NEWKEYS
installs its keys, and no packet is stepped over while it is held. -/
def Clean (s : State) : Event → Prop
  | .bundleFails => s.tx.keys.protection ≠ .aead
  | .discard => s.outputBuffer = []
  | .doReceive (.consumed installs) => installs = true
  | .dropHeld => s.held = none
  | _ => True

theorem bundlePacket_inv {c₀ : Counters} {s : State} (h : Inv c₀ s) (newKeys : Option KeySet) :
    Inv c₀ { s.bundlePacket newKeys with
      tx := after s.useStrictKex s.tx ⟨s.tx.seq, s.tx.keys, newKeys⟩ } := by
  refine ⟨h.alive, ?_, h.agree, h.held, ?_, h.sent.append rfl rfl⟩
  · simp only [State.bundlePacket]
    rw [← List.append_assoc, h.order]
  · have hnew := h.between.append (p := ⟨s.tx.seq, s.tx.keys, newKeys⟩) rfl rfl
    rw [List.append_assoc] at hnew
    exact hnew

/-- `DoPacket` on a packet whose counters the receiver had. -/
theorem doPacket_inv {c₀ : Counters} {s : State} {p : Bundled} {o : Outcome}
    (halive : s.dead = false)
    (horder : s.processed.map Processed.packet ++ s.stream ++ s.outputBuffer = s.bundled)
    (hagree : ∀ r ∈ s.processed, r.peerSeq = r.packet.seq ∧ r.peerKeys = r.packet.keys)
    (hrx : s.rx = ⟨p.seq, p.keys.used⟩)
    (hbetween : Chain s.useStrictKex (after s.useStrictKex ⟨p.seq, p.keys⟩ p)
      (s.stream ++ s.outputBuffer) s.tx)
    (hsent : Chain s.useStrictKex c₀ s.bundled s.tx) (hclean : Clean s (.doReceive o)) :
    Inv c₀ (s.doPacket o p) := by
  cases o with
  | held =>
    refine ⟨halive, horder, hagree, ?_, hbetween, hsent⟩
    intro q hq
    cases hq
    exact hrx
  | consumed installs =>
    have hinst : installs = true := hclean
    subst hinst
    cases hnew : p.newKeys with
    | none =>
      simp only [State.doPacket, hnew]
      refine ⟨halive, horder, hagree, fun q hq => (by cases hq), ?_, hsent⟩
      simp only [after, hnew] at hbetween
      simp only [State.ahead, hrx]
      exact hbetween
    | some keys =>
      simp only [State.doPacket, hnew]
      refine ⟨halive, horder, hagree, fun q hq => (by cases hq), ?_, hsent⟩
      simp only [after, hnew] at hbetween
      simp only [State.ahead, hrx]
      exact hbetween

theorem doReceive_inv {c₀ : Counters} {s : State} {o : Outcome} (h : Inv c₀ s)
    (hclean : Clean s (.doReceive o)) : Inv c₀ (s.doReceive o) := by
  have hbetween := h.between
  unfold State.doReceive
  rw [h.alive, if_neg Bool.false_ne_true]
  unfold State.ahead at hbetween
  split
  · rename_i p hheld
    rw [hheld] at hbetween
    exact doPacket_inv h.alive h.order h.agree (h.held p hheld) hbetween h.sent hclean
  · rename_i hheld
    rw [hheld] at hbetween
    split
    · exact h
    · rename_i p stream hstream
      rw [hstream] at hbetween
      obtain ⟨hseq, hkeys, hrest⟩ := hbetween
      have hopens : State.opens s.rx p = true := by
        simp only [State.opens, hseq, hkeys, decide_true, Bool.true_and]
        split <;> simp
      simp only [hopens, if_true]
      have hsame : s.rx = ⟨p.seq, p.keys⟩ := by rw [hseq, hkeys]
      refine doPacket_inv rfl ?_ ?_ ?_ ?_ h.sent hclean
      · rw [← h.order, hstream]
        simp
      · intro r hr
        simp only [List.mem_append, List.mem_singleton] at hr
        rcases hr with hr | rfl
        · exact h.agree r hr
        · exact ⟨hseq.symm, hkeys.symm⟩
      · rw [hsame]
      · rw [← hsame]
        exact hrest

theorem step_inv {c₀ : Counters} (s : State) (ev : Event) (h : Inv c₀ s) (hclean : Clean s ev) :
    Inv c₀ (step s ev) := by
  cases ev with
  | bundle => exact bundlePacket_inv h none
  | bundleFails =>
    have hsame : s.bundleFails = s := by
      unfold State.bundleFails KeySet.used
      rw [dif_neg hclean]
    rw [step, hsame]
    exact h
  | sendNewKeys keys => exact bundlePacket_inv h (some keys)
  | flush n =>
    refine ⟨h.alive, ?_, h.agree, h.held, ?_, h.sent⟩
    · simp only [step]
      rw [← List.append_assoc, List.append_assoc _ (List.take n _), List.take_append_drop]
      exact h.order
    · simp only [step]
      rw [List.append_assoc, List.take_append_drop]
      exact h.between
  | discard =>
    have hnil : s.outputBuffer = [] := hclean
    have hsame : step s .discard = s := by
      simp only [step]
      rw [← hnil]
    rw [hsame]
    exact h
  | doReceive o => exact doReceive_inv h hclean
  | dropHeld =>
    have hnone : s.held = none := hclean
    have hsame : step s .dropHeld = s := by
      simp only [step]
      rw [← hnone]
    rw [hsame]
    exact h

/-- Both ends of a direction before the first packet. -/
def start (useStrictKex : Bool) (c₀ : Counters) : State :=
  { useStrictKex := useStrictKex, tx := c₀, rx := c₀ }

theorem start_inv (useStrictKex : Bool) (c₀ : Counters) : Inv c₀ (start useStrictKex c₀) :=
  ⟨rfl, rfl, fun r hr => (by cases hr), fun p hp => (by cases hp), rfl, rfl⟩

/-- The receiver had the counters of every packet when it processed it, and processed them in the
order in which they were bundled. -/
structure InLockstep (s : State) : Prop where
  order : s.processed.map Processed.packet <+: s.bundled
  seq : ∀ r ∈ s.processed, r.peerSeq = r.packet.seq
  iv : ∀ r ∈ s.processed, r.packet.keys.protection = .aead → r.peerKeys.iv = r.packet.keys.iv

/-- The nonce of a packet and that of a later one with no NEWKEYS between: the invocation counter
has moved by one for each packet, and comes round only after `2 ^ 64` of them. -/
def CountsNonces (s : State) : Prop :=
  ∀ pre mid post p q, s.bundled = pre ++ p :: mid ++ q :: post →
    (∀ x ∈ p :: mid, x.newKeys = none) → p.keys.protection = .aead →
    q.keys.iv.take aeadImpIvSz = p.keys.iv.take aeadImpIvSz ∧
    Octets.value (q.keys.iv.drop aeadImpIvSz) =
      (Octets.value (p.keys.iv.drop aeadImpIvSz) + (mid.length + 1)) % 2 ^ 64 ∧
    (mid.length + 1 < 2 ^ 64 → q.keys.iv ≠ p.keys.iv)

theorem Inv.inLockstep {c₀ : Counters} {s : State} (h : Inv c₀ s) : InLockstep s := by
  refine ⟨?_, fun r hr => (h.agree r hr).1, fun r hr _ => by rw [(h.agree r hr).2]⟩
  rw [← h.order, List.append_assoc]
  exact List.prefix_append ..

theorem Inv.countsNonces {c₀ : Counters} {s : State} (h : Inv c₀ s) : CountsNonces s := by
  intro pre mid post p q hsplit hnone haead
  have hsent := h.sent
  rw [hsplit, List.append_assoc] at hsent
  obtain ⟨c, hchain⟩ := hsent.drop
  have hkeys := hchain.keys hnone
  rw [← hchain.2.1, List.length_cons] at hkeys
  obtain ⟨-, htake, hvalue⟩ := used_iterate haead (mid.length + 1)
  rw [← hkeys] at htake hvalue
  refine ⟨htake, hvalue, fun hlt heq => ?_⟩
  rw [heq] at hvalue
  have hbound := Octets.value_lt (p.keys.iv.drop aeadImpIvSz)
  have hlen : (p.keys.iv.drop aeadImpIvSz).length = 8 := by
    rw [List.length_drop, p.keys.ivSz haead]
    rfl
  rw [hlen] at hbound
  omega

def plainKeys : KeySet := { protection := .none, iv := [], ivSz := fun h => by cases h }

def macKeys : KeySet := { protection := .mac, iv := [], ivSz := fun h => by cases h }

def gcmKeys : KeySet :=
  { protection := .aead, iv := [1, 2, 3, 4, 255, 255, 255, 255, 255, 255, 255, 255], ivSz := fun _ => rfl }

/-- A first exchange to AES-GCM in strict mode, with a packet that is held for a while. -/
def gcmRun : List Event :=
  [.bundle, .flush 1, .sendNewKeys gcmKeys, .bundle, .doReceive (.consumed true), .flush 2,
    .doReceive (.consumed true), .doReceive .held, .doReceive (.consumed true)]

end WolfSsh.Lockstep
