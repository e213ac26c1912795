import WolfSsh.Packet
import Mathlib.Data.List.GetD

/-! The framing round trip: every payload that is framed is dispatched once and in order, however
the I/O callback cuts the stream of frames into reads. -/

namespace WolfSsh.Packet

variable {κ : Type}

/-- A mode that a direction can be in: nothing negotiated yet, or a cipher and a MAC. -/
inductive Negotiated : DirectionAlgos → Prop where
  | none : Negotiated {}
  | cipher {encId macId : AlgoId} : typeOf encId = .cipher → typeOf macId = .mac →
    Negotiated (algoIds encId (aeadModeForId encId) macId)

inductive MacId : AlgoId → Prop where
  | hmacSha1 : MacId .hmacSha1
  | hmacSha196 : MacId .hmacSha196
  | hmacSha2256 : MacId .hmacSha2256
  | hmacSha2512 : MacId .hmacSha2512

theorem macId_of_type {id : AlgoId} (h : typeOf id = .mac) : MacId id := by
  cases id <;> first
    | exact .hmacSha1
    | exact .hmacSha196
    | exact .hmacSha2256
    | exact .hmacSha2512
    | exact absurd h (by decide +kernel)

theorem cipherId_of_type {id : AlgoId} (h : typeOf id = .cipher) :
    blockSzForId id = 16 ∧ id ≠ .none ∧ (aeadModeForId id = true ∨
      (aeadModeForId id = false ∧ (isCbc id || isCtr id) = true)) := by
  cases id <;> first
    | exact ⟨rfl, by decide, by decide⟩
    | exact absurd h (by decide +kernel)

inductive Kind (a : DirectionAlgos) : Prop where
  | plain : a.encryptId = .none → a.aeadMode = false → a.blockSz = 8 → a.macId = .none →
    a.macSz = 0 → Kind a
  | mac : a.encryptId ≠ .none → (isCbc a.encryptId || isCtr a.encryptId) = true →
    a.aeadMode = false → a.blockSz = 16 → MacId a.macId → a.macSz = macSzForId a.macId → Kind a
  | aead : aeadModeForId a.encryptId = true → a.aeadMode = true → a.blockSz = 16 →
    a.macSz = 16 → Kind a

theorem Negotiated.kind {a : DirectionAlgos} (h : Negotiated a) : Kind a := by
  cases h with
  | none => exact .plain rfl rfl rfl rfl rfl
  | @cipher encId macId henc hmac =>
    obtain ⟨hblk, hne, haead | ⟨haead, hmode⟩⟩ := cipherId_of_type henc
    · rw [haead]
      exact .aead haead rfl hblk hblk
    · rw [haead]
      exact .mac hne hmode rfl hblk (macId_of_type hmac) rfl

namespace Kind

theorem blockSz {a : DirectionAlgos} (h : Kind a) : a.blockSz = 8 ∨ a.blockSz = 16 := by
  cases h with
  | plain _ _ hb => exact .inl hb
  | mac _ _ _ hb => exact .inr hb
  | aead _ _ hb => exact .inr hb

end Kind

namespace Buffer

/-- The read index is in the octets, and these are in the allocation. -/
structure Ok (b : Buffer) : Prop where
  idx : b.idx ≤ b.length
  length : b.length ≤ b.bufferSz

theorem unread_length (b : Buffer) : b.unread.length = b.length - b.idx := by
  simp [unread, length]

theorem growBuffer_unread (b : Buffer) (sz : Nat) :
    (b.growBuffer sz).unread = b.unread := by
  unfold growBuffer
  simp only
  split
  · rfl
  · split
    · rfl
    · rfl

theorem growBuffer_ok {b : Buffer} (h : b.Ok) (sz : Nat) :
    (b.growBuffer sz).Ok ∧ (b.growBuffer sz).length + sz ≤ (b.growBuffer sz).bufferSz ∧
      (b.growBuffer sz).bufferSz ≤ max b.bufferSz (sz + b.unread.length) := by
  have hidx := h.idx
  have hun := unread_length b
  unfold growBuffer
  simp only
  split
  · rename_i hbig
    refine ⟨⟨?_, ?_⟩, ?_, ?_⟩
    · exact Nat.zero_le _
    · simp only [length] at hun ⊢
      omega
    · simp only [length] at hun hidx ⊢
      omega
    · simp only
      omega
  · rename_i hfits
    split
    · refine ⟨⟨?_, ?_⟩, ?_, ?_⟩
      · exact Nat.zero_le _
      · simp only [length] at hun hidx hfits ⊢
        omega
      · simp only [length] at hun hidx hfits ⊢
        omega
      · simp only
        omega
    · refine ⟨h, ?_, ?_⟩
      · omega
      · omega

theorem append_unread {b : Buffer} (h : b.Ok) (bs : Bytes) :
    (b.append bs).unread = b.unread ++ bs := by
  unfold append unread
  rw [List.drop_append_of_le_length h.idx]

theorem append_length (b : Buffer) (bs : Bytes) : (b.append bs).length = b.length + bs.length := by
  simp [append, length]

theorem append_ok {b : Buffer} (h : b.Ok) {bs : Bytes} (hroom : b.length + bs.length ≤ b.bufferSz) :
    (b.append bs).Ok := by
  refine ⟨?_, ?_⟩
  · have hidx := h.idx
    rw [append_length]
    exact Nat.le_add_right_of_le hidx
  · rw [append_length]
    exact hroom

theorem shrinkBuffer_spec {b : Buffer} (h : b.Ok) {forcedFree : Bool}
    (hempty : forcedFree = true → b.length ≤ b.idx) :
    (b.shrinkBuffer forcedFree).Ok ∧ (b.shrinkBuffer forcedFree).unread = b.unread ∧
      (b.shrinkBuffer forcedFree).bufferSz ≤ max b.bufferSz staticBufferLen := by
  have hun := unread_length b
  unfold shrinkBuffer
  simp only
  split
  · exact ⟨h, rfl, Nat.le_max_left ..⟩
  · rename_i hsmall
    cases forcedFree with
    | true =>
      have hnil : b.unread = [] := List.drop_eq_nil_of_le (hempty rfl)
      refine ⟨⟨Nat.zero_le _, Nat.zero_le _⟩, ?_, Nat.le_max_right ..⟩
      rw [hnil]
      rfl
    | false =>
      refine ⟨⟨Nat.zero_le _, ?_⟩, rfl, Nat.le_max_right ..⟩
      simp only [Bool.not_false, Bool.true_and, decide_eq_true_eq] at hsmall
      simp only [length] at hun hsmall ⊢
      simp only [Bool.false_eq_true, if_false]
      omega

theorem patch_spec {b : Buffer} (h : b.Ok) {off : Nat} {bs : Bytes}
    (hin : off + bs.length ≤ b.unread.length) :
    (b.patch off bs).Ok ∧ (b.patch off bs).bufferSz = b.bufferSz ∧
      (b.patch off bs).unread = b.unread.take off ++ bs ++ b.unread.drop (off + bs.length) := by
  have hidx := h.idx
  have hlen := h.length
  rw [unread_length] at hin
  have hsame : (b.patch off bs).length = b.length := by
    simp only [patch, length, List.length_append, List.length_take, List.length_drop] at hin hidx ⊢
    omega
  refine ⟨⟨?_, ?_⟩, rfl, ?_⟩
  · rw [hsame]
    exact hidx
  · rw [hsame]
    exact hlen
  · simp only [patch, unread, length] at hin hidx ⊢
    rw [List.append_assoc, List.drop_append_of_le_length (by simp; omega), List.drop_take,
      List.drop_drop, List.append_assoc, Nat.add_sub_cancel_left, Nat.add_assoc b.idx off]

end Buffer

/-- What is relied on from the crypto library. `synced` relates the context of the encrypting side
to that of the decrypting side: same key, same point of the stream. -/
structure Correct (cr : Crypto κ) (synced : κ → κ → Prop) : Prop where
  encrypt : ∀ id e d input, synced e d → input.length % aesBlockSize = 0 →
    ∃ e' out d', cr.encrypt id e input = some (e', out) ∧ out.length = input.length ∧
      cr.decrypt id d out = some (d', input) ∧ synced e' d'
  encrypt_append : ∀ id e e' e'' a b outA outB, a.length % aesBlockSize = 0 →
    cr.encrypt id e a = some (e', outA) → cr.encrypt id e' b = some (e'', outB) →
      cr.encrypt id e (a ++ b) = some (e'', outA ++ outB)
  gcm : ∀ e d iv auth input tagSz, synced e d → ∃ out tag,
    cr.gcmEncrypt e iv auth input tagSz = some (out, tag) ∧ out.length = input.length ∧
      tag.length = tagSz ∧ cr.gcmDecrypt d iv auth out tag = some input
  hmac : ∀ id key input, macSzForId id ≤ (cr.hmac id key input).length

/-- The two ends of a direction between two packets. -/
structure InStep (synced : κ → κ → Prop) (tx rx : Direction κ) : Prop where
  algos : rx.algos = tx.algos
  cipher : synced tx.cipher rx.cipher
  macKey : rx.macKey = tx.macKey
  iv : rx.iv = tx.iv
  seq : rx.seq = tx.seq

namespace Sender

theorem paddingSz_bounds {a : DirectionAlgos} (h : a.blockSz = 8 ∨ a.blockSz = 16) (n : Nat) :
    minPadLength ≤ paddingSz a n ∧ paddingSz a n ≤ a.blockSz * 2 ∧ paddingSz a n ≤ 255 := by
  unfold paddingSz minPadLength
  simp only
  generalize (if a.aeadMode = true then 0 else lengthSz) + padLengthSz + n = m
  rcases h with h | h
  · rw [h]
    refine ⟨?_, ?_, ?_⟩ <;> split <;> omega
  · rw [h]
    refine ⟨?_, ?_, ?_⟩ <;> split <;> omega

theorem paddingSz_aligns {a : DirectionAlgos} (h : a.blockSz = 8 ∨ a.blockSz = 16) (n : Nat) :
    ((if a.aeadMode then 0 else lengthSz) + padLengthSz + n + paddingSz a n) % a.blockSz = 0 := by
  unfold paddingSz
  simp only
  generalize (if a.aeadMode = true then 0 else lengthSz) + padLengthSz + n = m
  rcases h with h | h
  · rw [h]
    split <;> omega
  · rw [h]
    split <;> omega

theorem padding_length (a : DirectionAlgos) (n : Nat) (random : Nat → UInt8) :
    (padding a n random).length = paddingSz a n := by
  simp [padding]

theorem plainPacket_length (a : DirectionAlgos) (payload : Bytes) (random : Nat → UInt8) :
    (plainPacket a payload random).length =
      lengthSz + padLengthSz + payload.length + paddingSz a payload.length := by
  simp only [plainPacket, List.length_append, List.length_cons, c32toa_length, padding_length,
    lengthSz, padLengthSz]
  omega

theorem createMac_ok {cr : Crypto κ} {synced : κ → κ → Prop} (hcr : Correct cr synced)
    {tx : Direction κ} (hmac : MacId tx.algos.macId) (packet : Bytes) :
    ∃ mac, tx.createMac cr packet = .ok mac ∧ mac.length = macSzForId tx.algos.macId ∧
      mac = (cr.hmac tx.algos.macId tx.macKey (c32toa tx.seq ++ packet)).take
        (macSzForId tx.algos.macId) := by
  have hlen := hcr.hmac tx.algos.macId tx.macKey (c32toa tx.seq ++ packet)
  refine ⟨_, ?_, ?_, rfl⟩
  · unfold Direction.createMac
    cases hid : tx.algos.macId with
    | hmacSha1 => rfl
    | hmacSha196 => rfl
    | hmacSha2256 => rfl
    | hmacSha2512 => rfl
    | _ =>
      rw [hid] at hmac
      cases hmac
  · simp only [List.length_take]
    omega

end Sender

/-- How a packet without AEAD leaves one end and is taken apart at the other: `first` is the block
that is decrypted alone for the length. -/
structure Opens (cr : Crypto κ) (synced : κ → κ → Prop) (tx rx : Direction κ) (packet : Bytes)
    (first rest mac : Bytes) (tx' rx₁ rx₂ : Direction κ) : Prop where
  protect : Sender.protectPacket cr tx packet = (tx', .ok (first ++ rest ++ mac))
  first_length : first.length = tx.algos.blockSz
  rest_length : rest.length = packet.length - tx.algos.blockSz
  mac_length : mac.length = tx.algos.macSz
  decrypt_first : rx.decrypt cr first = .ok (rx₁, packet.take tx.algos.blockSz)
  decrypt_rest : (if packet.length > tx.algos.blockSz then rx₁.decrypt cr rest else .ok (rx₁, [])) =
    .ok (rx₂, packet.drop tx.algos.blockSz)
  algos : rx₁.algos = tx.algos
  verify : rx₂.verifyMac cr packet mac = .ok ()
  inStep : InStep synced tx' rx₂.countPacket
  algos' : tx'.algos = tx.algos

theorem opens_plain {cr : Crypto κ} {synced : κ → κ → Prop} {tx rx : Direction κ}
    (hstep : InStep synced tx rx) (henc : tx.algos.encryptId = .none)
    (haead : tx.algos.aeadMode = false) (hmacId : tx.algos.macId = .none)
    (hmacSz : tx.algos.macSz = 0) {packet : Bytes} (hlong : tx.algos.blockSz ≤ packet.length) :
    Opens cr synced tx rx packet (packet.take tx.algos.blockSz) (packet.drop tx.algos.blockSz) []
      tx.countPacket rx rx := by
  have henc' : rx.algos.encryptId = .none := by rw [hstep.algos, henc]
  have hmacId' : rx.algos.macId = .none := by rw [hstep.algos, hmacId]
  refine ⟨?_, ?_, ?_, ?_, ?_, ?_, hstep.algos, ?_, ?_, rfl⟩
  · simp [Sender.protectPacket, haead, Direction.createMac, hmacId, Direction.encrypt, henc]
  · simp only [List.length_take]
    omega
  · exact List.length_drop
  · exact hmacSz.symm
  · simp [Direction.decrypt, henc']
  · split
    · simp [Direction.decrypt, henc']
    · rename_i hshort
      rw [List.drop_eq_nil_of_le (by omega)]
  · simp [Direction.verifyMac, hmacId']
  · exact ⟨hstep.algos, hstep.cipher, hstep.macKey, hstep.iv, by
      simp only [Direction.countPacket, hstep.seq]⟩

theorem encrypt_pieces {cr : Crypto κ} {synced : κ → κ → Prop} (hcr : Correct cr synced)
    {id : AlgoId} {e d : κ} (hsync : synced e d) {a b : Bytes} (ha : a.length % aesBlockSize = 0)
    (hb : b.length % aesBlockSize = 0) :
    ∃ e' outA outB d₁ d₂, cr.encrypt id e (a ++ b) = some (e', outA ++ outB) ∧
      outA.length = a.length ∧ outB.length = b.length ∧ cr.decrypt id d outA = some (d₁, a) ∧
      cr.decrypt id d₁ outB = some (d₂, b) ∧ synced e' d₂ := by
  obtain ⟨e₁, outA, d₁, hencA, hlenA, hdecA, hsync₁⟩ := hcr.encrypt id e d a hsync ha
  obtain ⟨e₂, outB, d₂, hencB, hlenB, hdecB, hsync₂⟩ := hcr.encrypt id e₁ d₁ b hsync₁ hb
  exact ⟨e₂, outA, outB, d₁, d₂, hcr.encrypt_append id e e₁ e₂ a b outA outB ha hencA hencB, hlenA,
    hlenB, hdecA, hdecB, hsync₂⟩

theorem verifyMac_ok {cr : Crypto κ} {rx : Direction κ} {packet mac : Bytes}
    (hmac : MacId rx.algos.macId) (hsz : rx.algos.macSz = macSzForId rx.algos.macId)
    (h : mac = (cr.hmac rx.algos.macId rx.macKey (c32toa rx.seq ++ packet)).take
      (macSzForId rx.algos.macId)) : rx.verifyMac cr packet mac = .ok () := by
  have hsame : (cr.hmac rx.algos.macId rx.macKey (c32toa rx.seq ++ packet)).take rx.algos.macSz =
      mac.take rx.algos.macSz := by
    rw [h, hsz, List.take_take, Nat.min_self]
  unfold Direction.verifyMac
  rw [if_pos hsame]
  cases hid : rx.algos.macId with
  | none => rfl
  | hmacSha1 => rfl
  | hmacSha196 => rfl
  | hmacSha2256 => rfl
  | hmacSha2512 => rfl
  | _ =>
    rw [hid] at hmac
    cases hmac

theorem encrypt_eq {cr : Crypto κ} {tx : Direction κ} (hne : tx.algos.encryptId ≠ .none)
    (hmode : (isCbc tx.algos.encryptId || isCtr tx.algos.encryptId) = true) {input out : Bytes}
    (hlen : input.length % aesBlockSize = 0) {c : κ}
    (h : cr.encrypt tx.algos.encryptId tx.cipher input = some (c, out)) :
    tx.encrypt cr input = .ok ({ tx with cipher := c }, out) := by
  simp [Direction.encrypt, hne, hmode, hlen, h]

theorem decrypt_eq {cr : Crypto κ} {rx : Direction κ} (hne : rx.algos.encryptId ≠ .none)
    (hmode : (isCbc rx.algos.encryptId || isCtr rx.algos.encryptId) = true) {input out : Bytes}
    (hlen : input.length % aesBlockSize = 0) {c : κ}
    (h : cr.decrypt rx.algos.encryptId rx.cipher input = some (c, out)) :
    rx.decrypt cr input = .ok ({ rx with cipher := c }, out) := by
  simp [Direction.decrypt, hne, hmode, hlen, h]

theorem opens_mac {cr : Crypto κ} {synced : κ → κ → Prop} (hcr : Correct cr synced)
    {tx rx : Direction κ} (hstep : InStep synced tx rx) (hne : tx.algos.encryptId ≠ .none)
    (hmode : (isCbc tx.algos.encryptId || isCtr tx.algos.encryptId) = true)
    (haead : tx.algos.aeadMode = false) (hblk : tx.algos.blockSz = 16)
    (hmacId : MacId tx.algos.macId) (hmacSz : tx.algos.macSz = macSzForId tx.algos.macId)
    {packet : Bytes} (hlong : 16 ≤ packet.length) (hlen : packet.length % 16 = 0) :
    ∃ first rest mac tx' rx₁ rx₂, Opens cr synced tx rx packet first rest mac tx' rx₁ rx₂ := by
  have hne' : rx.algos.encryptId ≠ .none := by rwa [hstep.algos]
  have hmode' : (isCbc rx.algos.encryptId || isCtr rx.algos.encryptId) = true := by
    rwa [hstep.algos]
  have haligned : packet.length % aesBlockSize = 0 := hlen
  obtain ⟨mac, hmac, hmacLen, hmacEq⟩ := Sender.createMac_ok hcr hmacId packet
  have hverify : ∀ d, Direction.verifyMac cr { rx with cipher := d } packet mac = .ok () := by
    intro d
    refine verifyMac_ok ?_ ?_ ?_
    · rwa [hstep.algos]
    · rwa [hstep.algos]
    · rw [hstep.algos, hstep.macKey, hstep.seq]
      exact hmacEq
  have hcount : ∀ {e d}, synced e d → InStep synced ({ tx with cipher := e } : Direction κ).countPacket
      ({ rx with cipher := d } : Direction κ).countPacket := by
    intro e d hsync
    refine ⟨hstep.algos, hsync, hstep.macKey, hstep.iv, ?_⟩
    simp only [Direction.countPacket, hstep.seq]
  by_cases hone : packet.length > 16
  · have hfirst : (packet.take 16).length = 16 := by
      simp only [List.length_take]
      omega
    have hA : (packet.take 16).length % aesBlockSize = 0 := by rw [hfirst]; rfl
    have hB : (packet.drop 16).length % aesBlockSize = 0 := by
      show (packet.drop 16).length % 16 = 0
      rw [List.length_drop]
      omega
    obtain ⟨e, outA, outB, d₁, d₂, henc, hlenA, hlenB, hdecA, hdecB, hsync⟩ :=
      @encrypt_pieces κ cr synced hcr tx.algos.encryptId tx.cipher rx.cipher hstep.cipher _ _ hA hB
    rw [List.take_append_drop] at henc
    rw [← hstep.algos] at hdecA hdecB
    have htx := encrypt_eq hne hmode haligned henc
    have hrx₁ := decrypt_eq hne' hmode' (hlenA ▸ hA) hdecA
    have hrx₂ : Direction.decrypt cr { rx with cipher := d₁ } outB =
        .ok ({ rx with cipher := d₂ }, packet.drop 16) :=
      @decrypt_eq κ cr { rx with cipher := d₁ } hne' hmode' outB _ (hlenB ▸ hB) d₂ hdecB
    refine ⟨outA, outB, mac, _, { rx with cipher := d₁ }, _, ⟨?_, ?_, ?_, ?_, ?_, ?_, hstep.algos, hverify d₂,
      hcount hsync, rfl⟩⟩
    · simp [Sender.protectPacket, haead, hmac, htx]
    · rw [hlenA, hfirst, hblk]
    · rw [hlenB, hblk, List.length_drop]
    · rw [hmacLen, hmacSz]
    · rw [hblk]
      exact hrx₁
    · rw [hblk, if_pos hone]
      exact hrx₂
  · -- the packet is one block, and nothing of it is left to decrypt
    have hall : packet.take 16 = packet := List.take_of_length_le (by omega)
    have hnil : packet.drop 16 = [] := List.drop_eq_nil_of_le (by omega)
    obtain ⟨e, out, d, henc, hlenOut, hdec, hsync⟩ :=
      hcr.encrypt tx.algos.encryptId tx.cipher rx.cipher packet hstep.cipher haligned
    rw [← hstep.algos] at hdec
    have htx := encrypt_eq hne hmode haligned henc
    have hrx := decrypt_eq hne' hmode' (hlenOut ▸ haligned) hdec
    refine ⟨out, [], mac, _, { rx with cipher := d }, _, ⟨?_, ?_, ?_, ?_, ?_, ?_, hstep.algos, hverify d,
      hcount hsync, rfl⟩⟩
    · simp [Sender.protectPacket, haead, hmac, htx]
    · omega
    · simp only [List.length_nil]
      omega
    · rw [hmacLen, hmacSz]
    · rw [hblk, hall]
      exact hrx
    · rw [hblk, if_neg hone, hnil]

theorem Kind.opens {cr : Crypto κ} {synced : κ → κ → Prop} (hcr : Correct cr synced)
    {tx rx : Direction κ} (hkind : Kind tx.algos) (haead : tx.algos.aeadMode = false)
    (hstep : InStep synced tx rx) {packet : Bytes} (hlong : tx.algos.blockSz ≤ packet.length)
    (hlen : packet.length % tx.algos.blockSz = 0) :
    ∃ first rest mac tx' rx₁ rx₂, Opens cr synced tx rx packet first rest mac tx' rx₁ rx₂ := by
  cases hkind with
  | plain henc _ hblk hmacId hmacSz =>
    exact ⟨_, _, _, _, _, _, opens_plain hstep henc haead hmacId hmacSz hlong⟩
  | mac hne hmode _ hblk hmacId hmacSz =>
    rw [hblk] at hlong hlen
    exact opens_mac hcr hstep hne hmode haead hblk hmacId hmacSz hlong hlen
  | aead _ h =>
    rw [haead] at h
    cases h

/-- How a packet under AEAD leaves one end and is taken apart at the other. -/
structure OpensAead (cr : Crypto κ) (synced : κ → κ → Prop) (tx rx : Direction κ) (packet : Bytes)
    (out tag : Bytes) (tx' rx' : Direction κ) : Prop where
  protect : Sender.protectPacket cr tx packet = (tx', .ok (packet.take lengthSz ++ out ++ tag))
  out_length : out.length = packet.length - lengthSz
  tag_length : tag.length = tx.algos.macSz
  decrypt : rx.decryptAead cr out tag (packet.take lengthSz) = (rx', .ok (packet.drop lengthSz))
  inStep : InStep synced tx' rx'.countPacket
  algos : rx'.algos = tx.algos
  algos' : tx'.algos = tx.algos

theorem Kind.opensAead {cr : Crypto κ} {synced : κ → κ → Prop} (hcr : Correct cr synced)
    {tx rx : Direction κ} (hkind : Kind tx.algos) (haead : tx.algos.aeadMode = true)
    (hstep : InStep synced tx rx) (packet : Bytes) :
    ∃ out tag tx' rx', OpensAead cr synced tx rx packet out tag tx' rx' := by
  have hid : aeadModeForId tx.algos.encryptId = true := by
    cases hkind with
    | plain _ h => rw [haead] at h; cases h
    | mac _ _ h => rw [haead] at h; cases h
    | aead h => exact h
  obtain ⟨out, tag, henc, hout, htag, hdec⟩ := hcr.gcm tx.cipher rx.cipher tx.iv
    (packet.take lengthSz) (packet.drop lengthSz) tx.algos.macSz hstep.cipher
  refine ⟨out, tag, ({ tx with iv := aeadIncrementExpIv tx.iv } : Direction κ).countPacket,
    { rx with iv := aeadIncrementExpIv rx.iv }, ⟨?_, ?_, htag, ?_, ?_, hstep.algos, rfl⟩⟩
  · simp [Sender.protectPacket, haead, Direction.encryptAead, hid, henc]
  · rw [hout, List.length_drop]
  · simp [Direction.decryptAead, hstep.algos, hid, hstep.iv, hdec]
  · refine ⟨hstep.algos, hstep.cipher, hstep.macKey, ?_, ?_⟩
    · simp only [Direction.countPacket, hstep.iv]
    · simp only [Direction.countPacket, hstep.seq]

/-- A payload whose frame is within what a receiver takes. -/
def Fits (a : DirectionAlgos) (payload : Payload) : Prop :=
  lengthSz + padLengthSz + payload.octets.length + Sender.paddingSz a payload.octets.length +
    a.macSz ≤ maxPacketSz

theorem plainPacket_long {a : DirectionAlgos} (hblk : a.blockSz = 8 ∨ a.blockSz = 16)
    (payload : Bytes) (random : Nat → UInt8) :
    a.blockSz ≤ (Sender.plainPacket a payload random).length := by
  have halign := Sender.paddingSz_aligns hblk payload.length
  have hle : (if a.aeadMode then 0 else lengthSz) ≤ lengthSz := by
    split
    · exact Nat.zero_le _
    · exact Nat.le_refl _
  have hdvd := Nat.le_of_dvd (by simp only [padLengthSz]; omega) (Nat.dvd_of_mod_eq_zero halign)
  rw [Sender.plainPacket_length]
  omega

theorem plainPacket_blocks {a : DirectionAlgos} (hkind : Kind a) (haead : a.aeadMode = false)
    (payload : Bytes) (random : Nat → UInt8) :
    a.blockSz ≤ (Sender.plainPacket a payload random).length ∧
      (Sender.plainPacket a payload random).length % a.blockSz = 0 := by
  have halign := Sender.paddingSz_aligns hkind.blockSz payload.length
  rw [haead, if_neg Bool.false_ne_true] at halign
  refine ⟨plainPacket_long hkind.blockSz payload random, ?_⟩
  rw [Sender.plainPacket_length]
  exact halign

/-- Protecting a packet works in every mode, and the result has the size that was planned for. -/
theorem protect_ok {cr : Crypto κ} {synced : κ → κ → Prop} (hcr : Correct cr synced)
    {tx rx : Direction κ} (hkind : Kind tx.algos) (hstep : InStep synced tx rx) (payload : Bytes)
    (random : Nat → UInt8) :
    ∃ tx' out, Sender.protectPacket cr tx (Sender.plainPacket tx.algos payload random) =
        (tx', .ok out) ∧ tx'.algos = tx.algos ∧ (∃ rx', InStep synced tx' rx') ∧
      out.length = (Sender.plainPacket tx.algos payload random).length + tx.algos.macSz := by
  by_cases haead : tx.algos.aeadMode = true
  · obtain ⟨out, tag, tx', rx', ho⟩ := hkind.opensAead hcr haead hstep
      (Sender.plainPacket tx.algos payload random)
    refine ⟨tx', _, ho.protect, ho.algos', ⟨_, ho.inStep⟩, ?_⟩
    have hlen := Sender.plainPacket_length tx.algos payload random
    simp only [List.length_append, List.length_take, ho.out_length, ho.tag_length, lengthSz] at hlen ⊢
    omega
  · have haead : tx.algos.aeadMode = false := by simpa using haead
    obtain ⟨hlong, hlen⟩ := plainPacket_blocks hkind haead payload random
    obtain ⟨first, rest, mac, tx', rx₁, rx₂, ho⟩ := hkind.opens hcr haead hstep hlong hlen
    refine ⟨tx', _, ho.protect, ho.algos', ⟨_, ho.inStep⟩, ?_⟩
    simp only [List.length_append, ho.first_length, ho.rest_length, ho.mac_length]
    omega

/-- `tx'` is the state of the sending side after the frame of `payload`. -/
structure Next (cr : Crypto κ) (tx : Direction κ) (payload : Payload) (random : Nat → UInt8)
    (tx' : Direction κ) : Prop where
  protect : ∃ out, Sender.protectPacket cr tx
    (Sender.plainPacket tx.algos payload.octets random) = (tx', .ok out)
  algos : tx'.algos = tx.algos

def frameList (cr : Crypto κ) : Direction κ → List (Payload × (Nat → UInt8)) → List Bytes
  | _, [] => []
  | tx, (payload, random) :: todo =>
    match Sender.protectPacket cr tx (Sender.plainPacket tx.algos payload.octets random) with
    | (tx, .ok out) => out :: frameList cr tx todo
    | (_, .error _) => []

/-- The octets of the frames of some payloads. -/
def frames (cr : Crypto κ) (tx : Direction κ) (todo : List (Payload × (Nat → UInt8))) : Bytes :=
  (frameList cr tx todo).flatten

theorem frames_cons {cr : Crypto κ} {tx tx' : Direction κ} {payload : Payload}
    {random : Nat → UInt8} {todo : List (Payload × (Nat → UInt8))} {out : Bytes}
    (h : Sender.protectPacket cr tx (Sender.plainPacket tx.algos payload.octets random) =
      (tx', .ok out)) :
    frames cr tx ((payload, random) :: todo) = out ++ frames cr tx' todo := by
  simp only [frames, frameList, h, List.flatten_cons]

theorem Next.frameList {cr : Crypto κ} {tx tx' : Direction κ} {payload : Payload}
    {random : Nat → UInt8} (h : Next cr tx payload random tx')
    (todo : List (Payload × (Nat → UInt8))) (k : Nat) :
    (frameList cr tx ((payload, random) :: todo)).drop (k + 1) =
      (Packet.frameList cr tx' todo).drop k := by
  obtain ⟨out, hout⟩ := h.protect
  simp only [Packet.frameList, hout, List.drop_succ_cons]

namespace Sender

/-- Room was made for the payload, so `BundlePacket` appends the frame and nothing else. -/
theorem sendPayload_ok {cr : Crypto κ} {s : Sender κ} (hkind : Kind s.tx.algos)
    (hbuf : s.outputBuffer.Ok) {payload : Payload} {payloadSz : Nat}
    (hsz : payload.octets.length ≤ payloadSz) {random : Nat → UInt8} {tx' : Direction κ} {out : Bytes}
    (hprot : protectPacket cr s.tx (plainPacket s.tx.algos payload.octets random) = (tx', .ok out))
    (hout : out.length = (plainPacket s.tx.algos payload.octets random).length + s.tx.algos.macSz) :
    ∃ s', s.sendPayload cr payloadSz payload random = (s', .ok ()) ∧ s'.tx = tx' ∧
      s'.outputBuffer.Ok ∧ s'.outputBuffer.unread = s.outputBuffer.unread ++ out ∧
      s'.wire = s.wire := by
  have hpad := paddingSz_bounds hkind.blockSz payload.octets.length
  obtain ⟨hgrown, hroom, -⟩ := Buffer.growBuffer_ok hbuf
    (lengthSz + (padLengthSz + payloadSz + s.tx.algos.blockSz * 2) + s.tx.algos.macSz)
  have hunread := Buffer.growBuffer_unread s.outputBuffer
    (lengthSz + (padLengthSz + payloadSz + s.tx.algos.blockSz * 2) + s.tx.algos.macSz)
  have hprep : ¬ s.outputBuffer.length < s.outputBuffer.idx := Nat.not_lt.mpr hbuf.idx
  have hmac : s.tx.algos.aeadMode = false → macSzForId s.tx.algos.macId = s.tx.algos.macSz := by
    intro haead
    cases hkind with
    | plain _ _ _ hid hsz => rw [hid, hsz]; rfl
    | mac _ _ _ _ _ hsz => exact hsz.symm
    | aead _ h => rw [haead] at h; cases h
  simp only [sendPayload, preparePacket, if_neg hprep]
  generalize s.outputBuffer.growBuffer (lengthSz + (padLengthSz + payloadSz +
    s.tx.algos.blockSz * 2) + s.tx.algos.macSz) = buf at hgrown hroom hunread ⊢
  have hstart : (buf.bytes ++ List.replicate (lengthSz + padLengthSz) 0 ++
      payload.octets).take buf.length = buf.bytes := by
    rw [List.append_assoc]
    exact List.take_left
  have hpayload : (buf.bytes ++ List.replicate (lengthSz + padLengthSz) 0 ++
      payload.octets).drop (buf.length + lengthSz + padLengthSz) = payload.octets := by
    rw [Nat.add_assoc, ← List.drop_drop, List.append_assoc, Buffer.length, List.drop_left]
    exact List.drop_left' (by simp)
  have hlen := plainPacket_length s.tx.algos payload.octets random
  have hroom₁ : ¬ ((buf.append (List.replicate (lengthSz + padLengthSz) 0)).append
      payload.octets).length + paddingSz s.tx.algos payload.octets.length > buf.bufferSz := by
    rw [Buffer.append_length, Buffer.append_length, List.length_replicate]
    omega
  have hroom₂ : ¬ ((!s.tx.algos.aeadMode) = true ∧
      ((buf.append (List.replicate (lengthSz + padLengthSz) 0)).append
        payload.octets).length + paddingSz s.tx.algos payload.octets.length +
          macSzForId s.tx.algos.macId > buf.bufferSz) := by
    rintro ⟨haead, hbig⟩
    have hsame := hmac (by simpa using haead)
    rw [Buffer.append_length, Buffer.append_length, List.length_replicate] at hbig
    omega
  simp only [bundlePacket, Buffer.append] at hroom₁ hroom₂ ⊢
  simp only [hstart, hpayload, if_neg hroom₁, if_neg hroom₂, hprot]
  refine ⟨_, rfl, rfl, ?_, ?_, rfl⟩
  · exact Buffer.append_ok hgrown (by omega)
  · rw [← hunread]
    exact Buffer.append_unread hgrown out

theorem take_append_drop_taken {α : Type} (n : Nat) (l : List α) :
    l.take n ++ l.drop (l.take n).length = l := by
  by_cases hn : n ≤ l.length
  · rw [List.length_take, Nat.min_eq_left hn, List.take_append_drop]
  · rw [List.take_of_length_le (by omega), List.drop_length, List.append_nil]

theorem flush_ok {s : Sender κ} (hbuf : s.outputBuffer.Ok) (n : Nat) :
    (s.flush n).outputBuffer.Ok ∧
      (s.flush n).wire ++ (s.flush n).outputBuffer.unread = s.wire ++ s.outputBuffer.unread := by
  have hlen := Buffer.unread_length s.outputBuffer
  have hidx := hbuf.idx
  have hok : ({ s.outputBuffer with
      idx := s.outputBuffer.idx + (s.outputBuffer.unread.take n).length } : Buffer).Ok := by
    refine ⟨?_, hbuf.length⟩
    simp only [List.length_take, hlen]
    simp only [Buffer.length] at hidx ⊢
    omega
  have hsplit : s.outputBuffer.unread.take n ++ ({ s.outputBuffer with
      idx := s.outputBuffer.idx + (s.outputBuffer.unread.take n).length } : Buffer).unread =
        s.outputBuffer.unread := by
    simp only [Buffer.unread, ← List.drop_drop]
    exact take_append_drop_taken n _
  unfold flush
  simp only
  split
  · refine ⟨hok, ?_⟩
    rw [List.append_assoc, hsplit]
  · obtain ⟨hok', hunread, -⟩ := @Buffer.shrinkBuffer_spec _ hok false (fun h => by cases h)
    refine ⟨hok', ?_⟩
    rw [hunread, List.append_assoc, hsplit]

end Sender

/-- The payloads that a run of the sender frames, with the random octets of their padding. -/
def sentPayloads : List SendEvent → List (Payload × (Nat → UInt8))
  | [] => []
  | .payload _ payload random :: es => (payload, random) :: sentPayloads es
  | .flush _ :: es => sentPayloads es

/-- No sender writes more than it asked room for. -/
def HasRoom : SendEvent → Prop
  | .payload payloadSz payload _ => payload.octets.length ≤ payloadSz
  | .flush _ => True

theorem sender_run {cr : Crypto κ} {synced : κ → κ → Prop} (hcr : Correct cr synced)
    {es : List SendEvent} (hes : ∀ e ∈ es, HasRoom e) {s : Sender κ} (hkind : Kind s.tx.algos)
    (hbuf : s.outputBuffer.Ok) {rx : Direction κ} (hstep : InStep synced s.tx rx) :
    (es.foldl (Sender.step cr) s).wire ++ (es.foldl (Sender.step cr) s).outputBuffer.unread =
      s.wire ++ s.outputBuffer.unread ++ frames cr s.tx (sentPayloads es) := by
  induction es generalizing s rx with
  | nil => simp [sentPayloads, frames, frameList]
  | cons e es ih =>
    have hrest : ∀ e' ∈ es, HasRoom e' := fun e' he' => hes e' (List.mem_cons_of_mem _ he')
    have he := hes e (List.mem_cons_self ..)
    cases e with
    | payload payloadSz payload random =>
      obtain ⟨tx', out, hprot, halgos, ⟨rx', hstep'⟩, hlen⟩ :=
        protect_ok hcr hkind hstep payload.octets random
      obtain ⟨s', hsend, htx, hbuf', hunread, hwire⟩ :=
        Sender.sendPayload_ok hkind hbuf he hprot hlen
      have hstepEq : Sender.step cr s (.payload payloadSz payload random) = s' := by
        simp only [Sender.step, hsend]
      rw [List.foldl_cons, hstepEq, ih hrest (by rwa [htx, halgos]) hbuf' (by rwa [htx]), hunread,
        hwire, htx, sentPayloads, frames_cons hprot]
      simp only [List.append_assoc]
    | flush n =>
      obtain ⟨hbuf', hsame⟩ := Sender.flush_ok hbuf n
      rw [List.foldl_cons]
      have hrun := @ih hrest (s.flush n) hkind hbuf' rx hstep
      rw [hsame] at hrun
      exact hrun

namespace Receiver

/-- Octets move from the stream to the buffer, and nothing else happens. -/
structure Fetched (r r' : Receiver κ) : Prop where
  rest : r' = { r with inputBuffer := r'.inputBuffer, stream := r'.stream }
  ok : r'.inputBuffer.Ok
  bounded : r'.inputBuffer.bufferSz ≤ max r.inputBuffer.bufferSz maxPacketSz
  octets : r'.inputBuffer.unread ++ r'.stream = r.inputBuffer.unread ++ r.stream
  grows : r.inputBuffer.unread.length ≤ r'.inputBuffer.unread.length

/-- The callback has an octet or more for each of its answers, and enough answers. -/
def Ready (n : Nat) (answers : List IoRecv) : Prop :=
  n ≤ answers.length ∧ ∀ a ∈ answers, ∃ k, a = .data (k + 1)

theorem Fetched.trans {r r' r'' : Receiver κ} (h : Fetched r r') (h' : Fetched r' r'') :
    Fetched r r'' := by
  have hb := h.bounded
  have hb' := h'.bounded
  refine ⟨?_, h'.ok, by omega, h'.octets.trans h.octets, h.grows.trans h'.grows⟩
  rw [h'.rest, h.rest]

theorem read_fetched {r : Receiver κ} (hok : r.inputBuffer.Ok) {n : Nat}
    (hroom : r.inputBuffer.length + n ≤ r.inputBuffer.bufferSz) :
    Fetched r { r with
      inputBuffer := r.inputBuffer.append (r.stream.take n)
      stream := r.stream.drop (r.stream.take n).length } := by
  have hle : (r.stream.take n).length ≤ n := List.length_take_le n r.stream
  refine ⟨rfl, Buffer.append_ok hok (by omega), Nat.le_max_left .., ?_, ?_⟩
  · rw [Buffer.append_unread hok, List.append_assoc, Sender.take_append_drop_taken]
  · rw [Buffer.append_unread hok, List.length_append]
    exact Nat.le_add_right ..

theorem readLoop_fetched {r : Receiver κ} {size : Nat} {answers : List IoRecv}
    (hok : r.inputBuffer.Ok) (hroom : r.inputBuffer.length + size ≤ r.inputBuffer.bufferSz) :
    Fetched r (r.readLoop size answers).2.2 ∧ ((r.readLoop size answers).1 = true →
      r.inputBuffer.unread.length + size ≤
        (r.readLoop size answers).2.2.inputBuffer.unread.length) := by
  induction answers generalizing r size with
  | nil => exact ⟨⟨rfl, hok, Nat.le_max_left .., rfl, Nat.le_refl _⟩, fun h => by cases h⟩
  | cons a answers ih =>
    cases a with
    | wantRead => exact ⟨⟨rfl, hok, Nat.le_max_left .., rfl, Nat.le_refl _⟩, fun h => by cases h⟩
    | isr => exact ih hok hroom
    | data n =>
      have hmin : min n size ≤ size := Nat.min_le_right ..
      have hle := List.length_take_le (min n size) r.stream
      have hfetched := @read_fetched κ r hok (min n size) (by omega)
      have hunread := Buffer.append_unread hok (r.stream.take (min n size))
      have hlen := Buffer.append_length r.inputBuffer (r.stream.take (min n size))
      simp only [readLoop]
      split
      · refine ⟨hfetched, fun _ => ?_⟩
        simp only [hunread, List.length_append]
        omega
      · obtain ⟨hmore, hdone⟩ := @ih { r with
          inputBuffer := r.inputBuffer.append (r.stream.take (min n size))
          stream := r.stream.drop (r.stream.take (min n size)).length }
          (size - (r.stream.take (min n size)).length) hfetched.ok (by
            have hsz : (r.inputBuffer.append (r.stream.take (min n size))).bufferSz =
              r.inputBuffer.bufferSz := rfl
            simp only [hlen, hsz]
            omega)
        refine ⟨hfetched.trans hmore, fun h => ?_⟩
        have hlong := hdone h
        rw [hunread, List.length_append] at hlong
        omega

/-- A callback that has what is asked for is read until it is there, and stays ready. -/
theorem readLoop_ready {r : Receiver κ} {size : Nat} {answers : List IoRecv} (hpos : 0 < size)
    (hsize : size ≤ r.stream.length) (hready : Ready r.stream.length answers) :
    (r.readLoop size answers).1 = true ∧
      Ready (r.readLoop size answers).2.2.stream.length (r.readLoop size answers).2.1 := by
  induction answers generalizing r size with
  | nil =>
    have := hready.1
    simp only [List.length_nil] at this
    omega
  | cons a answers ih =>
    obtain ⟨k, rfl⟩ := hready.2 a (List.mem_cons_self ..)
    have hrest : ∀ b ∈ answers, ∃ k, b = .data (k + 1) :=
      fun b hb => hready.2 b (List.mem_cons_of_mem _ hb)
    have hmany := hready.1
    simp only [List.length_cons] at hmany
    have htake : (r.stream.take (min (k + 1) size)).length = min (k + 1) size := by
      simp only [List.length_take]
      omega
    simp only [readLoop]
    split
    · refine ⟨rfl, ?_, hrest⟩
      simp only [List.length_drop]
      omega
    · refine ih (by omega) ?_ ⟨?_, hrest⟩
      · simp only [List.length_drop]
        omega
      · simp only [List.length_drop]
        omega

theorem getInputData_fetched {r : Receiver κ} {size : Nat} {answers : List IoRecv}
    (hok : r.inputBuffer.Ok) (hsize : size ≤ maxPacketSz) :
    Fetched r (r.getInputData size answers).2.2 ∧ ((r.getInputData size answers).1 = true →
      size ≤ (r.getInputData size answers).2.2.inputBuffer.unread.length) := by
  have hun := Buffer.unread_length r.inputBuffer
  unfold getInputData
  simp only
  split
  · refine ⟨⟨rfl, hok, Nat.le_max_left .., rfl, Nat.le_refl _⟩, fun _ => ?_⟩
    simp only
    omega
  · obtain ⟨hgrown, hroom, hsz⟩ := Buffer.growBuffer_ok hok
      (size - (r.inputBuffer.length - r.inputBuffer.idx))
    have hsame := Buffer.growBuffer_unread r.inputBuffer
      (size - (r.inputBuffer.length - r.inputBuffer.idx))
    obtain ⟨hfetched, hdone⟩ := @readLoop_fetched κ { r with
      inputBuffer := r.inputBuffer.growBuffer (size - (r.inputBuffer.length - r.inputBuffer.idx)) }
      _ answers hgrown hroom
    have hfirst : Fetched r { r with
        inputBuffer := r.inputBuffer.growBuffer (size - (r.inputBuffer.length - r.inputBuffer.idx)) } := by
      refine ⟨rfl, hgrown, ?_, ?_, ?_⟩
      · simp only
        omega
      · simp only [hsame]
      · simp only [hsame]
        exact Nat.le_refl _
    refine ⟨hfirst.trans hfetched, fun h => ?_⟩
    have hlong := hdone h
    simp only [hsame] at hlong
    omega

theorem getInputData_ready {r : Receiver κ} {size : Nat} {answers : List IoRecv}
    (hsize : size ≤ r.inputBuffer.unread.length + r.stream.length)
    (hready : Ready r.stream.length answers) :
    (r.getInputData size answers).1 = true ∧
      Ready (r.getInputData size answers).2.2.stream.length (r.getInputData size answers).2.1 := by
  have hun := Buffer.unread_length r.inputBuffer
  unfold getInputData
  simp only
  split
  · exact ⟨rfl, hready⟩
  · refine readLoop_ready (by omega) ?_ hready
    simp only
    omega

/-- The packet at the read index is there in full and in plain. -/
structure Opened (cr : Crypto κ) (synced : κ → κ → Prop) (tx : Direction κ) (packet tail : Bytes)
    (todo : List (Payload × (Nat → UInt8))) (r : Receiver κ) : Prop where
  ok : r.inputBuffer.Ok
  small : r.inputBuffer.bufferSz < 2 ^ 32
  curSz : uint32Sz + r.curSz = packet.length
  octets : r.inputBuffer.unread ++ r.stream = packet ++ tail ++ frames cr tx todo
  there : packet.length + tail.length ≤ r.inputBuffer.unread.length
  tail : tail.length = r.rx.algos.macSz
  inStep : InStep synced tx r.rx.countPacket

theorem split_octets {a b c d : Bytes} (h : a ++ b = c ++ d) (hlen : c.length ≤ a.length) :
    ∃ m, a = c ++ m ∧ m ++ b = d := by
  have hpre : c <+: a := List.prefix_of_prefix_length_le (h ▸ List.prefix_append c d)
    (List.prefix_append a b) hlen
  obtain ⟨m, rfl⟩ := hpre
  refine ⟨m, rfl, ?_⟩
  rw [List.append_assoc] at h
  exact List.append_cancel_left h

/-- What `DoPacket` reads from a plain packet. -/
theorem plainPacket_fields {a : DirectionAlgos} (hblk : a.blockSz = 8 ∨ a.blockSz = 16)
    (payload : Payload) (random : Nat → UInt8) (more : Bytes) :
    let octets := Sender.plainPacket a payload.octets random ++ more
    (octets.getD uint32Sz 0).toNat = Sender.paddingSz a payload.octets.length ∧
      octets.getD (uint32Sz + padLengthSz) 0 = payload.msg ∧
      (octets.drop (uint32Sz + padLengthSz + msgIdSz)).take payload.body.length = payload.body := by
  have hle := (Sender.paddingSz_bounds hblk payload.octets.length).2.2
  have hoctets : Sender.plainPacket a payload.octets random ++ more =
      c32toa (padLengthSz + payload.octets.length + Sender.paddingSz a payload.octets.length) ++
        (UInt8.ofNat (Sender.paddingSz a payload.octets.length) :: payload.msg :: (payload.body ++
          (Sender.padding a payload.octets.length random ++ more))) := by
    simp [Sender.plainPacket, Payload.octets]
  simp only
  rw [hoctets]
  have hc := c32toa_length
    (padLengthSz + payload.octets.length + Sender.paddingSz a payload.octets.length)
  generalize c32toa (padLengthSz + payload.octets.length +
    Sender.paddingSz a payload.octets.length) = head at hc ⊢
  refine ⟨?_, ?_, ?_⟩
  · rw [List.getD_append_right _ _ _ _ (by rw [hc]; decide), hc]
    simp only [uint32Sz, Nat.sub_self, List.getD_cons_zero, UInt8.toNat_ofNat']
    omega
  · rw [List.getD_append_right _ _ _ _ (by rw [hc]; decide), hc]
    rfl
  · have hdrop : ∀ tail : Bytes, (head ++ tail).drop (uint32Sz + padLengthSz + msgIdSz) =
        tail.drop 2 := by
      intro tail
      rw [List.drop_append, List.drop_eq_nil_of_le (by rw [hc]; decide), hc]
      rfl
    rw [hdrop]
    exact List.take_left

theorem doPacket_opened {cr : Crypto κ} {synced : κ → κ → Prop} {tx : Direction κ}
    {a : DirectionAlgos} (hblk : a.blockSz = 8 ∨ a.blockSz = 16) {payload : Payload}
    {random : Nat → UInt8} {tail : Bytes} {todo : List (Payload × (Nat → UInt8))} {r : Receiver κ}
    (h : Opened cr synced tx (Sender.plainPacket a payload.octets random) tail todo r)
    (held : Bool) :
    r.doPacket held = if held then (.held payload, r) else (.dispatched payload, { r with
      inputBuffer := { r.inputBuffer with idx := r.inputBuffer.idx + uint32Sz + r.curSz }
      rx := r.rx.countPacket
      dispatched := r.dispatched ++ [payload] }) := by
  obtain ⟨left, hunread, -⟩ := split_octets h.octets (by
    rw [List.length_append]
    exact h.there)
  have hfields := plainPacket_fields hblk payload random (tail ++ left)
  rw [← List.append_assoc, ← hunread] at hfields
  obtain ⟨hpad, hmsg, hbody⟩ := hfields
  have hbounds := Sender.paddingSz_bounds hblk payload.octets.length
  have hlen := Sender.plainPacket_length a payload.octets random
  have hcur := h.curSz
  have hthere := h.there
  have hun := Buffer.unread_length r.inputBuffer
  have hok := h.ok.idx
  have hok' := h.ok.length
  have hsmall := h.small
  have hoct : payload.octets.length = payload.body.length + 1 := by simp [Payload.octets]
  simp only [lengthSz, padLengthSz, uint32Sz] at hlen hcur
  have hsz : r.curSz - padLengthSz - Sender.paddingSz a payload.octets.length - msgIdSz =
      payload.body.length := by
    simp only [padLengthSz, msgIdSz]
    omega
  have hunder : ¬ padLengthSz + Sender.paddingSz a payload.octets.length + msgIdSz > r.curSz := by
    simp only [padLengthSz, msgIdSz]
    omega
  have hinside : payload.body.length + (r.inputBuffer.idx + uint32Sz + padLengthSz + msgIdSz) ≤
      r.inputBuffer.bufferSz := by
    simp only [padLengthSz, msgIdSz, uint32Sz]
    omega
  have hover : ¬ (r.inputBuffer.bufferSz < payload.body.length +
      (r.inputBuffer.idx + uint32Sz + padLengthSz + msgIdSz) ∨
      (payload.body.length + (r.inputBuffer.idx + uint32Sz + padLengthSz + msgIdSz)) % 2 ^ 32 <
        payload.body.length) := by
    rw [Nat.mod_eq_of_lt (by omega)]
    omega
  have hend : min (r.inputBuffer.idx + uint32Sz + r.curSz) r.inputBuffer.length =
      r.inputBuffer.idx + uint32Sz + r.curSz := by
    simp only [uint32Sz]
    omega
  simp only [doPacket, hpad, if_neg (Nat.not_lt.mpr hbounds.1), if_neg hunder, hsz, if_neg hover,
    hmsg, hbody, hend]

/-- Between two packets: what is unread and what is under way are the frames to come. -/
structure Between (cr : Crypto κ) (synced : κ → κ → Prop) (tx : Direction κ)
    (todo : List (Payload × (Nat → UInt8))) (r : Receiver κ) : Prop where
  ok : r.inputBuffer.Ok
  small : r.inputBuffer.bufferSz < 2 ^ 32
  octets : r.inputBuffer.unread ++ r.stream = frames cr tx todo
  inStep : InStep synced tx r.rx

theorem processPacket_opened {cr : Crypto κ} {synced : κ → κ → Prop} {tx : Direction κ}
    {a : DirectionAlgos} (hblk : a.blockSz = 8 ∨ a.blockSz = 16) {payload : Payload}
    {random : Nat → UInt8} {tail : Bytes} {todo : List (Payload × (Nat → UInt8))} {r : Receiver κ}
    (h : Opened cr synced tx (Sender.plainPacket a payload.octets random) tail todo r)
    (call : Call) :
    (call.held = true ∧ r.processPacket call = (.held payload, r)) ∨
      (call.held = false ∧ ∃ r', r.processPacket call = (.dispatched payload, r') ∧
        Between cr synced tx todo r' ∧ r'.processReplyState = .init ∧
        r'.dispatched = r.dispatched ++ [payload]) := by
  have hdo := doPacket_opened hblk h call.held
  unfold processPacket
  rw [hdo]
  by_cases hheld : call.held = true
  · refine .inl ⟨hheld, ?_⟩
    rw [if_pos hheld]
  · refine .inr ⟨by simpa using hheld, ?_⟩
    rw [if_neg hheld]
    obtain ⟨left, hunread, hleft⟩ := split_octets h.octets (by
      rw [List.length_append]
      exact h.there)
    have hcur := h.curSz
    have htail := h.tail
    have hthere := h.there
    have hun := Buffer.unread_length r.inputBuffer
    have hidx := h.ok.idx
    have hsame : r.rx.countPacket.algos = r.rx.algos := rfl
    have hok : ({ r.inputBuffer with
        idx := r.inputBuffer.idx + uint32Sz + r.curSz + r.rx.algos.macSz } : Buffer).Ok := by
      refine ⟨?_, h.ok.length⟩
      simp only [Buffer.length] at hun hidx ⊢
      omega
    have hrest : ({ r.inputBuffer with
        idx := r.inputBuffer.idx + uint32Sz + r.curSz + r.rx.algos.macSz } : Buffer).unread = left := by
      have hskip : r.inputBuffer.idx + uint32Sz + r.curSz + r.rx.algos.macSz = r.inputBuffer.idx +
          (Sender.plainPacket a payload.octets random ++ tail).length := by
        rw [List.length_append]
        omega
      have hun' : r.inputBuffer.bytes.drop r.inputBuffer.idx =
          Sender.plainPacket a payload.octets random ++ tail ++ left := hunread
      simp only [Buffer.unread, hskip, ← List.drop_drop, hun', List.drop_left]
    obtain ⟨hok', hunread', hsz⟩ := @Buffer.shrinkBuffer_spec _ hok
      (decide (r.inputBuffer.idx + uint32Sz + r.curSz + r.rx.algos.macSz ≥ r.inputBuffer.length))
      (fun hd => of_decide_eq_true hd)
    have hsmall := h.small
    refine ⟨_, rfl, ⟨hok', ?_, ?_, h.inStep⟩, rfl, rfl⟩
    · refine Nat.lt_of_le_of_lt hsz ?_
      simp only [staticBufferLen, aesBlockSize]
      omega
    · exact (congrArg (· ++ r.stream) (hunread'.trans hrest)).trans hleft

/-- The length of the packet at the read index is known, and the rest of it is still to be read or
decrypted; without AEAD its first block is in plain already. -/
structure Half (cr : Crypto κ) (synced : κ → κ → Prop) (tx tx' : Direction κ) (packet : Bytes)
    (todo : List (Payload × (Nat → UInt8))) (r : Receiver κ) : Prop where
  ok : r.inputBuffer.Ok
  small : r.inputBuffer.bufferSz < 2 ^ 32
  curSz : uint32Sz + r.curSz = packet.length
  algos : r.rx.algos = tx.algos
  opens : (tx.algos.aeadMode = false ∧ ∃ first rest mac rx rx₂,
      Opens cr synced tx rx packet first rest mac tx' r.rx rx₂ ∧ tx.algos.blockSz ≤ packet.length ∧
      r.inputBuffer.unread ++ r.stream =
        packet.take tx.algos.blockSz ++ rest ++ mac ++ frames cr tx' todo) ∨
    (tx.algos.aeadMode = true ∧ ∃ out tag rx', OpensAead cr synced tx r.rx packet out tag tx' rx' ∧
      r.inputBuffer.unread ++ r.stream =
        packet.take lengthSz ++ out ++ tag ++ frames cr tx' todo)

theorem openPacket_mac {cr : Crypto κ} {synced : κ → κ → Prop} {tx tx' rx rx₂ : Direction κ}
    {packet first rest mac : Bytes} {todo : List (Payload × (Nat → UInt8))} {r : Receiver κ}
    (hok : r.inputBuffer.Ok) (hsmall : r.inputBuffer.bufferSz < 2 ^ 32)
    (hcur : uint32Sz + r.curSz = packet.length) (haead : tx.algos.aeadMode = false)
    (ho : Opens cr synced tx rx packet first rest mac tx' r.rx rx₂)
    (hlong : tx.algos.blockSz ≤ packet.length)
    (hoctets : r.inputBuffer.unread ++ r.stream =
      packet.take tx.algos.blockSz ++ rest ++ mac ++ frames cr tx' todo)
    (hthere : packet.length + tx.algos.macSz ≤ r.inputBuffer.unread.length) (call : Call)
    (answers : List IoRecv) :
    ∃ r', r.openPacket cr call answers = r'.processPacket call ∧
      r'.processReplyState = .packet ∧ r'.dispatched = r.dispatched ∧
      Opened cr synced tx' packet mac todo r' := by
  have hrestLen := ho.rest_length
  have hmacLen := ho.mac_length
  have hhead : (packet.take tx.algos.blockSz ++ rest).length = uint32Sz + r.curSz := by
    rw [List.length_append, List.length_take]
    omega
  obtain ⟨left, hunread, hleft⟩ := split_octets hoctets (by
    rw [List.length_append]
    omega)
  have hpacket : r.inputBuffer.unread.take (uint32Sz + r.curSz) =
      packet.take tx.algos.blockSz ++ rest := by
    rw [hunread, ← hhead, List.append_assoc]
    exact List.take_left
  have hmac : (r.inputBuffer.unread.drop (uint32Sz + r.curSz)).take tx.algos.macSz = mac := by
    rw [hunread, ← hhead, List.append_assoc, List.drop_left, ← hmacLen]
    exact List.take_left
  have hfirst : (packet.take tx.algos.blockSz).length = tx.algos.blockSz := by
    rw [List.length_take]
    omega
  have hrest : (packet.take tx.algos.blockSz ++ rest).drop tx.algos.blockSz = rest :=
    List.drop_left' hfirst
  have hdec : (if r.curSz + uint32Sz > tx.algos.blockSz then r.rx.decrypt cr rest
      else .ok (r.rx, [])) = .ok (rx₂, packet.drop tx.algos.blockSz) := by
    rw [Nat.add_comm, hcur]
    exact ho.decrypt_rest
  obtain ⟨hok', hsz', hunread'⟩ := @Buffer.patch_spec _ hok tx.algos.blockSz
    (packet.drop tx.algos.blockSz) (by
      rw [List.length_drop]
      omega)
  have hplain : (r.inputBuffer.patch tx.algos.blockSz (packet.drop tx.algos.blockSz)).unread =
      packet ++ mac ++ left := by
    have htake : r.inputBuffer.unread.take tx.algos.blockSz = packet.take tx.algos.blockSz := by
      rw [hunread, List.append_assoc, List.append_assoc]
      exact List.take_left' hfirst
    have hdrop : r.inputBuffer.unread.drop (tx.algos.blockSz +
        (packet.drop tx.algos.blockSz).length) = mac ++ left := by
      have hskip : tx.algos.blockSz + (packet.drop tx.algos.blockSz).length =
          (packet.take tx.algos.blockSz ++ rest).length := by
        rw [hhead, List.length_drop]
        omega
      rw [hskip, hunread, List.append_assoc, List.drop_left]
    rw [hunread', htake, hdrop, List.take_append_drop, List.append_assoc]
  have hwhole : (packet ++ mac ++ left).take (uint32Sz + r.curSz) = packet := by
    rw [hcur, List.append_assoc]
    exact List.take_left
  refine ⟨{ r with
    rx := rx₂
    inputBuffer := r.inputBuffer.patch tx.algos.blockSz (packet.drop tx.algos.blockSz)
    processReplyState := .packet }, ?_, rfl, rfl, ⟨hok', ?_, hcur, ?_, ?_, ?_, ho.inStep⟩⟩
  · simp only [openPacket, ho.algos, haead, Bool.not_false, if_true, hpacket, hmac, hrest, hdec,
      hplain, hwhole, ho.verify]
  · exact hsz' ▸ hsmall
  · rw [hplain, List.append_assoc, hleft]
  · rw [hplain]
    simp only [List.length_append]
    omega
  · have hsame := ho.inStep.algos
    simp only [Direction.countPacket] at hsame
    simp only [hsame, ho.algos', hmacLen]

theorem openPacket_aead {cr : Crypto κ} {synced : κ → κ → Prop} {tx tx' rx' : Direction κ}
    {packet out tag : Bytes} {todo : List (Payload × (Nat → UInt8))} {r : Receiver κ}
    (hok : r.inputBuffer.Ok) (hsmall : r.inputBuffer.bufferSz < 2 ^ 32)
    (hcur : uint32Sz + r.curSz = packet.length) (haead : tx.algos.aeadMode = true)
    (halgos : r.rx.algos = tx.algos)
    (ho : OpensAead cr synced tx r.rx packet out tag tx' rx')
    (hoctets : r.inputBuffer.unread ++ r.stream =
      packet.take lengthSz ++ out ++ tag ++ frames cr tx' todo)
    (hthere : packet.length + tx.algos.macSz ≤ r.inputBuffer.unread.length) (call : Call)
    (answers : List IoRecv) :
    ∃ r', r.openPacket cr call answers = r'.processPacket call ∧
      r'.processReplyState = .packet ∧ r'.dispatched = r.dispatched ∧
      Opened cr synced tx' packet tag todo r' := by
  have houtLen := ho.out_length
  have htagLen := ho.tag_length
  have hlong : lengthSz ≤ packet.length := by
    rw [← hcur]
    exact Nat.le_add_right ..
  have hhead : (packet.take lengthSz ++ out).length = uint32Sz + r.curSz := by
    rw [List.length_append, List.length_take]
    omega
  obtain ⟨left, hunread, hleft⟩ := split_octets hoctets (by
    rw [List.length_append]
    omega)
  have hpacket : r.inputBuffer.unread.take (uint32Sz + r.curSz) = packet.take lengthSz ++ out := by
    rw [hunread, ← hhead, List.append_assoc]
    exact List.take_left
  have htag : (r.inputBuffer.unread.drop (uint32Sz + r.curSz)).take tx.algos.macSz = tag := by
    rw [hunread, ← hhead, List.append_assoc, List.drop_left, ← htagLen]
    exact List.take_left
  have hfirst : (packet.take lengthSz).length = uint32Sz := by
    rw [List.length_take]
    exact Nat.min_eq_left hlong
  have hauth : (packet.take lengthSz ++ out).take uint32Sz = packet.take lengthSz :=
    List.take_left' hfirst
  have hbody : (packet.take lengthSz ++ out).drop uint32Sz = out := List.drop_left' hfirst
  obtain ⟨hok', hsz', hunread'⟩ := @Buffer.patch_spec _ hok uint32Sz (packet.drop lengthSz) (by
    rw [List.length_drop, show lengthSz = uint32Sz from rfl]
    omega)
  have hplain : (r.inputBuffer.patch uint32Sz (packet.drop lengthSz)).unread =
      packet ++ tag ++ left := by
    have htake : r.inputBuffer.unread.take uint32Sz = packet.take lengthSz := by
      rw [hunread, List.append_assoc, List.append_assoc]
      exact List.take_left' hfirst
    have hdrop : r.inputBuffer.unread.drop (uint32Sz + (packet.drop lengthSz).length) =
        tag ++ left := by
      have hskip : uint32Sz + (packet.drop lengthSz).length = (packet.take lengthSz ++ out).length := by
        rw [hhead, List.length_drop, show lengthSz = uint32Sz from rfl]
        omega
      rw [hskip, hunread, List.append_assoc, List.drop_left]
    rw [hunread', htake, hdrop, List.take_append_drop, List.append_assoc]
  refine ⟨{ r with
    rx := rx'
    inputBuffer := r.inputBuffer.patch uint32Sz (packet.drop lengthSz)
    processReplyState := .packet }, ?_, rfl, rfl, ⟨hok', ?_, hcur, ?_, ?_, ?_, ho.inStep⟩⟩
  · simp only [openPacket, halgos, haead, Bool.not_true, Bool.false_eq_true, if_false, hpacket, htag,
      hauth, hbody, ho.decrypt]
  · exact hsz' ▸ hsmall
  · rw [hplain, List.append_assoc, hleft]
  · rw [hplain]
    simp only [List.length_append]
    omega
  · simp only [ho.algos, htagLen]

/-- Where a receiver can stand between two calls of `DoReceive`, with `todo` still to dispatch. -/
inductive Waiting (cr : Crypto κ) (synced : κ → κ → Prop) (tx : Direction κ) :
    List (Payload × (Nat → UInt8)) → Receiver κ → Prop where
  | between {todo r} : r.processReplyState = .init → Between cr synced tx todo r →
    Waiting cr synced tx todo r
  | half {payload random todo tx' r} : r.processReplyState = .packetFinish →
    Next cr tx payload random tx' →
    Half cr synced tx tx' (Sender.plainPacket tx.algos payload.octets random) todo r →
    Waiting cr synced tx ((payload, random) :: todo) r
  | opened {payload random tail todo tx' r} : r.processReplyState = .packet →
    Next cr tx payload random tx' →
    Opened cr synced tx' (Sender.plainPacket tx.algos payload.octets random) tail todo r →
    Waiting cr synced tx ((payload, random) :: todo) r

/-- What one call may do, and that it does dispatch when nothing stops it. -/
def Stepped (cr : Crypto κ) (synced : κ → κ → Prop) (tx : Direction κ)
    (todo : List (Payload × (Nat → UInt8))) (r : Receiver κ) (call : Call) (ready : Prop) :
    Received × Receiver κ → Prop
  | (.wantRead, r') => Waiting cr synced tx todo r' ∧ r'.dispatched = r.dispatched ∧
    (todo ≠ [] → ¬ ready)
  | (.held payload, r') => Waiting cr synced tx todo r' ∧ r'.dispatched = r.dispatched ∧
    call.held = true ∧ (todo.map Prod.fst).head? = some payload
  | (.dispatched payload, r') => ∃ random rest tx', todo = (payload, random) :: rest ∧
    Next cr tx payload random tx' ∧ r'.processReplyState = .init ∧ Between cr synced tx' rest r' ∧
    r'.dispatched = r.dispatched ++ [payload]
  | (.failed _, _) => False

theorem processPacket_stepped {cr : Crypto κ} {synced : κ → κ → Prop} {tx tx' : Direction κ}
    (hblk : tx.algos.blockSz = 8 ∨ tx.algos.blockSz = 16) {payload : Payload}
    {random : Nat → UInt8} {tail : Bytes} {todo : List (Payload × (Nat → UInt8))}
    {r₀ r : Receiver κ} (hstate : r.processReplyState = .packet) (hnext : Next cr tx payload random tx')
    (h : Opened cr synced tx' (Sender.plainPacket tx.algos payload.octets random) tail todo r)
    (hlog : r.dispatched = r₀.dispatched) (call : Call) (ready : Prop) :
    Stepped cr synced tx ((payload, random) :: todo) r₀ call ready (r.processPacket call) := by
  rcases processPacket_opened hblk h call with ⟨hheld, heq⟩ | ⟨hheld, r', heq, hbetween, hinit, hd⟩
  · rw [heq]
    exact ⟨.opened hstate hnext h, hlog, hheld, rfl⟩
  · rw [heq]
    exact ⟨random, todo, tx', rfl, hnext, hinit, hbetween, by rw [hd, hlog]⟩

theorem Half.fetched {cr : Crypto κ} {synced : κ → κ → Prop} {tx tx' : Direction κ} {packet : Bytes}
    {todo : List (Payload × (Nat → UInt8))} {r r' : Receiver κ}
    (h : Half cr synced tx tx' packet todo r) (hf : Fetched r r') :
    Half cr synced tx tx' packet todo r' := by
  have hb := hf.bounded
  have hsmall := h.small
  have hrx : r'.rx = r.rx := by rw [hf.rest]
  have hcur : r'.curSz = r.curSz := by rw [hf.rest]
  refine ⟨hf.ok, ?_, by rw [hcur, h.curSz], by rw [hrx, h.algos], ?_⟩
  · simp only [maxPacketSz] at hb
    omega
  · rw [hf.octets, hrx]
    exact h.opens

theorem Half.enough {cr : Crypto κ} {synced : κ → κ → Prop} {tx tx' : Direction κ} {packet : Bytes}
    {todo : List (Payload × (Nat → UInt8))} {r : Receiver κ}
    (h : Half cr synced tx tx' packet todo r) :
    packet.length + tx.algos.macSz ≤ r.inputBuffer.unread.length + r.stream.length := by
  rw [← List.length_append]
  rcases h.opens with ⟨-, first, rest, mac, rx, rx₂, ho, hlong, hoctets⟩ |
    ⟨-, out, tag, rx', ho, hoctets⟩
  · have hrest := ho.rest_length
    have hmac := ho.mac_length
    rw [hoctets]
    simp only [List.length_append, List.length_take]
    omega
  · have hout := ho.out_length
    have htag := ho.tag_length
    have hcur := h.curSz
    simp only [uint32Sz] at hcur
    rw [hoctets]
    simp only [List.length_append, List.length_take, lengthSz] at hout ⊢
    omega

theorem processPacketFinish_stepped {cr : Crypto κ} {synced : κ → κ → Prop} {tx tx' : Direction κ}
    (hblk : tx.algos.blockSz = 8 ∨ tx.algos.blockSz = 16) {payload : Payload}
    {random : Nat → UInt8} {todo : List (Payload × (Nat → UInt8))} {r₀ r : Receiver κ}
    (hfits : Fits tx.algos payload) (hstate : r.processReplyState = .packetFinish)
    (hnext : Next cr tx payload random tx')
    (h : Half cr synced tx tx' (Sender.plainPacket tx.algos payload.octets random) todo r)
    (hlog : r.dispatched = r₀.dispatched) (call : Call) (answers : List IoRecv) :
    Stepped cr synced tx ((payload, random) :: todo) r₀ call (Ready r.stream.length answers)
      (r.processPacketFinish cr call answers) := by
  have hlen := Sender.plainPacket_length tx.algos payload.octets random
  have hsize : uint32Sz + r.curSz + r.rx.algos.macSz ≤ maxPacketSz := by
    rw [h.curSz, h.algos, hlen]
    exact hfits
  obtain ⟨hfetched, hdone⟩ := @getInputData_fetched κ r _ answers h.ok hsize
  have hhalf := h.fetched hfetched
  have hlog' : (r.getInputData (uint32Sz + r.curSz + r.rx.algos.macSz) answers).2.2.dispatched =
      r₀.dispatched := by
    rw [hfetched.rest, ← hlog]
  have hstate' : (r.getInputData (uint32Sz + r.curSz + r.rx.algos.macSz)
      answers).2.2.processReplyState = .packetFinish := by
    rw [hfetched.rest, ← hstate]
  have hready : Ready r.stream.length answers →
      (r.getInputData (uint32Sz + r.curSz + r.rx.algos.macSz) answers).1 = true := by
    intro hr
    have henough := h.enough
    rw [← h.curSz, ← h.algos] at henough
    exact (getInputData_ready henough hr).1
  unfold processPacketFinish
  rcases hget : r.getInputData (uint32Sz + r.curSz + r.rx.algos.macSz) answers with
    ⟨done, answers', r'⟩
  rw [hget] at hfetched hdone hhalf hlog' hstate' hready
  cases done with
  | false =>
    refine ⟨.half hstate' hnext hhalf, hlog', fun _ hr => ?_⟩
    cases hready hr
  | true =>
    have hthere := hdone rfl
    rw [h.curSz, h.algos] at hthere
    rcases hhalf.opens with ⟨haead, first, rest, mac, rx, rx₂, ho, hlong, hoctets⟩ |
      ⟨haead, out, tag, rx', ho, hoctets⟩
    · obtain ⟨r₂, heq, hpkt, hlog₂, hopened⟩ := openPacket_mac hhalf.ok hhalf.small hhalf.curSz haead
        ho hlong hoctets hthere call answers'
      simp only [heq]
      exact processPacket_stepped hblk hpkt hnext hopened (hlog₂.trans hlog') call _
    · obtain ⟨r₂, heq, hpkt, hlog₂, hopened⟩ := openPacket_aead hhalf.ok hhalf.small hhalf.curSz
        haead hhalf.algos ho hoctets hthere call answers'
      simp only [heq]
      exact processPacket_stepped hblk hpkt hnext hopened (hlog₂.trans hlog') call _

theorem Half.head {cr : Crypto κ} {synced : κ → κ → Prop} {tx tx' : Direction κ} {packet : Bytes}
    {todo : List (Payload × (Nat → UInt8))} {r : Receiver κ}
    (hblk : tx.algos.blockSz = 8 ∨ tx.algos.blockSz = 16)
    (h : Half cr synced tx tx' packet todo r) (hthere : uint32Sz ≤ r.inputBuffer.unread.length) :
    r.inputBuffer.unread.take 4 = packet.take 4 := by
  have htake : r.inputBuffer.unread.take 4 = (r.inputBuffer.unread ++ r.stream).take 4 :=
    (List.take_append_of_le_length hthere).symm
  have hcur := h.curSz
  simp only [uint32Sz] at hcur
  rw [htake]
  rcases h.opens with ⟨-, first, rest, mac, rx, rx₂, ho, hlong, hoctets⟩ |
    ⟨-, out, tag, rx', ho, hoctets⟩
  · rw [hoctets, List.append_assoc, List.append_assoc, List.take_append_of_le_length, List.take_take]
    · congr 1
      omega
    · rw [List.length_take]
      omega
  · rw [hoctets, List.append_assoc, List.append_assoc, List.take_append_of_le_length, List.take_take]
    · rfl
    · rw [List.length_take, lengthSz]
      omega

theorem processPacketLength_stepped {cr : Crypto κ} {synced : κ → κ → Prop} {tx tx' : Direction κ}
    (hblk : tx.algos.blockSz = 8 ∨ tx.algos.blockSz = 16) {payload : Payload}
    {random : Nat → UInt8} {todo : List (Payload × (Nat → UInt8))} {r₀ r : Receiver κ}
    (hfits : Fits tx.algos payload) (hnext : Next cr tx payload random tx')
    (h : Half cr synced tx tx' (Sender.plainPacket tx.algos payload.octets random) todo
      { r with curSz := padLengthSz + payload.octets.length +
        Sender.paddingSz tx.algos payload.octets.length })
    (hthere : uint32Sz ≤ r.inputBuffer.unread.length)
    (hlog : r.dispatched = r₀.dispatched) (call : Call) (answers : List IoRecv) :
    Stepped cr synced tx ((payload, random) :: todo) r₀ call (Ready r.stream.length answers)
      (r.processPacketLength cr call answers) := by
  have hhead := h.head hblk hthere
  have hrx : r.rx.algos = tx.algos := h.algos
  have hun := Buffer.unread_length r.inputBuffer
  have hidx := h.ok.idx
  have hlen := h.ok.length
  simp only at hhead hidx hlen
  unfold Fits at hfits
  simp only [lengthSz, maxPacketSz] at hfits
  have hcur : ato32 r.inputBuffer.unread = padLengthSz + payload.octets.length +
      Sender.paddingSz tx.algos payload.octets.length := by
    have hpacket : (Sender.plainPacket tx.algos payload.octets random).take 4 = c32toa (padLengthSz +
        payload.octets.length + Sender.paddingSz tx.algos payload.octets.length) := by
      rw [Sender.plainPacket, List.append_assoc]
      exact List.take_left' (c32toa_length _)
    rw [ato32, hhead, hpacket]
    exact Octets.value_be (by omega)
  have hin : ¬ r.inputBuffer.idx + uint32Sz > r.inputBuffer.bufferSz := by omega
  have hsmall : ¬ padLengthSz + payload.octets.length +
      Sender.paddingSz tx.algos payload.octets.length >
        maxPacketSz - tx.algos.macSz - uint32Sz := by
    simp only [maxPacketSz, uint32Sz]
    omega
  have hmin : ¬ tx.algos.blockSz < minBlockSz := by
    simp only [minBlockSz]
    omega
  have halign : ¬ (if tx.algos.aeadMode = true then padLengthSz + payload.octets.length +
      Sender.paddingSz tx.algos payload.octets.length else uint32Sz + (padLengthSz +
        payload.octets.length + Sender.paddingSz tx.algos payload.octets.length)) %
          tx.algos.blockSz ≠ 0 := by
    have hmod := Sender.paddingSz_aligns hblk payload.octets.length
    cases haead : tx.algos.aeadMode with
    | true =>
      simp only [haead, if_true, Nat.zero_add] at hmod ⊢
      omega
    | false =>
      simp only [haead, Bool.false_eq_true, if_false, lengthSz, uint32Sz, Nat.add_assoc] at hmod ⊢
      omega
  simp only [processPacketLength, if_neg hin, hcur, hrx, if_neg hsmall, if_neg hmin, if_neg halign]
  have hhalf : Half cr synced tx tx' (Sender.plainPacket tx.algos payload.octets random) todo
      { r with
        curSz := padLengthSz + payload.octets.length +
          Sender.paddingSz tx.algos payload.octets.length
        processReplyState := .packetFinish } := ⟨h.ok, h.small, h.curSz, h.algos, h.opens⟩
  exact processPacketFinish_stepped hblk hfits rfl hnext hhalf hlog call answers

theorem Stepped.mono {cr : Crypto κ} {synced : κ → κ → Prop} {tx : Direction κ}
    {todo : List (Payload × (Nat → UInt8))} {r : Receiver κ} {call : Call} {ready ready' : Prop}
    {res : Received × Receiver κ} (h : Stepped cr synced tx todo r call ready' res)
    (himp : ready → ready') : Stepped cr synced tx todo r call ready res := by
  rcases res with ⟨res, r'⟩
  cases res with
  | wantRead => exact ⟨h.1, h.2.1, fun hne hr => h.2.2 hne (himp hr)⟩
  | held payload => exact h
  | dispatched payload => exact h
  | failed e => exact h

theorem Between.fetched {cr : Crypto κ} {synced : κ → κ → Prop} {tx : Direction κ}
    {todo : List (Payload × (Nat → UInt8))} {r r' : Receiver κ}
    (h : Between cr synced tx todo r) (hf : Fetched r r') : Between cr synced tx todo r' := by
  have hb := hf.bounded
  have hsmall := h.small
  refine ⟨hf.ok, ?_, hf.octets.trans h.octets, ?_⟩
  · simp only [maxPacketSz] at hb
    omega
  · rw [hf.rest]
    exact h.inStep

/-- The first block of a frame is there: it is decrypted in place, unless the mode is AEAD. -/
theorem processInit_opens {cr : Crypto κ} {synced : κ → κ → Prop} (hcr : Correct cr synced)
    {tx : Direction κ} (hkind : Kind tx.algos) {payload : Payload} {random : Nat → UInt8}
    {todo : List (Payload × (Nat → UInt8))} {r₀ r : Receiver κ} (hfits : Fits tx.algos payload)
    (h : Between cr synced tx ((payload, random) :: todo) r)
    (hthere : tx.algos.blockSz ≤ r.inputBuffer.unread.length)
    (hlog : r.dispatched = r₀.dispatched) (call : Call) (answers : List IoRecv) :
    Stepped cr synced tx ((payload, random) :: todo) r₀ call (Ready r.stream.length answers)
      (if !r.rx.algos.aeadMode then
        match r.rx.decrypt cr (r.inputBuffer.unread.take r.rx.algos.blockSz) with
        | .error e => (.failed e, r.wipeInputPacket r.rx.algos.blockSz)
        | .ok (rx, plain) =>
          { r with rx := rx, inputBuffer := r.inputBuffer.patch 0 plain }.processPacketLength cr call
            answers
      else r.processPacketLength cr call answers) := by
  have hblk := hkind.blockSz
  have hpacketLen := Sender.plainPacket_length tx.algos payload.octets random
  have hcur : uint32Sz + (padLengthSz + payload.octets.length +
      Sender.paddingSz tx.algos payload.octets.length) =
        (Sender.plainPacket tx.algos payload.octets random).length := by
    rw [hpacketLen]
    simp only [uint32Sz, lengthSz]
    omega
  rw [h.inStep.algos]
  have hoctets := h.octets
  cases haead : tx.algos.aeadMode with
  | true =>
    obtain ⟨out, tag, tx', rx', ho⟩ := hkind.opensAead hcr haead h.inStep
      (Sender.plainPacket tx.algos payload.octets random)
    rw [frames_cons ho.protect] at hoctets
    simp only [Bool.not_true, Bool.false_eq_true, if_false]
    refine processPacketLength_stepped hblk hfits ⟨⟨_, ho.protect⟩, ho.algos'⟩ ⟨h.ok, h.small, hcur, h.inStep.algos,
      .inr ⟨haead, out, tag, rx', ho, hoctets⟩⟩ ?_ hlog call answers
    simp only [uint32Sz]
    omega
  | false =>
    obtain ⟨hlong, hmod⟩ := plainPacket_blocks hkind haead payload.octets random
    obtain ⟨first, rest, mac, tx', rx₁, rx₂, ho⟩ := hkind.opens hcr haead h.inStep hlong hmod
    rw [frames_cons ho.protect] at hoctets
    simp only [List.append_assoc] at hoctets
    obtain ⟨left, hunread, hleft⟩ := split_octets hoctets (by rw [ho.first_length]; exact hthere)
    have hfirst : r.inputBuffer.unread.take tx.algos.blockSz = first := by
      rw [hunread]
      exact List.take_left' ho.first_length
    have hsize : ((Sender.plainPacket tx.algos payload.octets random).take tx.algos.blockSz).length =
        tx.algos.blockSz := by
      rw [List.length_take]
      omega
    obtain ⟨hok', hsz', hunread'⟩ := @Buffer.patch_spec _ h.ok 0
      ((Sender.plainPacket tx.algos payload.octets random).take tx.algos.blockSz) (by omega)
    rw [List.take_zero, List.nil_append, Nat.zero_add, hsize, hunread,
      List.drop_left' ho.first_length] at hunread'
    have hhalf : Half cr synced tx tx' (Sender.plainPacket tx.algos payload.octets random) todo
        { r with
          rx := rx₁
          inputBuffer := r.inputBuffer.patch 0
            ((Sender.plainPacket tx.algos payload.octets random).take tx.algos.blockSz)
          curSz := padLengthSz + payload.octets.length +
            Sender.paddingSz tx.algos payload.octets.length } := by
      refine ⟨hok', hsz' ▸ h.small, hcur, ho.algos,
        .inl ⟨haead, first, rest, mac, _, rx₂, ho, hlong, ?_⟩⟩
      simp only [hunread', List.append_assoc, hleft]
    simp only [Bool.not_false, if_true, hfirst, ho.decrypt_first]
    refine processPacketLength_stepped (r := { r with
      rx := rx₁
      inputBuffer := r.inputBuffer.patch 0
        ((Sender.plainPacket tx.algos payload.octets random).take tx.algos.blockSz) })
      hblk hfits ⟨⟨_, ho.protect⟩, ho.algos'⟩ hhalf ?_ hlog call answers
    simp only [hunread', List.length_append, hsize, uint32Sz]
    omega

theorem processInit_stepped {cr : Crypto κ} {synced : κ → κ → Prop} (hcr : Correct cr synced)
    {tx : Direction κ} (hkind : Kind tx.algos) {todo : List (Payload × (Nat → UInt8))}
    {r : Receiver κ} (hfits : ∀ p ∈ todo, Fits tx.algos p.1) (hstate : r.processReplyState = .init)
    (h : Between cr synced tx todo r) (call : Call) :
    Stepped cr synced tx todo r call (Ready r.stream.length call.answers)
      (r.processInit cr call) := by
  have hblk := hkind.blockSz
  have hsize : r.rx.algos.blockSz ≤ maxPacketSz := by
    rw [h.inStep.algos]
    simp only [maxPacketSz]
    omega
  obtain ⟨hfetched, hdone⟩ := @getInputData_fetched κ r _ call.answers h.ok hsize
  have hready := @getInputData_ready κ r r.rx.algos.blockSz call.answers
  unfold processInit
  rcases hget : r.getInputData r.rx.algos.blockSz call.answers with ⟨done, answers, r'⟩
  rw [hget] at hfetched hdone hready
  simp only at hfetched hdone hready
  have hbetween := h.fetched hfetched
  have hstate' : r'.processReplyState = .init := by rw [hfetched.rest, ← hstate]
  have hlog : r'.dispatched = r.dispatched := by rw [hfetched.rest]
  have hrx : r'.rx.algos = tx.algos := hbetween.inStep.algos
  cases todo with
  | nil =>
    cases done with
    | false => exact ⟨.between hstate' hbetween, hlog, fun hne => absurd rfl hne⟩
    | true =>
      have hlong := hdone rfl
      have hnil := hbetween.octets
      simp only [frames, frameList, List.flatten_nil, List.append_eq_nil_iff] at hnil
      simp only [hnil.1, List.length_nil] at hlong
      rw [h.inStep.algos] at hlong
      omega
  | cons p todo =>
    obtain ⟨payload, random⟩ := p
    have henough : r.rx.algos.blockSz ≤ r.inputBuffer.unread.length + r.stream.length := by
      obtain ⟨tx', out, hprot, -, -, hout⟩ := protect_ok hcr hkind h.inStep payload.octets random
      have hlong := plainPacket_long hblk payload.octets random
      rw [h.inStep.algos, ← List.length_append, h.octets, frames_cons hprot, List.length_append]
      omega
    cases done with
    | false =>
      refine ⟨.between hstate' hbetween, hlog, fun _ hr => ?_⟩
      cases (hready henough hr).1
    | true =>
      have hlong := hdone rfl
      rw [h.inStep.algos] at hlong
      have hmid : Between cr synced tx ((payload, random) :: todo)
          { r' with processReplyState := .packetLength } :=
        ⟨hbetween.ok, hbetween.small, hbetween.octets, hbetween.inStep⟩
      have hstep := processInit_opens hcr hkind (hfits _ (List.mem_cons_self ..)) hmid hlong hlog
        call answers
      exact hstep.mono fun hr => (hready henough hr).2

/-- One call of `DoReceive`, from wherever the call before it stopped. -/
theorem doReceive_stepped {cr : Crypto κ} {synced : κ → κ → Prop} (hcr : Correct cr synced)
    {tx : Direction κ} (hkind : Kind tx.algos) {todo : List (Payload × (Nat → UInt8))}
    {r : Receiver κ} (hfits : ∀ p ∈ todo, Fits tx.algos p.1) (h : Waiting cr synced tx todo r)
    (call : Call) :
    Stepped cr synced tx todo r call (Ready r.stream.length call.answers) (r.doReceive cr call) := by
  have hblk := hkind.blockSz
  cases h with
  | between hstate hbetween =>
    rw [doReceive, hstate]
    exact processInit_stepped hcr hkind hfits hstate hbetween call
  | half hstate hnext hhalf =>
    rw [doReceive, hstate]
    exact processPacketFinish_stepped hblk (hfits _ (List.mem_cons_self ..)) hstate hnext hhalf rfl
      call call.answers
  | opened hstate hnext hopened =>
    rw [doReceive, hstate]
    exact processPacket_stepped hblk hstate hnext hopened rfl call _

/-- Calls one after the other: what each returned, and the last state. -/
def receiveAll (cr : Crypto κ) (r : Receiver κ) : List Call → List Received × Receiver κ
  | [] => ([], r)
  | call :: calls =>
    let (o, r) := r.doReceive cr call
    let (os, r) := r.receiveAll cr calls
    (o :: os, r)

/-- The branches that framed input takes. -/
def Received.Fine : Received → Prop
  | .failed _ => False
  | _ => True

/-- After any calls: the first `k` payloads are dispatched and the receiver waits for the rest. -/
structure Reached (cr : Crypto κ) (synced : κ → κ → Prop) (tx : Direction κ)
    (todo : List (Payload × (Nat → UInt8))) (r : Receiver κ) (res : List Received × Receiver κ)
    (k : Nat) : Prop where
  fine : ∀ o ∈ res.1, Received.Fine o
  le : k ≤ todo.length
  dispatched : res.2.dispatched = r.dispatched ++ (todo.map Prod.fst).take k
  waiting : ∃ tx' rx', tx'.algos = tx.algos ∧ InStep synced tx' rx' ∧
    Waiting cr synced tx' (todo.drop k) res.2 ∧
    (frameList cr tx todo).drop k = frameList cr tx' (todo.drop k)

theorem receiveAll_reached {cr : Crypto κ} {synced : κ → κ → Prop} (hcr : Correct cr synced)
    {calls : List Call} {tx rx : Direction κ} (hkind : Kind tx.algos) (hstep : InStep synced tx rx)
    {todo : List (Payload × (Nat → UInt8))} {r : Receiver κ}
    (hfits : ∀ p ∈ todo, Fits tx.algos p.1) (h : Waiting cr synced tx todo r) :
    ∃ k, Reached cr synced tx todo r (r.receiveAll cr calls) k := by
  induction calls generalizing tx rx todo r with
  | nil =>
    refine ⟨0, ⟨?_, Nat.zero_le _, ?_, tx, rx, rfl, hstep, h, rfl⟩⟩
    · intro o ho
      cases ho
    · simp [receiveAll]
  | cons call calls ih =>
    have hdone := doReceive_stepped hcr hkind hfits h call
    rcases hdo : r.doReceive cr call with ⟨o, r'⟩
    rw [hdo] at hdone
    have hall : r.receiveAll cr (call :: calls) =
        (o :: (r'.receiveAll cr calls).1, (r'.receiveAll cr calls).2) := by
      simp only [receiveAll, hdo]
    rw [hall]
    -- a call that does not dispatch leaves the same payloads to do
    have hsame : Received.Fine o → Waiting cr synced tx todo r' → r'.dispatched = r.dispatched →
        ∃ k, Reached cr synced tx todo r
          (o :: (r'.receiveAll cr calls).1, (r'.receiveAll cr calls).2) k := by
      intro hfine hwait hlog
      obtain ⟨k, hk⟩ := ih hkind hstep hfits hwait
      refine ⟨k, ⟨?_, hk.le, by rw [← hlog]; exact hk.dispatched, hk.waiting⟩⟩
      intro o' ho'
      rcases List.mem_cons.mp ho' with rfl | ho'
      · exact hfine
      · exact hk.fine o' ho'
    cases o with
    | wantRead => exact hsame trivial hdone.1 hdone.2.1
    | held payload => exact hsame trivial hdone.1 hdone.2.1
    | failed e => exact absurd hdone id
    | dispatched payload =>
      obtain ⟨random, rest, tx', rfl, hnext, hinit, hbetween, hlog⟩ := hdone
      have hfits' : ∀ p ∈ rest, Fits tx'.algos p.1 := by
        intro p hp
        rw [hnext.algos]
        exact hfits p (List.mem_cons_of_mem _ hp)
      obtain ⟨k, hk⟩ := @ih tx' r'.rx (by rw [hnext.algos]; exact hkind) hbetween.inStep rest r' hfits'
        (.between hinit hbetween)
      obtain ⟨tx'', rx'', halgos, hin, hwait, hlist⟩ := hk.waiting
      refine ⟨k + 1, ⟨?_, Nat.succ_le_succ hk.le, ?_, tx'', rx'', halgos.trans hnext.algos,
        hin, hwait, ?_⟩⟩
      · intro o' ho'
        rcases List.mem_cons.mp ho' with rfl | ho'
        · trivial
        · exact hk.fine o' ho'
      · rw [hk.dispatched, hlog, List.append_assoc]
        rfl
      · rw [hnext.frameList rest k, hlist]
        rfl

theorem Waiting.octets {cr : Crypto κ} {synced : κ → κ → Prop} {tx : Direction κ}
    {todo : List (Payload × (Nat → UInt8))} {r : Receiver κ} (h : Waiting cr synced tx todo r) :
    r.processReplyState ≠ .discard ∧
      (r.processReplyState = .init → r.inputBuffer.unread ++ r.stream = frames cr tx todo) := by
  cases h with
  | between h hb => exact ⟨by rw [h]; decide, fun _ => hb.octets⟩
  | half h _ _ => exact ⟨by rw [h]; decide, fun hinit => by rw [h] at hinit; cases hinit⟩
  | opened h _ _ => exact ⟨by rw [h]; decide, fun hinit => by rw [h] at hinit; cases hinit⟩

theorem Ready.mono {m n : Nat} {answers : List IoRecv} (h : Ready n answers) (hle : m ≤ n) :
    Ready m answers := ⟨hle.trans h.1, h.2⟩

theorem Waiting.stream_le {cr : Crypto κ} {synced : κ → κ → Prop} (hcr : Correct cr synced)
    {tx : Direction κ} (hkind : Kind tx.algos) {rx : Direction κ} (hstep : InStep synced tx rx)
    {todo : List (Payload × (Nat → UInt8))} {r : Receiver κ} (h : Waiting cr synced tx todo r) :
    r.stream.length ≤ (frames cr tx todo).length := by
  have hnext : ∀ {payload random tx'} {rest : List (Payload × (Nat → UInt8))},
      Next cr tx payload random tx' → (frames cr tx ((payload, random) :: rest)).length =
        (Sender.plainPacket tx.algos payload.octets random).length + tx.algos.macSz +
          (frames cr tx' rest).length := by
    intro payload random tx' rest hn
    obtain ⟨out, hout⟩ := hn.protect
    obtain ⟨tx'', out', hprot, -, -, hlen⟩ := protect_ok hcr hkind hstep payload.octets random
    rw [hout] at hprot
    cases hprot
    rw [frames_cons hout, List.length_append, hlen]
  cases h with
  | between _ hbetween =>
    rw [← hbetween.octets, List.length_append]
    exact Nat.le_add_left ..
  | half _ hn hhalf =>
    rw [hnext hn]
    have hcur := hhalf.curSz
    simp only [uint32Sz] at hcur
    rcases hhalf.opens with ⟨-, first, rest, mac, rx, rx₂, ho, hlong, hoctets⟩ |
      ⟨-, out, tag, rx', ho, hoctets⟩
    · have htotal := congrArg List.length hoctets
      simp only [List.length_append, List.length_take, ho.rest_length, ho.mac_length] at htotal
      omega
    · have htotal := congrArg List.length hoctets
      simp only [List.length_append, List.length_take, ho.out_length, ho.tag_length,
        lengthSz] at htotal
      omega
  | opened _ hn hopened =>
    rw [hnext hn]
    have htotal := congrArg List.length hopened.octets
    have hthere := hopened.there
    simp only [List.length_append] at htotal
    omega

theorem receiveAll_completes {cr : Crypto κ} {synced : κ → κ → Prop} (hcr : Correct cr synced)
    {calls : List Call} {tx : Direction κ} (hkind : Kind tx.algos) {rx : Direction κ}
    (hstep : InStep synced tx rx) {todo : List (Payload × (Nat → UInt8))} {r : Receiver κ}
    (hfits : ∀ p ∈ todo, Fits tx.algos p.1) (h : Waiting cr synced tx todo r)
    (hcalls : ∀ c ∈ calls, c.held = false ∧ Ready (frames cr tx todo).length c.answers)
    (hmany : todo.length ≤ calls.length) :
    (r.receiveAll cr calls).2.dispatched = r.dispatched ++ todo.map Prod.fst := by
  induction calls generalizing tx rx todo r with
  | nil =>
    have hnil : todo = [] := List.length_eq_zero_iff.mp (by simpa using hmany)
    subst hnil
    simp [receiveAll]
  | cons call calls ih =>
    obtain ⟨hheld, hready⟩ := hcalls call (List.mem_cons_self ..)
    have hready' := hready.mono (h.stream_le hcr hkind hstep)
    have hdone := doReceive_stepped hcr hkind hfits h call
    rcases hdo : r.doReceive cr call with ⟨o, r'⟩
    rw [hdo] at hdone
    have hall : (r.receiveAll cr (call :: calls)).2 = (r'.receiveAll cr calls).2 := by
      simp only [receiveAll, hdo]
    rw [hall]
    cases o with
    | wantRead =>
      obtain ⟨hwait, hlog, hblocked⟩ := hdone
      have hnil : todo = [] := by
        by_contra hne
        exact hblocked hne hready'
      subst hnil
      rw [ih hkind hstep hfits hwait (fun c hc => hcalls c (List.mem_cons_of_mem _ hc))
        (Nat.zero_le _), hlog]
    | held payload =>
      have := hdone.2.2.1
      rw [hheld] at this
      cases this
    | failed e => exact absurd hdone id
    | dispatched payload =>
      obtain ⟨random, rest, tx', rfl, hnext, hinit, hbetween, hlog⟩ := hdone
      obtain ⟨out, hout⟩ := hnext.protect
      have hrun := @ih tx' (by rw [hnext.algos]; exact hkind) r'.rx hbetween.inStep rest r' (by
          intro p hp
          rw [hnext.algos]
          exact hfits p (List.mem_cons_of_mem _ hp)) (.between hinit hbetween) (by
          intro c hc
          obtain ⟨hh, hr⟩ := hcalls c (List.mem_cons_of_mem _ hc)
          rw [frames_cons hout, List.length_append] at hr
          exact ⟨hh, hr.mono (Nat.le_add_left ..)⟩) (by
          simp only [List.length_cons] at hmany
          omega)
      rw [hrun, hlog, List.append_assoc]
      rfl

end Receiver

/-- After the calls the first `k` payloads are dispatched, in order and once, no packet has been
refused, and enough further calls dispatch the rest. -/
structure RoundTrip (cr : Crypto κ) (tx : Direction κ) (sent : List (Payload × (Nat → UInt8)))
    (r : Receiver κ) (calls : List Call) (k : Nat) : Prop where
  /-- no call takes the branch of a rejected, ill-padded or oversized packet -/
  fine : ∀ o ∈ (r.receiveAll cr calls).1, Receiver.Received.Fine o
  notDiscarding : (r.receiveAll cr calls).2.processReplyState ≠ .discard
  /-- the payloads are dispatched in order and once -/
  dispatched : (r.receiveAll cr calls).2.dispatched = (sent.map Prod.fst).take k
  le : k ≤ sent.length
  /-- between packets the read index is at the start of the next frame -/
  aligned : (r.receiveAll cr calls).2.processReplyState = .init →
    (r.receiveAll cr calls).2.inputBuffer.unread ++ (r.receiveAll cr calls).2.stream =
      ((frameList cr tx sent).drop k).flatten
  /-- enough further calls that nothing holds up dispatch the rest -/
  completes : ∀ more : List Call, (∀ c ∈ more, c.held = false ∧
      Receiver.Ready (frames cr tx sent).length c.answers) → sent.length - k ≤ more.length →
    ((r.receiveAll cr calls).2.receiveAll cr more).2.dispatched = sent.map Prod.fst

/-- `DoReceive`'s alignment check and the bounds of the padding, for the frame of a payload. -/
def WellFramed (a : DirectionAlgos) (payload : Payload) : Prop :=
  let paddingSz := Sender.paddingSz a payload.octets.length
  let curSz := padLengthSz + payload.octets.length + paddingSz
  minPadLength ≤ paddingSz ∧ paddingSz ≤ 255 ∧
    (if a.aeadMode then curSz else uint32Sz + curSz) %
      (if a.blockSz < minBlockSz then minBlockSz else a.blockSz) = 0

theorem Kind.wellFramed {a : DirectionAlgos} (h : Kind a) (payload : Payload) :
    WellFramed a payload := by
  have hbounds := Sender.paddingSz_bounds h.blockSz payload.octets.length
  have halign := Sender.paddingSz_aligns h.blockSz payload.octets.length
  have hblk : ¬ a.blockSz < minBlockSz := by
    have := h.blockSz
    simp only [minBlockSz]
    omega
  refine ⟨hbounds.1, hbounds.2.2, ?_⟩
  rw [if_neg hblk]
  cases haead : a.aeadMode with
  | true =>
    simp only [haead, if_true, Nat.zero_add] at halign ⊢
    exact halign
  | false =>
    simp only [haead, Bool.false_eq_true, if_false, lengthSz, uint32Sz, Nat.add_assoc] at halign ⊢
    exact halign

/-- The start of a run: a sender with an empty output buffer, and a receiver in step with it that
may hold octets already (`DoProtoId` can leave some). -/
structure Start (synced : κ → κ → Prop) (s : Sender κ) (r : Receiver κ) : Prop where
  mode : Negotiated s.tx.algos
  inStep : InStep synced s.tx r.rx
  output : s.outputBuffer.Ok
  nothingSent : s.wire = [] ∧ s.outputBuffer.unread = []
  input : r.inputBuffer.Ok
  small : r.inputBuffer.bufferSz < 2 ^ 32
  state : r.processReplyState = .init
  log : r.dispatched = []

theorem flatten_drop_length_le (l : List Bytes) (k : Nat) :
    (l.drop k).flatten.length ≤ l.flatten.length := by
  have hsplit : l.flatten = (l.take k).flatten ++ (l.drop k).flatten := by
    rw [← List.flatten_append, List.take_append_drop]
  rw [hsplit, List.length_append]
  exact Nat.le_add_left ..

/-- For every mode, every run of the sender and every sequence of calls of `DoReceive`, however the
callback cuts the stream: the payloads arrive in order, each once. -/
theorem framing_round_trip {cr : Crypto κ} {synced : κ → κ → Prop} (hcr : Correct cr synced)
    {s : Sender κ} {r : Receiver κ} (hstart : Start synced s r) {es : List SendEvent}
    (hroom : ∀ e ∈ es, HasRoom e) (hfits : ∀ p ∈ sentPayloads es, Fits s.tx.algos p.1)
    (hstream : r.inputBuffer.unread ++ r.stream =
      (es.foldl (Sender.step cr) s).wire ++ (es.foldl (Sender.step cr) s).outputBuffer.unread)
    (calls : List Call) :
    (∀ p ∈ sentPayloads es, WellFramed s.tx.algos p.1) ∧
      ∃ k, RoundTrip cr s.tx (sentPayloads es) r calls k := by
  have hkind := hstart.mode.kind
  refine ⟨fun p _ => hkind.wellFramed p.1, ?_⟩
  have hrun := sender_run hcr hroom hkind hstart.output hstart.inStep
  rw [hstart.nothingSent.1, hstart.nothingSent.2, List.append_nil, List.nil_append] at hrun
  rw [hrun] at hstream
  have hwait : Receiver.Waiting cr synced s.tx (sentPayloads es) r :=
    .between hstart.state ⟨hstart.input, hstart.small, hstream, hstart.inStep⟩
  obtain ⟨k, hk⟩ := @Receiver.receiveAll_reached κ cr synced hcr calls s.tx r.rx hkind
    hstart.inStep _ r hfits hwait
  obtain ⟨tx', rx', halgos, hin, hwaiting, hlist⟩ := hk.waiting
  have hlog := hk.dispatched
  rw [hstart.log, List.nil_append] at hlog
  refine ⟨k, ⟨hk.fine, hwaiting.octets.1, hlog, hk.le, ?_, ?_⟩⟩
  · intro hinit
    rw [hlist]
    exact hwaiting.octets.2 hinit
  · intro more hmore hmany
    have hle : (frames cr tx' ((sentPayloads es).drop k)).length ≤
        (frames cr s.tx (sentPayloads es)).length := by
      rw [frames, ← hlist]
      exact flatten_drop_length_le _ k
    have hdone := @Receiver.receiveAll_completes κ cr synced hcr more tx' (by rw [halgos]; exact hkind)
      rx' hin _ _ (by
        intro p hp
        rw [halgos]
        exact hfits p (List.mem_of_mem_drop hp)) hwaiting
      (fun c hc => ⟨(hmore c hc).1, (hmore c hc).2.mono hle⟩) (by
        rw [List.length_drop]
        exact hmany)
    rw [hdone, hlog, List.map_drop, List.take_append_drop]

/-- The first two blocks that AES-128 in counter mode adds, from the zero counter on under the key
00 to 0f. -/
def keystream : Bytes :=
  [0xc6, 0xa1, 0x3b, 0x37, 0x87, 0x8f, 0x5b, 0x82, 0x6f, 0x4f, 0x81, 0x62, 0xa1, 0xc8, 0xd8, 0x79,
    0x73, 0x46, 0x13, 0x95, 0x95, 0xc0, 0xb4, 0x1e, 0x49, 0x7b, 0xbd, 0xe3, 0x65, 0xf4, 0x2d, 0x0a]

def ctrXor : Nat → Bytes → Bytes
  | _, [] => []
  | pos, b :: bs => (b ^^^ keystream.getD pos 0) :: ctrXor (pos + 1) bs

theorem length_ctrXor (pos : Nat) (bs : Bytes) : (ctrXor pos bs).length = bs.length := by
  induction bs generalizing pos with
  | nil => rfl
  | cons b bs ih => rw [ctrXor, List.length_cons, List.length_cons, ih]

theorem ctrXor_twice (pos : Nat) (bs : Bytes) : ctrXor pos (ctrXor pos bs) = bs := by
  induction bs generalizing pos with
  | nil => rfl
  | cons b bs ih => rw [ctrXor, ctrXor, ih, UInt8.xor_assoc, UInt8.xor_self, UInt8.xor_zero]

theorem ctrXor_append (pos : Nat) (as bs : Bytes) :
    ctrXor pos (as ++ bs) = ctrXor pos as ++ ctrXor (pos + as.length) bs := by
  induction as generalizing pos with
  | nil => rfl
  | cons a as ih =>
    rw [List.cons_append, ctrXor, ctrXor, ih, List.cons_append, List.length_cons, Nat.add_assoc,
      Nat.add_comm 1]

/-- Two packets and the HMAC-SHA-256 of each with the number it is sent under, for a key of 32 octets
0b. -/
def macTable : List (Bytes × Bytes) :=
  [([0, 0, 0, 3, 0, 0, 0, 12, 8, 2, 7, 7, 0, 1, 2, 3, 4, 5, 6, 7],
    [147, 160, 68, 221, 103, 168, 38, 84, 38, 108, 197, 186, 83, 55, 55, 178, 90, 113, 86, 145, 69,
      143, 57, 137, 104, 231, 248, 249, 121, 31, 55, 7]),
   ([0, 0, 0, 4, 0, 0, 0, 12, 10, 3, 0, 1, 2, 3, 4, 5, 6, 7, 8, 9],
    [13, 130, 242, 16, 214, 227, 211, 58, 197, 153, 80, 158, 97, 209, 57, 153, 65, 212, 151, 106, 106,
      116, 84, 170, 134, 65, 42, 24, 16, 201, 195, 14])]

/-- AES-128 in counter mode, whose context is the position in the keystream, and HMAC-SHA-256, as far
as two packets need them. -/
def ctrCrypto : Crypto Nat where
  encrypt _ pos input := some (pos + input.length, ctrXor pos input)
  decrypt _ pos input := some (pos + input.length, ctrXor pos input)
  hmac id _ input :=
    if id = .hmacSha2256 then (macTable.lookup input).getD (List.replicate 32 0)
    else List.replicate 64 0
  gcmEncrypt _ _ _ input tagSz := some (input, List.replicate tagSz 0)
  gcmDecrypt _ _ _ input _ := some input

theorem macTable_length {input mac : Bytes} (h : macTable.lookup input = some mac) :
    mac.length = 32 := by
  rw [macTable, List.lookup_cons, List.lookup_cons] at h
  split at h
  · cases h
    rfl
  · split at h
    · cases h
      rfl
    · cases h

theorem ctrCrypto_correct : Correct ctrCrypto Eq where
  encrypt := by
    rintro id e d input rfl -
    refine ⟨_, _, _, rfl, length_ctrXor e input, ?_, rfl⟩
    simp only [ctrCrypto, length_ctrXor, ctrXor_twice]
  encrypt_append := by
    intro id e e' e'' a b outA outB _ hA hB
    cases hA
    cases hB
    simp only [ctrCrypto, ctrXor_append, List.length_append, Nat.add_assoc]
  gcm := fun _ _ _ _ input tagSz _ => ⟨input, _, rfl, rfl, List.length_replicate, rfl⟩
  hmac := by
    intro id key input
    by_cases hid : id = .hmacSha2256
    · subst hid
      cases hlookup : macTable.lookup input with
      | none => simp [ctrCrypto, hlookup, macSzForId]
      | some mac =>
        have hlen := macTable_length hlookup
        simp [ctrCrypto, hlookup, hlen, macSzForId]
    · have hsz : macSzForId id ≤ 64 := by cases id <;> decide
      simpa [ctrCrypto, hid] using hsz

/-- The keys of one direction after the first exchange, which was three packets long. -/
def ctrDirection : Direction Nat where
  algos := algoIds .aes128Ctr (aeadModeForId .aes128Ctr) .hmacSha2256
  cipher := 0
  macKey := List.replicate 32 0x0b
  iv := []
  seq := 3

/-- Two packets under AES-128 in counter mode and HMAC-SHA-256, sent in parts and read in pieces of
one to three octets with waits between. -/
theorem framing_round_trip_ctr :
    let s : Sender Nat := { tx := ctrDirection }
    let es : List SendEvent := [.payload 3 ⟨2, [7, 7]⟩ UInt8.ofNat, .flush 5,
      .payload 1 ⟨3, []⟩ UInt8.ofNat, .flush 100]
    let r : Receiver Nat := { rx := ctrDirection, stream := (es.foldl (Sender.step ctrCrypto) s).wire }
    (∀ p ∈ sentPayloads es, WellFramed s.tx.algos p.1) ∧
      ∃ k, RoundTrip ctrCrypto s.tx (sentPayloads es) r
        [⟨[.data 3, .wantRead], false⟩,
          ⟨[.data 1, .isr, .data 2, .data 3, .data 30, .data 9], true⟩] k := by
  refine framing_round_trip ctrCrypto_correct ⟨@Negotiated.cipher .aes128Ctr .hmacSha2256 rfl rfl,
    ⟨rfl, rfl, rfl, rfl, rfl⟩,
    ⟨by decide, by decide⟩, ⟨rfl, rfl⟩, ⟨by decide, by decide⟩, by decide, rfl, rfl⟩ ?_ ?_ ?_ _
  · intro e he
    simp only [List.mem_cons, List.not_mem_nil, or_false] at he
    rcases he with rfl | rfl | rfl | rfl
    · exact Nat.le_refl _
    · trivial
    · exact Nat.le_refl _
    · trivial
  · intro p hp
    simp only [sentPayloads, List.mem_cons, List.not_mem_nil, or_false] at hp
    rcases hp with rfl | rfl
    · show (4 + 1 + 3 + Sender.paddingSz ctrDirection.algos 3 + 32 ≤ 35000)
      decide
    · show (4 + 1 + 1 + Sender.paddingSz ctrDirection.algos 1 + 32 ≤ 35000)
      decide
  · decide +kernel

end WolfSsh.Packet
