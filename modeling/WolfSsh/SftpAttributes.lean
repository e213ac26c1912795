import WolfSsh.SftpNames
import WolfSsh.WireGetters

/-! Attribute blocks: what SFTP_SetAttributes writes, and SFTP_ParseAttributes_buffer in 32-bit
arithmetic over a buffer of which `maxIdx` octets may be read. -/

namespace WolfSsh.Sftp

open Fallible

def attributesSz (atr : FileAtrb) : Nat :=
  uint32Sz + (if atr.has fileatrbSize then uint32Sz * 2 else 0) +
    (if atr.has fileatrbUidgid then uint32Sz * 2 else 0) +
    (if atr.has fileatrbPerm then uint32Sz else 0) +
    (if atr.has fileatrbTime then uint32Sz * 2 else 0) +
    (if atr.has fileatrbExt then uint32Sz else 0)

theorem length_setAttributes (atr : FileAtrb) : (setAttributes atr).length = attributesSz atr := by
  simp only [setAttributes, attributesSz, List.length_append, c32toa_length, uint32Sz,
    apply_ite List.length, List.length_nil]

structure FileAtrb.Fits (a : FileAtrb) : Prop where
  flags : a.flags < 2 ^ 32
  sz0 : a.sz0 < 2 ^ 32
  sz1 : a.sz1 < 2 ^ 32
  uid : a.uid < 2 ^ 32
  gid : a.gid < 2 ^ 32
  per : a.per < 2 ^ 32
  atime : a.atime < 2 ^ 32
  mtime : a.mtime < 2 ^ 32
  extCount : a.extCount < 2 ^ 32

/-- The flags and the flagged fields, in front of `n` extension pairs. -/
def FileAtrb.flagged (a : FileAtrb) (n : Nat) : FileAtrb where
  flags := a.flags
  sz0 := if a.has fileatrbSize then a.sz0 else 0
  sz1 := if a.has fileatrbSize then a.sz1 else 0
  uid := if a.has fileatrbUidgid then a.uid else 0
  gid := if a.has fileatrbUidgid then a.gid else 0
  per := if a.has fileatrbPerm then a.per else 0
  atime := if a.has fileatrbTime then a.atime else 0
  mtime := if a.has fileatrbTime then a.mtime else 0
  extCount := if a.has fileatrbExt then n else 0

/-- A type and a value of an extended attribute, as they stand in a packet. -/
def extendedPair (x : Bytes × Bytes) : Bytes := copyString x.1 ++ copyString x.2

/-- An attribute block as a peer writes it, its extended pairs at the end. -/
def attributesBlock (a : FileAtrb) (pairs : List (Bytes × Bytes)) : Bytes :=
  c32toa a.flags ++
    ((if a.has fileatrbSize then c32toa a.sz1 else []) ++
    ((if a.has fileatrbSize then c32toa a.sz0 else []) ++
    ((if a.has fileatrbUidgid then c32toa a.uid else []) ++
    ((if a.has fileatrbUidgid then c32toa a.gid else []) ++
    ((if a.has fileatrbPerm then c32toa a.per else []) ++
    ((if a.has fileatrbTime then c32toa a.atime else []) ++
    ((if a.has fileatrbTime then c32toa a.mtime else []) ++
    ((if a.has fileatrbExt then c32toa pairs.length else []) ++
      (if a.has fileatrbExt then pairs.flatMap extendedPair else [])))))))))

theorem setAttributes_block (a : FileAtrb) : setAttributes a = attributesBlock a [] := by
  rw [setAttributes, attributesBlock, ite_append, ite_append, ite_append]
  simp only [List.append_assoc, List.flatMap_nil, ite_self, List.append_nil, List.length_nil]

def PairsFit (pairs : List (Bytes × Bytes)) : Prop :=
  pairs.length < 2 ^ 32 ∧ ∀ x ∈ pairs, x.1.length < 2 ^ 32 ∧ x.2.length < 2 ^ 32

theorem decodes_skip {str : Bytes} (hn : str.length < 2 ^ 32) :
    Decodes getSkip (copyString str) () := by
  intro buf idx rest h
  rw [copyString, List.append_assoc] at h
  rw [copyString, List.length_append, c32toa_length, ← Nat.add_assoc]
  exact getSkip_yields h hn

theorem decodes_extensions {pairs : List (Bytes × Bytes)}
    (h : ∀ x ∈ pairs, x.1.length < 2 ^ 32 ∧ x.2.length < 2 ^ 32) :
    Decodes (fun buf => skipExtensions buf pairs.length) (pairs.flatMap extendedPair) () := by
  induction pairs with
  | nil => exact Decodes.pure ()
  | cons x xs ih =>
    have hx := h x List.mem_cons_self
    rw [List.flatMap_cons, extendedPair, List.append_assoc]
    refine (decodes_skip hx.1).bind ?_
    refine (decodes_skip hx.2).bind ?_
    exact ih fun y hy => h y (List.mem_cons_of_mem x hy)

theorem decodes_flagged {present : Bool} {n : Nat} (hn : n < 2 ^ 32) :
    Decodes (fun buf => when32 buf present) (if present then c32toa n else [])
      (if present then n else 0) := by
  cases present with
  | true => exact decodes_uint32 hn
  | false => exact Decodes.pure 0

/-- A block is read back to its flags and flagged fields, over its extended pairs. -/
theorem decodes_block {a : FileAtrb} (h : a.Fits) {pairs : List (Bytes × Bytes)} (hpairs : PairsFit pairs) :
    Decodes parseAttributesBuffer (attributesBlock a pairs) (a.flagged pairs.length) := by
  have hextensions : Decodes (fun buf => skipExtensions buf (if a.has fileatrbExt then pairs.length else 0))
      (if a.has fileatrbExt then pairs.flatMap extendedPair else []) () := by
    cases a.has fileatrbExt with
    | true => exact decodes_extensions hpairs.2
    | false => exact Decodes.pure ()
  rw [attributesBlock]
  unfold parseAttributesBuffer
  refine (decodes_uint32 h.flags).bind ?_
  refine (decodes_flagged h.sz1).bind ?_
  refine (decodes_flagged h.sz0).bind ?_
  refine (decodes_flagged h.uid).bind ?_
  refine (decodes_flagged h.gid).bind ?_
  refine (decodes_flagged h.per).bind ?_
  refine (decodes_flagged h.atime).bind ?_
  refine (decodes_flagged h.mtime).bind ?_
  refine (decodes_flagged hpairs.1).bind ?_
  exact hextensions.map fun _ => a.flagged pairs.length

/-! What is read is a block. -/

section Splits

variable {buf : Bytes} {idx i : Nat}

theorem when32_splits {present : Bool} {v : Nat} (h : Yields (when32 buf present) idx v i) :
    buf.drop idx = (if present then c32toa v else []) ++ buf.drop i ∧
      i = idx + (if present then c32toa v else []).length ∧ (present = false → v = 0) := by
  cases present with
  | true =>
    obtain ⟨hdrop, hi⟩ := Words.getUint32_splits h
    exact ⟨hdrop, by rwa [if_pos rfl, c32toa_length], nofun⟩
  | false =>
    obtain ⟨rfl, rfl⟩ := yields_pure_iff.mp h
    exact ⟨rfl, rfl, fun _ => rfl⟩

theorem skipExtensions_splits {n : Nat} (h : Yields (skipExtensions buf n) idx () i) :
    ∃ pairs : List (Bytes × Bytes), pairs.length = n ∧
      buf.drop idx = pairs.flatMap extendedPair ++ buf.drop i ∧
      i = idx + (pairs.flatMap extendedPair).length := by
  induction n generalizing idx with
  | zero =>
    obtain ⟨-, rfl⟩ := yields_pure_iff.mp h
    exact ⟨[], rfl, rfl, rfl⟩
  | succ n ih =>
    obtain ⟨⟨⟩, mid, htype, h⟩ := yields_bind_iff.mp h
    obtain ⟨⟨⟩, mid', hvalue, h⟩ := yields_bind_iff.mp h
    obtain ⟨type, htdrop, hmid⟩ := Words.getSkip_splits htype
    obtain ⟨value, hvdrop, hmid'⟩ := Words.getSkip_splits hvalue
    obtain ⟨pairs, hn, hdrop, hi⟩ := ih h
    refine ⟨(type, value) :: pairs, by rw [List.length_cons, hn], ?_, ?_⟩
    · rw [List.flatMap_cons, extendedPair, htdrop, hvdrop, hdrop]
      simp only [List.append_assoc]
    · rw [hi, hmid', hmid, List.flatMap_cons, extendedPair]
      simp only [copyString, List.length_append, c32toa_length]
      omega

theorem ite_of_blank {α : Type} {present : Bool} {a b : α} (h : present = false → a = b) :
    (if present then a else b) = a := by
  cases present with
  | true => rfl
  | false => exact (h rfl).symm

/-- A read of attributes moves over a block that has them, with as many extended pairs as it counts. -/
theorem parseAttributes_splits {a : FileAtrb} (h : Yields (parseAttributesBuffer buf) idx a i) :
    ∃ pairs, a = a.flagged pairs.length ∧ buf.drop idx = attributesBlock a pairs ++ buf.drop i ∧
      i = idx + (attributesBlock a pairs).length := by
  obtain ⟨flags, i₀, h₀, h⟩ := yields_bind_iff.mp h
  obtain ⟨sz1, i₁, h₁, h⟩ := yields_bind_iff.mp h
  obtain ⟨sz0, i₂, h₂, h⟩ := yields_bind_iff.mp h
  obtain ⟨uid, i₃, h₃, h⟩ := yields_bind_iff.mp h
  obtain ⟨gid, i₄, h₄, h⟩ := yields_bind_iff.mp h
  obtain ⟨per, i₅, h₅, h⟩ := yields_bind_iff.mp h
  obtain ⟨atime, i₆, h₆, h⟩ := yields_bind_iff.mp h
  obtain ⟨mtime, i₇, h₇, h⟩ := yields_bind_iff.mp h
  obtain ⟨extCount, i₈, h₈, h⟩ := yields_bind_iff.mp h
  obtain ⟨⟨⟩, i₉, h₉, h⟩ := yields_bind_iff.mp h
  obtain ⟨ha, rfl⟩ := yields_pure_iff.mp h
  have hhas (bit : Nat) : (flags &&& bit != 0) = a.has bit := by
    rw [← ha]
    rfl
  simp only [hhas] at h₁ h₂ h₃ h₄ h₅ h₆ h₇ h₈
  obtain rfl : flags = a.flags := congrArg FileAtrb.flags ha
  obtain rfl : sz1 = a.sz1 := congrArg FileAtrb.sz1 ha
  obtain rfl : sz0 = a.sz0 := congrArg FileAtrb.sz0 ha
  obtain rfl : uid = a.uid := congrArg FileAtrb.uid ha
  obtain rfl : gid = a.gid := congrArg FileAtrb.gid ha
  obtain rfl : per = a.per := congrArg FileAtrb.per ha
  obtain rfl : atime = a.atime := congrArg FileAtrb.atime ha
  obtain rfl : mtime = a.mtime := congrArg FileAtrb.mtime ha
  obtain rfl : extCount = a.extCount := congrArg FileAtrb.extCount ha
  obtain ⟨hd₀, e₀⟩ := Words.getUint32_splits h₀
  obtain ⟨hd₁, e₁, z₁⟩ := when32_splits h₁
  obtain ⟨hd₂, e₂, z₂⟩ := when32_splits h₂
  obtain ⟨hd₃, e₃, z₃⟩ := when32_splits h₃
  obtain ⟨hd₄, e₄, z₄⟩ := when32_splits h₄
  obtain ⟨hd₅, e₅, z₅⟩ := when32_splits h₅
  obtain ⟨hd₆, e₆, z₆⟩ := when32_splits h₆
  obtain ⟨hd₇, e₇, z₇⟩ := when32_splits h₇
  obtain ⟨hd₈, e₈, z₈⟩ := when32_splits h₈
  obtain ⟨pairs, hn, hd₉, e₉⟩ := skipExtensions_splits h₉
  have hnone (hext : a.has fileatrbExt = false) : pairs.flatMap extendedPair = [] := by
    obtain rfl := List.length_eq_zero_iff.mp (hn.trans (z₈ hext))
    rfl
  refine ⟨pairs, ?_, ?_, ?_⟩
  · rw [FileAtrb.flagged, hn, ite_of_blank z₁, ite_of_blank z₂, ite_of_blank z₃, ite_of_blank z₄,
      ite_of_blank z₅, ite_of_blank z₆, ite_of_blank z₇, ite_of_blank z₈]
  · rw [attributesBlock, hn, ite_of_blank hnone]
    simp only [List.append_assoc]
    rw [← hd₉, ← hd₈, ← hd₇, ← hd₆, ← hd₅, ← hd₄, ← hd₃, ← hd₂, ← hd₁, hd₀]
  · rw [attributesBlock, hn, ite_of_blank hnone]
    simp only [List.length_append, c32toa_length]
    omega

end Splits

end WolfSsh.Sftp

/-! The parser over a buffer in memory. -/

namespace WolfSsh.Words

open Fallible
open Sftp (FileAtrb fileatrbSize fileatrbUidgid fileatrbPerm fileatrbTime fileatrbExt)

def skipExtensions (p : Payload) : Nat → WordReader Unit
  | 0 => pure ()
  | n + 1 => do
    getSkip p
    getSkip p
    skipExtensions p n

def when32 (p : Payload) (present : Bool) : WordReader UInt32 :=
  if present then getUint32 p else pure 0

/-- SFTP_ParseAttributes_buffer on its `localIdx`. -/
def readAttributes (p : Payload) : WordReader FileAtrb := do
  let flags ← getUint32 p
  let present (bit : Nat) : Bool := flags.toNat &&& bit != 0
  let sz1 ← when32 p (present fileatrbSize)
  let sz0 ← when32 p (present fileatrbSize)
  let uid ← when32 p (present fileatrbUidgid)
  let gid ← when32 p (present fileatrbUidgid)
  let per ← when32 p (present fileatrbPerm)
  let atime ← when32 p (present fileatrbTime)
  let mtime ← when32 p (present fileatrbTime)
  let extCount ← when32 p (present fileatrbExt)
  skipExtensions p extCount.toNat
  return ⟨flags.toNat, sz0.toNat, sz1.toNat, uid.toNat, gid.toNat, per.toNat, atime.toNat,
    mtime.toNat, extCount.toNat⟩

/-- SFTP_ParseAttributes_buffer: the index that it leaves in `*idx` comes with the result. -/
def parseAttributesBuffer (p : Payload) (idx : UInt32) : Except Stop FileAtrb × UInt32 :=
  match (readAttributes p).runAt idx with
  | (.ok atr, localIdx) => (.ok atr, localIdx)
  | (.error (.failed _), _) => (.error (.failed .bufferE), idx)
  | (.error .outside, _) => (.error .outside, idx)

section Follows

variable {p : Payload} {idx : UInt32}

theorem when32_follows {present : Bool} (hidx : idx.toNat ≤ p.len.toNat) :
    Follows p idx (when32 p present) (Sftp.when32 p.octets present) (fun v _ n => v.toNat = n) := by
  cases present with
  | true =>
    obtain ⟨i, hge, hle, ⟨v, n, hw, hr, hv, -⟩ | hfail⟩ := getUint32_follows hidx
    · exact ⟨i, hge, hle, .inl ⟨v, n, hw, hr, hv⟩⟩
    · exact ⟨i, hge, hle, .inr hfail⟩
  | false => exact Follows.pure hidx rfl

theorem skipExtensions_follows (n : Nat) (hidx : idx.toNat ≤ p.len.toNat) :
    Follows p idx (skipExtensions p n) (Sftp.skipExtensions p.octets n) (fun _ _ _ => True) := by
  induction n generalizing idx with
  | zero => exact Follows.pure hidx trivial
  | succ n ih =>
    refine (getSkip_follows hidx).bind fun _ _ i _ hle _ => ?_
    exact (getSkip_follows hle).bind fun _ _ j _ hle' _ => ih hle'

theorem readAttributes_follows (hidx : idx.toNat ≤ p.len.toNat) :
    Follows p idx (readAttributes p) (Sftp.parseAttributesBuffer p.octets) (fun a _ b => a = b) := by
  refine (getUint32_follows hidx).bind ?_
  rintro flags _ i₀ - h₀ ⟨rfl, -⟩
  refine (when32_follows h₀).bind ?_
  rintro sz1 _ i₁ - h₁ rfl
  refine (when32_follows h₁).bind ?_
  rintro sz0 _ i₂ - h₂ rfl
  refine (when32_follows h₂).bind ?_
  rintro uid _ i₃ - h₃ rfl
  refine (when32_follows h₃).bind ?_
  rintro gid _ i₄ - h₄ rfl
  refine (when32_follows h₄).bind ?_
  rintro per _ i₅ - h₅ rfl
  refine (when32_follows h₅).bind ?_
  rintro atime _ i₆ - h₆ rfl
  refine (when32_follows h₆).bind ?_
  rintro mtime _ i₇ - h₇ rfl
  refine (when32_follows h₇).bind ?_
  rintro extCount _ i₈ - h₈ rfl
  refine (skipExtensions_follows _ h₈).bind ?_
  rintro - - i₉ - h₉ -
  exact Follows.pure h₉ rfl

theorem readAttributes_beyond (hidx : ¬idx.toNat ≤ p.len.toNat) :
    (readAttributes p).runAt idx = (.error (.failed .bufferE), idx) := by
  have hlt : ¬(idx < p.len ∧ 4 ≤ p.len - idx) := by
    rw [UInt32.lt_iff_toNat_lt]
    omega
  rw [readAttributes, runAt_bind, getUint32, runAt_bind, runAt_get]
  simp only [if_neg hlt, runAt_throw]

/-- The parser takes a block and moves over it, or it fails and leaves `*idx`; it reads nothing behind
`maxIdx`. -/
theorem parseAttributesBuffer_outcome (p : Payload) (idx : UInt32) :
    (∃ a i pairs, parseAttributesBuffer p idx = (.ok a, i) ∧ a = a.flagged pairs.length ∧
      Rest p.octets idx.toNat (Sftp.attributesBlock a pairs ++ p.octets.drop i.toNat) ∧
      i.toNat = idx.toNat + (Sftp.attributesBlock a pairs).length ∧ i.toNat ≤ p.len.toNat) ∨
    parseAttributesBuffer p idx = (.error (.failed .bufferE), idx) := by
  by_cases hidx : idx.toNat ≤ p.len.toNat
  · obtain ⟨i, -, hle, ⟨a, _, hw, hr, rfl⟩ | ⟨e, hw, -⟩⟩ := readAttributes_follows hidx
    · obtain ⟨pairs, hflagged, hdrop, hi⟩ := Sftp.parseAttributes_splits hr
      refine .inl ⟨a, i, pairs, ?_, hflagged, hdrop, hi, hle⟩
      rw [Yields] at hw
      rw [parseAttributesBuffer, hw]
    · right
      rw [parseAttributesBuffer, hw]
  · right
    rw [parseAttributesBuffer, readAttributes_beyond hidx]

theorem parseAttributesBuffer_block {a : FileAtrb} (h : a.Fits) {pairs : List (Bytes × Bytes)}
    (hpairs : Sftp.PairsFit pairs) {rest : Bytes}
    (hrest : Rest p.octets idx.toNat (Sftp.attributesBlock a pairs ++ rest)) :
    ∃ i, parseAttributesBuffer p idx = (.ok (a.flagged pairs.length), i) ∧
      i.toNat = idx.toNat + (Sftp.attributesBlock a pairs).length := by
  have hlen := hrest.length
  have hidx : idx.toNat ≤ p.len.toNat := by
    rw [List.length_append, Payload.length_octets, Sftp.attributesBlock, List.length_append,
      c32toa_length] at hlen
    omega
  have hr := Sftp.decodes_block h hpairs _ _ _ hrest
  obtain ⟨_, i, hw, hi, rfl⟩ := (readAttributes_follows hidx).yields hr
  refine ⟨i, ?_, hi⟩
  rw [Yields] at hw
  rw [parseAttributesBuffer, hw]

end Follows

end WolfSsh.Words
