import WolfSsh.Lib.Octets
import WolfSsh.Lib.Fallible

/-! The wire encodings of the transport: 32-bit lengths, strings, booleans and mpints, with the
readers that walk a received buffer. -/

namespace WolfSsh

abbrev Bytes := List UInt8

/-- The negative return codes of the library that the modelled functions use. -/
inductive WsErr where
  | error | badArgument | memoryE | bufferE | parseE | overflowE | socketErrorE
  | wantRead | wantWrite | unimplementedE | invalidAlgoId | cryptoFailed | invalidStateE
  | matchKexAlgoE | matchKeyAlgoE | matchEncAlgoE | matchMacAlgoE | msgidNotAllowedE
  | versionE | dhSizeE | pubkeyRejectedE | encryptE | decryptE | verifyMacE | fatalError
  | invalidChanid | channelNotConf | channelClosed | chanopenFailed | rekeying | disconnect
  | userAuthE | authPending | badUsage | invalidPrimeCurve | resourceE | eof | chanRxd | extdata
deriving DecidableEq, Repr

def lengthSz : Nat := 4
def uint32Sz : Nat := 4
def booleanSz : Nat := 1
def msgIdSz : Nat := 1
def padLengthSz : Nat := 1

def c32toa (n : Nat) : Bytes := Octets.be 4 n

def ato32 (bs : Bytes) : Nat := Octets.value (bs.take 4)

@[simp] theorem c32toa_length (n : Nat) : (c32toa n).length = 4 := Octets.be_length 4 n

def copyString (str : Bytes) : Bytes := c32toa str.length ++ str

theorem ato32_c32toa {n : Nat} (hn : n < 2 ^ 32) (rest : Bytes) : ato32 (c32toa n ++ rest) = n := by
  have ht : (c32toa n ++ rest).take 4 = c32toa n := by simp
  rw [ato32, ht]
  exact Octets.value_be (by simpa using hn)

/-- A reader of a buffer moves the index into it; a failed read may have moved it too. -/
abbrev Reader := Fallible WsErr Nat

def getBoolean (buf : Bytes) : Reader Bool := do
  let idx ← get
  if h : idx < buf.length then
    set (idx + booleanSz)
    return buf[idx] != 0
  else
    throw .bufferE

def getUint32 (buf : Bytes) : Reader Nat := do
  let idx ← get
  if idx < buf.length ∧ uint32Sz ≤ buf.length - idx then
    set (idx + uint32Sz)
    return ato32 (buf.drop idx)
  else
    throw .bufferE

def getSize (buf : Bytes) : Reader Nat := do
  let v ← getUint32 buf
  let idx ← get
  if v > buf.length - idx then
    throw .bufferE
  return v

def getSkip (buf : Bytes) : Reader Unit := do
  let sz ← getSize buf
  modify (· + sz)

def getStringRef (buf : Bytes) : Reader Bytes := do
  let strSz ← getUint32 buf
  let idx ← get
  if idx ≤ buf.length ∧ strSz ≤ buf.length - idx then
    set (idx + strSz)
    return (buf.drop idx).take strSz
  else
    throw .bufferE

/-- Copies what fits a buffer of `sz` octets, the closing NUL included. -/
def getString (sz : Nat) (buf : Bytes) : Reader Bytes := do
  if sz = 0 then
    throw .bufferE
  let str ← getStringRef buf
  return str.take (sz - 1)

/-- `memory` tells whether the allocation succeeds. -/
def getStringAlloc (memory : Bool) (buf : Bytes) : Reader Bytes := do
  let str ← getStringRef buf
  if memory then
    return str
  else
    throw .memoryE

def getMpint (buf : Bytes) : Reader Bytes := do
  let mpint ← getStringRef buf
  match mpint with
  | [] => return mpint
  | b :: _ => if b &&& 0x80 != 0 then throw .parseE else return mpint

open Fallible

/-- `rest` is what a buffer holds from an index on. -/
def Rest (buf : Bytes) (idx : Nat) (rest : Bytes) : Prop := buf.drop idx = rest

theorem Rest.skip {buf str rest : Bytes} {idx : Nat} (h : Rest buf idx (str ++ rest)) :
    Rest buf (idx + str.length) rest := by
  rw [Rest, ← List.drop_drop, h, List.drop_left]

theorem Rest.skip_uint32 {buf rest : Bytes} {idx n : Nat} (h : Rest buf idx (c32toa n ++ rest)) :
    Rest buf (idx + 4) rest := by
  simpa using h.skip

theorem Rest.length {buf rest : Bytes} {idx : Nat} (h : Rest buf idx rest) :
    buf.length - idx = rest.length := by
  rw [← h, List.length_drop]

theorem getUint32_yields {buf rest : Bytes} {idx n : Nat} (h : Rest buf idx (c32toa n ++ rest))
    (hn : n < 2 ^ 32) : Yields (getUint32 buf) idx n (idx + 4) := by
  have hlen := h.length
  rw [List.length_append, c32toa_length] at hlen
  have hin : idx < buf.length ∧ 4 ≤ buf.length - idx := by omega
  have hv : ato32 (buf.drop idx) = n := by rw [h, ato32_c32toa hn]
  simp only [Yields, getUint32, runAt_bind, runAt_get, if_pos hin, runAt_set, runAt_pure,
    uint32Sz, hv]

theorem getBoolean_yields {buf rest : Bytes} {idx : Nat} {b : UInt8} (h : Rest buf idx (b :: rest)) :
    Yields (getBoolean buf) idx (b != 0) (idx + 1) := by
  have hlen := h.length
  rw [List.length_cons] at hlen
  have hin : idx < buf.length := by omega
  have hb : buf[idx] = b := by
    have hd := List.drop_eq_getElem_cons hin
    rw [h] at hd
    exact (List.cons.inj hd).1.symm
  simp only [Yields, getBoolean, runAt_bind, runAt_get, dif_pos hin, runAt_set, runAt_pure,
    booleanSz, hb]

theorem getStringRef_yields {buf str rest : Bytes} {idx : Nat}
    (h : Rest buf idx (c32toa str.length ++ (str ++ rest))) (hn : str.length < 2 ^ 32) :
    Yields (getStringRef buf) idx str (idx + 4 + str.length) := by
  refine (getUint32_yields h hn).bind ?_
  have hs : (buf.drop (idx + 4)).take str.length = str := by rw [h.skip_uint32, List.take_left]
  have hlen := h.length
  rw [List.length_append, List.length_append, c32toa_length] at hlen
  have hin : idx + 4 ≤ buf.length ∧ str.length ≤ buf.length - (idx + 4) := by omega
  simp only [Yields, runAt_bind, runAt_get, if_pos hin, runAt_set, runAt_pure, hs]

theorem getSkip_yields {buf str rest : Bytes} {idx : Nat}
    (h : Rest buf idx (c32toa str.length ++ (str ++ rest))) (hn : str.length < 2 ^ 32) :
    Yields (getSkip buf) idx () (idx + 4 + str.length) := by
  have hlen := h.length
  rw [List.length_append, List.length_append, c32toa_length] at hlen
  have hin : ¬ str.length > buf.length - (idx + 4) := by omega
  have hsz : Yields (getSize buf) idx str.length (idx + 4) := by
    refine (getUint32_yields h hn).bind ?_
    simp only [Yields, runAt_bind, runAt_get, if_neg hin, runAt_pure]
  exact hsz.bind rfl

theorem c32toa_ato32 {bs : Bytes} (h : 4 ≤ bs.length) : c32toa (ato32 bs) = bs.take 4 := by
  have hlen : (bs.take 4).length = 4 := by simpa using h
  have hlt := Octets.value_lt (bs.take 4)
  rw [hlen] at hlt
  refine Octets.value_inj (by rw [c32toa_length, hlen]) ?_
  rw [ato32, c32toa, Octets.value_be hlt]

theorem getUint32_ok {buf : Bytes} {idx idx' v : Nat}
    (h : (getUint32 buf).runAt idx = (.ok v, idx')) :
    v = ato32 (buf.drop idx) ∧ idx' = idx + uint32Sz ∧ idx + uint32Sz ≤ buf.length := by
  rw [getUint32, runAt_bind, runAt_get] at h
  by_cases hin : idx < buf.length ∧ uint32Sz ≤ buf.length - idx
  · simp only [if_pos hin, runAt_bind, runAt_set, runAt_pure, Prod.mk.injEq, Except.ok.injEq] at h
    exact ⟨h.1.symm, h.2.symm, by omega⟩
  · simp [if_neg hin] at h

theorem getStringRef_ok {buf str : Bytes} {idx idx' : Nat}
    (h : (getStringRef buf).runAt idx = (.ok str, idx')) :
    str = (buf.drop (idx + uint32Sz)).take (ato32 (buf.drop idx)) ∧
      idx' = idx + uint32Sz + ato32 (buf.drop idx) ∧
      idx + uint32Sz + ato32 (buf.drop idx) ≤ buf.length := by
  rw [getStringRef, runAt_bind] at h
  rcases hsz : (getUint32 buf).runAt idx with ⟨_ | strSz, mid⟩
  · simp [hsz] at h
  obtain ⟨rfl, rfl, -⟩ := getUint32_ok hsz
  simp only [hsz, runAt_bind, runAt_get] at h
  by_cases hfit : idx + uint32Sz ≤ buf.length ∧
      ato32 (buf.drop idx) ≤ buf.length - (idx + uint32Sz)
  · simp only [if_pos hfit, runAt_bind, runAt_set, runAt_pure, Prod.mk.injEq, Except.ok.injEq] at h
    exact ⟨h.1.symm, h.2.symm, by omega⟩
  · simp [if_neg hfit] at h

theorem getSize_ok {buf : Bytes} {idx idx' v : Nat}
    (h : (getSize buf).runAt idx = (.ok v, idx')) :
    v = ato32 (buf.drop idx) ∧ idx' = idx + uint32Sz ∧ idx + uint32Sz + v ≤ buf.length := by
  rw [getSize, runAt_bind] at h
  rcases hsz : (getUint32 buf).runAt idx with ⟨_ | strSz, mid⟩
  · simp [hsz] at h
  obtain ⟨rfl, rfl, hlen⟩ := getUint32_ok hsz
  simp only [hsz, runAt_bind, runAt_get] at h
  by_cases hfit : ato32 (buf.drop idx) > buf.length - (idx + uint32Sz)
  · simp [if_pos hfit] at h
  · simp only [if_neg hfit, runAt_pure, Prod.mk.injEq, Except.ok.injEq] at h
    obtain ⟨rfl, rfl⟩ := h
    exact ⟨rfl, rfl, by omega⟩

theorem drop_string {buf : Bytes} {idx : Nat} (h : idx + uint32Sz + ato32 (buf.drop idx) ≤ buf.length) :
    buf.drop idx = copyString ((buf.drop (idx + uint32Sz)).take (ato32 (buf.drop idx))) ++
      buf.drop (idx + uint32Sz + ato32 (buf.drop idx)) := by
  have hstr : ((buf.drop (idx + uint32Sz)).take (ato32 (buf.drop idx))).length
      = ato32 (buf.drop idx) := by
    rw [List.length_take, List.length_drop]
    omega
  have hword : 4 ≤ (buf.drop idx).length := by
    rw [uint32Sz] at h
    rw [List.length_drop]
    omega
  have hmid : buf.drop idx = (buf.drop idx).take 4 ++ buf.drop (idx + uint32Sz) := by
    rw [← List.drop_drop, uint32Sz, List.take_append_drop]
  have hrest : (buf.drop (idx + uint32Sz)).take (ato32 (buf.drop idx)) ++
      buf.drop (idx + uint32Sz + ato32 (buf.drop idx)) = buf.drop (idx + uint32Sz) := by
    rw [← @List.drop_drop _ _ (idx + uint32Sz), List.take_append_drop]
  rw [copyString, hstr, c32toa_ato32 hword, List.append_assoc, hrest, ← hmid]

theorem getStringRef_splits {buf str : Bytes} {idx idx' : Nat}
    (h : (getStringRef buf).runAt idx = (.ok str, idx')) :
    buf.drop idx = copyString str ++ buf.drop idx' ∧ idx' = idx + uint32Sz + str.length ∧
      idx' ≤ buf.length := by
  obtain ⟨rfl, rfl, hlen⟩ := getStringRef_ok h
  refine ⟨drop_string hlen, ?_, hlen⟩
  rw [List.length_take, List.length_drop]
  omega

/-! Readers that take a piece of the buffer wherever it stands. -/

/-- From an index where `piece` stands, `r` reads `a` and moves over the piece. -/
def Decodes {α : Type} (r : Bytes → Reader α) (piece : Bytes) (a : α) : Prop :=
  ∀ buf idx rest, Rest buf idx (piece ++ rest) → Yields (r buf) idx a (idx + piece.length)

section Decodes

variable {α β : Type}

theorem Decodes.pure (a : α) : Decodes (fun _ => Pure.pure a) [] a := fun _ _ _ _ => rfl

theorem Decodes.bind {r : Bytes → Reader α} {f : α → Bytes → Reader β} {piece more : Bytes} {a : α}
    {b : β} (hr : Decodes r piece a) (hf : Decodes (f a) more b) :
    Decodes (fun buf => r buf >>= fun x => f x buf) (piece ++ more) b := by
  intro buf idx rest h
  rw [List.append_assoc] at h
  have hmore := hf buf (idx + piece.length) rest h.skip
  rw [List.length_append, ← Nat.add_assoc]
  exact (hr buf idx (more ++ rest) h).bind hmore

theorem Decodes.map {r : Bytes → Reader α} {piece : Bytes} {a : α} (g : α → β)
    (hr : Decodes r piece a) : Decodes (fun buf => r buf >>= fun x => Pure.pure (g x)) piece (g a) := by
  have h : Decodes (fun buf => r buf >>= fun x => Pure.pure (g x)) (piece ++ []) (g a) :=
    hr.bind (Decodes.pure (g a))
  rwa [List.append_nil] at h

theorem decodes_uint32 {n : Nat} (hn : n < 2 ^ 32) : Decodes getUint32 (c32toa n) n := by
  intro buf idx rest h
  rw [c32toa_length]
  exact getUint32_yields h hn

theorem decodes_string {str : Bytes} (hn : str.length < 2 ^ 32) :
    Decodes getStringRef (copyString str) str := by
  intro buf idx rest h
  rw [copyString, List.append_assoc] at h
  rw [copyString, List.length_append, c32toa_length, ← Nat.add_assoc]
  exact getStringRef_yields h hn

end Decodes

end WolfSsh
