import WolfSsh.Lib.Word32
import WolfSsh.Wire

/-! The readers of a received buffer in the 32-bit arithmetic that they are written in. Every access
to memory is checked against what is there. -/

namespace WolfSsh.Words

open Fallible

/-- A buffer and how much of it may be read. -/
structure Payload where
  buf : Bytes
  len : UInt32
  holds : len.toNat ≤ buf.length

namespace Payload

def octets (p : Payload) : Bytes := p.buf.take p.len.toNat

@[simp] theorem length_octets (p : Payload) : p.octets.length = p.len.toNat := by
  rw [octets, List.length_take, Nat.min_eq_left p.holds]

end Payload

/-- A reader reports an error, or it touches memory that is not its own. -/
inductive Stop where
  | failed (e : WsErr)
  | outside
deriving DecidableEq, Repr

abbrev WordReader := Fallible Stop UInt32

def octet (p : Payload) (i : UInt32) : WordReader UInt8 :=
  match p.octets[i.toNat]? with
  | some b => pure b
  | none => throw .outside

/-- `WMEMCPY` out of the buffer. -/
def copyOut (p : Payload) (i n : UInt32) : WordReader Bytes :=
  if i.toNat + n.toNat ≤ p.octets.length then
    pure ((p.octets.drop i.toNat).take n.toNat)
  else
    throw .outside

/-- `str` and its closing NUL, into a buffer of `room` octets. -/
def terminate (room : UInt32) (str : Bytes) : WordReader Bytes :=
  if str.length < room.toNat then pure (str ++ [0]) else throw .outside

/-- A pointer into the buffer, or `NULL`, and a size. -/
structure Ref where
  str : Option UInt32
  strSz : UInt32
deriving DecidableEq, Repr

def getBoolean (p : Payload) : WordReader Bool := do
  let idx ← get
  if idx < p.len then
    let b ← octet p idx
    set (idx + 1)
    return b != 0
  else
    throw (.failed .bufferE)

def getUint32 (p : Payload) : WordReader UInt32 := do
  let idx ← get
  if idx < p.len ∧ 4 ≤ p.len - idx then
    let bs ← copyOut p idx 4
    set (idx + 4)
    return .ofNat (ato32 bs)
  else
    throw (.failed .bufferE)

def getSize (p : Payload) : WordReader UInt32 := do
  let v ← getUint32 p
  let idx ← get
  if v > p.len - idx then
    throw (.failed .bufferE)
  return v

def getSkip (p : Payload) : WordReader Unit := do
  let sz ← getSize p
  modify (· + sz)

def getStringRef (p : Payload) : WordReader Ref := do
  let strSz ← getUint32 p
  let idx ← get
  if idx ≤ p.len ∧ strSz ≤ p.len - idx then
    if strSz ≠ 0 then
      set (idx + strSz)
      return ⟨some idx, strSz⟩
    else
      return ⟨none, strSz⟩
  else
    throw (.failed .bufferE)

def getMpint (p : Payload) : WordReader Ref := do
  let mpint ← getStringRef p
  if 0 < mpint.strSz then
    match mpint.str with
    | none => throw .outside
    | some i =>
      let b ← octet p i
      if b &&& 0x80 != 0 then
        throw (.failed .parseE)
      else
        return mpint
  else
    return mpint

/-- What is copied of a string that was found. -/
def Ref.copy (p : Payload) (r : Ref) (n : UInt32) : WordReader Bytes :=
  match r.str with
  | some i => if r.strSz ≠ 0 then copyOut p i n else pure []
  | none => pure []

/-- The buffer for the copy has `sSz` octets. -/
def getString (sSz : UInt32) (p : Payload) : WordReader (Bytes × UInt32) := do
  if sSz = 0 then
    throw (.failed .bufferE)
  let r ← getStringRef p
  let n := if r.strSz ≥ sSz then sSz - 1 else r.strSz
  let str ← r.copy p n
  let s ← terminate sSz str
  return (s, n)

def getStringAlloc (memory : Bool) (p : Payload) : WordReader (Bytes × UInt32) := do
  let r ← getStringRef p
  if !memory then
    throw (.failed .memoryE)
  let str ← r.copy p r.strSz
  let s ← terminate (r.strSz + 1) str
  return (s, r.strSz)

/-! The readers follow those over unbounded numbers. -/

section Follows

variable {α β γ δ : Type} {p : Payload} {idx : UInt32}

/-- From `idx` on, `w` does what `r` does, in the buffer; `rel` relates what they return, and the
index that `w` leaves. -/
def Follows (p : Payload) (idx : UInt32) (w : WordReader α) (r : Reader β)
    (rel : α → UInt32 → β → Prop) : Prop :=
  ∃ i : UInt32, idx.toNat ≤ i.toNat ∧ i.toNat ≤ p.len.toNat ∧
    ((∃ a b, Yields w idx a i ∧ Yields r idx.toNat b i.toNat ∧ rel a i b) ∨
      ∃ e, w.runAt idx = (.error (.failed e), i) ∧ r.runAt idx.toNat = (.error e, i.toNat))

theorem Follows.bind {w : WordReader α} {r : Reader β} {f : α → WordReader γ} {g : β → Reader δ}
    {rel : α → UInt32 → β → Prop} {rel' : γ → UInt32 → δ → Prop} (h : Follows p idx w r rel)
    (hf : ∀ a b i, idx.toNat ≤ i.toNat → i.toNat ≤ p.len.toNat → rel a i b →
      Follows p i (f a) (g b) rel') :
    Follows p idx (w >>= f) (r >>= g) rel' := by
  obtain ⟨i, hge, hle, ⟨a, b, hw, hr, hab⟩ | ⟨e, hw, hr⟩⟩ := h
  · obtain ⟨j, hij, hj, hrest⟩ := hf a b i hge hle hab
    refine ⟨j, hge.trans hij, hj, ?_⟩
    rw [Yields.runAt_bind hw, Yields.runAt_bind hr]
    rcases hrest with ⟨c, d, hc, hd, hcd⟩ | hfail
    · exact .inl ⟨c, d, hw.bind hc, hr.bind hd, hcd⟩
    · exact .inr hfail
  · exact ⟨i, hge, hle, .inr ⟨e, by rw [runAt_bind, hw], by rw [runAt_bind, hr]⟩⟩

theorem Follows.pure {a : α} {b : β} {rel : α → UInt32 → β → Prop} (hle : idx.toNat ≤ p.len.toNat)
    (hab : rel a idx b) : Follows p idx (Pure.pure a) (Pure.pure b) rel :=
  ⟨idx, Nat.le_refl _, hle, .inl ⟨a, b, rfl, rfl, hab⟩⟩

theorem Follows.throw {e : WsErr} {rel : α → UInt32 → β → Prop} (hle : idx.toNat ≤ p.len.toNat) :
    Follows p idx (MonadExcept.throw (Stop.failed e)) (MonadExcept.throw e) rel :=
  ⟨idx, Nat.le_refl _, hle, .inr ⟨e, rfl, rfl⟩⟩

/-- From `idx` on, `w` stays in the buffer, and `post` holds of what it returns and of its index. -/
def Within (p : Payload) (idx : UInt32) (w : WordReader α) (post : α → UInt32 → Prop) : Prop :=
  ∃ i : UInt32, idx.toNat ≤ i.toNat ∧ i.toNat ≤ p.len.toNat ∧
    ((∃ a, Yields w idx a i ∧ post a i) ∨ ∃ e, w.runAt idx = (.error (.failed e), i))

theorem Within.bind {w : WordReader α} {f : α → WordReader γ} {mid : α → UInt32 → Prop}
    {post : γ → UInt32 → Prop} (h : Within p idx w mid)
    (hf : ∀ a i, idx.toNat ≤ i.toNat → i.toNat ≤ p.len.toNat → mid a i → Within p i (f a) post) :
    Within p idx (w >>= f) post := by
  obtain ⟨i, hge, hle, ⟨a, hw, hmid⟩ | ⟨e, hw⟩⟩ := h
  · obtain ⟨j, hij, hj, hrest⟩ := hf a i hge hle hmid
    refine ⟨j, hge.trans hij, hj, ?_⟩
    rcases hrest with ⟨c, hc, hpost⟩ | ⟨e, he⟩
    · exact .inl ⟨c, hw.bind hc, hpost⟩
    · exact .inr ⟨e, hw.runAt_bind.trans he⟩
  · exact ⟨i, hge, hle, .inr ⟨e, by rw [runAt_bind, hw]⟩⟩

theorem Within.pure {a : α} {post : α → UInt32 → Prop} (hle : idx.toNat ≤ p.len.toNat)
    (ha : post a idx) : Within p idx (Pure.pure a) post :=
  ⟨idx, Nat.le_refl _, hle, .inl ⟨a, rfl, ha⟩⟩

theorem Within.throw {e : WsErr} {post : α → UInt32 → Prop} (hle : idx.toNat ≤ p.len.toNat) :
    Within p idx (MonadExcept.throw (Stop.failed e)) post :=
  ⟨idx, Nat.le_refl _, hle, .inr ⟨e, rfl⟩⟩

theorem Within.get {f : UInt32 → WordReader γ} {post : γ → UInt32 → Prop}
    (h : Within p idx (f idx) post) : Within p idx (MonadState.get >>= f) post := h

theorem Follows.within {w : WordReader α} {r : Reader β} {rel : α → UInt32 → β → Prop}
    {post : α → UInt32 → Prop} (h : Follows p idx w r rel)
    (himp : ∀ a b i, Yields r idx.toNat b i.toNat → rel a i b → post a i) : Within p idx w post := by
  obtain ⟨i, hge, hle, ⟨a, b, hw, hr, hab⟩ | ⟨e, hw, -⟩⟩ := h
  · exact ⟨i, hge, hle, .inl ⟨a, hw, himp a b i hr hab⟩⟩
  · exact ⟨i, hge, hle, .inr ⟨e, hw⟩⟩

end Follows

section Readers

variable {p : Payload} {idx : UInt32}

theorem ato32_lt (bs : Bytes) : ato32 bs < 2 ^ 32 := by
  have hlt := Octets.value_lt (bs.take 4)
  have hlen : (bs.take 4).length ≤ 4 := List.length_take_le 4 bs
  exact Nat.lt_of_lt_of_le hlt (Nat.pow_le_pow_right (by decide) hlen)

theorem copyOut_yields {i n : UInt32} (h : i.toNat + n.toNat ≤ p.len.toNat) :
    Yields (copyOut p i n) idx ((p.octets.drop i.toNat).take n.toNat) idx := by
  rw [Yields, copyOut, Payload.length_octets, if_pos h, runAt_pure]

theorem octet_yields {i : UInt32} {b : UInt8} (h : p.octets[i.toNat]? = some b) :
    Yields (octet p i) idx b idx := by
  rw [Yields, octet, h, runAt_pure]

theorem getBoolean_follows (hidx : idx.toNat ≤ p.len.toNat) :
    Follows p idx (getBoolean p) (WolfSsh.getBoolean p.octets) (fun v _ b => v = b) := by
  by_cases hin : idx < p.len
  · have hlt : idx.toNat < p.len.toNat := UInt32.lt_iff_toNat_lt.mp hin
    have hin' : idx.toNat < p.octets.length := by rwa [Payload.length_octets]
    have hnext : (idx + 1).toNat = idx.toNat + 1 := Word32.toNat_add_of_le (b := p.len) hlt
    have hb : Yields (octet p idx) idx p.octets[idx.toNat] idx :=
      octet_yields (List.getElem?_eq_getElem hin')
    refine ⟨idx + 1, by omega, by omega, .inl ⟨_, p.octets[idx.toNat] != 0, ?_, ?_, rfl⟩⟩
    · simp only [Yields, getBoolean, runAt_bind, runAt_get, if_pos hin, hb.runAt_bind, runAt_set,
        runAt_pure]
    · simp only [Yields, WolfSsh.getBoolean, runAt_bind, runAt_get, dif_pos hin', runAt_set,
        runAt_pure, booleanSz, hnext]
  · have hin' : ¬ idx.toNat < p.octets.length := by
      rw [Payload.length_octets]
      exact fun h => hin (UInt32.lt_iff_toNat_lt.mpr h)
    refine ⟨idx, Nat.le_refl _, hidx, .inr ⟨.bufferE, ?_, ?_⟩⟩
    · simp only [getBoolean, runAt_bind, runAt_get, if_neg hin, runAt_throw]
    · simp only [WolfSsh.getBoolean, runAt_bind, runAt_get, dif_neg hin', runAt_throw]

/-- The two bounds of `GetUint32` say in words what they say in numbers. -/
theorem uint32_fits_iff : (idx < p.len ∧ 4 ≤ p.len - idx) ↔
    idx.toNat < p.octets.length ∧ uint32Sz ≤ p.octets.length - idx.toNat := by
  rw [Payload.length_octets, UInt32.lt_iff_toNat_lt]
  refine and_congr_right fun hlt => ?_
  rw [Word32.le_sub_iff (Nat.le_of_lt hlt), uint32Sz]
  change idx.toNat + 4 ≤ _ ↔ _
  omega

theorem getUint32_follows (hidx : idx.toNat ≤ p.len.toNat) :
    Follows p idx (getUint32 p) (WolfSsh.getUint32 p.octets)
      (fun v i n => v.toNat = n ∧ i.toNat = idx.toNat + 4) := by
  by_cases hin : idx < p.len ∧ 4 ≤ p.len - idx
  · have hin' := uint32_fits_iff.mp hin
    have hfit : idx.toNat + (4 : UInt32).toNat ≤ p.len.toNat := by
      rw [Payload.length_octets, uint32Sz] at hin'
      change idx.toNat + 4 ≤ _
      omega
    have hnext : (idx + 4).toNat = idx.toNat + 4 := Word32.toNat_add_of_le hfit
    have hv : (UInt32.ofNat (ato32 ((p.octets.drop idx.toNat).take 4))).toNat
        = ato32 (p.octets.drop idx.toNat) := by
      rw [Word32.toNat_ofNat (ato32_lt _), ato32, ato32, List.take_take, Nat.min_self]
    refine ⟨idx + 4, by omega, by rwa [hnext], .inl ⟨_, _, ?_, ?_, hv, hnext⟩⟩
    · simp only [Yields, getUint32, runAt_bind, runAt_get, if_pos hin,
        (copyOut_yields hfit).runAt_bind, runAt_set, runAt_pure]
      rfl
    · simp only [Yields, WolfSsh.getUint32, runAt_bind, runAt_get, if_pos hin', runAt_set,
        runAt_pure, hnext]
      rfl
  · refine ⟨idx, Nat.le_refl _, hidx, .inr ⟨.bufferE, ?_, ?_⟩⟩
    · simp only [getUint32, runAt_bind, runAt_get, if_neg hin, runAt_throw]
    · simp only [WolfSsh.getUint32, runAt_bind, runAt_get, if_neg (mt uint32_fits_iff.mpr hin),
        runAt_throw]

theorem getSize_follows (hidx : idx.toNat ≤ p.len.toNat) :
    Follows p idx (getSize p) (WolfSsh.getSize p.octets)
      (fun v i n => v.toNat = n ∧ i.toNat + n ≤ p.len.toNat) := by
  refine (getUint32_follows hidx).bind ?_
  rintro v n i - hle ⟨rfl, -⟩
  have hgt : v > p.len - i ↔ v.toNat > p.octets.length - i.toNat := by
    rw [Payload.length_octets, gt_iff_lt, UInt32.lt_iff_toNat_lt, Word32.toNat_sub hle]
  by_cases hbig : v > p.len - i
  · refine ⟨i, Nat.le_refl _, hle, .inr ⟨.bufferE, ?_, ?_⟩⟩
    · simp only [runAt_bind, runAt_get, if_pos hbig, runAt_throw]
    · simp only [runAt_bind, runAt_get, if_pos (hgt.mp hbig), runAt_throw]
  · have hsmall := mt hgt.mpr hbig
    refine ⟨i, Nat.le_refl _, hle, .inl ⟨v, v.toNat, ?_, ?_, rfl, ?_⟩⟩
    · simp only [Yields, runAt_bind, runAt_get, if_neg hbig, runAt_pure]
    · simp only [Yields, runAt_bind, runAt_get, if_neg hsmall, runAt_pure]
    · rw [Payload.length_octets] at hsmall
      omega

theorem getSkip_follows (hidx : idx.toNat ≤ p.len.toNat) :
    Follows p idx (getSkip p) (WolfSsh.getSkip p.octets) (fun _ _ _ => True) := by
  refine (getSize_follows hidx).bind ?_
  rintro sz n i - hle ⟨rfl, hfit⟩
  have hnext := Word32.toNat_add_of_le hfit
  refine ⟨i + sz, by omega, by rwa [hnext], .inl ⟨(), (), rfl, ?_, trivial⟩⟩
  rw [Yields, runAt_modify, hnext]

/-- `r` is where `str` stands, in the string from `idx` to `i`. -/
def Ref.Spans (p : Payload) (idx : UInt32) (r : Ref) (i : UInt32) (str : Bytes) : Prop :=
  r.strSz.toNat = str.length ∧ idx.toNat + 4 + str.length = i.toNat ∧
    match r.str with
    | none => str = []
    | some j => idx.toNat ≤ j.toNat ∧ j.toNat + r.strSz.toNat ≤ i.toNat ∧ r.strSz ≠ 0 ∧
        (p.octets.drop j.toNat).take r.strSz.toNat = str

theorem getStringRef_follows (hidx : idx.toNat ≤ p.len.toNat) :
    Follows p idx (getStringRef p) (WolfSsh.getStringRef p.octets) (Ref.Spans p idx) := by
  refine (getUint32_follows hidx).bind ?_
  rintro strSz n i hge hle ⟨rfl, hi⟩
  have hfit : (i ≤ p.len ∧ strSz ≤ p.len - i) ↔
      i.toNat ≤ p.octets.length ∧ strSz.toNat ≤ p.octets.length - i.toNat := by
    rw [Payload.length_octets, UInt32.le_iff_toNat_le, Word32.le_sub_iff hle]
    omega
  by_cases hin : i ≤ p.len ∧ strSz ≤ p.len - i
  · have hend : i.toNat + strSz.toNat ≤ p.len.toNat := (Word32.le_sub_iff hle).mp hin.2
    have hnext := Word32.toNat_add_of_le hend
    have hr : Yields (do
        let idx ← get
        if idx ≤ p.octets.length ∧ strSz.toNat ≤ p.octets.length - idx then
          set (idx + strSz.toNat)
          return (p.octets.drop idx).take strSz.toNat
        else
          throw .bufferE : Reader Bytes) i.toNat ((p.octets.drop i.toNat).take strSz.toNat)
          (i.toNat + strSz.toNat) := by
      simp only [Yields, runAt_bind, runAt_get, if_pos (hfit.mp hin), runAt_set, runAt_pure]
    by_cases hz : strSz = 0
    · subst hz
      refine ⟨i, Nat.le_refl _, hle, .inl ⟨⟨none, 0⟩, [], ?_, hr, rfl, hi.symm, rfl⟩⟩
      simp only [Yields, runAt_bind, runAt_get, if_pos hin, ne_eq, not_true, if_false, runAt_pure]
    · have hlen : ((p.octets.drop i.toNat).take strSz.toNat).length = strSz.toNat := by
        rw [List.length_take, List.length_drop, Payload.length_octets]
        omega
      refine ⟨i + strSz, by omega, by rwa [hnext],
        .inl ⟨⟨some i, strSz⟩, (p.octets.drop i.toNat).take strSz.toNat, ?_, by rwa [hnext], hlen.symm,
          by omega, ?_⟩⟩
      · simp only [Yields, runAt_bind, runAt_get, if_pos hin, if_pos hz, runAt_set, runAt_pure]
      · exact ⟨hge, Nat.le_of_eq hnext.symm, hz, rfl⟩
  · refine ⟨i, Nat.le_refl _, hle, .inr ⟨.bufferE, ?_, ?_⟩⟩
    · simp only [runAt_bind, runAt_get, if_neg hin, runAt_throw]
    · simp only [runAt_bind, runAt_get, if_neg (mt hfit.mpr hin), runAt_throw]

theorem Ref.Spans.copy {r : Ref} {i j n : UInt32} {str : Bytes} (h : r.Spans p idx i str)
    (hle : i.toNat ≤ p.len.toNat) (hn : n.toNat ≤ str.length) :
    Yields (r.copy p n) j (str.take n.toNat) j := by
  obtain ⟨hsz, -, hstr⟩ := h
  rw [Ref.copy]
  cases hr : r.str with
  | none =>
    rw [hr] at hstr
    obtain rfl : str = [] := hstr
    rw [List.take_nil]
    rfl
  | some k =>
    rw [hr] at hstr
    obtain ⟨-, hend, hz, hval⟩ := hstr
    dsimp only
    rw [if_pos hz]
    have hcopy : Yields (copyOut p k n) j ((p.octets.drop k.toNat).take n.toNat) j :=
      copyOut_yields (by omega)
    rwa [← hval, List.take_take, Nat.min_eq_left (hsz ▸ hn)]

theorem terminate_yields {room j : UInt32} {str : Bytes} (h : str.length < room.toNat) :
    Yields (terminate room str) j (str ++ [0]) j := by
  rw [Yields, terminate, if_pos h, runAt_pure]

theorem Ref.Spans.first {r : Ref} {i : UInt32} {b : UInt8} {str : Bytes}
    (h : r.Spans p idx i (b :: str)) : ∃ k, r.str = some k ∧ p.octets[k.toNat]? = some b := by
  obtain ⟨hsz, -, hstr⟩ := h
  cases hr : r.str with
  | none =>
    rw [hr] at hstr
    exact absurd hstr (List.cons_ne_nil b str)
  | some k =>
    rw [hr] at hstr
    obtain ⟨-, -, -, hval⟩ := hstr
    refine ⟨k, rfl, ?_⟩
    have hfirst := congrArg (·[0]?) hval
    simpa [hsz] using hfirst

theorem getMpint_follows (hidx : idx.toNat ≤ p.len.toNat) :
    Follows p idx (getMpint p) (WolfSsh.getMpint p.octets)
      (fun r i str => r.Spans p idx i str ∧ ∀ b ∈ str.head?, b &&& 0x80 = 0) := by
  refine (getStringRef_follows hidx).bind ?_
  rintro r str i - hle hr
  cases str with
  | nil =>
    have hz : ¬ 0 < r.strSz := by
      rw [UInt32.lt_iff_toNat_lt, hr.1]
      exact Nat.lt_irrefl 0
    rw [if_neg hz]
    exact Follows.pure hle ⟨hr, nofun⟩
  | cons b str =>
    have hpos : 0 < r.strSz := by
      rw [UInt32.lt_iff_toNat_lt, hr.1]
      exact Nat.succ_pos _
    obtain ⟨k, hk, hb⟩ := hr.first
    dsimp only
    rw [if_pos hpos, hk]
    dsimp only
    by_cases hneg : b &&& 0x80 = 0
    · refine ⟨i, Nat.le_refl _, hle, .inl ⟨r, b :: str, ?_, ?_, hr, by simpa using hneg⟩⟩
      · simp only [Yields, (octet_yields hb).runAt_bind, hneg, bne_self_eq_false,
          Bool.false_eq_true, if_false, runAt_pure]
      · simp only [Yields, hneg, bne_self_eq_false, Bool.false_eq_true, if_false, runAt_pure]
    · have hne : (b &&& 0x80 != 0) = true := bne_iff_ne.mpr hneg
      refine ⟨i, Nat.le_refl _, hle, .inr ⟨.parseE, ?_, ?_⟩⟩
      · simp only [(octet_yields hb).runAt_bind, hne, if_true, runAt_throw]
      · simp only [hne, if_true, runAt_throw]

/-- A string as `GetString` and `GetStringAlloc` leave it in memory, and the size that they store. -/
def Terminated (s : Bytes × UInt32) (str : Bytes) : Prop :=
  s.1 = str ++ [0] ∧ s.2.toNat = str.length

theorem getString_follows {sSz : UInt32} (hidx : idx.toNat ≤ p.len.toNat) :
    Follows p idx (getString sSz p) (WolfSsh.getString sSz.toNat p.octets)
      (fun s _ str => Terminated s str) := by
  by_cases hz : sSz = 0
  · subst hz
    refine ⟨idx, Nat.le_refl _, hidx, .inr ⟨.bufferE, ?_, ?_⟩⟩
    · simp only [getString, runAt_bind, if_true, runAt_throw]
    · rfl
  · have hpos : 0 < sSz.toNat := Word32.toNat_pos.mp hz
    have hz' : ¬ sSz.toNat = 0 := Nat.ne_of_gt hpos
    have hw : getString sSz p = (do
        let r ← getStringRef p
        let n := if r.strSz ≥ sSz then sSz - 1 else r.strSz
        let str ← r.copy p n
        let s ← terminate sSz str
        return (s, n)) := by
      rw [getString, if_neg hz]
    have hr : WolfSsh.getString sSz.toNat p.octets = (do
        let str ← WolfSsh.getStringRef p.octets
        return str.take (sSz.toNat - 1)) := by
      rw [WolfSsh.getString, if_neg hz']
    rw [hw, hr]
    refine (getStringRef_follows hidx).bind ?_
    rintro r str i - hle hspan
    dsimp only
    have hn : (if r.strSz ≥ sSz then sSz - 1 else r.strSz).toNat = (str.take (sSz.toNat - 1)).length := by
      rw [List.length_take, ← hspan.1]
      split
      case isTrue h =>
        have hge := UInt32.le_iff_toNat_le.mp h
        rw [Word32.toNat_sub (b := 1) hpos]
        exact (Nat.min_eq_left (by omega)).symm
      case isFalse h =>
        have hlt : r.strSz.toNat < sSz.toNat := UInt32.lt_iff_toNat_lt.mp (UInt32.not_le.mp h)
        exact (Nat.min_eq_right (by omega)).symm
    generalize (if r.strSz ≥ sSz then sSz - 1 else r.strSz) = n at hn
    have hlen := hn
    rw [List.length_take] at hlen
    have hcopy : Yields (r.copy p n) i (str.take n.toNat) i := hspan.copy hle (by omega)
    have htake : str.take n.toNat = str.take (sSz.toNat - 1) := by
      rw [List.take_eq_take_iff]
      omega
    have hterm : Yields (terminate sSz (str.take n.toNat)) i (str.take n.toNat ++ [0]) i :=
      terminate_yields (by rw [List.length_take]; omega)
    refine ⟨i, Nat.le_refl _, hle, .inl ⟨(str.take n.toNat ++ [0], n), str.take (sSz.toNat - 1), ?_, rfl, ?_⟩⟩
    · exact hcopy.bind (hterm.bind rfl)
    · exact ⟨by rw [htake], hn⟩

theorem getStringAlloc_follows {memory : Bool} (hidx : idx.toNat ≤ p.len.toNat) :
    Follows p idx (getStringAlloc memory p) (WolfSsh.getStringAlloc memory p.octets)
      (fun s _ str => Terminated s str) := by
  refine (getStringRef_follows hidx).bind ?_
  rintro r str i - hle hspan
  cases memory with
  | false => exact Follows.throw hle
  | true =>
    have hcopy : Yields (r.copy p r.strSz) i (str.take r.strSz.toNat) i :=
      hspan.copy hle (Nat.le_of_eq hspan.1)
    rw [hspan.1, List.take_length] at hcopy
    -- the four octets of the size leave room for the NUL
    have hroom : (r.strSz + 1).toNat = str.length + 1 := by
      have hend := hspan.2.1
      rw [← hspan.1]
      exact Word32.toNat_add_of_le (b := p.len) (by rw [hspan.1]; change str.length + 1 ≤ _; omega)
    have hterm : Yields (terminate (r.strSz + 1) str) i (str ++ [0]) i :=
      terminate_yields (by omega)
    exact ⟨i, Nat.le_refl _, hle, .inl ⟨(str ++ [0], r.strSz), str, hcopy.bind (hterm.bind rfl), rfl, rfl, hspan.1⟩⟩

end Readers

end WolfSsh.Words
