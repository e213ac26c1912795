import WolfSsh.Lib.CStrings
import WolfSsh.Lib.Word32
import WolfSsh.RealPath

/-! `wolfSSH_RealPath` in the caller's buffer, with its 32-bit sizes: it writes the normal form of the
request, where that fits. -/

namespace WolfSsh.RealPath

open CStrings Paths

/-- The function gives up, or it touches memory behind the buffer. -/
inductive Stop where
  | failed (e : PathErr)
  | outside
deriving DecidableEq, Repr

def inside {α : Type} : Option α → Except Stop α
  | some a => .ok a
  | none => .error .outside

/-- `wstrncat` in a buffer of `n` octets. -/
def wstrncat (s1 s2 : Bytes) (n : UInt32) : Except Stop Bytes :=
  if n.toNat ≤ s1.length then
    let s1Len := ((s1.take n.toNat).takeWhile (· ≠ 0)).length
    if n.toNat ≤ s1Len then .error (.failed .invalidPathE)
    else if s2.length ≤ n.toNat - s1Len - 1 then inside (write s1 s1Len (s2 ++ [0]))
    else .error (.failed .invalidPathE)
  else .error .outside

/-- The path so far, in the caller's buffer. -/
structure Cleanup where
  out : Bytes
  curSz : UInt32
deriving DecidableEq, Repr

/-- One turn of the loop over the segments. -/
def segment (outSz : UInt32) (c : Cleanup) (seg : Bytes) : Except Stop Cleanup := do
  let segSz : UInt32 := .ofNat seg.length
  if segSz = 1 ∧ seg[0]? = some 0x2e then
    return c
  else if segSz = 2 ∧ seg[0]? = some 0x2e ∧ seg[1]? = some 0x2e then
    let str ← inside (text c.out)
    match lastIndex slash str with
    | none => return c
    | some prev =>
      if prev ≠ 0 then
        let out ← inside (write c.out prev [0])
        let str ← inside (text out)
        return ⟨out, .ofNat str.length⟩
      else
        -- preserve the root
        let out ← inside (write c.out 1 [0])
        return ⟨out, 1⟩
  else
    let sepSz : UInt32 := if c.curSz ≠ 1 then 1 else 0
    if segSz ≥ outSz ∨ c.curSz + sepSz ≥ outSz - segSz then
      .error (.failed .invalidPathE)
    else if c.curSz ≠ 1 then
      let out ← wstrncat c.out [slash] outSz
      let out ← wstrncat out seg outSz
      return ⟨out, c.curSz + 1 + segSz⟩
    else
      let out ← wstrncat c.out seg outSz
      return ⟨out, c.curSz + segSz⟩

/-- A request that starts from the default path. -/
def isRelative (inSz : UInt32) (inp : Bytes) : Bool :=
  inSz = 0 || (!isDelim (inp.getD 0 0) && !(decide (1 < inSz) && inp.getD 1 0 == 0x3a))

/-- The default path, or the root that stands in the buffer. -/
def startPath (defaultPath : Option Bytes) (inp out : Bytes) (outSz : UInt32) : Except Stop Cleanup :=
  if isRelative (.ofNat inp.length) inp then
    match defaultPath with
    | none => .ok ⟨out, 1⟩
    | some d => do
      let curSz : UInt32 := .ofNat d.length
      if curSz ≥ outSz then
        .error (.failed .invalidPathE)
      else
        -- `strncpy` pads with NULs
        let out ← inside (write out 0 ((d ++ List.replicate outSz.toNat 0).take outSz.toNat))
        return ⟨out, curSz⟩
  else
    .ok ⟨out, 1⟩

/-- `wolfSSH_RealPath`, with the buffer `out` of `outSz` octets. -/
def realPath (defaultPath : Option Bytes) (inp out : Bytes) (outSz : UInt32) : Except Stop Cleanup := do
  if outSz = 0 then
    .error (.failed .badArgument)
  else
    let out ← inside (write out 0 (List.replicate outSz.toNat 0))
    let out ← inside (write out 0 [slash])
    let c ← startPath defaultPath inp out outSz
    let out ← inside (write c.out c.curSz.toNat [0])
    (tokens isDelim inp).foldlM (segment outSz) ⟨out, c.curSz⟩

/-- The buffer holds the path, and `curSz` is its length. -/
structure Shows (outSz : UInt32) (c : Cleanup) (path : Bytes) : Prop where
  room : c.out.length = outSz.toNat
  holds : CStrings.Holds c.out path
  size : c.curSz.toNat = path.length

section Segment

variable {outSz : UInt32} {c : Cleanup} {path seg : Bytes}

theorem Shows.fits (h : Shows outSz c path) : path.length < outSz.toNat := h.room ▸ h.holds.length_lt

theorem wstrncat_appends {s1 str s2 : Bytes} (hroom : s1.length = outSz.toNat) (h : CStrings.Holds s1 str)
    (hs2 : 0 ∉ s2) (hfits : str.length + s2.length < outSz.toNat) :
    ∃ s1', wstrncat s1 s2 outSz = .ok s1' ∧ s1'.length = outSz.toNat ∧ CStrings.Holds s1' (str ++ s2) := by
  have hlen : ((s1.take outSz.toNat).takeWhile (· ≠ 0)).length = str.length := by
    rw [← hroom, List.take_length]
    obtain ⟨hnul, junk, rfl⟩ := h
    rw [takeWhile_nul hnul]
  obtain ⟨mem', hwrite, hholds⟩ := h.extend hs2 (by rwa [hroom])
  refine ⟨mem', ?_, (length_write hwrite).trans hroom, hholds⟩
  rw [wstrncat, if_pos (Nat.le_of_eq hroom.symm)]
  dsimp only
  rw [hlen, if_neg (by omega), if_pos (by omega), hwrite]
  rfl

/-- In the buffer, `x` does what `y` does over paths. -/
def Refines (outSz : UInt32) (x : Except Stop Cleanup) : Except PathErr Bytes → Prop
  | .ok path => ∃ c, x = .ok c ∧ Shows outSz c path
  | .error e => x = .error (.failed e)

theorem Refines.bind {x : Except Stop Cleanup} {y : Except PathErr Bytes}
    {f : Cleanup → Except Stop Cleanup} {g : Bytes → Except PathErr Bytes} (h : Refines outSz x y)
    (hfg : ∀ c path, Shows outSz c path → Refines outSz (f c) (g path)) :
    Refines outSz (x >>= f) (y >>= g) := by
  cases y with
  | error e =>
    obtain rfl : x = .error (.failed e) := h
    rfl
  | ok path =>
    obtain ⟨c, rfl, hc⟩ := h
    exact hfg c path hc

theorem ofNat_eq_iff {n : Nat} {k : UInt32} (hn : n < 2 ^ 32) : UInt32.ofNat n = k ↔ n = k.toNat := by
  rw [← UInt32.toNat_inj, Word32.toNat_ofNat hn]

theorem segment_dot_iff (hseg : seg.length < 2 ^ 32) :
    (UInt32.ofNat seg.length = 1 ∧ seg[0]? = some 0x2e) ↔ seg = dot := by
  rw [ofNat_eq_iff hseg, dot]
  constructor
  · rintro ⟨hlen, h0⟩
    match seg, hlen with
    | [b], _ => simpa using h0
  · rintro rfl
    exact ⟨rfl, rfl⟩

theorem segment_dotdot_iff (hseg : seg.length < 2 ^ 32) :
    (UInt32.ofNat seg.length = 2 ∧ seg[0]? = some 0x2e ∧ seg[1]? = some 0x2e) ↔ seg = dotdot := by
  rw [ofNat_eq_iff hseg, dotdot]
  constructor
  · rintro ⟨hlen, h0, h1⟩
    match seg, hlen with
    | [b, c], _ => simpa using And.intro h0 h1
  · rintro rfl
    exact ⟨rfl, rfl, rfl⟩

/-- The `..` case. -/
theorem cut_shows (h : Shows outSz c path) {prev : Nat} (hprev : lastIndex slash path = some prev) :
    Refines outSz
      (if prev ≠ 0 then do
        let out ← inside (write c.out prev [0])
        let str ← inside (text out)
        return ⟨out, .ofNat str.length⟩
      else do
        let out ← inside (write c.out 1 [0])
        return ⟨out, 1⟩)
      (.ok (if prev ≠ 0 then path.take prev else path.take 1)) := by
  have hmem : slash ∈ path := by
    rw [lastIndex] at hprev
    split at hprev
    · assumption
    · simp at hprev
  have hpos : 0 < path.length := List.length_pos_of_mem hmem
  have hlt : prev < path.length := by
    rw [lastIndex, if_pos hmem] at hprev
    obtain rfl := Option.some.inj hprev
    omega
  have hfits := h.fits
  have hword := outSz.toNat_lt
  by_cases hz : prev ≠ 0
  · rw [if_pos hz, if_pos hz]
    obtain ⟨out', hwrite, hholds⟩ := h.holds.cut (Nat.le_of_lt hlt)
    have hlen : (path.take prev).length = prev := by
      rw [List.length_take]
      omega
    refine ⟨⟨out', .ofNat (path.take prev).length⟩, ?_, (length_write hwrite).trans h.room, hholds, ?_⟩
    · rw [hwrite]
      change (inside (text out') >>= fun str => pure (Cleanup.mk out' (.ofNat str.length))) = _
      rw [hholds.text]
      rfl
    · exact Word32.toNat_ofNat (by omega)
  · rw [if_neg hz, if_neg hz]
    obtain ⟨out', hwrite, hholds⟩ := h.holds.cut hpos
    refine ⟨⟨out', 1⟩, ?_, (length_write hwrite).trans h.room, hholds, ?_⟩
    · rw [hwrite]
      rfl
    · rw [List.length_take, Nat.min_eq_left hpos]
      rfl

theorem segment_refines (h : Shows outSz c path) (hseg : seg.length < 2 ^ 32) (hnul : 0 ∉ seg) :
    Refines outSz (segment outSz c seg) (resolveSeg outSz.toNat path seg) := by
  rw [segment, resolveSeg]
  dsimp only
  by_cases hdot : seg = dot
  · rw [if_pos ((segment_dot_iff hseg).mpr hdot), if_pos hdot]
    exact ⟨c, rfl, h⟩
  rw [if_neg (mt (segment_dot_iff hseg).mp hdot), if_neg hdot]
  by_cases hdotdot : seg = dotdot
  · rw [if_pos ((segment_dotdot_iff hseg).mpr hdotdot), if_pos hdotdot, h.holds.text]
    change Refines outSz (match lastIndex slash path with | none => _ | some prev => _) _
    cases hprev : lastIndex slash path with
    | none => exact ⟨c, rfl, h⟩
    | some prev => exact cut_shows h hprev
  rw [if_neg (mt (segment_dotdot_iff hseg).mp hdotdot), if_neg hdotdot]
  have hfits := h.fits
  have hword := outSz.toNat_lt
  have hsegSz : (UInt32.ofNat seg.length).toNat = seg.length := Word32.toNat_ofNat hseg
  have hroot : c.curSz ≠ 1 ↔ path.length ≠ 1 := by
    rw [← h.size]
    exact not_congr UInt32.toNat_inj.symm
  have hsep : (c.curSz + if c.curSz ≠ 1 then 1 else 0).toNat
      = path.length + if path.length ≠ 1 then 1 else 0 := by
    by_cases hr : path.length ≠ 1
    · rw [if_pos hr, if_pos (hroot.mpr hr), Word32.toNat_add (by rw [h.size]; change _ + 1 < _; omega), h.size]
      rfl
    · rw [if_neg hr, if_neg (mt hroot.mp hr), UInt32.add_zero, h.size, Nat.add_zero]
  have hcond : (UInt32.ofNat seg.length ≥ outSz ∨
      (c.curSz + if c.curSz ≠ 1 then 1 else 0) ≥ outSz - UInt32.ofNat seg.length) ↔
      outSz.toNat ≤ seg.length ∨
        outSz.toNat - seg.length ≤ path.length + if path.length ≠ 1 then 1 else 0 := by
    rw [ge_iff_le, UInt32.le_iff_toNat_le, hsegSz, ge_iff_le, UInt32.le_iff_toNat_le, hsep]
    by_cases hbig : outSz.toNat ≤ seg.length
    · exact iff_of_true (.inl hbig) (.inl hbig)
    · rw [Word32.toNat_sub (by rw [hsegSz]; omega), hsegSz]
  by_cases hfull : outSz.toNat ≤ seg.length ∨
      outSz.toNat - seg.length ≤ path.length + if path.length ≠ 1 then 1 else 0
  · rw [if_pos (hcond.mpr hfull), if_pos hfull]
    rfl
  · rw [if_neg (mt hcond.mp hfull), if_neg hfull]
    rw [not_or, Nat.not_le, Nat.not_le] at hfull
    have happends : ∀ s : Bytes, s.length + seg.length < outSz.toNat →
        WolfSsh.wstrncat s seg outSz.toNat = .ok (s ++ seg) := by
      intro s hs
      rw [WolfSsh.wstrncat, if_neg (by omega), if_pos (by omega)]
    by_cases hr : path.length ≠ 1
    · rw [if_pos hr] at hfull
      have hslash : WolfSsh.wstrncat path [slash] outSz.toNat = .ok (path ++ [slash]) := by
        rw [WolfSsh.wstrncat, if_neg (by omega), if_pos (by rw [List.length_singleton]; omega)]
      have hlen : (path ++ [slash]).length = path.length + 1 := by simp
      obtain ⟨out₁, h₁, hroom₁, hholds₁⟩ := wstrncat_appends h.room h.holds
        (show 0 ∉ [slash] by decide) (by rw [List.length_singleton]; omega)
      obtain ⟨out₂, h₂, hroom₂, hholds₂⟩ := wstrncat_appends hroom₁ hholds₁ hnul (by omega)
      rw [if_pos (hroot.mpr hr), if_pos hr, hslash, h₁]
      change Refines outSz (wstrncat out₁ seg outSz >>= _) (WolfSsh.wstrncat (path ++ [slash]) seg _)
      rw [happends _ (by omega), h₂]
      refine ⟨⟨out₂, c.curSz + 1 + UInt32.ofNat seg.length⟩, rfl, hroom₂, hholds₂, ?_⟩
      have h1 : (c.curSz + 1).toNat = path.length + 1 := by
        rw [Word32.toNat_add (by rw [h.size]; change _ + 1 < _; omega), h.size]
        rfl
      dsimp only
      rw [Word32.toNat_add (by rw [h1, hsegSz]; omega), h1, hsegSz, List.length_append, hlen]
    · rw [if_neg hr] at hfull
      obtain ⟨out₁, h₁, hroom₁, hholds₁⟩ := wstrncat_appends h.room h.holds hnul (by omega)
      rw [if_neg (mt hroot.mp hr), if_neg hr, happends _ (by omega), h₁]
      refine ⟨⟨out₁, c.curSz + UInt32.ofNat seg.length⟩, rfl, hroom₁, hholds₁, ?_⟩
      dsimp only
      rw [Word32.toNat_add (by rw [h.size, hsegSz]; omega), h.size, hsegSz, List.length_append]

theorem segments_refines {segs : List Bytes} (h : Shows outSz c path)
    (hsegs : ∀ seg ∈ segs, seg.length < 2 ^ 32 ∧ 0 ∉ seg) :
    Refines outSz (segs.foldlM (segment outSz) c) (segs.foldlM (resolveSeg outSz.toNat) path) := by
  induction segs generalizing c path with
  | nil => exact ⟨c, rfl, h⟩
  | cons seg segs ih =>
    obtain ⟨⟨hseg, hnul⟩, hsegs⟩ := List.forall_mem_cons.mp hsegs
    rw [List.foldlM_cons, List.foldlM_cons]
    exact (segment_refines h hseg hnul).bind fun c' path' h' => ih h' hsegs

end Segment

section Start

variable {outSz : UInt32} {defaultPath : Option Bytes} {inp out : Bytes}

/-- The request starts from the default path. -/
def Relative (inp : Bytes) : Prop := inp = [] ∨ (!isDelim (inp.getD 0 0) && !isWinpath inp) = true

instance (inp : Bytes) : Decidable (Relative inp) := instDecidableOr

theorem isRelative_iff (hinp : inp.length < 2 ^ 32) :
    isRelative (.ofNat inp.length) inp = true ↔ Relative inp := by
  have hone : 1 < UInt32.ofNat inp.length ↔ 1 < inp.length := by
    rw [UInt32.lt_iff_toNat_lt, Word32.toNat_ofNat hinp]
    rfl
  rw [isRelative, Relative, isWinpath, Bool.or_eq_true, decide_eq_true_iff, ofNat_eq_iff hinp,
    decide_eq_decide.mpr hone]
  exact or_congr_left List.length_eq_zero_iff

theorem write_all {mem bs : Bytes} (h : bs.length = mem.length) : write mem 0 bs = some bs := by
  have hin : 0 + bs.length ≤ mem.length := by omega
  rw [write, if_pos hin, List.take_zero, List.nil_append, Nat.zero_add, h, List.drop_length,
    List.append_nil]

theorem startPath_refines {n : Nat} (hinp : inp.length < 2 ^ 32)
    (hd : Relative inp → ∀ d, defaultPath = some d → d.length < 2 ^ 32 ∧ 0 ∉ d)
    (hn : outSz.toNat = n + 1)
    (hroot : outSz = 1 → Relative inp ∧ defaultPath ≠ none) :
    Refines outSz (do
      let c ← startPath defaultPath inp (slash :: List.replicate n 0) outSz
      let out ← inside (write c.out c.curSz.toNat [0])
      return (⟨out, c.curSz⟩ : Cleanup)) (realPathBase defaultPath inp outSz.toNat) := by
  -- the root, for which there has to be room behind the slash
  have hslash : outSz ≠ 1 → Refines outSz (do
      let out ← inside (write (slash :: List.replicate n 0) 1 [0])
      return (⟨out, 1⟩ : Cleanup)) (.ok [slash]) := by
    intro hone
    have hne : n ≠ 0 := fun hz => hone (UInt32.toNat_inj.mp (by rw [hn, hz]; rfl))
    obtain ⟨m, rfl⟩ := Nat.exists_eq_succ_of_ne_zero hne
    refine ⟨⟨slash :: 0 :: List.replicate m 0, 1⟩, ?_, ?_, ⟨by decide, List.replicate m 0, rfl⟩, rfl⟩
    · rw [write, if_pos (by simp)]
      rfl
    · rw [hn]
      simp
  by_cases hrel : Relative inp
  · cases defaultPath with
    | none =>
      have hbase : realPathBase none inp outSz.toNat = .ok [slash] := if_pos hrel
      rw [startPath, if_pos ((isRelative_iff hinp).mpr hrel), hbase]
      exact hslash fun hone => (hroot hone).2 rfl
    | some d =>
      obtain ⟨hdlen, hdnul⟩ := hd hrel d rfl
      have hcurSz : (UInt32.ofNat d.length).toNat = d.length := Word32.toNat_ofNat hdlen
      have hbase : realPathBase (some d) inp outSz.toNat
          = if outSz.toNat ≤ d.length then .error .invalidPathE else .ok d := if_pos hrel
      rw [startPath, if_pos ((isRelative_iff hinp).mpr hrel), hbase]
      dsimp only
      by_cases hbig : outSz.toNat ≤ d.length
      · rw [if_pos (by rw [ge_iff_le, UInt32.le_iff_toNat_le, hcurSz]; exact hbig), if_pos hbig]
        rfl
      · have hfits : d.length < outSz.toNat := Nat.not_le.mp hbig
        obtain ⟨k, hk⟩ : ∃ k, outSz.toNat = d.length + (k + 1) := ⟨outSz.toNat - d.length - 1, by omega⟩
        have hpad : (d ++ List.replicate outSz.toNat 0).take outSz.toNat
            = d ++ 0 :: List.replicate k (0 : UInt8) := by
          rw [hk, List.take_length_add_append, List.take_replicate, Nat.min_eq_left (by omega)]
          rfl
        have hroom : (d ++ 0 :: List.replicate k (0 : UInt8)).length = outSz.toNat := by
          rw [List.length_append, List.length_cons, List.length_replicate, hk]
        have hcopy : write (slash :: List.replicate n 0) 0 (d ++ 0 :: List.replicate k 0)
            = some (d ++ 0 :: List.replicate k 0) :=
          write_all (by rw [hroom, hn, List.length_cons, List.length_replicate])
        have hholds : CStrings.Holds (d ++ 0 :: List.replicate k 0) d := ⟨hdnul, _, rfl⟩
        obtain ⟨out', hwrite, hholds'⟩ := hholds.cut (Nat.le_refl _)
        rw [if_neg (by rw [ge_iff_le, UInt32.le_iff_toNat_le, hcurSz]; exact hbig), if_neg hbig, hpad, hcopy]
        rw [List.take_length] at hholds'
        refine ⟨⟨out', .ofNat d.length⟩, ?_, (length_write hwrite).trans hroom, hholds', hcurSz⟩
        change (inside (write (d ++ 0 :: List.replicate k 0) (UInt32.ofNat d.length).toNat [0]) >>=
          fun out => pure (Cleanup.mk out (.ofNat d.length))) = _
        rw [hcurSz, hwrite]
        rfl
  · have hbase : realPathBase defaultPath inp outSz.toNat = .ok [slash] := if_neg hrel
    rw [startPath.eq_def, if_neg (mt (isRelative_iff hinp).mp hrel), hbase]
    exact hslash fun hone => hrel (hroot hone).1

/-- The whole function follows the one over paths, where the root fits the buffer. -/
theorem realPath_refines (hinp : inp.length < 2 ^ 32) (hnul : 0 ∉ inp)
    (hd : Relative inp → ∀ d, defaultPath = some d → d.length < 2 ^ 32 ∧ 0 ∉ d)
    (hout : out.length = outSz.toNat)
    (hpos : outSz ≠ 0) (hroot : outSz = 1 → Relative inp ∧ defaultPath ≠ none) :
    Refines outSz (realPath defaultPath inp out outSz)
      (WolfSsh.realPath defaultPath inp outSz.toNat) := by
  have hpos' : 0 < outSz.toNat := Word32.toNat_pos.mp hpos
  have hlen : (List.replicate outSz.toNat (0 : UInt8)).length = outSz.toNat := List.length_replicate
  obtain ⟨n, hn⟩ : ∃ n, outSz.toNat = n + 1 := Nat.exists_eq_succ_of_ne_zero (Nat.ne_of_gt hpos')
  have hmemset : write out 0 (List.replicate outSz.toNat 0) = some (List.replicate outSz.toNat 0) :=
    write_all (by rw [hlen, hout])
  have hslash : write (List.replicate outSz.toNat 0) 0 [slash]
      = some (slash :: List.replicate n 0) := by
    rw [write, if_pos (by rw [hlen, List.length_singleton]; omega), hn]
    rfl
  have hsegs : ∀ seg ∈ tokens isDelim inp, seg.length < 2 ^ 32 ∧ 0 ∉ seg := by
    intro seg hseg
    have hmem := mem_tokens hseg
    exact ⟨Nat.lt_of_le_of_lt (length_mem_tokens hseg) hinp, fun h0 => hnul (hmem.2 0 h0).1⟩
  have hstart : Refines outSz (do
      let c ← startPath defaultPath inp (slash :: List.replicate n 0) outSz
      let out ← inside (write c.out c.curSz.toNat [0])
      return (⟨out, c.curSz⟩ : Cleanup)) (realPathBase defaultPath inp outSz.toNat) :=
    startPath_refines hinp hd hn hroot
  have hloop := hstart.bind fun c path h => segments_refines h hsegs
  rw [WolfSsh.realPath, if_neg (Nat.ne_of_gt hpos'), realPath, if_neg hpos, hmemset]
  change Refines outSz (inside (write (List.replicate outSz.toNat 0) 0 [slash]) >>= _) _
  rw [hslash]
  simp only [bind_assoc, pure_bind] at hloop
  exact hloop

end Start

section Normal

variable {outSz : Nat} {p : CanonicalPath}

/-- Where the segments lead from `comps`. -/
def normal (comps segs : List Bytes) : List Bytes := normalise dot dotdot comps segs

theorem resolveSeg_render {seg : Bytes} (hfits : p.render.length < outSz) (hne : seg ≠ [])
    (hseg : seg ≠ dot → seg ≠ dotdot → IsComponent seg) :
    ∃ q : CanonicalPath, q.comps = enter dot dotdot p.comps seg ∧
      (q.render.length < outSz → resolveSeg outSz p.render seg = .ok q.render) ∧
      (outSz ≤ q.render.length → resolveSeg outSz p.render seg = .error .invalidPathE) := by
  rw [resolveSeg]
  by_cases hdot : seg = dot
  · refine ⟨p, (if_pos (.inr hdot)).symm, ?_, ?_⟩
    · intro _
      rw [if_pos hdot]
    · intro hbig
      omega
  by_cases hdotdot : seg = dotdot
  · obtain ⟨prev, hidx, hcut⟩ := p.cut_render
    have henter : enter dot dotdot p.comps seg = p.comps.dropLast := by
      rw [enter, if_neg (not_or.mpr ⟨hne, hdot⟩), if_pos hdotdot]
    have hshort : p.parent.render.length ≤ p.render.length := by
      rw [← hcut]
      split <;> exact List.length_take_le' _ _
    refine ⟨p.parent, henter.symm, ?_, ?_⟩
    · intro _
      rw [if_neg hdot, if_pos hdotdot, hidx, ← hcut]
    · intro hbig
      omega
  have hc := hseg hdot hdotdot
  have henter : enter dot dotdot p.comps seg = p.comps ++ [seg] := by
    rw [enter, if_neg (not_or.mpr ⟨hne, hdot⟩), if_neg hdotdot]
  have hlen : (p.push seg hc).render.length
      = p.render.length + (if p.render.length ≠ 1 then 1 else 0) + seg.length := by
    by_cases hroot : p.render.length ≠ 1
    · rw [if_pos hroot, CanonicalPath.render_push_of_ne_nil hc fun hnil =>
        hroot (CanonicalPath.length_render_eq_one.mpr hnil)]
      rw [List.length_append, List.length_append, List.length_singleton]
    · rw [if_neg hroot, CanonicalPath.render_push_of_nil hc
        (CanonicalPath.length_render_eq_one.mp (not_not.mp hroot))]
      simp
  refine ⟨p.push seg hc, henter.symm, ?_, ?_⟩
  · intro hfit
    rw [hlen] at hfit
    rw [if_neg hdot, if_neg hdotdot]
    dsimp only
    rw [if_neg (by omega)]
    by_cases hroot : p.render.length ≠ 1
    · rw [if_pos hroot] at hfit
      have hslash : WolfSsh.wstrncat p.render [slash] outSz = .ok (p.render ++ [slash]) := by
        rw [WolfSsh.wstrncat, if_neg (by omega), if_pos (by rw [List.length_singleton]; omega)]
      have hone : (p.render ++ [slash]).length = p.render.length + 1 := by simp
      rw [if_pos hroot, hslash, CanonicalPath.render_push_of_ne_nil hc fun hnil =>
        hroot (CanonicalPath.length_render_eq_one.mpr hnil)]
      change WolfSsh.wstrncat (p.render ++ [slash]) seg outSz = _
      rw [WolfSsh.wstrncat, if_neg (by omega), if_pos (by omega)]
    · rw [if_neg hroot] at hfit
      rw [if_neg hroot, CanonicalPath.render_push_of_nil hc
        (CanonicalPath.length_render_eq_one.mp (not_not.mp hroot)), WolfSsh.wstrncat,
        if_neg (by omega), if_pos (by omega)]
  · intro hbig
    rw [hlen] at hbig
    rw [if_neg hdot, if_neg hdotdot]
    dsimp only
    rw [if_pos (by omega)]

theorem foldlM_resolveSeg_normal {segs : List Bytes} (hfits : p.render.length < outSz)
    (hsegs : ∀ seg ∈ segs, seg ≠ [] ∧ (seg ≠ dot → seg ≠ dotdot → IsComponent seg)) :
    (∃ q : CanonicalPath, q.comps = normal p.comps segs ∧ q.render.length < outSz ∧
      segs.foldlM (resolveSeg outSz) p.render = .ok q.render) ∨
    (segs.foldlM (resolveSeg outSz) p.render = .error .invalidPathE ∧
      ∃ k, outSz ≤ (render slash (normal p.comps (segs.take k))).length) := by
  induction segs generalizing p with
  | nil => exact .inl ⟨p, rfl, hfits, rfl⟩
  | cons seg segs ih =>
    obtain ⟨⟨hne, hseg⟩, hsegs⟩ := List.forall_mem_cons.mp hsegs
    obtain ⟨q, hq, hok, hfull⟩ := resolveSeg_render hfits hne hseg
    have hnormal : ∀ segs, normal p.comps (seg :: segs) = normal q.comps segs := by
      intro segs
      rw [normal, normalise, List.foldl_cons, ← hq]
      rfl
    rw [List.foldlM_cons]
    by_cases hfit : q.render.length < outSz
    · rw [hok hfit]
      rcases ih hfit hsegs with ⟨r, hr, hrfit, hrun⟩ | ⟨hrun, k, hk⟩
      · exact .inl ⟨r, by rw [hr, hnormal], hrfit, hrun⟩
      · refine .inr ⟨hrun, k + 1, ?_⟩
        rwa [List.take_succ_cons, hnormal]
    · rw [hfull (Nat.not_lt.mp hfit)]
      refine .inr ⟨rfl, 1, ?_⟩
      rw [List.take_succ_cons, List.take_zero, hnormal]
      exact Nat.not_lt.mp hfit

def base (defaultPath : Option CanonicalPath) (inp : Bytes) : List Bytes :=
  if Relative inp then (defaultPath.map CanonicalPath.comps).getD [] else []

theorem realPath_normal (d : Option CanonicalPath) {inp : Bytes} (hnul : 0 ∉ inp)
    (hpos : 0 < outSz) (hroot : outSz = 1 → Relative inp ∧ d ≠ none) :
    (∃ q : CanonicalPath, q.comps = normal (base d inp) (tokens isDelim inp) ∧
      q.render.length < outSz ∧ WolfSsh.realPath (d.map CanonicalPath.render) inp outSz = .ok q.render) ∨
    (WolfSsh.realPath (d.map CanonicalPath.render) inp outSz = .error .invalidPathE ∧
      ∃ k, outSz ≤ (render slash (normal (base d inp) ((tokens isDelim inp).take k))).length) := by
  have hsegs : ∀ seg ∈ tokens isDelim inp, seg ≠ [] ∧ (seg ≠ dot → seg ≠ dotdot → IsComponent seg) :=
    fun seg hseg => ⟨(mem_tokens hseg).1,
      isComponent_of_mem_tokens (fun b hb h0 => hnul (h0 ▸ hb)) hseg⟩
  rw [WolfSsh.realPath, if_neg (Nat.ne_of_gt hpos)]
  have hloop : ∀ p : CanonicalPath, p.comps = base d inp → p.render.length < outSz →
      realPathBase (d.map CanonicalPath.render) inp outSz = .ok p.render →
      (∃ q : CanonicalPath, q.comps = normal (base d inp) (tokens isDelim inp) ∧
        q.render.length < outSz ∧ (do
          let out ← realPathBase (d.map CanonicalPath.render) inp outSz
          (tokens isDelim inp).foldlM (resolveSeg outSz) out) = .ok q.render) ∨
      ((do
          let out ← realPathBase (d.map CanonicalPath.render) inp outSz
          (tokens isDelim inp).foldlM (resolveSeg outSz) out) = .error .invalidPathE ∧
        ∃ k, outSz ≤ (render slash (normal (base d inp) ((tokens isDelim inp).take k))).length) := by
    intro p hp hfit hbase
    rw [hbase, ← hp]
    exact foldlM_resolveSeg_normal hfit hsegs
  have hrootFits : (Relative inp → d = none) → 1 < outSz := by
    intro habs
    by_contra hsmall
    obtain ⟨hrel, hd⟩ := hroot (by omega)
    exact hd (habs hrel)
  by_cases hrel : Relative inp
  · cases d with
    | none =>
      have hbase : base none inp = [] := if_pos hrel
      exact hloop CanonicalPath.root hbase.symm (hrootFits fun _ => rfl) (if_pos hrel)
    | some p =>
      have hbase : base (some p) inp = p.comps := if_pos hrel
      have hstart : realPathBase (some p.render) inp outSz
          = if outSz ≤ p.render.length then .error .invalidPathE else .ok p.render := if_pos hrel
      by_cases hfit : outSz ≤ p.render.length
      · rw [if_pos hfit] at hstart
        refine .inr ⟨?_, 0, ?_⟩
        · rw [Option.map_some, hstart]
          rfl
        · rw [List.take_zero, hbase]
          exact hfit
      · rw [if_neg hfit] at hstart
        exact hloop p hbase.symm (Nat.not_le.mp hfit) hstart
  · have hbase : base d inp = [] := if_neg hrel
    exact hloop CanonicalPath.root hbase.symm (hrootFits fun h => absurd h hrel) (if_neg hrel)

theorem not_relative_render (q : CanonicalPath) : ¬ Relative q.render := by
  have hhead : ∃ rest, q.render = slash :: rest := by
    rw [CanonicalPath.render]
    cases hq : q.comps with
    | nil => exact ⟨[], rfl⟩
    | cons c cs => exact ⟨c ++ body slash cs, by rw [render_of_ne_nil (List.cons_ne_nil c cs)]; rfl⟩
  obtain ⟨rest, hrest⟩ := hhead
  rw [Relative, hrest]
  rintro (hnil | hrel)
  · simp at hnil
  · rw [List.getD_cons_zero, isDelim_slash] at hrel
    simp at hrel

theorem normal_self {cs : List Bytes} (hcs : ∀ c ∈ cs, IsComponent c) : normal [] cs = cs :=
  normalise_self fun c hc => ⟨(hcs c hc).1, (hcs c hc).2.1, (hcs c hc).2.2.1⟩

theorem nul_notMem_render (q : CanonicalPath) : 0 ∉ q.render := by
  intro h0
  rw [CanonicalPath.render] at h0
  by_cases hnil : q.comps = []
  · rw [hnil, render_nil, List.mem_singleton] at h0
    exact absurd h0 (by decide)
  · rw [render_of_ne_nil hnil, body, List.mem_flatMap] at h0
    obtain ⟨c, hc, hmem⟩ := h0
    rcases List.mem_cons.mp hmem with hslash | hmem
    · exact absurd hslash (by decide)
    · exact ((q.valid c hc).2.2.2 0 hmem).1 rfl

theorem realPath_canonical_self (d : Option Bytes) {q : CanonicalPath}
    (hfits : q.render.length < outSz) : WolfSsh.realPath d q.render outSz = .ok q.render := by
  have habs := not_relative_render q
  have hpos : 1 ≤ q.render.length := length_pos_render q.comps
  have hmore : 1 < outSz := Nat.lt_of_le_of_lt hpos hfits
  have hdefault : WolfSsh.realPath d q.render outSz = WolfSsh.realPath none q.render outSz := by
    have hbase : ∀ d', realPathBase d' q.render outSz = .ok [slash] := fun d' => if_neg habs
    rw [WolfSsh.realPath, WolfSsh.realPath, hbase, hbase]
  have hbase : base none q.render = [] := if_neg habs
  have htokens : tokens isDelim q.render = q.comps :=
    tokens_render isDelim_slash fun c hc =>
      ⟨(q.valid c hc).1, fun b hb => ((q.valid c hc).2.2.2 b hb).2⟩
  have hnormal := @realPath_normal outSz none q.render (nul_notMem_render q) (Nat.lt_of_succ_lt hmore)
    fun hone => absurd hone (Nat.ne_of_gt hmore)
  rw [hdefault]
  rcases hnormal with ⟨r, hr, -, hrun⟩ | ⟨-, k, hk⟩
  · rw [hbase, htokens, normal_self q.valid] at hr
    have hsame : r.render = q.render := by
      rw [CanonicalPath.render, hr]
      rfl
    rw [hsame] at hrun
    exact hrun
  · rw [hbase, htokens, normal_self fun c hc => q.valid c (List.mem_of_mem_take hc)] at hk
    have hle : (render slash (q.comps.take k)).length ≤ q.render.length :=
      length_render_take_le q.comps k
    exact absurd (hk.trans hle) (Nat.not_le.mpr hfits)

end Normal

/-- A backslash separates too, and a drive makes a path absolute. -/
theorem backslash_separates :
    ¬ ∀ (inp out : Bytes) (outSz : UInt32) (c : Cleanup), 0 ∉ inp → out.length = outSz.toNat →
      inp.head? = some slash → realPath none inp out outSz = .ok c →
      text c.out = some (render slash (normal [] (inp.splitOnP (· = slash)))) := by
  intro h
  have hrun : (realPath none (ascii "/a\\..") (List.replicate 16 0) 16).toOption.map (text ·.out)
      = some (some (ascii "/")) := by decide +kernel
  cases hc : realPath none (ascii "/a\\..") (List.replicate 16 0) 16 with
  | error e =>
    rw [hc] at hrun
    exact absurd hrun nofun
  | ok c =>
    rw [hc] at hrun
    have htext : text c.out = some (ascii "/") := Option.some.inj hrun
    have hclaim := h (ascii "/a\\..") (List.replicate 16 0) 16 c (by decide) rfl (by decide) hc
    rw [htext] at hclaim
    exact absurd hclaim (by decide +kernel)

/-- The function writes the normal form of the request into the buffer, or fails over a path on the
way that does not fit; and the normal form is written again for itself. A buffer of one octet has
no room for the root. -/
theorem real_path_normalises (d : Option CanonicalPath) (inp out : Bytes) (outSz : UInt32)
    (hd : ∀ p, d = some p → p.render.length < 2 ^ 32) (hinp : inp.length < 2 ^ 32) (hnul : 0 ∉ inp)
    (hout : out.length = outSz.toNat) (hpos : outSz ≠ 0) (hroot : outSz = 1 → Relative inp ∧ d ≠ none) :
    (realPath (d.map CanonicalPath.render) inp out outSz = .error (.failed .invalidPathE) ∧
      ∃ k, outSz.toNat ≤
        (render slash (normal (base d inp) ((tokens isDelim inp).take k))).length) ∨
    ∃ c q, realPath (d.map CanonicalPath.render) inp out outSz = .ok c ∧
      c.out.length = outSz.toNat ∧ CStrings.Holds c.out (CanonicalPath.render q) ∧
      q.comps = normal (base d inp) (inp.splitOnP isDelim) ∧
      ∀ (d' : Option Bytes) (out' : Bytes), out'.length = outSz.toNat →
        ∃ c', realPath d' q.render out' outSz = .ok c' ∧ CStrings.Holds c'.out q.render := by
  have hpos' : 0 < outSz.toNat := Word32.toNat_pos.mp hpos
  have hone : outSz.toNat = 1 → outSz = 1 := fun h => UInt32.toNat_inj.mp h
  have hdefault : Relative inp → ∀ s, d.map CanonicalPath.render = some s →
      s.length < 2 ^ 32 ∧ 0 ∉ s := by
    intro _ s hs
    obtain ⟨p, hp, rfl⟩ := Option.map_eq_some_iff.mp hs
    exact ⟨hd p hp, nul_notMem_render p⟩
  have hrefines := realPath_refines hinp hnul hdefault hout hpos fun h =>
    ⟨(hroot h).1, fun hnone => (hroot h).2 (Option.map_eq_none_iff.mp hnone)⟩
  rcases realPath_normal d hnul hpos' fun h => hroot (hone h) with
    ⟨q, hq, hfits, hrun⟩ | ⟨hrun, hk⟩
  · rw [hrun] at hrefines
    obtain ⟨c, hc, hshows⟩ := hrefines
    refine .inr ⟨c, q, hc, hshows.room, hshows.holds, ?_, ?_⟩
    · rw [hq]
      exact normalise_tokens (base d inp) inp
    · intro d' out' hout'
      have habs := not_relative_render q
      have hone' : outSz ≠ 1 := by
        rintro rfl
        have hlong : 1 ≤ q.render.length := length_pos_render q.comps
        exact absurd (Nat.lt_of_le_of_lt hlong hfits) (by decide)
      have hword : q.render.length < 2 ^ 32 := Nat.lt_trans hfits outSz.toNat_lt
      have hagain : Refines outSz (realPath d' q.render out' outSz)
          (WolfSsh.realPath d' q.render outSz.toNat) :=
        realPath_refines hword (nul_notMem_render q) (fun h => absurd h habs) hout' hpos
          fun h => absurd h hone'
      rw [realPath_canonical_self d' hfits] at hagain
      obtain ⟨c', hc', hshows'⟩ := hagain
      exact ⟨c', hc', hshows'.holds⟩
  · rw [hrun] at hrefines
    exact .inl ⟨hrefines, hk⟩

/-- A relative request in a buffer of eight octets. -/
theorem real_path_normalises_small :
    ∃ c q, realPath none (ascii "a/../b") (List.replicate 8 0) 8 = .ok c ∧
      CStrings.Holds c.out (CanonicalPath.render q) := by
  rcases real_path_normalises none (ascii "a/../b") (List.replicate 8 0) 8 nofun (by decide)
    (by decide) rfl (by decide) (fun h => absurd h (by decide)) with ⟨hfail, -⟩ | ⟨c, q, hc, -, hholds, -⟩
  · exact absurd hfail (by decide +kernel)
  · exact ⟨c, q, hc, hholds⟩

end WolfSsh.RealPath
