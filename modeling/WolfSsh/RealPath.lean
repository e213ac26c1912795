import WolfSsh.Names
import WolfSsh.Lib.Paths
import Mathlib.Data.List.TakeWhile

/-! The lexical clean-up of the paths a peer asks for, and the canonical paths it yields. -/

namespace WolfSsh

inductive PathErr where
  | badArgument | bufferE | invalidPathE | permissions
deriving DecidableEq, Repr

def maxFilename : Nat := 256

def slash : UInt8 := 0x2f

/-- WOLFSSH_SFTP_IS_DELIM: both slashes, whatever the operating system. -/
def isDelim (c : UInt8) : Bool := c == slash || c == 0x5c

theorem isDelim_slash : isDelim slash = true := rfl

def isWinpath (s : Bytes) : Bool := decide (1 < s.length) && s.getD 1 0 == 0x3a

/-- What the string functions see of a buffer: the octets before the first NUL. -/
def cstr (bs : Bytes) : Bytes := bs.takeWhile (· != 0)

def wstrncat (s1 s2 : Bytes) (n : Nat) : Except PathErr Bytes :=
  if n ≤ s1.length then .error .invalidPathE
  else if s2.length ≤ n - s1.length - 1 then .ok (s1 ++ s2)
  else .error .invalidPathE

def dot : Bytes := [0x2e]
def dotdot : Bytes := [0x2e, 0x2e]

/-- One segment of the request, `out` being the path so far. -/
def resolveSeg (outSz : Nat) (out seg : Bytes) : Except PathErr Bytes :=
  if seg = dot then .ok out
  else if seg = dotdot then
    match Paths.lastIndex slash out with
    | none => .ok out
    -- the root is kept
    | some prev => .ok (if prev ≠ 0 then out.take prev else out.take 1)
  else
    let sepSz := if out.length ≠ 1 then 1 else 0
    if outSz ≤ seg.length ∨ outSz - seg.length ≤ out.length + sepSz then .error .invalidPathE
    else if out.length ≠ 1 then do
      let out ← wstrncat out [slash] outSz
      wstrncat out seg outSz
    else wstrncat out seg outSz

/-- Where the segments start from: the default path for a relative request, else the root. -/
def realPathBase (defaultPath : Option Bytes) (inp : Bytes) (outSz : Nat) : Except PathErr Bytes :=
  if inp = [] ∨ (!isDelim (inp.getD 0 0) && !isWinpath inp) then
    match defaultPath with
    | some d => if outSz ≤ d.length then .error .invalidPathE else .ok d
    | none => .ok [slash]
  else .ok [slash]

def realPath (defaultPath : Option Bytes) (inp : Bytes) (outSz : Nat) : Except PathErr Bytes := do
  if outSz = 0 then throw .badArgument
  let out ← realPathBase defaultPath inp outSz
  (Paths.tokens isDelim inp).foldlM (resolveSeg outSz) out

/-- A name that a canonical path may hold. -/
def IsComponent (c : Bytes) : Prop :=
  c ≠ [] ∧ c ≠ dot ∧ c ≠ dotdot ∧ ∀ b ∈ c, b ≠ 0 ∧ isDelim b = false

instance : DecidablePred IsComponent := fun c =>
  letI := List.decidableBAll (fun b => b ≠ 0 ∧ isDelim b = false) c
  instDecidableAnd

theorem IsComponent.slash_notMem {c : Bytes} (h : IsComponent c) : slash ∉ c := by
  intro hmem
  have hd := (h.2.2.2 slash hmem).2
  simp [isDelim] at hd

/-- An absolute path without empty, `.` or `..` components. -/
structure CanonicalPath where
  comps : List Bytes
  valid : ∀ c ∈ comps, IsComponent c

namespace CanonicalPath

def root : CanonicalPath := ⟨[], by simp⟩

def push (p : CanonicalPath) (c : Bytes) (hc : IsComponent c) : CanonicalPath :=
  ⟨p.comps ++ [c], by
    intro d hd
    rcases List.mem_append.mp hd with hd | hd
    · exact p.valid d hd
    · rw [List.mem_singleton] at hd
      exact hd ▸ hc⟩

def parent (p : CanonicalPath) : CanonicalPath :=
  ⟨p.comps.dropLast, fun c hc => p.valid c (List.mem_of_mem_dropLast hc)⟩

def render (p : CanonicalPath) : Bytes := Paths.render slash p.comps

/-- `p` lies in the tree under `q`. -/
def Under (q p : CanonicalPath) : Prop := q.comps <+: p.comps

theorem slash_notMem (p : CanonicalPath) : ∀ c ∈ p.comps, slash ∉ c :=
  fun c hc => (p.valid c hc).slash_notMem

theorem length_render_eq_one {p : CanonicalPath} : p.render.length = 1 ↔ p.comps = [] :=
  Paths.render_length_eq_one (fun c hc => (p.valid c hc).1)

theorem render_push_of_nil {p : CanonicalPath} {c : Bytes} (hc : IsComponent c)
    (hp : p.comps = []) : (p.push c hc).render = p.render ++ c := by
  simp [push, render, hp, Paths.render_singleton]

theorem render_push_of_ne_nil {p : CanonicalPath} {c : Bytes} (hc : IsComponent c)
    (hp : p.comps ≠ []) : (p.push c hc).render = p.render ++ [slash] ++ c := by
  rw [push, render, render, Paths.render_concat hp]
  simp

theorem render_parent (p : CanonicalPath) :
    p.parent.render = Paths.render slash p.comps.dropLast := rfl

theorem cut_render (p : CanonicalPath) :
    ∃ prev, Paths.lastIndex slash p.render = some prev ∧
      (if prev ≠ 0 then p.render.take prev else p.render.take 1) = p.parent.render := by
  rcases List.eq_nil_or_concat p.comps with hp | ⟨cs, c, hp⟩
  · refine ⟨0, ?_, ?_⟩
    · rw [render, hp]
      rfl
    · rw [if_neg (by simp), render_parent, render, hp]
      rfl
  · have hc : slash ∉ c := p.slash_notMem c (by simp [hp])
    obtain ⟨hidx, htake⟩ := Paths.take_lastIndex_render cs hc
    rw [List.concat_eq_append] at hp
    have hpar : p.parent.render = Paths.render slash cs := by
      rw [render_parent, hp, List.dropLast_concat]
    refine ⟨_, by rw [render, hp]; exact hidx, ?_⟩
    rw [hpar, render, hp]
    by_cases hcs : cs = []
    · subst hcs
      simp [Paths.render]
    · have hne : (Paths.body slash cs).length ≠ 0 := by
        have hpos : 0 < (Paths.render slash cs).length := Paths.length_pos_render cs
        rw [Paths.render_of_ne_nil hcs] at hpos
        omega
      rw [if_pos hne, htake, Paths.render_of_ne_nil hcs]

end CanonicalPath

def Canonical (s : Bytes) : Prop := ∃ p : CanonicalPath, s = p.render

theorem wstrncat_ok {s1 s2 out : Bytes} {n : Nat} (h : wstrncat s1 s2 n = .ok out) :
    out = s1 ++ s2 := by
  rw [wstrncat] at h
  by_cases h1 : n ≤ s1.length
  · simp [h1] at h
  · by_cases h2 : s2.length ≤ n - s1.length - 1
    · simp only [if_neg h1, if_pos h2, Except.ok.injEq] at h
      exact h.symm
    · simp [h1, h2] at h

/-- A token that is neither `.` nor `..` is a component. -/
theorem isComponent_of_mem_tokens {s tok : Bytes} (hs : ∀ b ∈ s, b ≠ 0)
    (h : tok ∈ Paths.tokens isDelim s) (hdot : tok ≠ dot) (hdotdot : tok ≠ dotdot) :
    IsComponent tok := by
  obtain ⟨hne, hall⟩ := Paths.mem_tokens h
  exact ⟨hne, hdot, hdotdot, fun b hb => ⟨hs b (hall b hb).1, (hall b hb).2⟩⟩

theorem resolveSeg_canonical {outSz : Nat} {out seg out' : Bytes} (hout : Canonical out)
    (hseg : seg ≠ dot → seg ≠ dotdot → IsComponent seg)
    (h : resolveSeg outSz out seg = .ok out') : Canonical out' := by
  obtain ⟨p, rfl⟩ := hout
  rw [resolveSeg] at h
  by_cases hdot : seg = dot
  · rw [if_pos hdot, Except.ok.injEq] at h
    exact ⟨p, h.symm⟩
  rw [if_neg hdot] at h
  by_cases hdotdot : seg = dotdot
  · obtain ⟨prev, hidx, hcut⟩ := p.cut_render
    rw [if_pos hdotdot, hidx] at h
    refine ⟨p.parent, ?_⟩
    rw [← hcut]
    exact (Except.ok.inj h).symm
  rw [if_neg hdotdot] at h
  have hc := hseg hdot hdotdot
  refine ⟨p.push seg hc, ?_⟩
  dsimp only at h
  by_cases hfit : outSz ≤ seg.length ∨
      outSz - seg.length ≤ p.render.length + if p.render.length ≠ 1 then 1 else 0
  · rw [if_pos hfit] at h
    cases h
  rw [if_neg hfit] at h
  by_cases hroot : p.render.length ≠ 1
  · rw [if_pos hroot, Fallible.ok_bind_iff] at h
    obtain ⟨mid, hmid, h⟩ := h
    have hne : p.comps ≠ [] := fun hnil => hroot (CanonicalPath.length_render_eq_one.mpr hnil)
    rw [wstrncat_ok h, wstrncat_ok hmid, CanonicalPath.render_push_of_ne_nil hc hne]
  · rw [if_neg hroot] at h
    have hnil : p.comps = [] := CanonicalPath.length_render_eq_one.mp (not_not.mp hroot)
    rw [wstrncat_ok h, CanonicalPath.render_push_of_nil hc hnil]

theorem canonical_root : Canonical [slash] := ⟨CanonicalPath.root, rfl⟩

theorem realPathBase_canonical {d : Option Bytes} {inp out : Bytes} {outSz : Nat}
    (hd : ∀ p, d = some p → Canonical p) (h : realPathBase d inp outSz = .ok out) :
    Canonical out := by
  unfold realPathBase at h
  by_cases hrel : inp = [] ∨ (!isDelim (inp.getD 0 0) && !isWinpath inp)
  · rw [if_pos hrel] at h
    cases d with
    | none =>
      rw [Except.ok.injEq] at h
      exact h ▸ canonical_root
    | some p =>
      by_cases hfit : outSz ≤ p.length
      · simp [hfit] at h
      · simp only [hfit, if_false, Except.ok.injEq] at h
        exact h ▸ hd p rfl
  · rw [if_neg hrel, Except.ok.injEq] at h
    exact h ▸ canonical_root

theorem foldlM_resolveSeg_canonical {outSz : Nat} {segs : List Bytes} {out out' : Bytes}
    (hsegs : ∀ seg ∈ segs, seg ≠ dot → seg ≠ dotdot → IsComponent seg) (hout : Canonical out)
    (h : segs.foldlM (resolveSeg outSz) out = .ok out') : Canonical out' := by
  induction segs generalizing out with
  | nil =>
    rw [List.foldlM_nil, Fallible.ok_pure_iff] at h
    exact h ▸ hout
  | cons seg segs ih =>
    rw [List.foldlM_cons, Fallible.ok_bind_iff] at h
    obtain ⟨mid, hmid, h⟩ := h
    have hm := resolveSeg_canonical hout (hsegs seg (by simp)) hmid
    exact ih (fun s hs => hsegs s (List.mem_cons_of_mem _ hs)) hm h

/-- What `wolfSSH_RealPath` yields is canonical, wherever a relative request starts from. -/
theorem realPath_canonical {d : Option Bytes} {inp out : Bytes} {outSz : Nat}
    (hd : ∀ p, d = some p → Canonical p) (hinp : ∀ b ∈ inp, b ≠ 0)
    (h : realPath d inp outSz = .ok out) : Canonical out := by
  rw [realPath] at h
  by_cases hz : outSz = 0
  · rw [if_pos hz] at h
    cases h
  rw [if_neg hz] at h
  obtain ⟨base, hbase, h⟩ := Fallible.ok_bind_iff.mp h
  exact foldlM_resolveSeg_canonical (fun _ => isComponent_of_mem_tokens hinp)
    (realPathBase_canonical hd hbase) h

theorem cstr_ne_zero (bs : Bytes) : ∀ b ∈ cstr bs, b ≠ 0 := by
  intro b hb
  have hp := List.mem_takeWhile_imp hb
  simpa using hp

end WolfSsh
