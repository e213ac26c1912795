import WolfSsh.SftpServer
import Mathlib.Data.List.GetD

/-! The path check of the SFTP server against the confinement root, and the rules for what a handler
hands to the file system behind it. -/

namespace WolfSsh

namespace CanonicalPath

theorem eq_slash_of_isDelim {p : CanonicalPath} {c : UInt8} (hc : c ∈ p.render)
    (hd : isDelim c = true) : c = slash := by
  have hbody : c = slash ∨ c ∈ Paths.body slash p.comps := by
    by_cases hp : p.comps = []
    · rw [render, hp] at hc
      left
      simpa using hc
    · right
      rwa [render, Paths.render_of_ne_nil hp] at hc
  rcases hbody with h | h
  · exact h
  · obtain ⟨comp, hcomp, hmem⟩ := List.mem_flatMap.mp h
    rcases List.mem_cons.mp hmem with h | h
    · exact h
    · have hno := ((p.valid comp hcomp).2.2.2 c h).2
      rw [hd] at hno
      cases hno

theorem Under.comps_ne_nil {root p : CanonicalPath} (h : root.Under p) (hne : root.comps ≠ []) :
    p.comps ≠ [] := by
  intro hnil
  rw [Under, hnil] at h
  exact hne (List.prefix_nil.mp h)

theorem render_of_ne_nil {p : CanonicalPath} (hp : p.comps ≠ []) :
    p.render = Paths.body slash p.comps := Paths.render_of_ne_nil hp

/-- The first components of a canonical path. -/
def front (p : CanonicalPath) (n : Nat) : CanonicalPath :=
  ⟨p.comps.take n, fun c hc => p.valid c (List.mem_of_mem_take hc)⟩

/-- The prefix compare with the root, a separator or the end behind it, says that the path is under
the root. -/
theorem under_of_compare {root p : CanonicalPath} (hne : root.comps ≠ [])
    (hout : Sftp.outsideConfine p.render root.render root.render.length = false) :
    root.Under p := by
  rw [Sftp.outsideConfine, Bool.or_eq_false_iff, Bool.and_eq_false_iff] at hout
  obtain ⟨htake, hnext⟩ := hout
  rw [List.take_length, decide_eq_false_iff_not, not_not] at htake
  have hsplit : p.render = root.render ++ p.render.drop root.render.length := by
    have happ := List.take_append_drop root.render.length p.render
    rw [htake] at happ
    exact happ.symm
  have hpne : p.comps ≠ [] := by
    intro hnil
    have hlen : p.render.length = 1 := length_render_eq_one.mpr hnil
    have hroot := length_render_eq_one.not.mpr hne
    have hpos : 0 < root.render.length := Paths.length_pos_render root.comps
    rw [hsplit, List.length_append] at hlen
    omega
  have hrest : p.render.drop root.render.length = [] ∨
      (p.render.drop root.render.length).head? = some slash := by
    rcases hnext with hlen | hdelim
    · left
      rw [decide_eq_false_iff_not, not_not] at hlen
      exact List.drop_eq_nil_of_le (by omega)
    · by_cases hlt : root.render.length < p.render.length
      · right
        rw [List.getD_eq_getElem _ _ hlt, Bool.not_eq_eq_eq_not, Bool.not_false] at hdelim
        rw [List.head?_drop, List.getElem?_eq_getElem hlt]
        rw [eq_slash_of_isDelim (List.getElem_mem hlt) hdelim]
      · left
        exact List.drop_eq_nil_of_le (by omega)
  obtain ⟨tail, hcomps, -⟩ := Paths.prefix_of_body_append
    root.slash_notMem p.slash_notMem hrest
    (by rw [← render_of_ne_nil hpne, ← render_of_ne_nil hne]; exact hsplit)
  exact ⟨tail, hcomps.symm⟩

/-- The ends of the paths above `p`: a separator follows, or the end of `p`. -/
theorem boundary_of_under {q p : CanonicalPath} (hq : q.comps ≠ []) (h : q.Under p) :
    q.render = p.render.take q.render.length ∧ q.render.length ≤ p.render.length ∧
      (q.render.length = p.render.length ∨
        isDelim (p.render.getD q.render.length 0) = true) := by
  obtain ⟨tail, htail⟩ := h
  have hpne : p.comps ≠ [] := by
    rw [← htail]
    simp [hq]
  have hsplit : p.render = q.render ++ Paths.body slash tail := by
    rw [render_of_ne_nil hpne, render_of_ne_nil hq, ← htail, Paths.body_append]
  refine ⟨by rw [hsplit, List.take_left], by rw [hsplit, List.length_append]; omega, ?_⟩
  cases tail with
  | nil =>
    left
    rw [hsplit]
    simp
  | cons c tail =>
    right
    rw [hsplit]
    simp [isDelim_slash]

theorem exists_of_boundary {p : CanonicalPath} {i : Nat} (hp : p.comps ≠ [])
    (hi : i ≤ p.render.length)
    (hb : i = p.render.length ∨ isDelim (p.render.getD i 0) = true) (hpos : 0 < i) :
    ∃ q : CanonicalPath, q.comps ≠ [] ∧ q.Under p ∧ q.render = p.render.take i := by
  have hrest : p.render.drop i = [] ∨ (p.render.drop i).head? = some slash := by
    rcases hb with rfl | hb
    · left
      simp
    · by_cases hlt : i < p.render.length
      · right
        rw [List.getD_eq_getElem _ _ hlt] at hb
        rw [List.head?_drop, List.getElem?_eq_getElem hlt]
        rw [eq_slash_of_isDelim (List.getElem_mem hlt) hb]
      · left
        exact List.drop_eq_nil_of_le (by omega)
  have hsplit : Paths.body slash p.comps = p.render.take i ++ p.render.drop i := by
    rw [List.take_append_drop, render_of_ne_nil hp]
  obtain ⟨head, tail, hcomps, hfront⟩ := Paths.split_body p.slash_notMem hrest hsplit
  have hhead : head ≠ [] := by
    rintro rfl
    have hlen := congrArg List.length hfront
    rw [List.length_take, Paths.body_nil, List.length_nil] at hlen
    omega
  refine ⟨⟨head, fun c hc => p.valid c (by simp [hcomps, hc])⟩, hhead, ⟨tail, hcomps.symm⟩, ?_⟩
  rw [render_of_ne_nil hhead, hfront]

end CanonicalPath

namespace Sftp

/-- The paths that a request hands to the file system. The look at an entry that READDIR lists goes
to the name the file system gave. -/
def handed : FsCall → List Bytes
  | .stat p | .lstat p | .rmdir p | .mkdir p _ | .openFile p _ _ | .opendir p | .truncate p _
  | .chown p _ _ | .chmod p _ | .utimes p _ _ | .unlink p => [p]
  | .link old name | .rename old name => [old, name]
  | _ => []

/-- The call probed a path and found a symbolic link. -/
def linkFound : Event → Bool
  | ⟨.isSymlink _, link⟩ => link
  | _ => false

theorem linkFound_of_other {e : Event} (h : ∀ path, e.1 ≠ .isSymlink path) :
    linkFound e = false := by
  obtain ⟨c, r⟩ := e
  cases c <;> first | rfl | exact absurd rfl (h _)

/-- The probe of a path that is no symbolic link. -/
def noLink (path : Bytes) : Event := ⟨.isSymlink path, (false : Bool)⟩

/-- The part of the path check that looks at the strings alone. -/
def refused (ssh : Session) (name : Bytes) : Bool :=
  decide (maxFilename ≤ name.length) ||
    match realPath ssh.sftpDefaultPath (cstr name) maxFilename with
    | .error _ => true
    | .ok s =>
      match ssh.sftpConfinePath with
      | none => false
      | some confine => outsideConfine s confine (confineLen confine confine.length)

/-- `path` lies under the root, and every component below the root was probed and is no link. -/
def Jailed (b : Build) (root : CanonicalPath) (new : List Event) (path : Bytes) : Prop :=
  ∃ p : CanonicalPath, path = p.render ∧ root.Under p ∧
    (b.haveSymlink → ∀ q : CanonicalPath, root.Under q → q.comps ≠ root.comps → q.Under p →
      noLink q.render ∈ new)

/-- The calls of a request with the path strings `names`. -/
structure Confined (b : Build) (ssh : Session) (root : CanonicalPath) (names : List Bytes)
    (new : List Event) : Prop where
  jailed : ∀ e ∈ new, ∀ path ∈ handed e.1, Jailed b root new path
  probed : ∀ e ∈ new, ∀ path, e.1 = .isSymlink path →
    ∃ q : CanonicalPath, path = q.render ∧ root.Under q
  failed : ((∃ name ∈ names, refused ssh name) ∨ ∃ e ∈ new, linkFound e) →
    ∀ e ∈ new, handed e.1 = []

/-- A component of `s` ends in front of the index `j`. -/
def Boundary (s : Bytes) (j : Nat) : Prop := j = s.length ∨ isDelim (s.getD j 0) = true

def anyAnswer : (c : FsCall) → c.Ans → Prop := fun _ _ => True

/-- What the loop over the components probes, and what its answer says of the probes. -/
structure Probes (s : Bytes) (cpLen i n : Nat) (link : Bool) (new : List Event) : Prop where
  only : ∀ e ∈ new, ∃ j, i ≤ j ∧ j < i + n ∧ cpLen < j ∧ Boundary s j ∧ e.1 = .isSymlink (s.take j)
  every : link = false → ∀ j, i ≤ j → j < i + n → cpLen < j → Boundary s j →
    noLink (s.take j) ∈ new
  found : link = false → ∀ e ∈ new, linkFound e = false

theorem Probes.skip {s : Bytes} {cpLen i n : Nat} {link : Bool} {new : List Event}
    (hskip : Boundary s i → i ≤ cpLen) (h : Probes s cpLen (i + 1) n link new) :
    Probes s cpLen i (n + 1) link new := by
  refine ⟨?_, ?_, h.found⟩
  · intro e he
    obtain ⟨j, hlo, hhi, hrest⟩ := h.only e he
    exact ⟨j, by omega, by omega, hrest⟩
  · intro hlink j hlo hhi hcp hb
    have hne : j ≠ i := by
      rintro rfl
      have hle := hskip hb
      omega
    exact h.every hlink j (by omega) (by omega) hcp hb

theorem Probes.cons {s : Bytes} {cpLen i n : Nat} {link : Bool} {new : List Event}
    (hcp : cpLen < i) (hb : Boundary s i) (h : Probes s cpLen (i + 1) n link new) :
    Probes s cpLen i (n + 1) link (noLink (s.take i) :: new) := by
  refine ⟨?_, ?_, ?_⟩
  · intro e he
    rcases List.mem_cons.mp he with rfl | he
    · exact ⟨i, le_refl i, by omega, hcp, hb, rfl⟩
    · obtain ⟨j, hlo, hhi, hrest⟩ := h.only e he
      exact ⟨j, by omega, by omega, hrest⟩
  · intro hlink j hlo hhi hcp' hb'
    rcases Nat.eq_or_lt_of_le hlo with rfl | hlt
    · exact List.mem_cons_self
    · exact List.mem_cons_of_mem _ (h.every hlink j hlt (by omega) hcp' hb')
  · intro hlink e he
    rcases List.mem_cons.mp he with rfl | he
    · rfl
    · exact h.found hlink e he

theorem symlinkBelow_does (s : Bytes) (cpLen n i : Nat) :
    Calls.Does anyAnswer (Probes s cpLen i n) (symlinkBelow s cpLen n i) := by
  induction n generalizing i with
  | zero =>
    apply Calls.Does.pure
    exact ⟨by simp, fun _ j hlo hhi => by omega, by simp⟩
  | succ n ih =>
    rw [symlinkBelow]
    by_cases hmid : i ≠ s.length ∧ !isDelim (s.getD i 0)
    · rw [if_pos hmid]
      refine (ih (i + 1)).mono fun link new h => h.skip fun hb => ?_
      rcases hb with hb | hb
      · exact absurd hb hmid.1
      · rw [hb] at hmid
        simp at hmid
    have hb : Boundary s i := by
      by_cases hlen : i = s.length
      · exact Or.inl hlen
      · right
        by_contra hd
        exact hmid ⟨hlen, by simpa using hd⟩
    rw [if_neg hmid]
    by_cases hcp : i ≤ cpLen
    · rw [if_pos hcp]
      exact (ih (i + 1)).mono fun link new h => h.skip fun _ => hcp
    · rw [if_neg hcp]
      apply Calls.Does.call (c := FsCall.isSymlink (s.take i))
      intro link _
      cases link with
      | true =>
        apply Calls.Does.pure
        refine ⟨?_, nofun, nofun⟩
        intro e he
        rw [List.mem_singleton] at he
        subst he
        exact ⟨i, le_refl i, by omega, by omega, hb, rfl⟩
      | false => exact (ih (i + 1)).mono fun link new h => h.cons (by omega) hb

theorem confineLen_render {root : CanonicalPath} (hne : root.comps ≠ []) :
    confineLen root.render root.render.length = root.render.length := by
  obtain ⟨cs, c, hcs⟩ := (List.eq_nil_or_concat root.comps).resolve_left hne
  rw [List.concat_eq_append] at hcs
  have hc := root.valid c (by simp [hcs])
  obtain ⟨front, last, rfl⟩ := (List.eq_nil_or_concat c).resolve_left hc.1
  rw [List.concat_eq_append] at hcs hc
  have hr : root.render = Paths.body slash cs ++ slash :: front ++ [last] := by
    rw [CanonicalPath.render_of_ne_nil hne, hcs]
    simp
  have hlast : isDelim last = false := (hc.2.2.2 last (by simp)).2
  rw [hr]
  obtain ⟨n, hn⟩ : ∃ n, (Paths.body slash cs ++ slash :: front ++ [last]).length = n + 2 :=
    ⟨(Paths.body slash cs).length + front.length, by simp; omega⟩
  have hget : (Paths.body slash cs ++ slash :: front ++ [last]).getD (n + 1) 0 = last := by
    have hidx : n + 1 = (Paths.body slash cs ++ slash :: front).length := by
      rw [List.length_append, List.length_singleton] at hn
      omega
    rw [hidx]
    simp
  rw [hn, confineLen, hget, hlast]
  simp

theorem one_lt_length_render {root : CanonicalPath} (hne : root.comps ≠ []) :
    1 < root.render.length := by
  have hpos : 0 < root.render.length := Paths.length_pos_render root.comps
  have hone := CanonicalPath.length_render_eq_one.not.mpr hne
  omega

def PathsCanonical (ssh : Session) : Prop :=
  (∀ p, ssh.sftpDefaultPath = some p → Canonical p) ∧
    ∀ p, ssh.sftpConfinePath = some p → Canonical p

/-- What the check of one path does, and what a path that passes it is. -/
structure Cleaned (b : Build) (ssh : Session) (root : CanonicalPath) (name : Bytes)
    (r : Except PathErr Bytes) (new : List Event) : Prop where
  probes : ∀ e ∈ new, ∃ q : CanonicalPath, root.Under q ∧ e.1 = .isSymlink q.render
  passed : ∀ s, r = .ok s → refused ssh name = false ∧ (∀ e ∈ new, linkFound e = false) ∧
    Jailed b root new s

section Check

variable {b : Build} {ssh : Session} {root : CanonicalPath}

theorem Cleaned.failed {name : Bytes} (e : PathErr) : Cleaned b ssh root name (.error e) [] :=
  ⟨by simp, nofun⟩

theorem checkConfined_does {p : CanonicalPath} {name : Bytes} (hne : root.comps ≠ [])
    (hrefused : refused ssh name = outsideConfine p.render root.render root.render.length) :
    Calls.Does anyAnswer (Cleaned b ssh root name) (checkConfined b p.render root.render) := by
  rw [checkConfined, confineLen_render hne]
  rw [if_pos (one_lt_length_render hne)]
  by_cases hout : outsideConfine p.render root.render root.render.length = true
  · rw [if_pos hout]
    exact Calls.Does.pure (.failed _)
  rw [if_neg hout]
  rw [Bool.not_eq_true] at hout
  have hunder := CanonicalPath.under_of_compare hne hout
  have hpne := hunder.comps_ne_nil hne
  by_cases hsym : b.haveSymlink = true
  · rw [if_pos hsym]
    apply (symlinkBelow_does p.render root.render.length _ _).bind
    intro link new h
    have hroot := CanonicalPath.boundary_of_under hne hunder
    have hprobes : ∀ e ∈ new, ∃ q : CanonicalPath, root.Under q ∧ e.1 = .isSymlink q.render := by
      intro e he
      obtain ⟨j, -, hj, hcp, hb, hcall⟩ := h.only e he
      obtain ⟨q, hq, hqp, hcut⟩ :=
        CanonicalPath.exists_of_boundary hpne (by omega) hb (by omega)
      refine ⟨q, ?_, by rw [hcut, hcall]⟩
      -- both are above `p`, and the longer string has the more components
      refine (List.prefix_or_prefix_of_prefix hunder hqp).resolve_right fun hqr => ?_
      have hlen := (CanonicalPath.boundary_of_under hq hqr).2.1
      rw [hcut, List.length_take] at hlen
      omega
    cases link with
    | true =>
      apply Calls.Does.pure
      rw [List.append_nil]
      exact ⟨hprobes, nofun⟩
    | false =>
      apply Calls.Does.pure
      rw [List.append_nil]
      refine ⟨hprobes, ?_⟩
      rintro s ⟨⟩
      refine ⟨by rw [hrefused, hout], h.found rfl, p, rfl, hunder, ?_⟩
      intro _ q hrq hqne hqp
      have hq := hrq.comps_ne_nil hne
      obtain ⟨hcut, hle, hb⟩ := CanonicalPath.boundary_of_under hq hqp
      have hlt : root.render.length < q.render.length := by
        obtain ⟨tail, htail⟩ := hrq
        have htne : tail ≠ [] := by
          rintro rfl
          exact hqne (by rw [← htail, List.append_nil])
        obtain ⟨c, tail, rfl⟩ := List.exists_cons_of_ne_nil htne
        rw [CanonicalPath.render_of_ne_nil hne, CanonicalPath.render_of_ne_nil hq, ← htail]
        simp
      rw [hcut]
      exact h.every rfl _ (by omega) (by omega) hlt hb
  · rw [if_neg hsym]
    apply Calls.Does.pure
    refine ⟨by simp, ?_⟩
    rintro s ⟨⟩
    exact ⟨by rw [hrefused, hout], by simp, p, rfl, hunder, fun hs => absurd hs hsym⟩

theorem getAndCleanPath_does (hssh : PathsCanonical ssh)
    (hroot : ssh.sftpConfinePath = some root.render) (hne : root.comps ≠ []) (name : Bytes) :
    Calls.Does anyAnswer (Cleaned b ssh root name) (getAndCleanPath b ssh name) := by
  rw [getAndCleanPath]
  by_cases hsz : maxFilename ≤ name.length
  · rw [if_pos hsz]
    exact Calls.Does.pure (.failed _)
  rw [if_neg hsz]
  cases hreal : realPath ssh.sftpDefaultPath (cstr name) maxFilename with
  | error e => exact Calls.Does.pure (.failed e)
  | ok s =>
    obtain ⟨p, rfl⟩ := realPath_canonical hssh.1 (cstr_ne_zero name) hreal
    rw [hroot]
    apply checkConfined_does hne
    simp only [refused, decide_eq_false hsz, hreal, hroot, confineLen_render hne, Bool.false_or]

end Check

/-- The program hands only `paths` to the file system, probes nothing, and does to descriptors only
what `fds` says. -/
def Hands {α : Type} (paths : List Bytes) (fds : FdEvent → Prop) (post : α → Prop) (m : Sys α) :
    Prop :=
  Calls.Safe anyAnswer (fun e => handed e.1 ⊆ paths ∧ (∀ path, e.1 ≠ .isSymlink path) ∧
    ∀ f, fdEvent e = some f → fds f) post m

def noFds : FdEvent → Prop := fun _ => False
def anyFds : FdEvent → Prop := fun _ => True

section Hands

variable {α β : Type} {paths : List Bytes} {fds : FdEvent → Prop}

theorem Hands.pure {post : α → Prop} {a : α} (ha : post a) :
    Hands paths fds post (Pure.pure a) :=
  Calls.Safe.pure ha

theorem Hands.bind {m : Sys α} {f : α → Sys β} {mid : α → Prop} {post : β → Prop}
    (hm : Hands paths fds mid m) (hf : ∀ a, mid a → Hands paths fds post (f a)) :
    Hands paths fds post (m >>= f) :=
  Calls.Safe.bind hm hf

theorem Hands.use {c : FsCall} {f : c.Ans → Sys β} {post : β → Prop}
    (hpaths : handed c ⊆ paths) (hprobe : ∀ path, c ≠ .isSymlink path)
    (hfd : ∀ r f, fdEvent ⟨c, r⟩ = some f → fds f)
    (hf : ∀ r, Hands paths fds post (f r)) : Hands paths fds post (Calls.ask c >>= f) :=
  Calls.Safe.call (fun r _ => ⟨hpaths, hprobe, hfd r⟩) fun r _ => hf r

theorem Hands.call {c : FsCall} {f : c.Ans → Sys β} {post : β → Prop}
    (hpaths : handed c ⊆ paths) (hprobe : ∀ path, c ≠ .isSymlink path)
    (hfd : ∀ r, fdEvent ⟨c, r⟩ = none) (hf : ∀ r, Hands paths fds post (f r)) :
    Hands paths fds post (Calls.ask c >>= f) :=
  Hands.use hpaths hprobe (fun r f h => by rw [hfd r] at h; cases h) hf

theorem Hands.quiet {c : FsCall} {f : c.Ans → Sys β} {post : β → Prop}
    (hnone : handed c = []) (hprobe : ∀ path, c ≠ .isSymlink path)
    (hfd : ∀ r, fdEvent ⟨c, r⟩ = none) (hf : ∀ r, Hands paths fds post (f r)) :
    Hands paths fds post (Calls.ask c >>= f) :=
  Hands.call (by simp [hnone]) hprobe hfd hf

theorem Hands.ask {c : FsCall} (hpaths : handed c ⊆ paths)
    (hprobe : ∀ path, c ≠ .isSymlink path) (hfd : ∀ r f, fdEvent ⟨c, r⟩ = some f → fds f) :
    Hands paths fds (fun _ => True) (Calls.ask c : Sys c.Ans) :=
  Calls.Safe.ask (fun r _ => ⟨hpaths, hprobe, hfd r⟩) fun _ _ => trivial

theorem Hands.mono {paths' : List Bytes} {fds' : FdEvent → Prop} {post post' : α → Prop}
    {m : Sys α} (hm : Hands paths fds post m) (hpaths : paths ⊆ paths')
    (hfds : ∀ f, fds f → fds' f) (hpost : ∀ a, post a → post' a) :
    Hands paths' fds' post' m :=
  Calls.Safe.mono hm (fun _ h => ⟨fun _ hp => hpaths (h.1 hp), h.2.1,
    fun f hf => hfds f (h.2.2 f hf)⟩) hpost

theorem Hands.ite {p : Prop} [Decidable p] {m n : Sys α} {post : α → Prop}
    (hm : p → Hands paths fds post m) (hn : ¬p → Hands paths fds post n) :
    Hands paths fds post (if p then m else n) := by
  by_cases hp : p
  · rw [if_pos hp]
    exact hm hp
  · rw [if_neg hp]
    exact hn hp

end Hands

/-- The session that a handler leaves meets `P`. -/
def Leaves (P : Session → Prop) (r : Outcome) : Prop := P r.ssh

section Tails

variable {ssh : Session} {paths : List Bytes} {fds : FdEvent → Prop} {P : Session → Prop}
  (hssh : P ssh)
include hssh

theorem silent_hands (ret : Code) : Hands paths fds (Leaves P) (Pure.pure (silent ssh ret)) :=
  Hands.pure hssh

theorem sendStatus_hands (status reqId : Nat) (msg : Bytes) (ret : Code) :
    Hands paths fds (Leaves P) (sendStatus ssh status reqId msg ret) := by
  apply Hands.quiet (c := FsCall.malloc _) rfl nofun (fun _ => rfl)
  intro stored
  cases stored <;> exact Hands.pure hssh

theorem sendAttrs_hands (reqId : Nat) (atr : FileAtrb) :
    Hands paths fds (Leaves P) (sendAttrs ssh reqId atr) := by
  apply Hands.quiet (c := FsCall.malloc _) rfl nofun (fun _ => rfl)
  intro stored
  cases stored <;> exact Hands.pure hssh

end Tails

theorem Jailed.append {b : Build} {root : CanonicalPath} {new rest : List Event} {path : Bytes}
    (h : Jailed b root new path) : Jailed b root (new ++ rest) path := by
  obtain ⟨p, hp, hunder, hprobes⟩ := h
  exact ⟨p, hp, hunder, fun hs q h1 h2 h3 => List.mem_append_left _ (hprobes hs q h1 h2 h3)⟩

/-- The calls so far are the probes of the names checked, which gave `paths`. -/
structure Passed (b : Build) (ssh : Session) (root : CanonicalPath) (names paths : List Bytes)
    (new : List Event) : Prop where
  probes : ∀ e ∈ new, ∃ q : CanonicalPath, root.Under q ∧ e.1 = .isSymlink q.render
  links : ∀ e ∈ new, linkFound e = false
  names : ∀ name ∈ names, refused ssh name = false
  jailed : ∀ path ∈ paths, Jailed b root new path

theorem Passed.nil {b : Build} {ssh : Session} {root : CanonicalPath} :
    Passed b ssh root [] [] [] := ⟨by simp, by simp, by simp, by simp⟩

section Rules

variable {b : Build} {ssh : Session} {root : CanonicalPath} {α : Type} {post : α → Prop}
  {names paths : List Bytes} {new : List Event} {fds : FdEvent → Prop}

theorem handed_of_probes (h : ∀ e ∈ new, ∃ q : CanonicalPath, root.Under q ∧
    e.1 = .isSymlink q.render) : ∀ e ∈ new, handed e.1 = [] := by
  intro e he
  obtain ⟨q, -, hq⟩ := h e he
  rw [hq]
  rfl

theorem probed_of_probes (h : ∀ e ∈ new, ∃ q : CanonicalPath, root.Under q ∧
    e.1 = .isSymlink q.render) : ∀ e ∈ new, ∀ path, e.1 = .isSymlink path →
      ∃ q : CanonicalPath, path = q.render ∧ root.Under q := by
  intro e he path hpath
  obtain ⟨q, hunder, hq⟩ := h e he
  rw [hq, FsCall.isSymlink.injEq] at hpath
  exact ⟨q, hpath.symm, hunder⟩

theorem Hands.confined_failed {m : Sys α} (hnew : ∀ e ∈ new, ∃ q : CanonicalPath, root.Under q ∧
    e.1 = .isSymlink q.render) (hm : Hands [] fds post m) :
    Calls.Does anyAnswer (fun a rest => post a ∧ Confined b ssh root names (new ++ rest)) m := by
  apply Calls.Does.mono hm
  rintro a rest ⟨hpost, hrest⟩
  have hnone : ∀ e ∈ new ++ rest, handed e.1 = [] := by
    intro e he
    rcases List.mem_append.mp he with he | he
    · exact handed_of_probes hnew e he
    · exact List.subset_nil.mp (hrest e he).1
  refine ⟨hpost, fun e he => by simp [hnone e he], ?_, fun _ => hnone⟩
  intro e he path hpath
  rcases List.mem_append.mp he with he | he
  · exact probed_of_probes hnew e he path hpath
  · exact absurd hpath ((hrest e he).2.1 path)

theorem Hands.confined {m : Sys α} (hnew : Passed b ssh root names paths new)
    (hm : Hands paths fds post m) :
    Calls.Does anyAnswer (fun a rest => post a ∧ Confined b ssh root names (new ++ rest)) m := by
  apply Calls.Does.mono hm
  rintro a rest ⟨hpost, hrest⟩
  refine ⟨hpost, ?_, ?_, ?_⟩
  · intro e he path hpath
    rcases List.mem_append.mp he with he | he
    · rw [handed_of_probes hnew.probes e he] at hpath
      cases hpath
    · exact (hnew.jailed path ((hrest e he).1 hpath)).append
  · intro e he path hpath
    rcases List.mem_append.mp he with he | he
    · exact probed_of_probes hnew.probes e he path hpath
    · exact absurd hpath ((hrest e he).2.1 path)
  · rintro (⟨name, hname, href⟩ | ⟨e, he, hlink⟩)
    · rw [hnew.names name hname] at href
      cases href
    · rcases List.mem_append.mp he with he | he
      · rw [hnew.links e he] at hlink
        cases hlink
      · rw [linkFound_of_other (hrest e he).2.1] at hlink
        cases hlink

theorem Passed.check {f : Except PathErr Bytes → Sys α} {name : Bytes} {all : List Bytes}
    (hssh : PathsCanonical ssh) (hroot : ssh.sftpConfinePath = some root.render)
    (hne : root.comps ≠ []) (hnew : Passed b ssh root names paths new)
    (herr : ∀ e, Hands [] fds post (f (.error e)))
    (hok : ∀ s new, Passed b ssh root (name :: names) (s :: paths) new →
      Calls.Does anyAnswer (fun a rest => post a ∧ Confined b ssh root all (new ++ rest))
        (f (.ok s))) :
    Calls.Does anyAnswer (fun a rest => post a ∧ Confined b ssh root all (new ++ rest))
      (getAndCleanPath b ssh name >>= f) := by
  apply (getAndCleanPath_does hssh hroot hne name).bind
  intro r probes hclean
  have hprobes : ∀ e ∈ new ++ probes, ∃ q : CanonicalPath, root.Under q ∧
      e.1 = .isSymlink q.render := by
    intro e he
    rcases List.mem_append.mp he with he | he
    · exact hnew.probes e he
    · exact hclean.probes e he
  simp only [← List.append_assoc]
  cases r with
  | error e => exact Hands.confined_failed hprobes (herr e)
  | ok s =>
    obtain ⟨hpass, hlinks, p, rfl, hunder, hjail⟩ := hclean.passed s rfl
    refine hok p.render _ ⟨hprobes, ?_, ?_, ?_⟩
    · intro e he
      rcases List.mem_append.mp he with he | he
      · exact hnew.links e he
      · exact hlinks e he
    · intro n hn
      rcases List.mem_cons.mp hn with rfl | hn
      · exact hpass
      · exact hnew.names n hn
    · intro path hpath
      rcases List.mem_cons.mp hpath with rfl | hpath
      · exact ⟨p, rfl, hunder, fun hs q h1 h2 h3 =>
          List.mem_append_right _ (hjail hs q h1 h2 h3)⟩
      · exact (hnew.jailed path hpath).append

end Rules

/-- The shape of a handler of a request with the names `all`: names are checked one by one, and
what is handed out are the `paths` that the checks so far, of `names`, gave. -/
inductive PathProgram (b : Build) (ssh : Session) (all : List Bytes) (fds : FdEvent → Prop)
    (post : Outcome → Prop) : List Bytes → List Bytes → Sys Outcome → Prop
  | tail {names paths : List Bytes} {m : Sys Outcome} (hall : paths = [] ∨ names = all)
      (hm : Hands paths fds post m) : PathProgram b ssh all fds post names paths m
  | check {names paths : List Bytes} {name : Bytes} {f : Except PathErr Bytes → Sys Outcome}
      (herr : ∀ e, Hands [] fds post (f (.error e)))
      (hok : ∀ s, PathProgram b ssh all fds post (name :: names) (s :: paths) (f (.ok s))) :
      PathProgram b ssh all fds post names paths (getAndCleanPath b ssh name >>= f)

theorem symlinkBelow_noFds (s : Bytes) (cpLen n i : Nat) :
    Calls.Safe anyAnswer (fun e => fdEvent e = none) (fun _ => True)
      (symlinkBelow s cpLen n i) := by
  apply (symlinkBelow_does s cpLen n i).mono
  intro link new h
  refine ⟨trivial, ?_⟩
  rintro ⟨c, r⟩ he
  obtain ⟨j, -, -, -, -, rfl⟩ := h.only _ he
  rfl

theorem getAndCleanPath_noFds (b : Build) (ssh : Session) (name : Bytes) :
    Calls.Safe anyAnswer (fun e => fdEvent e = none) (fun _ => True)
      (getAndCleanPath b ssh name) := by
  have hdone : ∀ r : Except PathErr Bytes,
      Calls.Safe anyAnswer (fun e => fdEvent e = none) (fun _ => True) (Pure.pure r : Sys _) :=
    fun r => Calls.Safe.pure trivial
  unfold getAndCleanPath
  by_cases hsz : maxFilename ≤ name.length
  · rw [if_pos hsz]
    exact hdone _
  rw [if_neg hsz]
  cases realPath ssh.sftpDefaultPath (cstr name) maxFilename with
  | error e => exact hdone _
  | ok s =>
    cases ssh.sftpConfinePath with
    | none => exact hdone _
    | some confine =>
      dsimp only [checkConfined]
      by_cases hlen : 1 < confineLen confine confine.length
      · rw [if_pos hlen]
        by_cases hout : outsideConfine s confine (confineLen confine confine.length) = true
        · rw [if_pos hout]
          exact hdone _
        rw [if_neg hout]
        by_cases hsym : b.haveSymlink = true
        · rw [if_pos hsym]
          apply (symlinkBelow_noFds s _ _ _).bind
          intro link _
          cases link <;> exact hdone _
        · rw [if_neg hsym]
          exact hdone _
      · rw [if_neg hlen]
        by_cases hroot : s = [] ∨ (!isDelim (s.getD 0 0)) = true
        · rw [if_pos hroot]
          exact hdone _
        · rw [if_neg hroot]
          exact hdone _

namespace PathProgram

variable {b : Build} {ssh : Session} {all : List Bytes} {fds : FdEvent → Prop}
  {post : Outcome → Prop}

theorem quiet {names : List Bytes} {m : Sys Outcome} (hm : Hands [] fds post m) :
    PathProgram b ssh all fds post names [] m := .tail (Or.inl rfl) hm

theorem one {name : Bytes} {f : Except PathErr Bytes → Sys Outcome}
    (herr : ∀ e, Hands [] fds post (f (.error e))) (hok : ∀ s, Hands [s] fds post (f (.ok s))) :
    PathProgram b ssh [name] fds post [] [] (getAndCleanPath b ssh name >>= f) :=
  .check herr fun s => .tail (Or.inr rfl) (hok s)

theorem mono {names paths : List Bytes} {m : Sys Outcome} {fds' : FdEvent → Prop}
    {post' : Outcome → Prop} (hm : PathProgram b ssh all fds post names paths m)
    (hfds : ∀ f, fds f → fds' f) (hpost : ∀ r, post r → post' r) :
    PathProgram b ssh all fds' post' names paths m := by
  induction hm with
  | tail hall hm => exact .tail hall (hm.mono (List.Subset.refl _) hfds hpost)
  | check herr hok ih =>
    exact .check (fun e => (herr e).mono (List.Subset.refl _) hfds hpost) ih

theorem confined {root : CanonicalPath} {names paths : List Bytes} {m : Sys Outcome}
    (hssh : PathsCanonical ssh) (hroot : ssh.sftpConfinePath = some root.render)
    (hne : root.comps ≠ []) (hm : PathProgram b ssh all fds post names paths m)
    {new : List Event} (hnew : Passed b ssh root names paths new) :
    Calls.Does anyAnswer (fun r rest => post r ∧ Confined b ssh root all (new ++ rest)) m := by
  induction hm generalizing new with
  | tail hall hm =>
    rcases hall with rfl | rfl
    · exact hm.confined_failed hnew.probes
    · exact hm.confined hnew
  | check herr hok ih => exact hnew.check hssh hroot hne herr fun s new h => ih s h

/-- What a handler does to descriptors, and the session it leaves, wherever it is confined. -/
theorem descriptors {names paths : List Bytes} {m : Sys Outcome}
    (hm : PathProgram b ssh all fds post names paths m) :
    Calls.Safe anyAnswer (fun e => ∀ f, fdEvent e = some f → fds f) post m := by
  induction hm with
  | tail hall hm => exact Calls.Safe.mono hm (fun _ h => h.2.2) fun _ h => h
  | check herr hok ih =>
    apply Calls.Safe.bind (Calls.Safe.mono (getAndCleanPath_noFds _ _ _)
      (fun e h f hf => by rw [h] at hf; cases hf) fun _ h => h)
    intro r _
    cases r with
    | error e => exact Calls.Safe.mono (herr e) (fun _ h => h.2.2) fun _ h => h
    | ok s => exact ih s

end PathProgram

end Sftp

end WolfSsh
