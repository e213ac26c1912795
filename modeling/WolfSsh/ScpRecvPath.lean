import WolfSsh.ScpRecv
import Mathlib.Data.List.GetD
import Mathlib.Logic.Function.Basic

/-! The receive path of SCP as a base path with a stack of directories, and where the descriptors
that the callback opened stand in the tree below the base. -/

namespace WolfSsh.Scp

theorem admittedName_iff {name : Bytes} :
    admittedName name = true ↔
      (name ≠ [] ∧ name ≠ dot ∧ name ≠ dotdot) ∧ ∀ c ∈ name, isDelim c = false := by
  simp [admittedName]

/-- The path of a stack of directories, the innermost first. -/
def stackPath (base : Bytes) (stack : List Bytes) : Bytes :=
  stack.foldr (fun name path => joinPath path name) base

@[simp] theorem stackPath_nil (base : Bytes) : stackPath base [] = base := rfl

@[simp] theorem stackPath_cons (base name : Bytes) (stack : List Bytes) :
    stackPath base (name :: stack) = joinPath (stackPath base stack) name := rfl

section Up

variable {base name q : Bytes}

theorem upIndex_append (hname : ∀ c ∈ name, isDelim c = false)
    (hbase : base.length ≤ q.length)
    (hstop : q.length = base.length ∨ ∀ c, q.getLast? = some c → isDelim c = true) {k : Nat}
    (hk : k ≤ name.length) : upIndex (q ++ name) base.length (q.length + k) = q.length := by
  induction k with
  | zero =>
    cases hlen : q.length with
    | zero => rfl
    | succ i =>
      rw [Nat.add_zero, upIndex, if_neg]
      rintro ⟨hlt, hdelim⟩
      have hi : i < q.length := by omega
      have hlast : q.getLast? = some q[i] := by
        rw [List.getLast?_eq_getElem?, List.getElem?_eq_getElem (by omega)]
        simp [hlen]
      have hget : (q ++ name).getD i 0 = q[i] := by
        rw [List.getD_eq_getElem _ _ (by rw [List.length_append]; omega),
          List.getElem_append_left hi]
      rw [hget] at hdelim
      rcases hstop with hstop | hstop
      · omega
      · rw [hstop _ hlast] at hdelim
        cases hdelim
  | succ k ih =>
    have hget : (q ++ name).getD (q.length + k) 0 = name[k] := by
      rw [List.getD_eq_getElem _ _ (by rw [List.length_append]; omega),
        List.getElem_append_right (by omega)]
      simp
    have hno : isDelim ((q ++ name).getD (q.length + k) 0) = false := by
      rw [hget]
      exact hname _ (List.getElem_mem _)
    rw [← Nat.add_assoc, upIndex, if_pos ⟨by omega, by rw [hno]; rfl⟩]
    exact ih (by omega)

/-- A path from which the way up leads back: the base itself, or a path that ends with a name. -/
def Ascends (base p : Bytes) : Prop :=
  p = base ∨ needsDelim p = true ∧ base.length ≤ p.length

theorem upPath_joinPath {p : Bytes} (hp : Ascends base p) (hname : ∀ c ∈ name, isDelim c = false) :
    upPath (joinPath p name) base.length = p := by
  have hlen : base.length ≤ p.length := by
    rcases hp with rfl | hp
    · exact le_refl _
    · exact hp.2
  rw [upPath, joinPath]
  by_cases hdelim : needsDelim p = true
  · rw [if_pos hdelim]
    have hidx := @upIndex_append base name (p ++ [slash]) hname (by simp; omega)
      (Or.inr (by simp [isDelim_slash])) name.length (le_refl _)
    rw [List.length_append, List.length_append, List.length_singleton] at *
    rw [hidx, if_pos (by omega)]
    simp
  · rw [if_neg hdelim]
    have hbase : p = base := hp.resolve_right (fun h => hdelim h.1)
    subst hbase
    have hidx := @upIndex_append p name p hname (le_refl _) (Or.inl rfl) name.length (le_refl _)
    rw [List.append_nil, List.length_append, hidx, if_neg (by omega)]
    simp

theorem needsDelim_joinPath {p : Bytes} (hname : admittedName name = true) :
    needsDelim (joinPath p name) = true := by
  obtain ⟨⟨hne, -, -⟩, hall⟩ := admittedName_iff.mp hname
  rw [needsDelim, joinPath, List.getLast?_append_of_ne_nil _ hne,
    List.getLast?_eq_some_getLast hne]
  dsimp only
  rw [hall _ (List.getLast_mem hne)]
  rfl

theorem length_joinPath (p : Bytes) : p.length ≤ (joinPath p name).length := by
  rw [joinPath, List.append_assoc, List.length_append]
  omega

theorem ascends_stackPath {stack : List Bytes} (hstack : ∀ d ∈ stack, admittedName d = true) :
    Ascends base (stackPath base stack) := by
  have hlen : base.length ≤ (stackPath base stack).length := by
    induction stack with
    | nil => exact le_refl _
    | cons d stack ih =>
      have hrest := ih fun e he => hstack e (List.mem_cons_of_mem _ he)
      rw [stackPath_cons]
      exact hrest.trans (length_joinPath _)
  cases stack with
  | nil => exact Or.inl rfl
  | cons d stack => exact Or.inr ⟨needsDelim_joinPath (hstack d List.mem_cons_self), hlen⟩

end Up

/-- Where a directory descriptor stands: in the directory of a stack of names, or above the one that
it was opened from by `..`, which is yet to be confirmed. -/
inductive Place where
  | dir (stack : List Bytes)
  | above (stack : List Bytes)
deriving DecidableEq, Repr

/-- The places of the open directory descriptors, and the identities that were last looked up of the
directories. -/
structure Places where
  place : Nat → Option Place
  ident : List Bytes → Option Ident

namespace Places

def start : Places := ⟨fun _ => none, fun _ => none⟩

def put (v : Places) (fd : Nat) (p : Option Place) : Places :=
  { v with place := Function.update v.place fd p }

/-- A look at an open directory: it tells the identity of the directory, and confirms a parent by
the identity that is known of it. -/
def look (v : Places) (fd : Nat) (ident : Ident) : Places :=
  match v.place fd with
  | some (.dir stack) => { v with ident := Function.update v.ident stack (some ident) }
  | some (.above stack) => if v.ident stack = some ident then v.put fd (some (.dir stack)) else v
  | none => v

def after (v : Places) : ScpEvent → Places
  | ⟨.openDir _, some fd⟩ => v.put fd (some (.dir []))
  | ⟨.openDirAt parent name, some fd⟩ =>
    match v.place parent with
    | some (.dir stack) => v.put fd (some (.dir (name :: stack)))
    | _ => v
  | ⟨.openParent dir, some fd⟩ =>
    match v.place dir with
    | some (.dir (_ :: stack)) => v.put fd (some (.above stack))
    | _ => v
  | ⟨.fstat fd, some ident⟩ => v.look fd ident
  | ⟨.close fd, _⟩ => v.put fd none
  | _ => v

theorem put_place (v : Places) (fd : Nat) (p : Option Place) : (v.put fd p).place fd = p := by
  simp [put]

theorem put_place_ne (v : Places) {fd other : Nat} (p : Option Place) (h : other ≠ fd) :
    (v.put fd p).place other = v.place other := by
  simp [put, h]

theorem after_openDirAt {v : Places} {parent : Nat} {stack : List Bytes}
    (h : v.place parent = some (.dir stack)) (name : Bytes) (fd : Nat) :
    v.after ⟨.openDirAt parent name, some fd⟩ = v.put fd (some (.dir (name :: stack))) := by
  rw [after, h]

theorem after_openParent {v : Places} {dir : Nat} {name : Bytes} {stack : List Bytes}
    (h : v.place dir = some (.dir (name :: stack))) (fd : Nat) :
    v.after ⟨.openParent dir, some fd⟩ = v.put fd (some (.above stack)) := by
  rw [after, h]

@[simp] theorem put_ident (v : Places) (fd : Nat) (p : Option Place) :
    (v.put fd p).ident = v.ident := rfl

end Places

def places (h : List ScpEvent) : Places := h.foldl Places.after .start

theorem places_concat (h : List ScpEvent) (e : ScpEvent) :
    places (h ++ [e]) = (places h).after e := by
  rw [places, List.foldl_append]
  rfl

def opensFd : ScpEvent → Option Nat
  | ⟨.openDir _, r⟩ | ⟨.openDirAt _ _, r⟩ | ⟨.openParent _, r⟩ | ⟨.openFileAt _ _, r⟩ => r
  | _ => none

/-- What open promises: the descriptor that it gives is not one that is open. -/
def Fresh (h : List ScpEvent) (c : ScpCall) (r : c.Ans) : Prop :=
  ∀ fd, opensFd ⟨c, r⟩ = some fd → (places h).place fd = none

/-- The recorded parents of a stack of directories are the directories of the stacks below it. -/
def Records (v : Places) : List Bytes → List Ident → Prop
  | [], idents => idents = []
  | _ :: stack, ident :: idents => v.ident stack = some ident ∧ Records v stack idents
  | _ :: _, [] => False

theorem Records.congr {v v' : Places} {stack : List Bytes} {idents : List Ident}
    (h : Records v stack idents)
    (heq : ∀ below : List Bytes, below.length < stack.length → v'.ident below = v.ident below) :
    Records v' stack idents := by
  induction stack generalizing idents with
  | nil => exact h
  | cons d stack ih =>
    cases idents with
    | nil => exact h
    | cons ident idents =>
      obtain ⟨hident, hrest⟩ := h
      refine ⟨?_, ih hrest fun below hlt => heq below (by simp; omega)⟩
      rw [heq stack (by simp)]
      exact hident

/-- What a call is allowed to reach while the directories of `stack` are entered and `name` is the
name at hand. -/
def Placed (base : Bytes) (stack : List Bytes) (name : Bytes) (h : List ScpEvent) (e : ScpEvent) :
    Prop :=
  match e.1 with
  | .openDir path => path = base ∧ stack = []
  | .mkdirAt fd n _ | .openDirAt fd n | .openFileAt fd n =>
    (places h).place fd = some (.dir stack) ∧ n = name ∧ admittedName name = true
  | .openParent fd => (places h).place fd = some (.dir stack) ∧ stack ≠ []
  | .mkdir path _ | .isSymlink path | .fopen path | .utimes path _ _ =>
    path = joinPath (stackPath base stack) name ∧ admittedName name = true
  | .isDirNoFollow path =>
    path = joinPath (stackPath base stack) name ∧ admittedName name = true ∨
      path = base ∧ stack = []
  | _ => True

/-- The session stands in the directory of `stack`. -/
structure Standing (b : ScpBuild) (base : Bytes) (stack : List Bytes) (s : RecvState)
    (h : List ScpEvent) : Prop where
  path : s.scpRecvPath = some (stackPath base stack)
  baseSz : s.scpRecvBaseSz = base.length
  depth : s.scpDirDepth = stack.length
  names : ∀ d ∈ stack, admittedName d = true
  dirFd : b.haveDirFd = true →
    ∃ fd, s.scpRecvDirFd = some fd ∧ (places h).place fd = some (.dir stack)
  records : b.haveDirFd = true → Records (places h) stack s.scpRecvDirs

/-- A program of the callback in the directory of `stack`. -/
abbrev Reaches {α : Type} (base : Bytes) (stack : List Bytes) (name : Bytes)
    (post : α → List ScpEvent → Prop) (m : ScpSys α) (h : List ScpEvent) : Prop :=
  Calls.Guards Fresh (Placed base stack name) post m h

/-- Calls that leave every place as it is. -/
def Still (e : ScpEvent) : Prop := ∀ v : Places, v.after e = v

theorem Standing.still {b : ScpBuild} {base : Bytes} {stack : List Bytes} {s : RecvState}
    {h : List ScpEvent} (hs : Standing b base stack s h) {e : ScpEvent} (he : Still e) :
    Standing b base stack s (h ++ [e]) := by
  have hplaces : places (h ++ [e]) = places h := by rw [places_concat, he]
  exact ⟨hs.path, hs.baseSz, hs.depth, hs.names, by rw [hplaces]; exact hs.dirFd,
    by rw [hplaces]; exact hs.records⟩

end WolfSsh.Scp
