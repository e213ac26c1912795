import WolfSsh.Lib.Slices
import WolfSsh.Wire

/-! The slices that the readers of strings hand out, for code that keeps pointers into the buffer it
parses. -/

namespace WolfSsh

open Fallible Slices

inductive FieldKind where
  | mpint | string
deriving DecidableEq, Repr

def FieldKind.read (buf : Bytes) : FieldKind → Reader Bytes
  | .mpint => getMpint buf
  | .string => getStringRef buf

/-- What `GetMpint` and `GetStringRef` hand out. -/
def getField (buf : Bytes) (kind : FieldKind) : Reader Slice := do
  let field ← kind.read buf
  let idx ← get
  return ⟨idx - field.length, field.length⟩

/-- Readers one after the other, until one fails. -/
def getFields (buf : Bytes) : List FieldKind → Nat → List Slice × Except WsErr Nat
  | [], idx => ([], .ok idx)
  | kind :: kinds, idx =>
    match (getField buf kind).runAt idx with
    | (.error e, _) => ([], .error e)
    | (.ok s, idx) =>
      let r := getFields buf kinds idx
      (s :: r.1, r.2)

def wire : List Bytes → Bytes := frames fun f => c32toa f.length

theorem length_wire (fs : List Bytes) :
    (wire fs).length = (fs.map List.length).sum + lengthSz * fs.length :=
  length_frames (fun f => c32toa_length f.length) fs

theorem wire_append (fs gs : List Bytes) : wire (fs ++ gs) = wire fs ++ wire gs := List.flatMap_append

theorem wire_cons (f : Bytes) (fs : List Bytes) : wire (f :: fs) = copyString f ++ wire fs := by
  rw [wire, frames_cons, copyString, List.append_assoc]

section Parse

variable {buf : Bytes} {idx idx' : Nat}

theorem read_ok {kind : FieldKind} {field : Bytes}
    (h : (kind.read buf).runAt idx = (.ok field, idx')) :
    (getStringRef buf).runAt idx = (.ok field, idx') := by
  cases kind with
  | string => exact h
  | mpint =>
    rw [FieldKind.read, getMpint, runAt_bind] at h
    rcases hstr : (getStringRef buf).runAt idx with ⟨_ | str, mid⟩
    · simp [hstr] at h
    · simp only [hstr] at h
      cases str with
      | nil => exact h
      | cons b str =>
        dsimp only at h
        split at h
        · simp at h
        · exact h

theorem getField_read {kind : FieldKind} {s : Slice} (h : (getField buf kind).runAt idx = (.ok s, idx')) :
    ∃ field, (getStringRef buf).runAt idx = (.ok field, idx') ∧ s = ⟨idx' - field.length, field.length⟩ := by
  rw [getField, runAt_bind] at h
  rcases hfield : (kind.read buf).runAt idx with ⟨_ | field, mid⟩
  · simp [hfield] at h
  · simp only [hfield, runAt_bind, runAt_get, runAt_pure, Prod.mk.injEq, Except.ok.injEq] at h
    obtain ⟨rfl, rfl⟩ := h
    exact ⟨field, read_ok hfield, rfl⟩

theorem getField_ok {kind : FieldKind} {s : Slice} (h : (getField buf kind).runAt idx = (.ok s, idx')) :
    s = ⟨idx + lengthSz, s.size⟩ ∧ idx' = idx + lengthSz + s.size ∧ idx' ≤ buf.length ∧
      buf.drop idx = copyString (s.of buf) ++ buf.drop idx' ∧ (s.of buf).length = s.size := by
  obtain ⟨field, hfield, rfl⟩ := getField_read h
  obtain ⟨hdrop, hidx, hle⟩ := getStringRef_splits hfield
  have hstart : idx' - field.length = idx + lengthSz := by
    rw [hidx, uint32Sz, lengthSz]
    omega
  have hmine : Slice.of ⟨idx' - field.length, field.length⟩ buf = field := by
    rw [Slice.of, hstart]
    dsimp only
    rw [← List.drop_drop, hdrop, copyString, List.append_assoc, lengthSz,
      List.drop_left' (c32toa_length _), List.take_left]
  rw [hmine]
  exact ⟨by rw [hstart], hidx, hle, hdrop, rfl⟩

theorem getField_size {kind : FieldKind} {s : Slice} (h : (getField buf kind).runAt idx = (.ok s, idx')) :
    ato32 (buf.drop idx) = s.size := by
  obtain ⟨field, hfield, rfl⟩ := getField_read h
  obtain ⟨rfl, -, hle⟩ := getStringRef_ok hfield
  rw [List.length_take, List.length_drop]
  exact (Nat.min_eq_left (by omega)).symm

theorem getField_inside {kind : FieldKind} {s : Slice} (h : (getField buf kind).runAt idx = (.ok s, idx')) :
    s.Inside buf.length := by
  obtain ⟨hs, hend, hle, -, -⟩ := getField_ok h
  have hstart : s.start = idx + lengthSz := congrArg Slice.start hs
  rw [Slice.Inside, hstart]
  omega

/-- Whatever becomes of the parse, the fields that it hands out are in the buffer. -/
theorem getFields_inside (kinds : List FieldKind) (idx : Nat) :
    ∀ s ∈ (getFields buf kinds idx).1, s.Inside buf.length := by
  induction kinds generalizing idx with
  | nil => simp [getFields]
  | cons kind kinds ih =>
    rw [getFields]
    rcases hfield : (getField buf kind).runAt idx with ⟨_ | s, mid⟩
    · simp
    · exact List.forall_mem_cons.mpr ⟨getField_inside hfield, ih mid⟩

theorem getFields_ok {kinds : List FieldKind} {slices : List Slice}
    (h : getFields buf kinds idx = (slices, .ok idx')) (hidx : idx ≤ buf.length) :
    slices.length = kinds.length ∧ slices.map Slice.size = (slices.map (·.of buf)).map List.length ∧
      buf.drop idx = wire (slices.map (·.of buf)) ++ buf.drop idx' ∧ idx' ≤ buf.length := by
  induction kinds generalizing idx slices with
  | nil =>
    obtain ⟨rfl, hend⟩ := Prod.mk.inj h
    obtain rfl := Except.ok.inj hend
    exact ⟨rfl, rfl, rfl, hidx⟩
  | cons kind kinds ih =>
    rw [getFields] at h
    rcases hfield : (getField buf kind).runAt idx with ⟨_ | s, mid⟩
    · simp [hfield] at h
    · obtain ⟨-, -, hmid, hdrop, hlen⟩ := getField_ok hfield
      simp only [hfield, Prod.mk.injEq] at h
      obtain ⟨rfl, hend⟩ := h
      obtain ⟨hcount, hsizes, hrest, hle⟩ := ih (Prod.ext rfl hend) hmid
      refine ⟨by rw [List.length_cons, hcount, List.length_cons], ?_, ?_, hle⟩
      · rw [List.map_cons, hsizes, List.map_cons, List.map_cons, hlen]
      · rw [List.map_cons, wire_cons, List.append_assoc, ← hrest, hdrop]

end Parse

end WolfSsh
