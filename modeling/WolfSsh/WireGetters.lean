import WolfSsh.Lib.Calls
import WolfSsh.WireWords

/-! What the readers of internal.c do in any order over one payload: they stay in it, read the values
that stand there, and read back what was written. -/

namespace WolfSsh.Words

open Fallible

inductive Getter where
  | boolean
  | uint32
  | size
  | skip
  | mpint
  | string (sSz : UInt32)
  | stringAlloc (memory : Bool)
  | stringRef
deriving DecidableEq, Repr

inductive Got where
  | boolean (v : Bool)
  | uint32 (v : UInt32)
  | skipped
  | ref (r : Ref)
  | copy (s : Bytes × UInt32)
deriving DecidableEq, Repr

def Getter.get (p : Payload) : Getter → WordReader Got
  | .boolean => do return .boolean (← getBoolean p)
  | .uint32 => do return .uint32 (← getUint32 p)
  | .size => do return .uint32 (← getSize p)
  | .skip => do
    getSkip p
    return .skipped
  | .mpint => do return .ref (← getMpint p)
  | .string sSz => do return .copy (← getString sSz p)
  | .stringAlloc memory => do return .copy (← getStringAlloc memory p)
  | .stringRef => do return .ref (← getStringRef p)

inductive Field where
  | boolean (b : Bool)
  | uint32 (n : UInt32)
  | string (str : Bytes)
deriving DecidableEq, Repr

/-- The octets that stand for a value. Any octet but zero is true. -/
inductive Field.On : Field → Bytes → Prop
  | boolean (o : UInt8) : On (.boolean (o != 0)) [o]
  | uint32 (n : UInt32) : On (.uint32 n) (c32toa n.toNat)
  | string (str : Bytes) : On (.string str) (copyString str)

def Field.write : Field → Bytes
  | .boolean b => [if b then 1 else 0]
  | .uint32 n => c32toa n.toNat
  | .string str => copyString str

theorem Field.on_write (f : Field) : f.On f.write := by
  cases f with
  | boolean b =>
    cases b
    · exact On.boolean 0
    · exact On.boolean 1
  | uint32 n => exact On.uint32 n
  | string str => exact On.string str

def Positive (str : Bytes) : Prop := ∀ b ∈ str.head?, b &&& 0x80 = 0

/-- What `g` hands out of a value that stands from `idx` to `i`. `GetString` copies what fits. -/
def Getter.Gives (p : Payload) (idx i : UInt32) : Getter → Field → Got → Prop
  | .boolean, .boolean b, .boolean v => v = b
  | .uint32, .uint32 n, .uint32 v => v = n
  | .size, .uint32 n, .uint32 v => v = n ∧ i.toNat + n.toNat ≤ p.len.toNat
  | .skip, .string _, .skipped => True
  | .mpint, .string str, .ref r => r.Spans p idx i str ∧ Positive str
  | .string sSz, .string str, .copy s => Terminated s (str.take (sSz.toNat - 1))
  | .stringAlloc _, .string str, .copy s => Terminated s str
  | .stringRef, .string str, .ref r => r.Spans p idx i str
  | _, _, _ => False

/-- A reader that was started at `start`, and the index and the result that it left. -/
structure Step where
  start : UInt32
  getter : Getter
  result : Except WsErr Got
  stop : UInt32

/-- The step stays in the payload, and what it hands out is the value that stands there. -/
def Step.Sound (p : Payload) (s : Step) : Prop :=
  s.start.toNat ≤ s.stop.toNat ∧ s.stop.toNat ≤ p.len.toNat ∧
    ∀ got, s.result = .ok got → ∃ f piece, Field.On f piece ∧
      Rest p.octets s.start.toNat (piece ++ p.octets.drop s.stop.toNat) ∧
      s.stop.toNat = s.start.toNat + piece.length ∧ s.getter.Gives p s.start s.stop f got

section Numbers

variable {buf : Bytes} {idx idx' : Nat}

theorem getUint32_splits {v : Nat} (h : Yields (WolfSsh.getUint32 buf) idx v idx') :
    buf.drop idx = c32toa v ++ buf.drop idx' ∧ idx' = idx + 4 := by
  obtain ⟨rfl, rfl, hlen⟩ := getUint32_ok h
  refine ⟨?_, rfl⟩
  have hword : 4 ≤ (buf.drop idx).length := by
    rw [uint32Sz] at hlen
    rw [List.length_drop]
    omega
  rw [c32toa_ato32 hword, ← List.drop_drop, uint32Sz, List.take_append_drop]

theorem getBoolean_splits {b : Bool} (h : Yields (WolfSsh.getBoolean buf) idx b idx') :
    ∃ o, b = (o != 0) ∧ buf.drop idx = o :: buf.drop idx' ∧ idx' = idx + 1 := by
  by_cases hin : idx < buf.length
  · simp only [Yields, WolfSsh.getBoolean, runAt_bind, runAt_get, dif_pos hin, runAt_set, runAt_pure,
      Prod.mk.injEq, Except.ok.injEq] at h
    obtain ⟨rfl, rfl⟩ := h
    exact ⟨buf[idx], rfl, List.drop_eq_getElem_cons hin, rfl⟩
  · simp only [Yields, WolfSsh.getBoolean, runAt_bind, runAt_get, dif_neg hin, runAt_throw,
      Prod.mk.injEq, reduceCtorEq, false_and] at h

theorem getSize_splits {v : Nat} (h : Yields (WolfSsh.getSize buf) idx v idx') :
    buf.drop idx = c32toa v ++ buf.drop idx' ∧ idx' = idx + 4 := by
  rw [WolfSsh.getSize, yields_bind_iff] at h
  obtain ⟨n, mid, hn, h⟩ := h
  rw [yields_bind_iff] at h
  obtain ⟨_, _, hget, h⟩ := h
  obtain ⟨rfl, rfl⟩ := yields_get_iff.mp hget
  split at h
  · simp [Yields] at h
  · obtain ⟨rfl, rfl⟩ := yields_pure_iff.mp h
    exact getUint32_splits hn

theorem getSkip_splits (h : Yields (WolfSsh.getSkip buf) idx () idx') :
    ∃ str, buf.drop idx = copyString str ++ buf.drop idx' ∧ idx' = idx + 4 + str.length := by
  rw [WolfSsh.getSkip, yields_bind_iff] at h
  obtain ⟨sz, mid, hsz, h⟩ := h
  rw [yields_modify_iff] at h
  subst h
  obtain ⟨rfl, rfl, hle⟩ := getSize_ok hsz
  refine ⟨_, drop_string hle, ?_⟩
  rw [List.length_take, List.length_drop, uint32Sz] at *
  omega

theorem getMpint_ref {str : Bytes} (h : Yields (WolfSsh.getMpint buf) idx str idx') :
    Yields (WolfSsh.getStringRef buf) idx str idx' := by
  rw [WolfSsh.getMpint, yields_bind_iff] at h
  obtain ⟨mpint, mid, hstr, h⟩ := h
  cases mpint with
  | nil =>
    obtain ⟨rfl, rfl⟩ := yields_pure_iff.mp h
    exact hstr
  | cons b rest =>
    dsimp only at h
    split at h
    · simp [Yields] at h
    · obtain ⟨rfl, rfl⟩ := yields_pure_iff.mp h
      exact hstr

theorem getString_ref {sz : Nat} {s : Bytes} (h : Yields (WolfSsh.getString sz buf) idx s idx') :
    ∃ str, Yields (WolfSsh.getStringRef buf) idx str idx' ∧ s = str.take (sz - 1) := by
  rw [WolfSsh.getString] at h
  split at h
  · simp [Yields] at h
  · obtain ⟨str, mid, hstr, h⟩ := yields_bind_iff.mp h
    obtain ⟨rfl, rfl⟩ := yields_pure_iff.mp h
    exact ⟨str, hstr, rfl⟩

theorem getStringAlloc_ref {memory : Bool} {s : Bytes}
    (h : Yields (WolfSsh.getStringAlloc memory buf) idx s idx') :
    Yields (WolfSsh.getStringRef buf) idx s idx' := by
  rw [WolfSsh.getStringAlloc, yields_bind_iff] at h
  obtain ⟨str, mid, hstr, h⟩ := h
  cases memory with
  | false => simp [Yields] at h
  | true =>
    obtain ⟨rfl, rfl⟩ := yields_pure_iff.mp h
    exact hstr

end Numbers

section Steps

variable {p : Payload} {idx : UInt32} {g : Getter}

/-- A reader that follows one over numbers, where that one reads what stands there. -/
theorem Follows.step {α β : Type} {w : WordReader α} {r : Reader β} {rel : α → UInt32 → β → Prop}
    (h : Follows p idx w r rel) (wrap : α → Got)
    (hget : g.get p = w >>= fun a => Pure.pure (wrap a))
    (hval : ∀ a b i, Yields r idx.toNat b i.toNat → rel a i b → ∃ f piece, Field.On f piece ∧
      p.octets.drop idx.toNat = piece ++ p.octets.drop i.toNat ∧
      i.toNat = idx.toNat + piece.length ∧ g.Gives p idx i f (wrap a)) :
    ∃ result i, (g.get p).runAt idx = (result.mapError Stop.failed, i) ∧
      Step.Sound p ⟨idx, g, result, i⟩ := by
  obtain ⟨i, hge, hle, ⟨a, b, hw, hr, hab⟩ | ⟨e, hw, -⟩⟩ := h
  · have hrun : Yields (g.get p) idx (wrap a) i := by
      rw [hget]
      exact hw.bind rfl
    refine ⟨.ok (wrap a), i, hrun, hge, hle, ?_⟩
    intro got hgot
    obtain rfl := Except.ok.inj hgot
    exact hval a b i hr hab
  · refine ⟨.error e, i, ?_, hge, hle, nofun⟩
    rw [hget, runAt_bind, hw]
    rfl

theorem Getter.get_sound (g : Getter) (hidx : idx.toNat ≤ p.len.toNat) :
    ∃ result i, (g.get p).runAt idx = (result.mapError Stop.failed, i) ∧
      Step.Sound p ⟨idx, g, result, i⟩ := by
  -- a string that stands there, with its size before it
  have hstring : ∀ {str : Bytes} {i : UInt32},
      Yields (WolfSsh.getStringRef p.octets) idx.toNat str i.toNat →
      p.octets.drop idx.toNat = copyString str ++ p.octets.drop i.toNat ∧
        i.toNat = idx.toNat + (copyString str).length := by
    intro str i hr
    obtain ⟨hdrop, hi, -⟩ := getStringRef_splits hr
    refine ⟨hdrop, ?_⟩
    rw [hi, copyString, List.length_append, c32toa_length, uint32Sz, Nat.add_assoc]
  cases g with
  | boolean =>
    refine (getBoolean_follows hidx).step .boolean rfl ?_
    rintro v b i hr rfl
    obtain ⟨o, rfl, hdrop, hi⟩ := getBoolean_splits hr
    exact ⟨_, [o], .boolean o, hdrop, hi, rfl⟩
  | uint32 =>
    refine (getUint32_follows hidx).step .uint32 rfl ?_
    rintro v n i hr ⟨rfl, -⟩
    obtain ⟨hdrop, hi⟩ := getUint32_splits hr
    exact ⟨_, _, .uint32 v, hdrop, by rwa [c32toa_length], rfl⟩
  | size =>
    refine (getSize_follows hidx).step .uint32 rfl ?_
    rintro v n i hr ⟨rfl, hfit⟩
    obtain ⟨hdrop, hi⟩ := getSize_splits hr
    exact ⟨_, _, .uint32 v, hdrop, by rwa [c32toa_length], rfl, hfit⟩
  | skip =>
    refine (getSkip_follows hidx).step (fun _ => .skipped) rfl ?_
    rintro ⟨⟩ ⟨⟩ i hr -
    obtain ⟨str, hdrop, hi⟩ := getSkip_splits hr
    refine ⟨_, _, .string str, hdrop, ?_, trivial⟩
    rw [hi, copyString, List.length_append, c32toa_length, Nat.add_assoc]
  | mpint =>
    refine (getMpint_follows hidx).step .ref rfl ?_
    rintro r str i hr hspan
    obtain ⟨hdrop, hi⟩ := hstring (getMpint_ref hr)
    exact ⟨_, _, .string str, hdrop, hi, hspan⟩
  | string sSz =>
    refine (getString_follows hidx).step .copy rfl ?_
    rintro s str i hr hs
    obtain ⟨whole, hwhole, rfl⟩ := getString_ref hr
    obtain ⟨hdrop, hi⟩ := hstring hwhole
    exact ⟨_, _, .string whole, hdrop, hi, hs⟩
  | stringAlloc memory =>
    refine (getStringAlloc_follows hidx).step .copy rfl ?_
    rintro s str i hr hs
    obtain ⟨hdrop, hi⟩ := hstring (getStringAlloc_ref hr)
    exact ⟨_, _, .string str, hdrop, hi, hs⟩
  | stringRef =>
    refine (getStringRef_follows hidx).step .ref rfl ?_
    rintro r str i hr hspan
    obtain ⟨hdrop, hi⟩ := hstring hr
    exact ⟨_, _, .string str, hdrop, hi, hspan⟩

end Steps

/-! What was written is read back. -/

section Written

variable {p : Payload} {idx : UInt32} {g : Getter} {f : Field} {rest : Bytes}

/-- `g` reads an `f` that has `after` octets behind it. -/
def Getter.Reads (after : Nat) : Getter → Field → Prop
  | .boolean, .boolean _ => True
  | .uint32, .uint32 _ => True
  | .size, .uint32 n => n.toNat ≤ after
  | .skip, .string _ => True
  | .mpint, .string str => Positive str
  | .string sSz, .string _ => sSz ≠ 0
  | .stringAlloc memory, .string _ => memory = true
  | .stringRef, .string _ => True
  | _, _ => False

theorem Follows.yields {α β : Type} {w : WordReader α} {r : Reader β} {rel : α → UInt32 → β → Prop}
    {b : β} {j : Nat} (h : Follows p idx w r rel) (hr : Yields r idx.toNat b j) :
    ∃ a i, Yields w idx a i ∧ i.toNat = j ∧ rel a i b := by
  obtain ⟨i, -, -, ⟨a, b', hw, hr', hab⟩ | ⟨e, -, hr'⟩⟩ := h
  · obtain ⟨hb, rfl⟩ := Prod.mk.inj (hr'.symm.trans hr)
    obtain rfl := Except.ok.inj hb
    exact ⟨a, i, hw, rfl, hab⟩
  · exact absurd (congrArg Prod.fst (hr'.symm.trans hr)) nofun

theorem Follows.written {α β : Type} {w : WordReader α} {r : Reader β} {rel : α → UInt32 → β → Prop}
    {b : β} (h : Follows p idx w r rel) (wrap : α → Got)
    (hget : g.get p = w >>= fun a => Pure.pure (wrap a))
    (hr : Yields r idx.toNat b (idx.toNat + f.write.length))
    (hgives : ∀ a i, rel a i b → g.Gives p idx i f (wrap a)) :
    ∃ got i, Yields (g.get p) idx got i ∧ i.toNat = idx.toNat + f.write.length ∧
      g.Gives p idx i f got := by
  obtain ⟨a, i, hw, hi, hab⟩ := h.yields hr
  refine ⟨wrap a, i, ?_, hi, hgives a i hab⟩
  rw [hget]
  exact hw.bind rfl

theorem Getter.get_written (hidx : idx.toNat ≤ p.len.toNat)
    (h : p.octets.drop idx.toNat = f.write ++ rest) (hreads : g.Reads rest.length f) :
    ∃ got i, Yields (g.get p) idx got i ∧ i.toNat = idx.toNat + f.write.length ∧
      g.Gives p idx i f got := by
  have hlen := congrArg List.length h
  rw [List.length_drop, Payload.length_octets, List.length_append] at hlen
  have hword := p.len.toNat_lt
  cases f with
  | boolean b =>
    cases g <;> try exact hreads.elim
    refine (getBoolean_follows hidx).written .boolean rfl (getBoolean_yields h) ?_
    rintro v i rfl
    cases b <;> rfl
  | uint32 n =>
    have hn : Yields (WolfSsh.getUint32 p.octets) idx.toNat n.toNat (idx.toNat + 4) :=
      getUint32_yields h n.toNat_lt
    have h4 : (Field.uint32 n).write.length = 4 := c32toa_length n.toNat
    cases g <;> try exact hreads.elim
    case uint32 =>
      refine (getUint32_follows hidx).written .uint32 rfl (h4 ▸ hn) ?_
      rintro v i ⟨hv, -⟩
      exact UInt32.toNat_inj.mp hv
    case size =>
      have hsz : Yields (WolfSsh.getSize p.octets) idx.toNat n.toNat (idx.toNat + 4) := by
        refine hn.bind ?_
        have hfit : n.toNat ≤ rest.length := hreads
        have hin : ¬ n.toNat > p.octets.length - (idx.toNat + 4) := by
          rw [Payload.length_octets]
          omega
        simp only [Yields, runAt_bind, runAt_get, if_neg hin, runAt_pure]
      refine (getSize_follows hidx).written .uint32 rfl (h4 ▸ hsz) ?_
      rintro v i ⟨hv, hfit⟩
      obtain rfl := UInt32.toNat_inj.mp hv
      exact ⟨rfl, hfit⟩
  | string str =>
    have hwrite : (Field.string str).write.length = 4 + str.length := by
      rw [Field.write, copyString, List.length_append, c32toa_length]
    have hrest : Rest p.octets idx.toNat (c32toa str.length ++ (str ++ rest)) := by
      rw [Rest, h, Field.write, copyString, List.append_assoc]
    have hstr : Yields (WolfSsh.getStringRef p.octets) idx.toNat str
        (idx.toNat + (Field.string str).write.length) := by
      rw [hwrite, ← Nat.add_assoc]
      exact getStringRef_yields hrest (by omega)
    cases g <;> try exact hreads.elim
    case skip =>
      have hskip : Yields (WolfSsh.getSkip p.octets) idx.toNat ()
          (idx.toNat + (Field.string str).write.length) := by
        rw [hwrite, ← Nat.add_assoc]
        exact getSkip_yields hrest (by omega)
      exact (getSkip_follows hidx).written (fun _ => .skipped) rfl hskip fun _ _ _ => trivial
    case mpint =>
      have hm : Yields (WolfSsh.getMpint p.octets) idx.toNat str
          (idx.toNat + (Field.string str).write.length) := by
        refine hstr.bind ?_
        cases str with
        | nil => rfl
        | cons b str =>
          have hb : b &&& 0x80 = 0 := hreads b rfl
          simp only [Yields, hb, bne_self_eq_false, Bool.false_eq_true, if_false, runAt_pure]
      exact (getMpint_follows hidx).written .ref rfl hm fun _ _ hspan => hspan
    case string sSz =>
      have hz : ¬ sSz.toNat = 0 := Nat.ne_of_gt (Word32.toNat_pos.mp hreads)
      have hs : Yields (WolfSsh.getString sSz.toNat p.octets) idx.toNat (str.take (sSz.toNat - 1))
          (idx.toNat + (Field.string str).write.length) := by
        rw [WolfSsh.getString, if_neg hz]
        exact hstr.bind rfl
      exact (getString_follows hidx).written .copy rfl hs fun _ _ ht => ht
    case stringAlloc memory =>
      obtain rfl : memory = true := hreads
      have hs : Yields (WolfSsh.getStringAlloc true p.octets) idx.toNat str
          (idx.toNat + (Field.string str).write.length) := hstr.bind rfl
      exact (getStringAlloc_follows hidx).written .copy rfl hs fun _ _ ht => ht
    case stringRef => exact (getStringRef_follows hidx).written .ref rfl hstr fun _ _ hspan => hspan

end Written

/-! Parsers made of the readers. -/

/-- A parser calls a reader, sees how it went, and goes on. -/
abbrev Parser := Calls Getter fun _ => Except WsErr Got

namespace Parser

variable {α β : Type} {p : Payload} {idx : UInt32}

/-- The result, the readers that ran and the last index; nothing when memory was misused. -/
def run (p : Payload) : Parser α → UInt32 → Option (α × List Step × UInt32)
  | .ret a, idx => some (a, [], idx)
  | .call g k, idx =>
    match (g.get p).runAt idx with
    | (.error .outside, _) => none
    | (.error (.failed e), i) => (run p (k (.error e)) i).map fun (a, t, j) =>
        (a, ⟨idx, g, .error e, i⟩ :: t, j)
    | (.ok got, i) => (run p (k (.ok got)) i).map fun (a, t, j) => (a, ⟨idx, g, .ok got, i⟩ :: t, j)

theorem run_call {g : Getter} {k : Except WsErr Got → Parser α} {result : Except WsErr Got} {i : UInt32}
    (h : (g.get p).runAt idx = (result.mapError Stop.failed, i)) :
    run p (.call g k) idx = (run p (k result) i).map fun (a, t, j) =>
      (a, ⟨idx, g, result, i⟩ :: t, j) := by
  rw [run, h]
  cases result <;> rfl

/-- Wherever it starts in the payload, every reader that a parser calls is sound. -/
theorem run_sound (m : Parser α) (hidx : idx.toNat ≤ p.len.toNat) :
    ∃ a t i, run p m idx = some (a, t, i) ∧ (∀ s ∈ t, s.Sound p) ∧ idx.toNat ≤ i.toNat ∧
      i.toNat ≤ p.len.toNat := by
  induction m generalizing idx with
  | ret a => exact ⟨a, [], idx, rfl, nofun, Nat.le_refl _, hidx⟩
  | call g k ih =>
    obtain ⟨result, i, hget, hsound⟩ := g.get_sound hidx
    obtain ⟨a, t, j, hrun, ht, hij, hj⟩ := ih result hsound.2.1
    refine ⟨a, ⟨idx, g, result, i⟩ :: t, j, ?_, ?_, hsound.1.trans hij, hj⟩
    · rw [run_call hget, hrun]
      rfl
    · exact List.forall_mem_cons.mpr ⟨hsound, ht⟩

/-- One reader after the other, until one fails. -/
def readAll : List Getter → Parser (Except WsErr (List Got))
  | [] => pure (.ok [])
  | g :: gs => do
    match ← Calls.ask g with
    | .error e => pure (.error e)
    | .ok got =>
      let gots ← readAll gs
      pure (gots.map (got :: ·))

theorem run_map (m : Parser α) (f : α → β) :
    run p (m >>= fun a => pure (f a)) idx = (run p m idx).map fun (a, t, i) => (f a, t, i) := by
  induction m generalizing idx with
  | ret a => rfl
  | call g k ih =>
    change run p (.call g fun r => k r >>= fun a => pure (f a)) idx = _
    rw [run, run]
    rcases (g.get p).runAt idx with ⟨(e | _) | got, i⟩
    · dsimp only
      rw [ih, Option.map_map, Option.map_map]
      rfl
    · rfl
    · dsimp only
      rw [ih, Option.map_map, Option.map_map]
      rfl

def writeAll (fields : List Field) : Bytes := fields.flatMap Field.write

/-- Each reader reads the field it stands with, where `after` octets follow them all. -/
def Matched (after : Nat) : List (Getter × Field) → Prop
  | [] => True
  | (g, f) :: reads =>
    g.Reads ((writeAll (reads.map Prod.snd)).length + after) f ∧ Matched after reads

theorem run_readAll {reads : List (Getter × Field)} {rest : Bytes} (hidx : idx.toNat ≤ p.len.toNat)
    (h : p.octets.drop idx.toNat = writeAll (reads.map Prod.snd) ++ rest)
    (hmatched : Matched rest.length reads) :
    ∃ gots t i, run p (readAll (reads.map Prod.fst)) idx = some (.ok gots, t, i) ∧
      i.toNat = idx.toNat + (writeAll (reads.map Prod.snd)).length ∧
      List.Forall₂ (fun r got => ∃ j k, r.1.Gives p j k r.2 got) reads gots := by
  induction reads generalizing idx with
  | nil => exact ⟨[], [], idx, rfl, rfl, .nil⟩
  | cons r reads ih =>
    obtain ⟨g, f⟩ := r
    obtain ⟨hreads, hmatched⟩ := hmatched
    have hall : writeAll ((⟨g, f⟩ :: reads).map Prod.snd) = f.write ++ writeAll (reads.map Prod.snd) :=
      rfl
    rw [hall, List.append_assoc] at h
    rw [← List.length_append] at hreads
    obtain ⟨got, i, hget, hi, hgives⟩ := g.get_written hidx h hreads
    have hnext : p.octets.drop i.toNat = writeAll (reads.map Prod.snd) ++ rest := by
      rw [hi, ← List.drop_drop, h, List.drop_left]
    have hle : i.toNat ≤ p.len.toNat := by
      have hlen := congrArg List.length h
      rw [List.length_drop, Payload.length_octets, List.length_append] at hlen
      omega
    obtain ⟨gots, t, j, hrun, hj, hall'⟩ := ih hle hnext hmatched
    refine ⟨got :: gots, ⟨idx, g, .ok got, i⟩ :: t, j, ?_, ?_, .cons ⟨idx, i, hgives⟩ hall'⟩
    · have hget' : (g.get p).runAt idx = (Except.mapError Stop.failed (.ok got), i) := hget
      have htail : run p (readAll (reads.map Prod.fst) >>= fun gots =>
          pure (gots.map (got :: ·))) i = some (.ok (got :: gots), t, j) := by
        rw [run_map, hrun]
        rfl
      exact (run_call hget').trans (congrArg (Option.map _) htail)
    · rw [hj, hi, hall, List.length_append, Nat.add_assoc]

end Parser

/-- `GetString` leaves out what does not fit the caller's buffer. -/
theorem getString_truncates :
    ¬ ∀ (p : Payload) (idx sSz : UInt32) (s : Bytes × UInt32) (i : UInt32) (str : Bytes),
      Yields (getString sSz p) idx s i →
      p.octets.drop idx.toNat = copyString str ++ p.octets.drop i.toNat → Terminated s str := by
  intro h
  have hread := h ⟨[0, 0, 0, 2, 97, 98], 6, by decide⟩ 0 2 ([97, 0], 1) 6 [97, 98] (by rfl) (by rfl)
  exact absurd hread.2 (by decide)

/-- No reader leaves the payload, in whatever order a parser calls them. What one hands out is the
value that stands there, of which `GetString` copies what fits; and values that were written are
read back. -/
theorem readers_stay_inside (p : Payload) (idx : UInt32) (hidx : idx.toNat ≤ p.len.toNat) :
    (∀ g : Getter, ∃ result i, (g.get p).runAt idx = (result.mapError Stop.failed, i) ∧
      Step.Sound p ⟨idx, g, result, i⟩) ∧
    (∀ (α : Type) (m : Parser α), ∃ a t i, m.run p idx = some (a, t, i) ∧ (∀ s ∈ t, s.Sound p) ∧
      idx.toNat ≤ i.toNat ∧ i.toNat ≤ p.len.toNat) ∧
    ∀ (reads : List (Getter × Field)) (rest : Bytes),
      p.octets.drop idx.toNat = Parser.writeAll (reads.map Prod.snd) ++ rest →
      Parser.Matched rest.length reads →
      ∃ gots t i, (Parser.readAll (reads.map Prod.fst)).run p idx = some (.ok gots, t, i) ∧
        i.toNat = idx.toNat + (Parser.writeAll (reads.map Prod.snd)).length ∧
        List.Forall₂ (fun r got => ∃ j k, r.1.Gives p j k r.2 got) reads gots :=
  ⟨fun g => g.get_sound hidx, fun _ m => Parser.run_sound m hidx,
    fun _ _ h hmatched => Parser.run_readAll hidx h hmatched⟩

/-- A name list of two octets and a flag, read from the front. -/
theorem readers_stay_inside_example :
    ∃ got t, (Parser.readAll [.stringRef, .boolean]).run ⟨[0, 0, 0, 2, 97, 98, 1], 7, by decide⟩ 0 =
      some (.ok got, t, 7) := by
  have hinside := readers_stay_inside ⟨[0, 0, 0, 2, 97, 98, 1], 7, by decide⟩ 0 (by decide)
  obtain ⟨gots, t, i, hrun, hi, -⟩ :=
    hinside.2.2 [(.stringRef, .string [97, 98]), (.boolean, .boolean true)] [] (by rfl)
      ⟨trivial, trivial, trivial⟩
  obtain rfl : i = 7 := UInt32.toNat_inj.mp hi
  exact ⟨gots, t, hrun⟩

end WolfSsh.Words
