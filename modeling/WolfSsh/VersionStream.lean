import WolfSsh.KexHashAgreement
import WolfSsh.VersionExchange

/-! However a stream is split into reads, the version exchange does what `DoProtoId` does with the
whole of it. -/

namespace WolfSsh.VersionExchange

open WordBuffer CStrings

/-- The octets that come in until the peer hangs up: an empty read or an error. -/
def data : List Received → Bytes
  | .chunk bs :: io => if bs = [] then [] else bs ++ data io
  | .error .want :: io => data io
  | .error .isr :: io => data io
  | _ => []

/-- Whether the peer hangs up in the end. -/
def hungUp : List Received → Bool
  | .chunk bs :: io => bs.isEmpty || hungUp io
  | .error .want :: io => hungUp io
  | .error .isr :: io => hungUp io
  | [] => false
  | _ => true

/-- Reads of a stream: every count is that of the octets that have come in. -/
def Split : List Received → Prop
  | .count _ _ :: _ => False
  | .chunk bs :: io => bs = [] ∨ Split io
  | .error .want :: io => Split io
  | .error .isr :: io => Split io
  | _ => True

/-- What a read that asks for `sz` octets may find. -/
inductive Read (sz : UInt32) (io : List Received) : Option (Recvd × List Received) → Prop
  | waiting : data io = [] → hungUp io = false → Read sz io none
  | wantRead (io') : Split io' → data io' = data io → hungUp io' = hungUp io →
      ioSize io' < ioSize io → Read sz io (some (.wantRead, io'))
  | failed (io') : data io = [] → hungUp io = true → Read sz io (some (.failed, io'))
  | empty (bs io') : data io = [] → hungUp io = true → Read sz io (some (.got 0 bs, io'))
  | got (n bs io') : n.toNat = bs.length → bs ≠ [] → n ≤ sz → Split io' → data io = bs ++ data io' →
      hungUp io' = hungUp io → ioSize io' < ioSize io → Read sz io (some (.got n bs, io'))

theorem receiveData_read {sz : UInt32} (hsz : sz ≠ 0) {io : List Received} (h : Split io) :
    Read sz io (receiveData sz io) := by
  have hpos : 0 < sz.toNat := Word32.toNat_pos.mp hsz
  have hword := sz.toNat_lt
  induction io with
  | nil => exact .waiting rfl rfl
  | cons a io ih =>
    cases a with
    | count n bs => exact absurd h id
    | chunk bs =>
      by_cases hnil : bs = []
      · subst hnil
        rw [receiveData, List.take_nil]
        exact .empty _ _ (if_pos rfl) rfl
      · have hrest : Split io := h.resolve_left hnil
        have hdata : data (.chunk bs :: io) = bs ++ data io := if_neg hnil
        have hhung : hungUp (.chunk bs :: io) = hungUp io := by
          rw [hungUp, List.isEmpty_eq_false_iff.mpr hnil, Bool.false_or]
        have hblen : 0 < bs.length := List.length_pos_iff.mpr hnil
        have hlen : (bs.take sz.toNat).length ≤ sz.toNat := List.length_take_le _ _
        have hcount : (UInt32.ofNat (bs.take sz.toNat).length).toNat = (bs.take sz.toNat).length :=
          Word32.toNat_ofNat (by omega)
        have hsome : bs.take sz.toNat ≠ [] := by
          intro hz
          have hzero := congrArg List.length hz
          rw [List.length_take, List.length_nil] at hzero
          omega
        have hsize := ioSize_receiveData hsz (show receiveData sz (.chunk bs :: io) = some (_, _) from rfl)
        have hle : UInt32.ofNat (bs.take sz.toNat).length ≤ sz := by
          rw [UInt32.le_iff_toNat_le, hcount]
          exact hlen
        rw [receiveData]
        by_cases hall : bs.length ≤ sz.toNat
        · rw [if_pos hall] at hsize ⊢
          refine .got _ _ _ hcount hsome hle hrest ?_ hhung.symm hsize
          rw [hdata, List.take_of_length_le hall]
        · have hmore : bs.drop sz.toNat ≠ [] := by
            intro hz
            have hzero := congrArg List.length hz
            rw [List.length_drop, List.length_nil] at hzero
            omega
          rw [if_neg hall] at hsize ⊢
          refine .got _ _ _ hcount hsome hle (.inr hrest) ?_ ?_ hsize
          · rw [hdata, data, if_neg hmore, ← List.append_assoc, List.take_append_drop]
          · rw [hhung, hungUp, List.isEmpty_eq_false_iff.mpr hmore, Bool.false_or]
    | error e =>
      cases e with
      | want => exact .wantRead io h rfl rfl (by simp only [ioSize]; omega)
      | isr =>
        have hsize : ioSize io ≤ ioSize (.error .isr :: io) := by
          simp only [ioSize]
          omega
        have hread := ih h
        rw [receiveData]
        generalize receiveData sz io = r at hread
        cases hread with
        | waiting hd hh => exact .waiting hd hh
        | wantRead io' hs hd hh hlt => exact .wantRead io' hs hd hh (Nat.lt_of_lt_of_le hlt hsize)
        | failed io' hd hh => exact .failed io' hd hh
        | empty bs io' hd hh => exact .empty bs io' hd hh
        | got n bs io' hn hne hle hs hd hh hlt =>
          exact .got n bs io' hn hne hle hs hd hh (Nat.lt_of_lt_of_le hlt hsize)
      | _ => exact .failed io rfl rfl

section Line

/-- A line of text and whether a CR stands before the LF that ends it. -/
structure Line where
  text : Bytes
  crlf : Bool

namespace Line

variable (l : Line)

def front : Bytes := if l.crlf then l.text ++ [0x0d] else l.text

def octets : Bytes := l.front ++ [0x0a]

def size : Nat := if l.crlf then 2 else 1

/-- A line that fits, without a NUL. A CR before the LF is of the terminator. -/
structure Valid : Prop where
  noLf : 0x0a ∉ l.text
  noNul : 0 ∉ l.text
  noCr : l.crlf = false → l.text.getLast? ≠ some 0x0d
  short : l.octets.length ≤ WolfSsh.protoIdLimit

theorem length_front : l.front.length + 1 = l.text.length + l.size := by
  rw [front, size]
  cases l.crlf <;> simp

theorem length_octets : l.octets.length = l.text.length + l.size := by
  rw [octets, List.length_append, List.length_singleton, length_front]

variable {l}

theorem Valid.front_noLf (h : l.Valid) : 0x0a ∉ l.front := by
  rw [front]
  split
  · simpa using h.noLf
  · exact h.noLf

theorem Valid.front_noNul (h : l.Valid) : 0 ∉ l.front := by
  rw [front]
  split
  · simpa using h.noNul
  · exact h.noNul

variable (l)

theorem starts {t : Bytes} (more : Bytes) (hlf : 0x0a ∉ t) (hcr : 0x0d ∉ t) :
    t.isPrefixOf (l.octets ++ more) = true ↔ t <+: l.text := by
  have hcut : ∀ {c : UInt8} {front more : Bytes}, c ∉ t → (t <+: front ++ c :: more ↔ t <+: front) := by
    intro c front more hc
    constructor
    · intro h
      by_cases hlen : t.length ≤ front.length
      · exact List.prefix_of_prefix_length_le h (List.prefix_append front _) hlen
      · have hmem : front ++ [c] <+: t := by
          refine List.prefix_of_prefix_length_le ⟨more, by simp⟩ h ?_
          rw [List.length_append, List.length_singleton]
          omega
        exact absurd (hmem.subset (by simp)) hc
    · intro h
      exact h.trans (List.prefix_append front _)
  rw [List.isPrefixOf_iff_prefix, octets, List.append_assoc, List.singleton_append, hcut hlf, front]
  split
  · exact hcut hcr
  · exact Iff.rfl

variable {l}

/-- The CR is found where the terminator has one, at the index where the text ends. -/
theorem Valid.end_of_line (h : l.Valid) (more : Bytes) :
    (if 0 < l.front.length ∧ (l.octets ++ more).getD (l.front.length - 1) 0 = 0x0d then l.front.length - 1
      else l.front.length) = l.text.length ∧
    (if (l.octets ++ more).getD l.text.length 0 = 0x0d then (2 : UInt32) else 1) = if l.crlf then 2 else 1 := by
  have hat : ∀ (a : Bytes) (c : UInt8) (x : Bytes), (a ++ c :: x).getD a.length 0 = c := by
    intro a c x
    rw [List.getD_eq_getElem?_getD, List.getElem?_append_right (Nat.le_refl _), Nat.sub_self]
    rfl
  rw [octets, front]
  cases hcrlf : l.crlf with
  | true =>
    have hassoc : l.text ++ [0x0d] ++ [0x0a] ++ more = l.text ++ 0x0d :: 0x0a :: more := by simp
    have hlen : (l.text ++ [(0x0d : UInt8)]).length = l.text.length + 1 := by simp
    rw [if_pos rfl, hassoc, hlen, Nat.add_sub_cancel, hat, if_pos ⟨Nat.succ_pos _, rfl⟩, if_pos rfl]
    exact ⟨rfl, rfl⟩
  | false =>
    have hassoc : l.text ++ [0x0a] ++ more = l.text ++ 0x0a :: more := by simp
    rw [if_neg Bool.false_ne_true, hassoc, hat]
    refine ⟨if_neg ?_, rfl⟩
    rintro ⟨hpos, hcr⟩
    refine h.noCr hcrlf ?_
    rw [List.getD_eq_getElem?_getD, List.getElem?_append_left (by omega)] at hcr
    rw [List.getLast?_eq_getElem?]
    cases hget : l.text[l.text.length - 1]? with
    | none =>
      rw [List.getElem?_eq_none_iff] at hget
      omega
    | some c =>
      rw [hget, Option.getD_some] at hcr
      rw [hcr]

end Line

theorem line_of_front {front : Bytes} (hlf : 0x0a ∉ front) (hnul : 0 ∉ front)
    (hlen : front.length < WolfSsh.protoIdLimit) : ∃ l : Line, l.Valid ∧ l.front = front := by
  have hlimit : ∀ l : Line, l.front = front → l.octets.length ≤ WolfSsh.protoIdLimit := by
    intro l hl
    rw [Line.octets, hl, List.length_append, List.length_singleton]
    omega
  by_cases hcr : front.getLast? = some 0x0d
  · obtain ⟨init, rfl⟩ : ∃ init, front = init ++ [0x0d] := List.getLast?_eq_some_iff.mp hcr
    refine ⟨⟨init, true⟩, ⟨?_, ?_, nofun, hlimit ⟨init, true⟩ rfl⟩, rfl⟩
    · exact fun h => hlf (List.mem_append_left _ h)
    · exact fun h => hnul (List.mem_append_left _ h)
  · exact ⟨⟨front, false⟩, ⟨hlf, hnul, fun _ => hcr, hlimit ⟨front, false⟩ rfl⟩, rfl⟩

theorem Line.Valid.find (l : Line) (h : l.Valid) (more : Bytes) :
    wstrnstr (l.octets ++ more) [0x0a] = some l.front.length :=
  (find_eq_some_iff (by decide)).mpr
    ⟨l.front, more, by rw [Line.octets, List.append_assoc]; rfl, rfl, h.front_noLf, h.front_noNul⟩

/-- `GetInputLine` of a stream finds its first line. -/
theorem getInputLine_line {l : Line} (h : l.Valid) (more : Bytes) :
    WolfSsh.getInputLine (l.octets ++ more) = .ok (l.text.length, l.size) := by
  have htake : (l.octets ++ more).take WolfSsh.protoIdLimit
      = l.octets ++ more.take (WolfSsh.protoIdLimit - l.octets.length) := by
    rw [List.take_append, List.take_of_length_le h.short]
  have hend := h.end_of_line more
  have hlen := l.length_front
  rw [WolfSsh.getInputLine, htake, h.find l]
  dsimp only
  by_cases hcr : 0 < l.front.length ∧ (l.octets ++ more).getD (l.front.length - 1) 0 = 0x0d
  · rw [if_pos hcr] at hend ⊢
    rw [hend.1]
    congr 2
    omega
  · rw [if_neg hcr] at hend ⊢
    rw [hend.1]
    congr 2
    omega

theorem getInputLine_ok {stream : Bytes} {r : Nat × Nat} (h : WolfSsh.getInputLine stream = .ok r) :
    ∃ (l : Line) (more : Bytes), l.Valid ∧ stream = l.octets ++ more := by
  rw [WolfSsh.getInputLine] at h
  split at h
  · rename_i lf hfind
    obtain ⟨front, rest, htake, -, hlf, hnul⟩ := (find_eq_some_iff (by decide)).mp hfind
    have hlen := congrArg List.length htake
    rw [List.length_take, List.length_append, List.length_cons] at hlen
    obtain ⟨l, hl, rfl⟩ := line_of_front hlf hnul (by omega)
    refine ⟨l, rest ++ stream.drop WolfSsh.protoIdLimit, hl, ?_⟩
    rw [← List.append_assoc, Line.octets, List.append_assoc l.front, List.singleton_append, ← htake,
      List.take_append_drop]
  · split at h <;> simp at h

/-- `DoProtoId` of a stream looks at its first line. -/
theorem doProtoId_line {l : Line} (h : l.Valid) (side : Endpoint) (n : Nat) (more : Bytes) :
    WolfSsh.doProtoId side n (l.octets ++ more) =
      if ascii "SSH-" <+: l.text then
        if sshProtoIdPrefix <+: l.text then .ok (copyString l.text, more) else .error .versionE
      else if side = .client ∧ 0 < n then WolfSsh.doProtoId side (n - 1) more
      else .error .versionE := by
  have hfrontPre : l.text <+: l.octets ++ more := by
    rw [Line.octets, Line.front]
    split <;> simp
  have htake : (l.octets ++ more).take l.text.length = l.text := (List.prefix_iff_eq_take.mp hfrontPre).symm
  have hid : l.text.takeWhile (· != 0) = l.text := by
    rw [List.takeWhile_eq_self_iff]
    exact fun c hc => bne_iff_ne.mpr fun h0 => h.noNul (h0 ▸ hc)
  have hrest : (l.octets ++ more).drop (l.text.length + l.size) = more := by
    rw [← l.length_octets, List.drop_left]
  have hssh := l.starts (t := ascii "SSH-") more (by decide) (by decide)
  have hproto := l.starts (t := sshProtoIdPrefix) more (by decide) (by decide)
  rw [WolfSsh.doProtoId.eq_def, getInputLine_line h]
  change (if (ascii "SSH-").isPrefixOf (l.octets ++ more) = true then _ else _) = _
  by_cases hs : ascii "SSH-" <+: l.text
  · rw [if_pos (hssh.mpr hs), if_pos hs]
    by_cases hp : sshProtoIdPrefix <+: l.text
    · rw [if_pos (hproto.mpr hp), if_pos hp, htake, hid]
      dsimp only
      rw [hrest]
      rfl
    · rw [if_neg (mt hproto.mp hp), if_neg hp]
      rfl
  · rw [if_neg (mt hssh.mp hs), if_neg hs]
    cases side with
    | server => rw [if_neg (by simp)]; rfl
    | client =>
      cases n with
      | zero => rw [if_neg (by simp)]; rfl
      | succ n => rw [if_pos ⟨rfl, Nat.succ_pos n⟩, Nat.add_sub_cancel, hrest]

end Line

/-- What the code says where the stream ends before there is a line. -/
def stop (io : List Received) : Ret := if hungUp io then .failed .socketErrorE else .pending

section Lines

theorem take_limit {q more : Bytes} (hq : q.length ≤ WolfSsh.protoIdLimit) :
    (q ++ more).take WolfSsh.protoIdLimit = q ++ more.take (WolfSsh.protoIdLimit - q.length) := by
  rw [List.take_append, List.take_of_length_le hq]

theorem getInputLine_full {q : Bytes} (more : Bytes) (hq : q.length = WolfSsh.protoIdLimit)
    (hnone : wstrnstr q [0x0a] = none) : WolfSsh.getInputLine (q ++ more) = .error .versionE := by
  rw [WolfSsh.getInputLine, take_limit (Nat.le_of_eq hq), hq, Nat.sub_self, List.take_zero, List.append_nil,
    hnone]
  exact if_pos (by rw [List.length_append, hq]; exact Nat.le_add_right _ _)

theorem getInputLine_short {q : Bytes} (hq : q.length < WolfSsh.protoIdLimit)
    (hnone : wstrnstr q [0x0a] = none) : WolfSsh.getInputLine q = .error .socketErrorE := by
  rw [WolfSsh.getInputLine, List.take_of_length_le (Nat.le_of_lt hq), hnone]
  exact if_neg (Nat.not_le.mpr hq)

/-- The unread octets stand at the front of the buffer, and are no more than are read for a line. -/
structure Ready (b : Buf) : Prop where
  inv : Inv b
  front : b.idx = 0
  short : b.queue.length ≤ WolfSsh.protoIdLimit

theorem Ready.buffer {b : Buf} (h : Ready b) : ∃ rest, b.buffer = b.queue ++ rest := by
  obtain ⟨front, rest, hbuffer, hfront⟩ := h.inv.layout
  rw [h.front] at hfront
  obtain rfl : front = [] := List.length_eq_zero_iff.mp hfront
  exact ⟨rest, hbuffer⟩

theorem Ready.length {b : Buf} (h : Ready b) : b.length.toNat = b.queue.length := by
  have hsize := h.inv.size
  rw [h.front] at hsize
  exact hsize.symm.trans (Nat.zero_add _)

theorem Ready.text {b : Buf} (h : Ready b) : b.buffer.take b.length.toNat = b.queue := by
  obtain ⟨rest, hbuffer⟩ := h.buffer
  rw [hbuffer, h.length, List.take_left]

/-- What `GetInputLine` makes of a stream: a line, no line yet, or why there is none. -/
inductive LineOutcome (io : List Received) (stream : Bytes) :
    Except Ret Nat → Buf → List Received → Prop
  | line (lf b io') : Ready b → Split io' → hungUp io' = hungUp io → b.queue ++ data io' = stream →
      ioSize io' ≤ ioSize io → wstrnstr b.queue [0x0a] = some lf →
      LineOutcome io stream (.ok (endOfLine b.buffer lf)) b io'
  | wantRead (b io') : Ready b → Split io' → hungUp io' = hungUp io → b.queue ++ data io' = stream →
      ioSize io' < ioSize io → LineOutcome io stream (.error (.failed .wantRead)) b io'
  | tooLong (b io') : WolfSsh.getInputLine stream = .error .versionE →
      LineOutcome io stream (.error (.failed .versionE)) b io'
  | ended (b io') : WolfSsh.getInputLine stream = .error .socketErrorE →
      LineOutcome io stream (.error (stop io)) b io'

theorem LineOutcome.after {io io' : List Received} {stream : Bytes} {r : Except Ret Nat} {b : Buf}
    {io'' : List Received} (h : LineOutcome io' stream r b io'') (hhung : hungUp io' = hungUp io)
    (hsize : ioSize io' < ioSize io) : LineOutcome io stream r b io'' := by
  have hstop : stop io' = stop io := by rw [stop, stop, hhung]
  cases h with
  | line lf b io'' hready hsplit hh hstream hle hlf =>
    exact .line lf b io'' hready hsplit (hh.trans hhung) hstream (by omega) hlf
  | wantRead b io'' hready hsplit hh hstream hlt =>
    exact .wantRead b io'' hready hsplit (hh.trans hhung) hstream (by omega)
  | tooLong b io'' hline => exact .tooLong b io'' hline
  | ended b io'' hline => exact hstop ▸ .ended b io'' hline

theorem growBuffer_granted {b : Buf} (h : Inv b) {sz : UInt32} (hsz : sz.toNat + b.queue.length < 2 ^ 32) :
    ∃ b', growBuffer grants sz b = some (.success, b') ∧ Inv b' ∧ b'.queue = b.queue ∧ b'.idx = 0 ∧
      sz.toNat + b.queue.length ≤ b'.bufferSz.toNat := by
  rcases growBuffer_kept grants h hsz with ⟨-, n, hn⟩ | ⟨b', hgrow, hb', hqueue, hidx, -, hroom⟩
  · exact absurd hn (by simp [grants])
  · exact ⟨b', hgrow, hb', hqueue, hidx, hroom⟩

theorem lineLoop_outcome {b : Buf} {io : List Received} (h : Ready b) (hio : Split io) :
    ∃ r b' io', lineLoop grants io b = some (r, b', io') ∧
      LineOutcome io (b.queue ++ data io) r b' io' := by
  induction hn : ioSize io using Nat.strong_induction_on generalizing io b with
  | h n ih =>
    subst hn
    have hlimit : WolfSsh.protoIdLimit = 255 := rfl
    have hlimit' : WordBuffer.protoIdLimit.toNat = 255 := rfl
    have hlength := h.length
    have hshort := h.short
    have hread : WordBuffer.read b.buffer 0 b.length = some b.queue := by
      have hlen := h.inv.length_le
      have hroom := h.inv.room
      rw [WordBuffer.read, if_pos, ← h.text]
      · rfl
      · rw [hroom]
        change 0 + _ ≤ _
        omega
    rw [lineLoop, hread, Option.bind_eq_bind, Option.bind_some]
    cases hfind : wstrnstr b.queue [0x0a] with
    | some lf => exact ⟨_, b, io, rfl, .line lf b io h hio rfl rfl (Nat.le_refl _) hfind⟩
    | none =>
      dsimp only
      by_cases hlong : b.length ≥ WordBuffer.protoIdLimit
      · rw [dif_pos hlong]
        have hfull : b.queue.length = WolfSsh.protoIdLimit := by
          rw [ge_iff_le, UInt32.le_iff_toNat_le] at hlong
          omega
        exact ⟨_, b, io, rfl, .tooLong b io (getInputLine_full _ hfull hfind)⟩
      rw [dif_neg hlong]
      have hroom : b.length.toNat < 255 := by
        rw [ge_iff_le, UInt32.le_iff_toNat_le] at hlong
        exact Nat.not_le.mp hlong
      have hinSz : (WordBuffer.protoIdLimit - b.length).toNat = 255 - b.length.toNat :=
        Word32.toNat_sub (show b.length.toNat ≤ 255 by omega)
      obtain ⟨b₁, hgrow, hb₁, hqueue, hidx, hfits⟩ := growBuffer_granted h.inv
        (show (WordBuffer.protoIdLimit - b.length).toNat + _ < 2 ^ 32 by omega)
      have hready₁ : Ready b₁ := ⟨hb₁, hidx, by rw [hqueue]; exact hshort⟩
      have hlength₁ := hready₁.length
      rw [hqueue] at hlength₁
      have hover : data io = [] → WolfSsh.getInputLine (b.queue ++ data io) = .error .socketErrorE := by
        intro hdata
        rw [hdata, List.append_nil]
        exact getInputLine_short (by omega) hfind
      rw [h.inv.sized_eq (by omega), hgrow, Option.bind_eq_bind, Option.bind_some]
      dsimp only
      rw [if_neg (by simp)]
      have hsome := receiveData_read (sub_ne_zero hlong) hio
      split
      · rename_i hgot
        rw [hgot] at hsome
        cases hsome with
        | waiting hdata hhung =>
          refine ⟨_, b₁, io, rfl, ?_⟩
          have hstop : stop io = .pending := by rw [stop, hhung]; rfl
          exact hstop ▸ .ended b₁ io (hover hdata)
      · rename_i io' hgot
        rw [hgot] at hsome
        cases hsome with
        | wantRead _ hsplit hdata hhung hlt =>
          exact ⟨_, b₁, io', rfl, .wantRead b₁ io' hready₁ hsplit hhung (by rw [hqueue, hdata]) hlt⟩
      · rename_i io' hgot
        rw [hgot] at hsome
        cases hsome with
        | failed _ hdata hhung =>
          refine ⟨_, b₁, io', rfl, ?_⟩
          have hstop : stop io = .failed .socketErrorE := by rw [stop, hhung]; rfl
          exact hstop ▸ .ended b₁ io' (hover hdata)
      · rename_i n bs io' hgot
        have hbs := receiveData_length hgot
        rw [hgot] at hsome
        cases hsome with
        | empty _ _ hdata hhung =>
          refine ⟨_, b₁, io', rfl, ?_⟩
          have hstop : stop io = .failed .socketErrorE := by rw [stop, hhung]; rfl
          exact hstop ▸ .ended b₁ io' (hover hdata)
        | got _ _ _ hcount hne hle hsplit hdata hhung hlt =>
          have hpos : 0 < bs.length := List.length_pos_iff.mpr hne
          have hnz : n ≠ 0 := Word32.toNat_pos.mpr (by omega)
          obtain ⟨b₂, x, hrecv, hb₂, hqueue₂, hx, hsame, hidx₂, -, -, -⟩ :=
            received_kept hb₁ hle hbs (by omega)
          obtain rfl := hsame hcount.symm
          have hle' := UInt32.le_iff_toNat_le.mp hle
          have hready₂ : Ready b₂ := by
            refine ⟨hb₂, hidx₂.trans hidx, ?_⟩
            rw [hqueue₂, List.length_append, hqueue]
            omega
          obtain ⟨r, b₃, io₃, hloop, hout⟩ := ih (ioSize io') hlt hready₂ hsplit rfl
          rw [if_neg hnz, if_neg (UInt32.not_lt.mpr hle), hrecv]
          refine ⟨r, b₃, io₃, hloop, ?_⟩
          rw [hqueue₂, hqueue, List.append_assoc, ← hdata] at hout
          exact hout.after hhung hlt

/-- `GetInputLine` first moves the unread octets to the front. -/
theorem getInputLine_outcome {b : Buf} {io : List Received} (h : Inv b)
    (hshort : b.queue.length ≤ WolfSsh.protoIdLimit) (hio : Split io) :
    ∃ r b' io', WordBuffer.getInputLine grants io b = some (r, b', io') ∧
      LineOutcome io (b.queue ++ data io) r b' io' := by
  have hlimit : WolfSsh.protoIdLimit = 255 := rfl
  obtain ⟨b₁, hgrow, hb₁, hqueue, hidx, -⟩ := growBuffer_granted h
    (show (0 : UInt32).toNat + _ < 2 ^ 32 by rw [UInt32.toNat_zero]; omega)
  obtain ⟨r, b', io', hloop, hout⟩ := lineLoop_outcome ⟨hb₁, hidx, by rwa [hqueue]⟩ hio
  rw [hqueue] at hout
  refine ⟨r, b', io', ?_, hout⟩
  rw [WordBuffer.getInputLine, hgrow]
  exact hloop

end Lines

section Line

variable {b : Buf} {l : Line} {rest : Bytes}

theorem Ready.starts (h : Ready b) (hq : b.queue = l.octets ++ rest) {t : Bytes} (hlf : 0x0a ∉ t)
    (hcr : 0x0d ∉ t) : t.length ≤ b.length.toNat ∧ t.isPrefixOf b.buffer = true ↔ t <+: l.text := by
  obtain ⟨junk, hbuffer⟩ := h.buffer
  rw [hbuffer, hq, List.append_assoc, l.starts _ hlf hcr]
  refine ⟨And.right, fun hpre => ⟨?_, hpre⟩⟩
  have hle := hpre.length_le
  have hlen := l.length_octets
  rw [h.length, hq, List.length_append]
  omega

theorem line_end (h : Ready b) (hl : l.Valid) (hq : b.queue = l.octets ++ rest) :
    endOfLine b.buffer l.front.length = l.text.length ∧ (eolSz b l.text.length).toNat = l.size := by
  obtain ⟨junk, hbuffer⟩ := h.buffer
  have hmem : b.buffer = l.octets ++ (rest ++ junk) := by rw [hbuffer, hq, List.append_assoc]
  rw [endOfLine, eolSz, hmem]
  refine ⟨(hl.end_of_line _).1, ?_⟩
  rw [(hl.end_of_line _).2, Line.size]
  cases l.crlf <;> rfl

theorem advance_kept (h : Ready b) {eol : Nat} {n : UInt32} (heol : eol < n.toNat)
    (hn : n.toNat ≤ b.queue.length) {buffer : Bytes} {c : UInt8}
    (hwrite : write b.buffer eol [c] = some buffer) :
    Inv (advance n { b with buffer }) := by
  obtain ⟨junk, hbuffer⟩ := h.buffer
  have hq : b.queue = b.queue.take eol ++ b.queue.drop eol := (List.take_append_drop eol _).symm
  have hlen : (b.queue.take eol).length = eol := by
    rw [List.length_take]
    omega
  have hdrop : 1 ≤ (b.queue.drop eol ++ junk).length := by
    rw [List.length_append, List.length_drop]
    omega
  have hmem : b.buffer = b.queue.take eol ++ (b.queue.drop eol ++ junk) := by
    rw [← List.append_assoc, List.take_append_drop, hbuffer]
  have hval : buffer = b.queue.take eol ++ [c] ++ (b.queue.drop eol ++ junk).drop 1 := by
    have hput : write _ _ [c] = _ := write_append (b.queue.take eol) hdrop
    rw [hlen, ← hmem, hwrite] at hput
    exact Option.some.inj hput
  have hadd : (b.idx + n).toNat = n.toNat := by rw [h.front, UInt32.zero_add]
  have hbehind : (b.queue.drop eol ++ junk).drop 1
      = (b.queue.drop (eol + 1)).take (n.toNat - (eol + 1)) ++ (b.queue.drop n.toNat ++ junk) := by
    have hsplit : b.queue.drop (eol + 1)
        = (b.queue.drop (eol + 1)).take (n.toNat - (eol + 1)) ++ b.queue.drop n.toNat := by
      have hrest : (b.queue.drop (eol + 1)).drop (n.toNat - (eol + 1)) = b.queue.drop n.toNat := by
        rw [List.drop_drop]
        congr 1
        omega
      rw [← hrest, List.take_append_drop]
    rw [List.drop_append_of_le_length (by rw [List.length_drop]; omega), List.drop_drop]
    exact (congrArg (· ++ junk) hsplit).trans (List.append_assoc _ _ _)
  refine ⟨⟨b.queue.take eol ++ [c] ++ (b.queue.drop (eol + 1)).take (n.toNat - (eol + 1)), junk, ?_, ?_⟩,
    ?_, ?_, h.inv.static, h.inv.inPlace, h.inv.exact⟩
  · rw [advance]
    dsimp only
    rw [hval, hbehind]
    simp only [List.append_assoc]
  · rw [advance]
    dsimp only
    rw [hadd, List.length_append, List.length_append, hlen, List.length_singleton, List.length_take,
      List.length_drop]
    omega
  · rw [advance]
    dsimp only
    rw [hadd, List.length_drop, h.length]
    omega
  · exact (length_write hwrite).trans h.inv.room

theorem text_line (h : Ready b) (hl : l.Valid) (hq : b.queue = l.octets ++ rest) :
    ∃ buffer, write b.buffer l.text.length [0] = some buffer ∧ text buffer = some l.text := by
  obtain ⟨junk, hbuffer⟩ := h.buffer
  obtain ⟨term, hterm, hne⟩ : ∃ term, l.octets = l.text ++ term ∧ 0 < term.length := by
    rw [Line.octets, Line.front]
    split
    · exact ⟨[0x0d] ++ [0x0a], List.append_assoc _ _ _, by simp⟩
    · exact ⟨[0x0a], rfl, by simp⟩
  have hroom : [(0 : UInt8)].length ≤ (term ++ (rest ++ junk)).length := by
    rw [List.length_append, List.length_cons, List.length_nil]
    omega
  have hmem : b.buffer = l.text ++ (term ++ (rest ++ junk)) := by
    rw [hbuffer, hq, hterm, List.append_assoc, List.append_assoc]
  have hput := write_append l.text hroom
  rw [← hmem] at hput
  refine ⟨_, hput, ?_⟩
  have hholds : CStrings.Holds (l.text ++ [0] ++ (term ++ (rest ++ junk)).drop 1) l.text :=
    ⟨hl.noNul, _, by rw [List.append_assoc]; rfl⟩
  exact hholds.text

end Line

section Accept

/-- A session whose version line is taken: the line without its terminator, and what follows it. -/
structure Accepted (ssh : Ssh) (id rest : Bytes) : Prop where
  peerProtoId : ssh.peerProtoId = id
  unread : ssh.inputBuffer.unread = rest
  versionDone : ssh.versionDone = true

theorem line_taken {b : Buf} {l : Line} {rest : Bytes} (h : Ready b) (hl : l.Valid)
    (hq : b.queue = l.octets ++ rest) :
    (UInt32.ofNat l.text.length + eolSz b l.text.length).toNat = l.octets.length ∧
      b.queue.drop (UInt32.ofNat l.text.length + eolSz b l.text.length).toNat = rest := by
  have hlimit : WolfSsh.protoIdLimit = 255 := rfl
  have hshort := hl.short
  have hlen := l.length_octets
  have hsize := (line_end h hl hq).2
  have htext : (UInt32.ofNat l.text.length).toNat = l.text.length := Word32.toNat_ofNat (by omega)
  have hn : (UInt32.ofNat l.text.length + eolSz b l.text.length).toNat = l.octets.length := by
    rw [Word32.toNat_add (by omega), htext, hsize, hlen]
  refine ⟨hn, ?_⟩
  rw [hn, hq, List.drop_left]

theorem acceptLine_outcome (ssh : Ssh) {l : Line} {rest : Bytes} (h : Ready ssh.inputBuffer) (hl : l.Valid)
    (hq : ssh.inputBuffer.queue = l.octets ++ rest) :
    (¬ sshProtoIdPrefix <+: l.text → acceptLine l.text.length ssh = some (.failed .versionE, ssh)) ∧
    (sshProtoIdPrefix <+: l.text → ∃ ssh', acceptLine l.text.length ssh = some (.success, ssh') ∧
      Accepted ssh' (copyString l.text) rest) := by
  have hcond : ssh.inputBuffer.length.toNat ≥ sshProtoSz ∧
      sshProtoIdPrefix.isPrefixOf ssh.inputBuffer.buffer = true ↔ sshProtoIdPrefix <+: l.text :=
    h.starts hq (t := sshProtoIdPrefix) (by decide) (by decide)
  rw [acceptLine]
  dsimp only
  constructor
  · intro hno
    rw [if_neg (mt hcond.mp hno)]
    rfl
  · intro hpre
    obtain ⟨hn, hdrop⟩ := line_taken h hl hq
    have hlen := l.length_octets
    have hpos : 0 < l.size := by
      rw [Line.size]
      split <;> decide
    have hle : l.octets.length ≤ ssh.inputBuffer.queue.length := by
      rw [hq, List.length_append]
      exact Nat.le_add_right _ _
    obtain ⟨buffer, hwrite, htext⟩ := text_line h hl hq
    have hkept := advance_kept h (n := UInt32.ofNat l.text.length + eolSz ssh.inputBuffer l.text.length)
      (by omega) (by omega) hwrite
    obtain ⟨b', hshrink, hb', hqueue, -⟩ := shrinkBuffer_kept hkept
    rw [if_pos (hcond.mpr hpre), hwrite, Option.bind_eq_bind, Option.bind_some, htext, Option.bind_eq_bind,
      Option.bind_some, hshrink]
    refine ⟨_, rfl, rfl, ?_, rfl⟩
    dsimp only
    rw [hb'.unread_eq, hqueue]
    exact hdrop

/-- What the code says to the whole stream from here on. -/
def whole (ssh : Ssh) (stream : Bytes) : Except WsErr (Bytes × Bytes) :=
  WolfSsh.doProtoId ssh.side (maxBannerLines - ssh.bannerLines) stream

/-- What one call of `DoProtoId` makes of a stream. -/
inductive Outcome (io : List Received) (ssh : Ssh) (stream : Bytes) : Ret → Ssh → List Received → Prop
  | accepted (id rest more : Bytes) (ssh' : Ssh) (io' : List Received) : whole ssh stream = .ok (id, rest ++ more) → data io' = more →
      Accepted ssh' id rest → Outcome io ssh stream .success ssh' io'
  | wantRead (ssh' : Ssh) (io' : List Received) : WordBuffer.Inv ssh'.inputBuffer → ssh'.inputBuffer.queue.length ≤ WolfSsh.protoIdLimit →
      ssh'.bannerLines ≤ maxBannerLines → Split io' → hungUp io' = hungUp io → ioSize io' < ioSize io →
      whole ssh' (ssh'.inputBuffer.queue ++ data io') = whole ssh stream →
      Outcome io ssh stream (.failed .wantRead) ssh' io'
  | refused (ssh' io') : whole ssh stream = .error .versionE → Outcome io ssh stream (.failed .versionE) ssh' io'
  | ended (ssh' io') : whole ssh stream = .error .socketErrorE → Outcome io ssh stream (stop io) ssh' io'

theorem Outcome.after {io io₁ : List Received} {ssh ssh₁ : Ssh} {stream stream₁ : Bytes} {ret : Ret}
    {ssh' : Ssh} {io' : List Received} (h : Outcome io₁ ssh₁ stream₁ ret ssh' io')
    (hwhole : whole ssh stream = whole ssh₁ stream₁) (hhung : hungUp io₁ = hungUp io)
    (hsize : ioSize io₁ ≤ ioSize io) : Outcome io ssh stream ret ssh' io' := by
  have hstop : stop io₁ = stop io := by rw [stop, stop, hhung]
  cases h with
  | accepted id rest more _ _ hok hdata haccepted =>
    exact .accepted id rest more _ _ (hwhole.trans hok) hdata haccepted
  | wantRead _ _ hinv hshort hbanners hsplit hh hlt hsame =>
    exact .wantRead _ _ hinv hshort hbanners hsplit (hh.trans hhung) (by omega) (hsame.trans hwhole.symm)
  | refused _ _ herr => exact .refused _ _ (hwhole.trans herr)
  | ended _ _ herr => exact hstop ▸ .ended _ _ (hwhole.trans herr)

theorem whole_error {ssh : Ssh} {stream : Bytes} {e : WsErr} (h : WolfSsh.getInputLine stream = .error e) :
    whole ssh stream = .error e := by
  rw [whole, WolfSsh.doProtoId.eq_def, h]
  rfl

theorem doProtoId_outcome {io : List Received} {ssh : Ssh} (h : WordBuffer.Inv ssh.inputBuffer)
    (hshort : ssh.inputBuffer.queue.length ≤ WolfSsh.protoIdLimit) (hbanners : ssh.bannerLines ≤ maxBannerLines)
    (hio : Split io) :
    ∃ ret ssh' io', doProtoId io ssh = some (ret, ssh', io') ∧
      Outcome io ssh (ssh.inputBuffer.queue ++ data io) ret ssh' io' := by
  induction hn : maxBannerLines - ssh.bannerLines using Nat.strong_induction_on generalizing io ssh with
  | h n ih =>
    subst hn
    obtain ⟨line, b, io₁, hline, hout⟩ := getInputLine_outcome h hshort hio
    rw [doProtoId, hline, Option.bind_eq_bind, Option.bind_some]
    cases hout with
    | wantRead _ _ hready hsplit hhung hstream hlt =>
      refine ⟨_, _, io₁, rfl, .wantRead _ _ hready.inv hready.short hbanners hsplit hhung hlt ?_⟩
      dsimp only
      rw [hstream]
      rfl
    | tooLong _ _ hwhole => exact ⟨_, _, io₁, rfl, .refused _ _ (whole_error hwhole)⟩
    | ended _ _ hwhole => exact ⟨_, _, io₁, rfl, .ended _ _ (whole_error hwhole)⟩
    | line lf _ _ hready hsplit hhung hstream hle hfind =>
      obtain ⟨front, rest, hqueue, rfl, hlf, hnul⟩ := (find_eq_some_iff (by decide)).mp hfind
      have hqshort := hready.short
      have hqlen := congrArg List.length hqueue
      rw [List.length_append, List.length_cons] at hqlen
      obtain ⟨l, hl, rfl⟩ := line_of_front hlf hnul (by omega)
      have hq : b.queue = l.octets ++ rest := by
        rw [hqueue, Line.octets, List.append_assoc]
        rfl
      have hwhole := doProtoId_line hl ssh.side (maxBannerLines - ssh.bannerLines) (rest ++ data io₁)
      have hssh : b.length ≥ 4 ∧ (ascii "SSH-").isPrefixOf b.buffer = true ↔ ascii "SSH-" <+: l.text := by
        rw [← hready.starts hq (by decide) (by decide)]
        exact and_congr_left fun _ => UInt32.le_iff_toNat_le
      rw [← hstream, (line_end hready hl hq).1, hq, List.append_assoc]
      dsimp only
      by_cases hs : ascii "SSH-" <+: l.text
      · rw [if_pos (hssh.mpr hs)]
        rw [if_pos hs] at hwhole
        obtain ⟨hrefuse, haccept⟩ := acceptLine_outcome { ssh with inputBuffer := b } hready hl hq
        by_cases hp : sshProtoIdPrefix <+: l.text
        · obtain ⟨ssh', hrun, haccepted⟩ := haccept hp
          rw [if_pos hp] at hwhole
          rw [hrun]
          exact ⟨_, ssh', io₁, rfl, .accepted _ rest _ ssh' io₁ hwhole rfl haccepted⟩
        · rw [if_neg hp] at hwhole
          rw [hrefuse hp]
          exact ⟨_, _, io₁, rfl, .refused _ _ hwhole⟩
      · rw [if_neg (mt hssh.mp hs)]
        rw [if_neg hs] at hwhole
        by_cases hside : ssh.side = .client
        · rw [if_neg (not_not.mpr hside)]
          by_cases hmore : maxBannerLines < ssh.bannerLines + 1
          · rw [if_neg fun hb => by omega] at hwhole
            rw [if_pos hmore]
            exact ⟨_, _, io₁, rfl, .refused _ _ hwhole⟩
          · rw [if_pos ⟨hside, by omega⟩, Nat.sub_sub] at hwhole
            rw [if_neg hmore]
            obtain ⟨hn, hdrop⟩ := line_taken hready hl hq
            have hle' : l.octets.length ≤ b.queue.length := by
              rw [hq, List.length_append]
              exact Nat.le_add_right _ _
            obtain ⟨-, hkept⟩ := hready.inv.taken
              (n := UInt32.ofNat l.text.length + eolSz b l.text.length) (by omega)
            have hrest : rest.length ≤ WolfSsh.protoIdLimit := by
              rw [← hdrop, List.length_drop]
              omega
            rw [hdrop] at hkept
            generalize hnext : { ssh with
              inputBuffer := advance (UInt32.ofNat l.text.length + eolSz b l.text.length) b
              bannerLines := ssh.bannerLines + 1 } = next
            have hbuffer : next.inputBuffer = advance (UInt32.ofNat l.text.length + eolSz b l.text.length) b := by
              rw [← hnext]
            have hnextQueue : next.inputBuffer.queue = rest := by rw [hbuffer, advance, hdrop]
            have hnextBanners : next.bannerLines = ssh.bannerLines + 1 := by rw [← hnext]
            have hnextWhole : whole ssh (l.octets ++ (rest ++ data io₁)) = whole next (rest ++ data io₁) := by
              rw [whole, hwhole, whole, hnextBanners, ← hnext]
            obtain ⟨ret, ssh', io₂, hrun, hout⟩ :=
              ih (maxBannerLines - next.bannerLines) (by omega) (by rw [hbuffer, advance, hdrop]; exact hkept)
                (by rw [hnextQueue]; exact hrest) (by omega) hsplit rfl
            rw [hnextQueue] at hout
            exact ⟨ret, ssh', io₂, hrun, hout.after hnextWhole hhung hle⟩
        · rw [if_pos hside]
          rw [if_neg fun hb => hside hb.1] at hwhole
          exact ⟨_, _, io₁, rfl, .refused _ _ hwhole⟩

theorem versionExchange_outcome {calls : Nat} {io : List Received} {ssh : Ssh}
    (h : WordBuffer.Inv ssh.inputBuffer) (hshort : ssh.inputBuffer.queue.length ≤ WolfSsh.protoIdLimit)
    (hbanners : ssh.bannerLines ≤ maxBannerLines) (hio : Split io) (hcalls : ioSize io < calls) :
    ∃ ret ssh' io', versionExchange calls io ssh = some (ret, ssh', io') ∧
      ret ≠ .failed .wantRead ∧ Outcome io ssh (ssh.inputBuffer.queue ++ data io) ret ssh' io' := by
  induction calls generalizing io ssh with
  | zero => omega
  | succ calls ih =>
    obtain ⟨ret, ssh₁, io₁, hrun, hout⟩ := doProtoId_outcome h hshort hbanners hio
    rw [versionExchange, hrun, Option.bind_eq_bind, Option.bind_some]
    cases hout with
    | wantRead _ _ hinv hshort₁ hbanners₁ hsplit hhung hlt hsame =>
      obtain ⟨ret, ssh₂, io₂, hrun₂, hne, hout₂⟩ := ih hinv hshort₁ hbanners₁ hsplit (by omega)
      exact ⟨ret, ssh₂, io₂, hrun₂, hne, hout₂.after hsame.symm hhung (Nat.le_of_lt hlt)⟩
    | accepted id rest more _ _ hok hdata haccepted =>
      exact ⟨_, ssh₁, io₁, rfl, nofun, .accepted id rest more _ _ hok hdata haccepted⟩
    | refused _ _ herr => exact ⟨_, ssh₁, io₁, rfl, nofun, .refused _ _ herr⟩
    | ended _ _ herr =>
      have hstop : stop io ≠ .failed .wantRead := by
        rw [stop]
        split <;> nofun
      refine ⟨_, ssh₁, io₁, ?_, hstop, .ended _ _ herr⟩
      dsimp only
      rw [if_neg hstop]
      rfl

end Accept

end WolfSsh.VersionExchange
