import WolfSsh.WordBuffer
import WolfSsh.Lib.Runs

/-! What every call keeps of a `WOLFSSH_BUFFER`, and the run of any calls on one. -/

namespace WolfSsh.WordBuffer

open CStrings

/-- The queue stands in memory behind what is read already, the indices say where, and no size has
wrapped. -/
structure Inv (b : Buf) : Prop where
  layout : ∃ front rest, b.buffer = front ++ b.queue ++ rest ∧ front.length = b.idx.toNat
  size : b.idx.toNat + b.queue.length = b.length.toNat
  room : b.buffer.length = b.bufferSz.toNat
  static : staticBufferLen.toNat ≤ b.bufferSz.toNat
  inPlace : b.dynamicFlag = false → b.bufferSz = staticBufferLen
  exact : b.exact = true

theorem write_append (front : Bytes) {rest bs : Bytes} (h : bs.length ≤ rest.length) :
    write (front ++ rest) front.length bs = some (front ++ bs ++ rest.drop bs.length) := by
  have hlen : front.length + bs.length ≤ (front ++ rest).length := by
    rw [List.length_append]
    omega
  rw [write, if_pos hlen, List.take_left, List.drop_append, List.drop_eq_nil_of_le (by omega),
    List.nil_append, Nat.add_sub_cancel_left]

theorem write_front {rest bs : Bytes} (h : bs.length ≤ rest.length) :
    write rest 0 bs = some (bs ++ rest.drop bs.length) := by
  have hwrite : write ([] ++ rest) ([] : Bytes).length bs = some ([] ++ bs ++ rest.drop bs.length) :=
    write_append [] h
  exact hwrite

section Kept

variable {b : Buf} {alloc : Alloc}

namespace Inv

theorem idx_le (h : Inv b) : b.idx.toNat ≤ b.length.toNat := by
  have hsize := h.size
  omega

theorem length_le (h : Inv b) : b.length.toNat ≤ b.bufferSz.toNat := by
  obtain ⟨front, rest, hbuffer, hfront⟩ := h.layout
  have hlen := h.room
  have hsize := h.size
  rw [hbuffer, List.length_append, List.length_append] at hlen
  omega

theorem usedSz (h : Inv b) : (b.length - b.idx).toNat = b.queue.length := by
  have hsize := h.size
  rw [Word32.toNat_sub h.idx_le]
  omega

theorem read_unread (h : Inv b) : read b.buffer b.idx (b.length - b.idx) = some b.queue := by
  obtain ⟨front, rest, hbuffer, hfront⟩ := h.layout
  rw [read, h.usedSz, if_pos, hbuffer, ← hfront, List.append_assoc, List.drop_left, List.take_left]
  rw [hbuffer, List.length_append, List.length_append]
  omega

/-- The octets from `idx` to `length` are those put in and not taken out. -/
theorem unread_eq (h : Inv b) : b.unread = b.queue := by
  have hread := h.read_unread
  rw [read] at hread
  split at hread
  · exact Option.some.inj hread
  · simp at hread

theorem sized_eq (h : Inv b) {sz : UInt32} {n : Int} (hsz : (sz.toNat : Int) = n) : b.sized sz n = b := by
  rw [Buf.sized, h.exact, decide_eq_true hsz, Bool.and_true, ← h.exact]

theorem sized_used (h : Inv b) : b.sized (b.length - b.idx) (b.length.toNat - b.idx.toNat) = b := by
  refine h.sized_eq ?_
  have hidx := h.idx_le
  rw [Word32.toNat_sub hidx]
  omega

end Inv

theorem Inv.of_front {b' : Buf} {rest : Bytes} (hbuffer : b'.buffer = b'.queue ++ rest)
    (hidx : b'.idx = 0) (hlength : b'.length.toNat = b'.queue.length)
    (hroom : b'.buffer.length = b'.bufferSz.toNat) (hstatic : staticBufferLen.toNat ≤ b'.bufferSz.toNat)
    (hinPlace : b'.dynamicFlag = false → b'.bufferSz = staticBufferLen) (hexact : b'.exact = true) :
    Inv b' where
  layout := ⟨[], rest, hbuffer, by rw [hidx]; rfl⟩
  size := by rw [hidx, hlength]; exact Nat.zero_add _
  room := hroom
  static := hstatic
  inPlace := hinPlace
  exact := hexact

/-- `GrowBuffer` keeps the unread octets, moves them to the front and makes room for `sz` more, or is
refused the memory and changes nothing. -/
theorem growBuffer_kept (alloc : Alloc) (h : Inv b) {sz : UInt32} (hsz : sz.toNat + b.queue.length < 2 ^ 32) :
    (growBuffer alloc sz b = some (.failed .memoryE, b) ∧ ∃ n, alloc n = false) ∨
    ∃ b', growBuffer alloc sz b = some (.success, b') ∧ Inv b' ∧ b'.queue = b.queue ∧ b'.idx = 0 ∧
      b'.overrun = b.overrun ∧ sz.toNat + b.queue.length ≤ b'.bufferSz.toNat := by
  have hidx := h.idx_le
  have hsize := h.size
  have hstatic := h.static
  have hnewSz : (sz + b.length - b.idx).toNat = sz.toNat + b.queue.length := by
    have hassoc : sz + b.length - b.idx = sz + (b.length - b.idx) := by
      rw [UInt32.sub_eq_add_neg, UInt32.add_assoc, ← UInt32.sub_eq_add_neg]
    rw [hassoc, Word32.toNat_add (by rwa [h.usedSz]), h.usedSz]
  have hsized : b.sized (sz + b.length - b.idx) (sz.toNat + b.length.toNat - b.idx.toNat) = b := by
    refine h.sized_eq ?_
    rw [hnewSz]
    omega
  rw [growBuffer]
  dsimp only
  rw [hsized]
  by_cases hgrow : sz + b.length - b.idx > b.bufferSz
  · rw [if_pos hgrow]
    by_cases halloc : alloc (sz + b.length - b.idx) = true
    · have hfits : b.queue.length ≤ (zeros (sz + b.length - b.idx)).length := by
        rw [zeros, List.length_replicate, hnewSz]
        omega
      rw [if_pos halloc, h.read_unread]
      refine .inr ⟨{ b with
        buffer := b.queue ++ (zeros (sz + b.length - b.idx)).drop b.queue.length
        bufferSz := sz + b.length - b.idx, length := b.length - b.idx, idx := 0, dynamicFlag := true },
        ?_, ?_, rfl, rfl, rfl, ?_⟩
      · rw [Option.bind_eq_bind, Option.bind_some, write_front hfits]
        rfl
      · refine Inv.of_front rfl rfl h.usedSz ?_ ?_ nofun h.exact
        · rw [List.length_append, List.length_drop, zeros, List.length_replicate, hnewSz]
          omega
        · rw [gt_iff_lt, UInt32.lt_iff_toNat_lt] at hgrow
          dsimp only
          omega
      · exact Nat.le_of_eq hnewSz.symm
    · rw [if_neg halloc]
      exact .inl ⟨rfl, _, Bool.eq_false_iff.mpr halloc⟩
  · rw [if_neg hgrow]
    have hfits : sz.toNat + b.queue.length ≤ b.bufferSz.toNat := by
      rw [gt_iff_lt, UInt32.lt_iff_toNat_lt, hnewSz] at hgrow
      omega
    by_cases hpos : b.length > 0
    · have hmove : b.queue.length ≤ b.buffer.length := by
        have hlen := h.length_le
        have hroom := h.room
        omega
      have hscrub : (zeros b.idx).length ≤ (b.buffer.drop b.queue.length).length := by
        have hlen := h.length_le
        have hroom := h.room
        rw [zeros, List.length_replicate, List.length_drop]
        omega
      rw [if_pos hpos, h.read_unread]
      refine .inr ⟨{ b with
        buffer := b.queue ++ zeros b.idx ++ (b.buffer.drop b.queue.length).drop (zeros b.idx).length
        length := b.length - b.idx, idx := 0 }, ?_, ?_, rfl, rfl, rfl, hfits⟩
      · rw [Option.bind_eq_bind, Option.bind_some, write_front hmove, Option.bind_some, h.usedSz,
          write_append _ hscrub]
        rfl
      · refine Inv.of_front (List.append_assoc _ _ _) rfl h.usedSz ?_ h.static h.inPlace h.exact
        rw [List.length_append, List.length_append, List.length_drop, ← h.room]
        rw [List.length_drop] at hscrub ⊢
        omega
    · rw [if_neg hpos]
      have hzero : b.length.toNat = 0 := by
        rw [gt_iff_lt, UInt32.lt_iff_toNat_lt] at hpos
        exact Nat.eq_zero_of_not_pos hpos
      exact .inr ⟨b, rfl, h, rfl, UInt32.toNat_inj.mp (by change _ = 0; omega), rfl, hfits⟩

theorem Inv.length_static (h : Inv b) : b.static.length = staticBufferLen.toNat := by
  rw [Buf.static]
  split
  · rw [zeros, List.length_replicate]
  · rename_i hflag
    rw [h.room, h.inPlace (Bool.eq_false_iff.mpr hflag)]

/-- `ShrinkBuffer` keeps the unread octets where it is not forced. -/
theorem shrinkBuffer_kept (h : Inv b) :
    ∃ b', shrinkBuffer false b = some b' ∧ Inv b' ∧ b'.queue = b.queue ∧ b'.overrun = b.overrun := by
  rw [shrinkBuffer]
  rw [h.sized_used, Bool.not_false, Bool.true_and]
  by_cases hbig : b.length - b.idx > staticBufferLen
  · rw [decide_eq_true hbig, if_pos rfl]
    exact ⟨b, rfl, h, rfl, rfl⟩
  · have hfits : b.queue.length ≤ b.static.length := by
      rw [gt_iff_lt, UInt32.lt_iff_toNat_lt, h.usedSz] at hbig
      rw [h.length_static]
      omega
    rw [decide_eq_false hbig, if_neg (by decide), if_neg (by decide), h.read_unread]
    refine ⟨{ b with
      buffer := b.queue ++ b.static.drop b.queue.length, bufferSz := staticBufferLen
      length := b.length - b.idx, idx := 0, dynamicFlag := false }, ?_, ?_, rfl, rfl⟩
    · rw [Option.bind_eq_bind, Option.bind_some, write_front hfits]
      rfl
    · refine Inv.of_front rfl rfl h.usedSz ?_ (Nat.le_refl _) (fun _ => rfl) h.exact
      rw [List.length_append, List.length_drop, ← h.length_static]
      omega

theorem shrinkBuffer_forced (h : Inv b) :
    ∃ b', shrinkBuffer true b = some b' ∧ Inv b' ∧ b'.queue = [] ∧ b'.overrun = b.overrun := by
  rw [shrinkBuffer]
  rw [h.sized_used, Bool.not_true, Bool.false_and, if_neg (by decide), if_pos rfl]
  exact ⟨_, rfl, Inv.of_front (List.nil_append _).symm rfl rfl List.length_replicate (Nat.le_refl _)
    (fun _ => rfl) h.exact, rfl, rfl⟩

/-- Octets written behind `length` become unread ones as far as `length` is moved over them. -/
theorem Inv.written (h : Inv b) {bs : Bytes} {k : Nat} (hbs : bs.length ≤ k)
    (hk : b.length.toNat + k ≤ b.bufferSz.toNat) :
    ∃ buffer, write b.buffer b.length.toNat bs = some buffer ∧ ∀ n : UInt32, n.toNat ≤ k →
      (b.length + n).toNat = b.length.toNat + n.toNat ∧
      ((buffer.drop b.length.toNat).take n.toNat).length = n.toNat ∧
      (bs.length = n.toNat → (buffer.drop b.length.toNat).take n.toNat = bs) ∧
      Inv { b with
        buffer, length := b.length + n
        queue := b.queue ++ (buffer.drop b.length.toNat).take n.toNat } := by
  obtain ⟨front, rest, hbuffer, hfront⟩ := h.layout
  have hsize := h.size
  have hroom := h.room
  have hword := b.bufferSz.toNat_lt
  have hlen : (front ++ b.queue).length = b.length.toNat := by rw [List.length_append, hfront, hsize]
  have hrest : k ≤ rest.length := by
    rw [hbuffer, List.length_append, hlen] at hroom
    omega
  have hwrite : write b.buffer b.length.toNat bs = some (front ++ b.queue ++ bs ++ rest.drop bs.length) := by
    rw [hbuffer, ← hlen]
    exact write_append _ (by omega)
  have hdrop : (front ++ b.queue ++ bs ++ rest.drop bs.length).drop b.length.toNat
      = bs ++ rest.drop bs.length := by
    rw [← hlen, List.append_assoc (front ++ b.queue), List.drop_left]
  refine ⟨_, hwrite, fun n hn => ?_⟩
  have hadd : (b.length + n).toNat = b.length.toNat + n.toNat := Word32.toNat_add (by omega)
  have htake : ((bs ++ rest.drop bs.length).take n.toNat).length = n.toNat := by
    rw [List.length_take, List.length_append, List.length_drop]
    omega
  rw [hdrop]
  refine ⟨hadd, htake, fun heq => by rw [← heq, List.take_left], ?_⟩
  refine ⟨⟨front, (bs ++ rest.drop bs.length).drop n.toNat, ?_, hfront⟩, ?_, ?_, h.static, h.inPlace, h.exact⟩
  · dsimp only
    rw [List.append_assoc, List.append_assoc, List.append_assoc, List.append_assoc, List.take_append_drop]
  · dsimp only
    rw [List.length_append, htake, hadd]
    omega
  · exact (length_write hwrite).trans hroom

/-- What `AppendBuffer` asks `GrowBuffer` for is enough, and does not wrap. -/
theorem growSize_kept (h : Inv b) {usedSz needSz dataSz : UInt32} (hused : usedSz.toNat = b.queue.length)
    (hneed : needSz.toNat = usedSz.toNat + dataSz.toNat) :
    ∃ sz, growSize usedSz needSz dataSz b = (sz, b) ∧ dataSz.toNat ≤ sz.toNat ∧
      sz.toNat + b.queue.length < 2 ^ 32 := by
  have hword := needSz.toNat_lt
  have hgoal : ∀ targetSz : UInt32, needSz.toNat ≤ targetSz.toNat →
      ∃ sz, (targetSz - usedSz, b.sized (targetSz - usedSz) (targetSz.toNat - usedSz.toNat)) = (sz, b) ∧
        dataSz.toNat ≤ sz.toNat ∧ sz.toNat + b.queue.length < 2 ^ 32 := by
    intro targetSz htarget
    have hsub : (targetSz - usedSz).toNat = targetSz.toNat - usedSz.toNat := Word32.toNat_sub (by omega)
    have hlt := targetSz.toNat_lt
    refine ⟨targetSz - usedSz, ?_, by omega, by omega⟩
    rw [h.sized_eq (by omega)]
  rw [growSize]
  by_cases hgrow : needSz > b.bufferSz
  · rw [if_pos hgrow]
    dsimp only
    by_cases hdouble : b.bufferSz ≤ uint32Max / 2 ∧ b.bufferSz * 2 > needSz
    · rw [if_pos hdouble]
      exact hgoal _ (Nat.le_of_lt (UInt32.lt_iff_toNat_lt.mp hdouble.2))
    · rw [if_neg hdouble]
      exact hgoal _ (Nat.le_refl _)
  · rw [if_neg hgrow]
    exact ⟨dataSz, rfl, Nat.le_refl _, by omega⟩

/-- `AppendBuffer` puts the octets behind the unread ones, or it refuses and changes nothing. -/
theorem appendBuffer_kept (alloc : Alloc) (h : Inv b) {data : Bytes} (hdata : data.length < 2 ^ 32) :
    ∃ ret b', appendBuffer alloc data b = some (ret, b') ∧ Inv b' ∧ b'.overrun = b.overrun ∧
      b'.queue = if ret = .success then b.queue ++ data else b.queue := by
  have hused := h.usedSz
  have hdataSz : (UInt32.ofNat data.length).toNat = data.length := Word32.toNat_ofNat hdata
  have hmax : (uint32Max - (b.length - b.idx)).toNat = 2 ^ 32 - 1 - b.queue.length := by
    have hlt := (b.length - b.idx).toNat_lt
    rw [Word32.toNat_sub (by rw [show uint32Max.toNat = 2 ^ 32 - 1 from rfl]; omega), hused]
    rfl
  rw [appendBuffer]
  dsimp only
  rw [h.sized_used]
  by_cases hover : UInt32.ofNat data.length > uint32Max - (b.length - b.idx)
  · rw [if_pos hover]
    exact ⟨_, b, rfl, h, rfl, rfl⟩
  rw [if_neg hover]
  have hneed : (b.length - b.idx + UInt32.ofNat data.length).toNat
      = (b.length - b.idx).toNat + (UInt32.ofNat data.length).toNat := by
    rw [gt_iff_lt, UInt32.lt_iff_toNat_lt, hmax] at hover
    have hlt := (b.length - b.idx).toNat_lt
    exact Word32.toNat_add (by omega)
  obtain ⟨sz, hgrowSize, hdataLe, hsz⟩ := growSize_kept h hused hneed
  rw [h.sized_eq (by omega), hgrowSize]
  rcases growBuffer_kept alloc h hsz with ⟨hfail, -⟩ | ⟨b', hgrow, hb', hqueue, hidx, hover', hroom⟩
  · rw [hfail]
    exact ⟨_, b, rfl, h, rfl, rfl⟩
  · have hlen : b'.length.toNat = b.queue.length := by
      have hsize := hb'.size
      rw [hidx, hqueue] at hsize
      exact hsize.symm.trans (Nat.zero_add _)
    obtain ⟨buffer, hwrite, hput⟩ := hb'.written (Nat.le_refl data.length) (by omega)
    obtain ⟨hadd, -, hx, hkept⟩ := hput (UInt32.ofNat data.length) (Nat.le_of_eq hdataSz)
    rw [hx hdataSz.symm, hqueue] at hkept
    rw [hgrow]
    refine ⟨.success, { b' with
      buffer, length := b'.length + UInt32.ofNat data.length, queue := b.queue ++ data }, ?_, hkept, hover', rfl⟩
    change (do
      let buffer ← write b'.buffer b'.length.toNat data
      pure (Ret.success, { b'.sized (b'.length + UInt32.ofNat data.length)
          (b'.length.toNat + (UInt32.ofNat data.length).toNat) with
        buffer, length := b'.length + UInt32.ofNat data.length, queue := b'.queue ++ data })) = _
    rw [hwrite, hb'.sized_eq (by omega), hqueue]
    rfl

/-- What has come in becomes unread, where the count is one of octets that were asked for. -/
theorem received_kept (h : Inv b) {size n : UInt32} {bs : Bytes} (hn : n ≤ size)
    (hbs : bs.length ≤ size.toNat) (hroom : b.length.toNat + size.toNat ≤ b.bufferSz.toNat) :
    ∃ b' x, b.received size n bs = some b' ∧ Inv b' ∧ b'.queue = b.queue ++ x ∧ x.length = n.toNat ∧
      (bs.length = n.toNat → x = bs) ∧ b'.idx = b.idx ∧ b'.length.toNat = b.length.toNat + n.toNat ∧
      b'.bufferSz = b.bufferSz ∧ b'.overrun = b.overrun := by
  obtain ⟨buffer, hwrite, hput⟩ := h.written hbs hroom
  obtain ⟨hadd, hlen, hx, hkept⟩ := hput n (UInt32.le_iff_toNat_le.mp hn)
  have hcounted : b.counted size n = b := by
    rw [Buf.counted, decide_eq_false (UInt32.not_lt.mpr hn), Bool.or_false]
  refine ⟨_, _, ?_, hkept, rfl, hlen, hx, rfl, hadd, rfl, rfl⟩
  rw [Buf.received, hwrite, hcounted, h.sized_eq (by omega)]
  rfl

end Kept

section Receive

variable {b : Buf} {alloc : Alloc}

/-- No count of the callback is beyond what it was asked for, until `size` octets are there. -/
def Honest : UInt32 → List Received → Prop
  | _, [] => True
  | size, .chunk bs :: io => size.toNat ≤ bs.length ∨ Honest (size - .ofNat bs.length) io
  | size, .count n _ :: io => n ≤ size ∧ (n = size ∨ Honest (size - n) io)
  | size, .error .isr :: io => Honest size io
  | _, .error _ :: _ => True

theorem receiveData_length {size n : UInt32} {io io' : List Received} {bs : Bytes}
    (h : receiveData size io = some (.got n bs, io')) : bs.length ≤ size.toNat := by
  induction io with
  | nil => simp [receiveData] at h
  | cons a io ih =>
    cases a with
    | chunk got =>
      simp only [receiveData, Option.some.injEq, Prod.mk.injEq, Recvd.got.injEq] at h
      rw [← h.1.2]
      exact List.length_take_le _ _
    | count n got =>
      simp only [receiveData, Option.some.injEq, Prod.mk.injEq, Recvd.got.injEq] at h
      rw [← h.1.2]
      exact List.length_take_le _ _
    | error e =>
      cases e with
      | isr => exact ih h
      | _ => simp [receiveData] at h

theorem receiveData_honest {size n : UInt32} {io io' : List Received} {bs : Bytes} (hh : Honest size io)
    (h : receiveData size io = some (.got n bs, io')) : n ≤ size ∧ (n = size ∨ Honest (size - n) io') := by
  induction io with
  | nil => simp [receiveData] at h
  | cons a io ih =>
    cases a with
    | chunk got =>
      simp only [receiveData, Option.some.injEq, Prod.mk.injEq, Recvd.got.injEq] at h
      obtain ⟨⟨rfl, -⟩, rfl⟩ := h
      have hword := size.toNat_lt
      by_cases hlong : size.toNat ≤ got.length
      · have hall : UInt32.ofNat (got.take size.toNat).length = size := by
          rw [List.length_take, Nat.min_eq_left hlong, UInt32.ofNat_toNat]
        exact ⟨UInt32.le_of_eq hall, .inl hall⟩
      · have htake : got.take size.toNat = got := List.take_of_length_le (by omega)
        have hlen : (UInt32.ofNat got.length).toNat = got.length := Word32.toNat_ofNat (by omega)
        rw [htake, if_pos (by omega)]
        refine ⟨?_, .inr (hh.resolve_left hlong)⟩
        rw [UInt32.le_iff_toNat_le, hlen]
        omega
    | count m got =>
      simp only [receiveData, Option.some.injEq, Prod.mk.injEq, Recvd.got.injEq] at h
      obtain ⟨⟨rfl, -⟩, rfl⟩ := h
      exact hh
    | error e =>
      cases e with
      | isr => exact ih hh h
      | _ => simp [receiveData] at h

/-- The loop of `GetInputData` only puts octets behind the unread ones. -/
theorem readLoop_kept {size : UInt32} {io : List Received} (h : Inv b)
    (hroom : b.length.toNat + size.toNat ≤ b.bufferSz.toNat) (hh : size = 0 ∨ Honest size io) :
    ∃ ret b' io', readLoop size io b = some (ret, b', io') ∧ Inv b' ∧ b'.overrun = b.overrun ∧
      ∃ x, b'.queue = b.queue ++ x := by
  induction hn : ioSize io using Nat.strong_induction_on generalizing size io b with
  | h n ih =>
    subst hn
    rw [readLoop]
    by_cases hsize : size = 0
    · rw [dif_pos hsize]
      exact ⟨_, b, io, rfl, h, rfl, [], (List.append_nil _).symm⟩
    · rw [dif_neg hsize]
      split
      · exact ⟨_, b, io, rfl, h, rfl, [], (List.append_nil _).symm⟩
      · exact ⟨_, b, _, rfl, h, rfl, [], (List.append_nil _).symm⟩
      · exact ⟨_, b, _, rfl, h, rfl, [], (List.append_nil _).symm⟩
      · rename_i n bs io' hgot
        obtain ⟨hle, hnext⟩ := receiveData_honest (hh.resolve_left hsize) hgot
        obtain ⟨b₁, x, hrecv, hb₁, hqueue, -, -, -, hlength, hbufferSz, hover⟩ :=
          received_kept h hle (receiveData_length hgot) hroom
        have hsub : (size - n).toNat = size.toNat - n.toNat :=
          Word32.toNat_sub (UInt32.le_iff_toNat_le.mp hle)
        have hle' := UInt32.le_iff_toNat_le.mp hle
        have hmore : size - n = 0 ∨ Honest (size - n) io' := by
          refine hnext.imp_left fun heq => ?_
          rw [heq, UInt32.sub_self]
        obtain ⟨ret, b₂, io₂, hloop, hb₂, hover₂, y, hqueue₂⟩ :=
          ih (ioSize io') (ioSize_receiveData hsize hgot) hb₁ (by rw [hlength, hbufferSz]; omega) hmore rfl
        refine ⟨ret, b₂, io₂, ?_, hb₂, hover₂.trans hover, x ++ y, ?_⟩
        · rw [hrecv, Option.bind_eq_bind, Option.bind_some, hb₁.sized_eq (by omega)]
          exact hloop
        · rw [hqueue₂, hqueue, List.append_assoc]

theorem getInputData_kept (alloc : Alloc) {size : UInt32} {io : List Received} (h : Inv b)
    (hh : b.queue.length < size.toNat → Honest (size - (b.length - b.idx)) io) :
    ∃ ret b' io', getInputData alloc size io b = some (ret, b', io') ∧ Inv b' ∧ b'.overrun = b.overrun ∧
      ∃ x, b'.queue = b.queue ++ x := by
  rw [getInputData]
  dsimp only
  rw [h.sized_used]
  by_cases henough : b.length - b.idx ≥ size
  · rw [if_pos henough]
    exact ⟨_, b, io, rfl, h, rfl, [], (List.append_nil _).symm⟩
  rw [if_neg henough]
  have hused := h.usedSz
  have hshort : b.queue.length < size.toNat := by
    rw [ge_iff_le, UInt32.le_iff_toNat_le, hused] at henough
    omega
  have hsub : (size - (b.length - b.idx)).toNat = size.toNat - b.queue.length := by
    rw [Word32.toNat_sub (by omega), hused]
  have hword := size.toNat_lt
  rw [h.sized_eq (by omega)]
  rcases growBuffer_kept alloc h (show (size - (b.length - b.idx)).toNat + _ < 2 ^ 32 by omega) with
    ⟨hfail, -⟩ | ⟨b₁, hgrow, hb₁, hqueue, hidx, hover, hroom⟩
  · rw [hfail]
    exact ⟨_, b, io, rfl, h, rfl, [], (List.append_nil _).symm⟩
  · have hlen : b₁.length.toNat = b.queue.length := by
      have hsize := hb₁.size
      rw [hidx, hqueue] at hsize
      exact hsize.symm.trans (Nat.zero_add _)
    obtain ⟨ret, b₂, io₂, hloop, hb₂, hover₂, x, hqueue₂⟩ :=
      readLoop_kept hb₁ (by rw [hlen]; omega) (.inr (hh hshort))
    rw [hgrow]
    exact ⟨ret, b₂, io₂, hloop, hb₂, hover₂.trans hover, x, by rw [hqueue₂, hqueue]⟩

/-- The answers that `GetInputLine` and `SendPacketFlush` report a count beyond its request with. -/
def Ret.Reports (ret : Ret) : Prop := ret = .recvOverflowE ∨ ret = .sendOobReadE

/-- `GetInputLine` takes a count within its request, or it reports the count. -/
theorem lineLoop_kept (alloc : Alloc) (io : List Received) (h : Inv b) (hb : b.overrun = false) :
    ∃ r b' io', lineLoop alloc io b = some (r, b', io') ∧ Inv b' ∧
      (b'.overrun = true → ∃ ret, r = .error ret ∧ ret.Reports) ∧ ∃ x, b'.queue = b.queue ++ x := by
  induction hn : ioSize io using Nat.strong_induction_on generalizing io b with
  | h n ih =>
    subst hn
    have hquiet : b.overrun = true → ∀ r : Except Ret Nat, ∃ ret, r = .error ret ∧ ret.Reports := by
      intro habs
      rw [hb] at habs
      exact absurd habs (by decide)
    have hsame : ∃ x, b.queue = b.queue ++ x := ⟨[], (List.append_nil _).symm⟩
    have hread : read b.buffer 0 b.length = some (b.buffer.take b.length.toNat) := by
      have hlen := h.length_le
      have hroom := h.room
      rw [read, if_pos]
      · rfl
      · rw [hroom]
        change 0 + _ ≤ _
        omega
    rw [lineLoop, hread, Option.bind_eq_bind, Option.bind_some]
    split
    · exact ⟨_, b, io, rfl, h, fun habs => hquiet habs _, hsame⟩
    · by_cases hlong : b.length ≥ protoIdLimit
      · rw [dif_pos hlong]
        exact ⟨_, b, io, rfl, h, fun habs => hquiet habs _, hsame⟩
      rw [dif_neg hlong]
      dsimp only
      have hshort : b.length.toNat < 255 := by
        rw [ge_iff_le, UInt32.le_iff_toNat_le] at hlong
        exact Nat.not_le.mp hlong
      have hinSz : (protoIdLimit - b.length).toNat = 255 - b.length.toNat :=
        Word32.toNat_sub (show b.length.toNat ≤ 255 by omega)
      have hlimit : protoIdLimit.toNat = 255 := rfl
      have hsize := h.size
      rw [h.sized_eq (by omega)]
      rcases growBuffer_kept alloc h (show (protoIdLimit - b.length).toNat + _ < 2 ^ 32 by omega) with
        ⟨hfail, -⟩ | ⟨b₁, hgrow, hb₁, hqueue, hidx, hover, hroom⟩
      · rw [hfail]
        exact ⟨_, b, io, rfl, h, fun habs => hquiet habs _, hsame⟩
      · have hlen : b₁.length.toNat = b.queue.length := by
          have hsize := hb₁.size
          rw [hidx, hqueue] at hsize
          exact hsize.symm.trans (Nat.zero_add _)
        have hsame₁ : ∃ x, b₁.queue = b.queue ++ x := ⟨[], by rw [hqueue, List.append_nil]⟩
        have hquiet₁ : b₁.overrun = true → ∀ r : Except Ret Nat, ∃ ret, r = .error ret ∧ ret.Reports := by
          rw [hover]
          exact hquiet
        rw [hgrow, Option.bind_eq_bind, Option.bind_some]
        dsimp only
        rw [if_neg (by simp)]
        split
        · exact ⟨_, b₁, io, rfl, hb₁, fun habs => hquiet₁ habs _, hsame₁⟩
        · exact ⟨_, b₁, _, rfl, hb₁, fun habs => hquiet₁ habs _, hsame₁⟩
        · exact ⟨_, b₁, _, rfl, hb₁, fun habs => hquiet₁ habs _, hsame₁⟩
        · rename_i n bs io' hgot
          have hbs := receiveData_length hgot
          have hfit : b₁.length.toNat + (protoIdLimit - b.length).toNat ≤ b₁.bufferSz.toNat := by omega
          by_cases hzero : n = 0
          · rw [if_pos hzero]
            exact ⟨_, b₁, _, rfl, hb₁, fun habs => hquiet₁ habs _, hsame₁⟩
          rw [if_neg hzero]
          by_cases hover' : n > protoIdLimit - b.length
          · obtain ⟨buffer, hwrite, hput⟩ := hb₁.written hbs hfit
            obtain ⟨-, -, -, hkept⟩ := hput 0 (Nat.zero_le _)
            rw [if_pos hover', hwrite]
            refine ⟨_, _, _, rfl, ?_, fun _ => ⟨_, rfl, .inl rfl⟩, hsame₁⟩
            have hzero : b₁.length + 0 = b₁.length := UInt32.add_zero _
            rw [hzero] at hkept
            have hnil : b₁.queue ++ (buffer.drop b₁.length.toNat).take (0 : UInt32).toNat = b₁.queue :=
              List.append_nil _
            rw [hnil] at hkept
            exact ⟨hkept.layout, hkept.size, hkept.room, hkept.static, hkept.inPlace, hkept.exact⟩
          · rw [if_neg hover']
            obtain ⟨b₂, x, hrecv, hb₂, hqueue₂, -, -, -, -, -, hover₂⟩ :=
              received_kept hb₁ (UInt32.not_lt.mp hover') hbs hfit
            obtain ⟨r, b₃, io₃, hloop, hb₃, hreports, y, hqueue₃⟩ :=
              ih (ioSize io') (ioSize_receiveData (sub_ne_zero hlong) hgot) io' hb₂
                (by rw [hover₂, hover, hb]) rfl
            rw [hrecv]
            exact ⟨r, b₃, io₃, hloop, hb₃, hreports, x ++ y, by
              rw [hqueue₃, hqueue₂, hqueue, List.append_assoc]⟩

theorem getInputLine_kept (alloc : Alloc) (io : List Received) (h : Inv b) (hb : b.overrun = false) :
    ∃ r b' io', getInputLine alloc io b = some (r, b', io') ∧ Inv b' ∧
      (b'.overrun = true → ∃ ret, r = .error ret ∧ ret.Reports) ∧ ∃ x, b'.queue = b.queue ++ x := by
  have hword : b.queue.length < 2 ^ 32 := h.usedSz ▸ (b.length - b.idx).toNat_lt
  rw [getInputLine]
  rcases growBuffer_kept alloc h (show (0 : UInt32).toNat + _ < 2 ^ 32 by rwa [UInt32.toNat_zero, Nat.zero_add]) with
    ⟨hfail, -⟩ | ⟨b₁, hgrow, hb₁, hqueue, -, hover, -⟩
  · rw [hfail]
    refine ⟨_, b, io, rfl, h, fun habs => ?_, [], (List.append_nil _).symm⟩
    rw [hb] at habs
    exact absurd habs (by decide)
  · obtain ⟨r, b₂, io₂, hloop, hb₂, hreports, x, hqueue₂⟩ :=
      lineLoop_kept alloc io hb₁ (hover.trans hb)
    rw [hgrow]
    exact ⟨r, b₂, io₂, hloop, hb₂, hreports, x, by rw [hqueue₂, hqueue]⟩

end Receive

section Send

variable {b : Buf}

/-- Each count of the send callback is of the `left` octets it was given, or beyond `length`. -/
def HonestSent (length : Nat) : Nat → List Sent → Prop
  | _, [] => True
  | left, .count n :: io =>
    left = 0 ∨ (n.toNat ≤ left ∧ HonestSent length (left - n.toNat) io) ∨ length < n.toNat
  | left, .error .isr :: io => HonestSent length left io
  | _, .error _ :: _ => True

/-- Octets that were taken stand before `idx`. -/
theorem Inv.taken (h : Inv b) {n : UInt32} (hn : n.toNat ≤ b.queue.length) :
    (b.idx + n).toNat = b.idx.toNat + n.toNat ∧
      Inv { b with idx := b.idx + n, queue := b.queue.drop n.toNat } := by
  obtain ⟨front, rest, hbuffer, hfront⟩ := h.layout
  have hsize := h.size
  have hadd : (b.idx + n).toNat = b.idx.toNat + n.toNat := Word32.toNat_add_of_le (b := b.length) (by omega)
  refine ⟨hadd, ⟨front ++ b.queue.take n.toNat, rest, ?_, ?_⟩, ?_, h.room, h.static, h.inPlace, h.exact⟩
  · dsimp only
    rw [hbuffer, List.append_assoc front (b.queue.take _), List.take_append_drop]
  · rw [List.length_append, hfront, List.length_take, Nat.min_eq_left hn, hadd]
  · dsimp only
    rw [List.length_drop, hadd]
    omega

/-- `SendPacketFlush` takes octets from the front of the unread ones, or gives all of them up. -/
theorem sendPacketFlush_kept {io : List Sent} (h : Inv b) (hb : b.overrun = false)
    (hh : HonestSent b.length.toNat b.queue.length io) :
    ∃ ret b', sendPacketFlush io b = some (ret, b') ∧ Inv b' ∧ (b'.overrun = true → ret.Reports) ∧
      ∃ k, b'.queue = b.queue.drop k := by
  have hquiet : ∀ {b' : Buf} {ret : Ret}, b'.overrun = b.overrun → b'.overrun = true → ret.Reports := by
    intro b' ret hsame habs
    rw [hsame, hb] at habs
    exact absurd habs (by decide)
  have hsize := h.size
  have hlen := h.length_le
  induction io generalizing b with
  | nil =>
    rw [sendPacketFlush.eq_def]
    dsimp only
    by_cases hmore : b.length > b.idx
    · rw [if_pos hmore, if_neg]
      · exact ⟨_, b, rfl, h, hquiet rfl, 0, rfl⟩
      · rw [gt_iff_lt, UInt32.lt_iff_toNat_lt, UInt32.lt_iff_toNat_lt]
        omega
    · obtain ⟨b', hshrink, hb', hqueue, hover⟩ := shrinkBuffer_kept h
      rw [if_neg hmore, hshrink]
      exact ⟨_, b', rfl, hb', hquiet hover, 0, hqueue⟩
  | cons a io ih =>
    rw [sendPacketFlush.eq_def]
    dsimp only
    by_cases hmore : b.length > b.idx
    · have hleft : b.queue.length ≠ 0 := by
        rw [gt_iff_lt, UInt32.lt_iff_toNat_lt] at hmore
        omega
      have hstate : ¬ (b.length > b.bufferSz ∨ b.length < b.idx) := by
        rw [gt_iff_lt, UInt32.lt_iff_toNat_lt, UInt32.lt_iff_toNat_lt]
        omega
      rw [if_pos hmore, if_neg hstate]
      cases a with
      | count n =>
        dsimp only
        rw [h.read_unread, Option.bind_eq_bind, Option.bind_some]
        by_cases hoob : n > b.length
        · have hcounted : (b.counted (b.length - b.idx) n).length = b.length := rfl
          rw [hcounted, if_pos hoob]
          exact ⟨_, _, rfl, ⟨h.layout, h.size, h.room, h.static, h.inPlace, h.exact⟩, fun _ => .inr rfl, 0, rfl⟩
        · obtain ⟨hn, hnext⟩ : n.toNat ≤ b.queue.length ∧
              HonestSent b.length.toNat (b.queue.length - n.toNat) io := by
            rcases hh with h0 | hok | hbig
            · exact absurd h0 hleft
            · exact hok
            · exact absurd (UInt32.lt_iff_toNat_lt.mpr hbig) hoob
          have hcounted : b.counted (b.length - b.idx) n = b := by
            have hle : ¬ b.length - b.idx < n := by
              rw [UInt32.lt_iff_toNat_lt, h.usedSz]
              omega
            rw [Buf.counted, decide_eq_false hle, Bool.or_false]
          obtain ⟨hadd, hkept⟩ := h.taken hn
          rw [hcounted, if_neg hoob, h.sized_eq (by omega)]
          obtain ⟨ret, b', hflush, hb', hreports, k, hqueue⟩ :=
            ih hkept hb (by rw [List.length_drop]; exact hnext) hquiet (by
              dsimp only
              rw [List.length_drop, hadd]
              omega) hlen
          refine ⟨ret, b', hflush, hb', hreports, n.toNat + k, ?_⟩
          rw [hqueue, List.drop_drop]
      | error e =>
        cases e with
        | isr => exact ih h hb hh hquiet hsize hlen
        | general =>
          obtain ⟨b', hshrink, hb', hqueue, hover⟩ := shrinkBuffer_forced h
          dsimp only
          rw [hshrink]
          exact ⟨_, b', rfl, hb', hquiet hover, b.queue.length, by rw [hqueue, List.drop_length]⟩
        | _ => exact ⟨_, b, rfl, h, hquiet rfl, 0, rfl⟩
    · obtain ⟨b', hshrink, hb', hqueue, hover⟩ := shrinkBuffer_kept h
      rw [if_neg hmore, hshrink]
      exact ⟨_, b', rfl, hb', hquiet hover, 0, hqueue⟩

end Send

section Run

variable (alloc : Alloc)

/-- The calls on a buffer. Its owner also copies octets into the room that is there (`put`) and takes
unread ones (`take`). -/
inductive Op where
  | init (size : UInt32)
  | grow (sz : UInt32)
  | shrink
  | append (data : { bs : Bytes // bs.length < 2 ^ 32 })
  | getInputData (size : UInt32) (io : List Received)
  | getInputLine (io : List Received)
  | sendPacketFlush (io : List Sent)
  | put (bs : Bytes)
  | take (n : UInt32)

def putBuffer (bs : Bytes) (b : Buf) : Option (Ret × Buf) :=
  let data := bs.take (b.bufferSz - b.length).toNat
  (write b.buffer b.length.toNat data).map fun buffer =>
    (.success, { b with buffer, length := b.length + .ofNat data.length, queue := b.queue ++ data })

def takeBuffer (n : UInt32) (b : Buf) : Ret × Buf :=
  let n := if n ≤ b.length - b.idx then n else b.length - b.idx
  (.success, { b with idx := b.idx + n, queue := b.queue.drop n.toNat })

def lineRet : Except Ret Nat → Ret
  | .ok _ => .success
  | .error ret => ret

def Op.run (b : Buf) : Op → Option (Ret × Buf)
  | .init size => some (bufferInit alloc size)
  | .grow sz => growBuffer alloc sz b
  | .shrink => (shrinkBuffer false b).map fun b => (.success, b)
  | .append data => appendBuffer alloc data b
  | .getInputData size io => (WordBuffer.getInputData alloc size io b).map fun r => (r.1, r.2.1)
  | .getInputLine io => (WordBuffer.getInputLine alloc io b).map fun r => (lineRet r.1, r.2.1)
  | .sendPacketFlush io => WordBuffer.sendPacketFlush io b
  | .put bs => putBuffer bs b
  | .take n => some (takeBuffer n b)

/-- What the last call returned, and the buffer after it. -/
abbrev State := Option (Ret × Buf)

def step (s : State) (op : Op) : State := s.bind fun r => op.run alloc { r.2 with overrun := false }

/-- The indices are in order and in the memory, the unread octets are those put in and not taken out,
no size has wrapped, and a count beyond its request has been reported. -/
def Good : State → Prop
  | none => False
  | some (ret, b) =>
    b.idx ≤ b.length ∧ b.length ≤ b.bufferSz ∧ b.unread = b.queue ∧ b.exact = true ∧
      (b.overrun = true → ret.Reports)

/-- The step asks for a size that does not wrap, and the callbacks of `GetInputData` and
`SendPacketFlush` take no more than they were asked for, or more than is checked for. -/
def Op.Allowed (b : Buf) : Op → Prop
  | .init size => size ≤ staticBufferLen ∨ alloc size = true
  | .grow sz => sz.toNat + (b.length - b.idx).toNat < 2 ^ 32
  | .getInputData size io => b.length - b.idx < size → Honest (size - (b.length - b.idx)) io
  | .sendPacketFlush io => HonestSent b.length.toNat (b.length - b.idx).toNat io
  | _ => True

def Allows (s : State) (op : Op) : Prop := ∀ r, s = some r → op.Allowed alloc r.2

def Kept (s : State) : Prop :=
  ∃ ret b, s = some (ret, b) ∧ Inv b ∧ (b.overrun = true → ret.Reports)

theorem Kept.good {s : State} (h : Kept s) : Good s := by
  obtain ⟨ret, b, rfl, hb, hreports⟩ := h
  exact ⟨UInt32.le_iff_toNat_le.mpr hb.idx_le, UInt32.le_iff_toNat_le.mpr hb.length_le, hb.unread_eq,
    hb.exact, hreports⟩

theorem bufferInit_kept {size : UInt32} (h : size ≤ staticBufferLen ∨ alloc size = true) :
    Kept (some (bufferInit alloc size)) := by
  rw [bufferInit]
  by_cases hsmall : size ≤ staticBufferLen
  · have hstatic : ¬ staticBufferLen > staticBufferLen := by decide
    rw [if_pos hsmall, if_neg hstatic]
    exact ⟨_, _, rfl, Inv.of_front rfl rfl rfl List.length_replicate (Nat.le_refl _) (fun _ => rfl) rfl, nofun⟩
  · have hbig : size > staticBufferLen := UInt32.not_le.mp hsmall
    rw [if_neg hsmall, if_pos hbig, if_pos (h.resolve_left hsmall)]
    exact ⟨_, _, rfl, Inv.of_front rfl rfl rfl List.length_replicate
      (Nat.le_of_lt (UInt32.lt_iff_toNat_lt.mp hbig)) nofun rfl, nofun⟩

theorem putBuffer_kept {b : Buf} (h : Inv b) (hb : b.overrun = false) (bs : Bytes) :
    Kept (putBuffer bs b) := by
  have hlen := h.length_le
  have hword := b.bufferSz.toNat_lt
  have hroom : (b.bufferSz - b.length).toNat = b.bufferSz.toNat - b.length.toNat := Word32.toNat_sub hlen
  have htake : (bs.take (b.bufferSz - b.length).toNat).length ≤ b.bufferSz.toNat - b.length.toNat := by
    rw [List.length_take, hroom]
    exact Nat.min_le_left _ _
  generalize hdata : bs.take (b.bufferSz - b.length).toNat = data at htake
  have hcount : (UInt32.ofNat data.length).toNat = data.length := Word32.toNat_ofNat (by omega)
  obtain ⟨buffer, hwrite, hput⟩ := h.written (Nat.le_refl data.length) (by omega)
  obtain ⟨-, -, hx, hkept⟩ := hput (.ofNat data.length) (Nat.le_of_eq hcount)
  rw [hx hcount.symm] at hkept
  rw [putBuffer, hdata, hwrite]
  refine ⟨.success, _, rfl, hkept, fun habs => ?_⟩
  dsimp only at habs
  rw [hb] at habs
  exact absurd habs (by decide)

theorem takeBuffer_kept {b : Buf} (h : Inv b) (hb : b.overrun = false) (n : UInt32) :
    Kept (some (takeBuffer n b)) := by
  have hn : (if n ≤ b.length - b.idx then n else b.length - b.idx).toNat ≤ b.queue.length := by
    rw [← h.usedSz]
    split
    · rename_i hle
      exact UInt32.le_iff_toNat_le.mp hle
    · exact Nat.le_refl _
  refine ⟨_, _, rfl, (h.taken hn).2, fun habs => ?_⟩
  have habs : b.overrun = true := habs
  rw [hb] at habs
  exact absurd habs (by decide)

theorem step_kept {s : State} {op : Op} (hs : Kept s) (hop : Allows alloc s op) : Kept (step alloc s op) := by
  obtain ⟨ret, b₀, rfl, hb₀, -⟩ := hs
  have hallowed := hop _ rfl
  have h : Inv { b₀ with overrun := false } :=
    ⟨hb₀.layout, hb₀.size, hb₀.room, hb₀.static, hb₀.inPlace, hb₀.exact⟩
  have hused : (b₀.length - b₀.idx).toNat = b₀.queue.length := hb₀.usedSz
  rw [step, Option.bind_some]
  generalize hb : { b₀ with overrun := false } = b at h
  have hquiet : b.overrun = false := by rw [← hb]
  have hover : ∀ {b' : Buf} {ret : Ret}, b'.overrun = b.overrun → b'.overrun = true → ret.Reports := by
    intro b' ret hsame habs
    rw [hsame, hquiet] at habs
    exact absurd habs (by decide)
  have hlength : b.length = b₀.length := by rw [← hb]
  have hidx : b.idx = b₀.idx := by rw [← hb]
  have hqueue : b.queue = b₀.queue := by rw [← hb]
  cases op with
  | init size => exact bufferInit_kept alloc hallowed
  | grow sz =>
    have hsz : sz.toNat + b.queue.length < 2 ^ 32 := by
      rw [hqueue, ← hused]
      exact hallowed
    rcases growBuffer_kept alloc h hsz with ⟨hfail, -⟩ | ⟨b', hgrow, hb', -, -, hsame, -⟩
    · exact ⟨_, b, hfail, h, hover rfl⟩
    · exact ⟨_, b', hgrow, hb', hover hsame⟩
  | shrink =>
    obtain ⟨b', hshrink, hb', -, hsame⟩ := shrinkBuffer_kept h
    exact ⟨.success, b', by rw [Op.run, hshrink]; rfl, hb', hover hsame⟩
  | append data =>
    obtain ⟨ret, b', happend, hb', hsame, -⟩ := appendBuffer_kept alloc h data.property
    exact ⟨ret, b', happend, hb', hover hsame⟩
  | getInputData size io =>
    have hhonest : b.queue.length < size.toNat → Honest (size - (b.length - b.idx)) io := by
      intro hshort
      rw [hlength, hidx]
      refine hallowed (UInt32.lt_iff_toNat_lt.mpr ?_)
      rw [hused, ← hqueue]
      exact hshort
    obtain ⟨ret, b', io', hrun, hb', hsame, -⟩ := getInputData_kept alloc h hhonest
    exact ⟨ret, b', by rw [Op.run, hrun]; rfl, hb', hover hsame⟩
  | getInputLine io =>
    obtain ⟨r, b', io', hrun, hb', hreports, -⟩ := getInputLine_kept alloc io h hquiet
    refine ⟨lineRet r, b', by rw [Op.run, hrun]; rfl, hb', fun habs => ?_⟩
    obtain ⟨ret, rfl, hret⟩ := hreports habs
    exact hret
  | sendPacketFlush io =>
    have hhonest : HonestSent b.length.toNat b.queue.length io := by
      rw [hlength, hqueue, ← hused]
      exact hallowed
    obtain ⟨ret, b', hrun, hb', hreports, -⟩ := sendPacketFlush_kept h hquiet hhonest
    exact ⟨ret, b', hrun, hb', hreports⟩
  | put bs => exact putBuffer_kept h hquiet bs
  | take n => exact takeBuffer_kept h hquiet n

/-- In every run of allowed calls from `BufferInit` on, the buffer is in order after every call. -/
theorem buffer_runs_keep {size : UInt32} (hsize : size ≤ staticBufferLen ∨ alloc size = true)
    {ops : List Op} (hops : Runs.Meets (step alloc) (Allows alloc) (some (bufferInit alloc size)) ops) :
    ∀ s ∈ Runs.states (step alloc) (some (bufferInit alloc size)) ops, Good s := fun s hs =>
  (Runs.invariant (fun _ _ hkept hop => step_kept alloc hkept hop) (bufferInit_kept alloc hsize) hops s hs).good

end Run

section Decide

def decHonest : (size : UInt32) → (io : List Received) → Decidable (Honest size io)
  | _, [] => .isTrue trivial
  | size, .chunk bs :: io => @instDecidableOr _ _ (Nat.decLe _ _) (decHonest (size - .ofNat bs.length) io)
  | size, .count n _ :: io =>
    @instDecidableAnd _ _ (inferInstanceAs (Decidable (n ≤ size)))
      (@instDecidableOr _ _ (inferInstanceAs (Decidable (n = size))) (decHonest (size - n) io))
  | size, .error .isr :: io => decHonest size io
  | _, .error .general :: _ | _, .error .want :: _ | _, .error .connRst :: _
  | _, .error .connClose :: _ | _, .error .timeout :: _ | _, .error .other :: _ => .isTrue trivial

def decHonestSent (length : Nat) : (left : Nat) → (io : List Sent) → Decidable (HonestSent length left io)
  | _, [] => .isTrue trivial
  | left, .count n :: io =>
    @instDecidableOr _ _ (Nat.decEq _ _) (@instDecidableOr _ _
      (@instDecidableAnd _ _ (Nat.decLe _ _) (decHonestSent length (left - n.toNat) io)) (Nat.decLt _ _))
  | left, .error .isr :: io => decHonestSent length left io
  | _, .error .general :: _ | _, .error .want :: _ | _, .error .connRst :: _
  | _, .error .connClose :: _ | _, .error .timeout :: _ | _, .error .other :: _ => .isTrue trivial

instance (alloc : Alloc) (b : Buf) (op : Op) : Decidable (op.Allowed alloc b) :=
  match op with
  | .init size => inferInstanceAs (Decidable (size ≤ staticBufferLen ∨ alloc size = true))
  | .grow sz => inferInstanceAs (Decidable (sz.toNat + (b.length - b.idx).toNat < 2 ^ 32))
  | .getInputData size io =>
    letI := decHonest (size - (b.length - b.idx)) io
    inferInstanceAs (Decidable (b.length - b.idx < size → Honest (size - (b.length - b.idx)) io))
  | .sendPacketFlush io => decHonestSent b.length.toNat (b.length - b.idx).toNat io
  | .shrink | .append _ | .getInputLine _ | .put _ | .take _ => .isTrue trivial

instance (alloc : Alloc) (s : State) (op : Op) : Decidable (Allows alloc s op) :=
  match s with
  | none => .isTrue nofun
  | some r => decidable_of_iff (op.Allowed alloc r.2) ⟨fun h _ hr => Option.some.inj hr ▸ h, fun h => h r rfl⟩

instance : DecidablePred Ret.Reports := fun ret =>
  inferInstanceAs (Decidable (ret = .recvOverflowE ∨ ret = .sendOobReadE))

instance : DecidablePred Good := fun s =>
  match s with
  | none => .isFalse id
  | some (ret, b) => inferInstanceAs (Decidable (b.idx ≤ b.length ∧ b.length ≤ b.bufferSz ∧
      b.unread = b.queue ∧ b.exact = true ∧ (b.overrun = true → ret.Reports)))

end Decide

/-- Octets come in over two reads, a line is too long for its request, and all is sent in two parts. -/
def sampleOps : List Op :=
  [.getInputData 4 [.chunk [1, 2, 3], .error .isr, .chunk [4, 5]], .take 1,
    .append ⟨List.replicate 20 6, by decide⟩, .getInputLine [.count 300 [7]], .shrink,
    .sendPacketFlush [.count 5, .count 18]]

theorem buffer_runs_keep_sample :
    Good (sampleOps.foldl (step fun _ => true) (some (bufferInit (fun _ => true) 0))) :=
  buffer_runs_keep (fun _ => true) (.inl (by decide)) (by unfold Runs.Meets; decide +kernel) _
    (Runs.foldl_mem_states _ sampleOps)

/-- A count beyond the request moves `length` and `idx` past the bound, and a size wraps. -/
theorem counts_not_checked :
    ¬ Good (step (fun _ => true) (some (bufferInit (fun _ => true) 0)) (.getInputData 4 [.count 40 []])) ∧
      ¬ Good ([Op.put [1, 2, 3, 4, 5, 6, 7, 8, 9, 10], .sendPacketFlush [.count 5, .count 8]].foldl
        (step fun _ => true) (some (bufferInit (fun _ => true) 0))) ∧
      ¬ Good ([Op.put [1], .grow 0xffffffff].foldl
        (step fun _ => true) (some (bufferInit (fun _ => true) 0))) := by
  decide +kernel

end WolfSsh.WordBuffer
