import WolfSsh.SftpAttributes
import WolfSsh.SftpConfine
import WolfSsh.Lib.Cells

/-! WRITE requests down to the system: wPwrite over `pwrite`, and what the file holds after the
calls. -/

namespace WolfSsh.Sftp

/-- WOLFSSH_MAX_FILE_OFFSET, for an `off_t` of that many octets. -/
def fileOffsetMax (sizeofOffT : Nat) : Nat :=
  if sizeofOffT = 8 then 0x7fffffffffffffff else 0x7fffffff

def wResolveOffset (ofst0 ofst1 maxOffset : Nat) : Option Nat :=
  let combined := 2 ^ 32 * ofst1 + ofst0
  if maxOffset < combined then none else some combined

/-- The calls that the ports make for the server: `pwrite` at an `off_t`, the others as they are. -/
inductive OsCall where
  | other (c : FsCall)
  | pwrite (fd : Nat) (buf : Bytes) (offset : Nat)
deriving DecidableEq, Repr

def OsCall.Ans : OsCall → Type
  | .other c => c.Ans
  | .pwrite _ _ _ => Int

abbrev OsSys := Calls OsCall OsCall.Ans
abbrev OsEvent := Calls.Event OsCall OsCall.Ans
abbrev OsEnv := Calls.Env OsCall OsCall.Ans

/-- The cast `(int)` of a result. -/
def toInt (n : Int) : Int := n.bmod (2 ^ 32)

def pwrite (fd : Nat) (buf : Bytes) (offset : Nat) : OsSys Int :=
  Calls.ask (OsCall.pwrite fd buf offset)

/-- The -1 of the system and of the ports. -/
def ioError : Int := -1

/-- `maxOffset` is the port's WOLFSSH_MAX_FILE_OFFSET. -/
def wPwrite (maxOffset fd : Nat) (buf : Bytes) (ofst0 ofst1 : Nat) : OsSys Int :=
  match wResolveOffset ofst0 ofst1 maxOffset with
  | none => return ioError
  | some offset => do
    let n ← pwrite fd buf offset
    return toInt n

theorem wPwrite_refused {maxOffset ofst0 ofst1 : Nat} (fd : Nat) (buf : Bytes)
    (h : maxOffset < 2 ^ 32 * ofst1 + ofst0) : wPwrite maxOffset fd buf ofst0 ofst1 = pure ioError := by
  have hnone : wResolveOffset ofst0 ofst1 maxOffset = none := by
    rw [wResolveOffset, if_pos h]
  rw [wPwrite, hnone]

theorem wPwrite_resolved {maxOffset ofst0 ofst1 : Nat} (fd : Nat) (buf : Bytes)
    (h : ¬maxOffset < 2 ^ 32 * ofst1 + ofst0) : wPwrite maxOffset fd buf ofst0 ofst1
      = (do
        let n ← pwrite fd buf (2 ^ 32 * ofst1 + ofst0)
        return toInt n) := by
  have hsome : wResolveOffset ofst0 ofst1 maxOffset = some (2 ^ 32 * ofst1 + ofst0) := by
    rw [wResolveOffset, if_neg h]
  rw [wPwrite, hsome]

/-- The server's calls in a port with `pwrite`. -/
def port (maxOffset : Nat) : Unit → (c : FsCall) → OsSys (c.Ans × Unit)
  | (), .pwrite fd buf ofst0 ofst1 => do
    let n ← wPwrite maxOffset fd buf ofst0 ofst1
    return (n, ())
  | (), c => do
    let r ← Calls.ask (OsCall.other c)
    return (r, ())

/-- A request's handler in that port. -/
def ported (maxOffset : Nat) (m : Sys α) : OsSys (α × Unit) := Calls.via (port maxOffset) m ()

/-- `pwrite` answers -1, or how much of the buffer it stored. -/
def Answers : (c : OsCall) → c.Ans → Prop
  | .pwrite _ buf _, (n : Int) => ioError ≤ n ∧ n ≤ buf.length
  | .other _, _ => True

/-- What the file of the descriptor `fd` holds after a call. -/
def stores (fd : Nat) (file : Cells UInt8) : OsEvent → Cells UInt8
  | ⟨.pwrite fd' buf offset, n⟩ =>
    if fd' = fd then file.put offset (buf.take (Int.toNat n)) else file
  | ⟨.other _, _⟩ => file

def fileAfter (fd : Nat) (file : Cells UInt8) (es : List OsEvent) : Cells UInt8 :=
  es.foldl (stores fd) file

/-- A `pwrite` on `fd`. -/
def Pwrites (fd : Nat) (e : OsEvent) : Prop := ∃ buf offset n, e = ⟨.pwrite fd buf offset, n⟩

/-- A `pwrite` that stored nothing. -/
def Stuck (e : OsEvent) : Prop := ∃ fd buf offset, ∃ n : Int, e = ⟨.pwrite fd buf offset, n⟩ ∧ n ≤ 0

/-- What the loop of RecvWrite does of `str` from `written` on, for the offset `ofst` of the request:
what it returns, and the calls. -/
structure Wrote (fd : Nat) (str : Bytes) (ofst written maxOffset : Nat) (r : (Int × Nat) × Unit)
    (es : List OsEvent) : Prop where
  onFile : ∀ e ∈ es, Pwrites fd e
  le : written ≤ r.1.2
  fits : r.1.2 ≤ str.length
  stored : ∀ file, fileAfter fd file es
    = file.put (ofst + written) ((str.drop written).take (r.1.2 - written))
  failed : r.1.1 < 0 → r.1.2 < str.length
  short : r.1.2 < str.length → (∃ e ∈ es, Stuck e) ∨ maxOffset < ofst + r.1.2
  refused : maxOffset < ofst → es = [] ∧ r.1.2 = written

theorem fileOffsetMax_lt (sizeofOffT : Nat) : fileOffsetMax sizeofOffT < 2 ^ 63 := by
  rw [fileOffsetMax]
  split <;> omega

theorem toInt_eq {n : Int} (hlo : ioError ≤ n) (hhi : n < 2 ^ 31) : toInt n = n := by
  rw [ioError] at hlo
  exact Int.bmod_eq_of_le (by omega) (by omega)

theorem stores_pwrite (fd : Nat) (file : Cells UInt8) (buf : Bytes) (offset : Nat) (n : Int) :
    stores fd file ⟨.pwrite fd buf offset, n⟩ = file.put offset (buf.take n.toNat) :=
  if_pos rfl

section Loop

variable {maxOffset fd ofst : Nat} {str : Bytes}

theorem Wrote.still {written : Nat} {ret : Int} (hw : written ≤ str.length)
    (hret : ret < 0 → written < str.length)
    (hshort : written < str.length → maxOffset < ofst + written) :
    Wrote fd str ofst written maxOffset ((ret, written), ()) [] where
  onFile := nofun
  le := Nat.le_refl _
  fits := hw
  stored file := by
    rw [Nat.sub_self, List.take_zero, Cells.put_nil]
    rfl
  failed := hret
  short h := .inr (hshort h)
  refused _ := ⟨rfl, rfl⟩

/-- The octets that a `pwrite` stored, and then those of the calls behind it. -/
theorem Wrote.cons {written step : Nat} {r : (Int × Nat) × Unit} {es : List OsEvent}
    (h : Wrote fd str ofst (written + step) maxOffset r es) (hfit : written + step ≤ str.length)
    (hofst : ofst ≤ maxOffset) :
    Wrote fd str ofst written maxOffset r
      (⟨.pwrite fd (str.drop written) (ofst + written), (step : Int)⟩ :: es) where
  onFile e he := by
    rcases List.mem_cons.mp he with rfl | he
    · exact ⟨_, _, _, rfl⟩
    · exact h.onFile e he
  le := (Nat.le_add_right written step).trans h.le
  fits := h.fits
  stored file := by
    have hle := h.le
    have hlen : ((str.drop written).take step).length = step := by
      rw [List.length_take, List.length_drop]
      omega
    have hpiece : (str.drop written).take (r.1.2 - written)
        = (str.drop written).take step ++ (str.drop (written + step)).take (r.1.2 - (written + step)) := by
      rw [← List.drop_drop, ← List.take_add]
      congr 1
      omega
    have hstored := h.stored (file.put (ofst + written) ((str.drop written).take step))
    rw [hpiece, ← Cells.put_append, hlen, Nat.add_assoc ofst, ← hstored, fileAfter, List.foldl_cons,
      stores_pwrite, Int.toNat_natCast, fileAfter]
  failed := h.failed
  short hs := by
    rcases h.short hs with ⟨e, he, hstuck⟩ | hmax
    · exact .inl ⟨e, List.mem_cons_of_mem _ he, hstuck⟩
    · exact .inr hmax
  refused hmax := absurd hofst (Nat.not_le.mpr hmax)

/-- A `pwrite` that stored nothing ends the loop. -/
theorem Wrote.stuck {written : Nat} {n : Int} (hw : written < str.length) (hn : n ≤ 0)
    (hofst : ofst ≤ maxOffset) :
    Wrote fd str ofst written maxOffset ((n, written), ())
      [⟨.pwrite fd (str.drop written) (ofst + written), n⟩] where
  onFile e he := by
    obtain rfl := List.mem_singleton.mp he
    exact ⟨_, _, _, rfl⟩
  le := Nat.le_refl _
  fits := Nat.le_of_lt hw
  stored file := by
    rw [fileAfter, List.foldl_cons, List.foldl_nil, stores_pwrite, Int.toNat_of_nonpos hn, Nat.sub_self,
      List.take_zero]
  failed _ := hw
  short _ := .inl ⟨_, List.mem_singleton_self _, fd, _, _, n, rfl, hn⟩
  refused hmax := absurd hofst (Nat.not_le.mpr hmax)

/-- The carry keeps the two words of the offset at `ofst + written`. -/
theorem carry_offset {lo hi step : Nat} (hlo : lo < 2 ^ 32) (hstep : step < 2 ^ 32)
    (hfit : 2 ^ 32 * hi + lo + step < 2 ^ 64) :
    2 ^ 32 * (if (lo + step) % 2 ^ 32 < step then (hi + 1) % 2 ^ 32 else hi) + (lo + step) % 2 ^ 32
      = 2 ^ 32 * hi + lo + step := by
  by_cases hwrap : lo + step < 2 ^ 32
  · have hstay : ¬(lo + step) % 2 ^ 32 < step := by omega
    rw [if_neg hstay]
    omega
  · have hcarry : (lo + step) % 2 ^ 32 < step := by omega
    rw [if_pos hcarry]
    omega

/-- The loop, from where the two words of the offset stand at `ofst + written`. -/
theorem writeAll_wrote (hmaxOffset : maxOffset < 2 ^ 63) (hstr : str.length < 2 ^ 31) (n : Nat) {written lo hi : Nat} {ret : Int}
    (hlo : lo < 2 ^ 32) (hpos : 2 ^ 32 * hi + lo = ofst + written) (hw : written ≤ str.length)
    (hn : str.length ≤ written + n) (hret : 0 ≤ ret) :
    Calls.Does Answers (Wrote fd str ofst written maxOffset)
      (ported maxOffset (writeAll fd false str n written lo hi ret)) := by
  induction n generalizing written lo hi ret with
  | zero =>
    exact Calls.Does.pure (.still hw (by omega) (by omega))
  | succ n ih =>
    rw [writeAll]
    split
    case isFalse hdone => exact Calls.Does.pure (.still hw (by omega) (by omega))
    case isTrue hmore =>
    change Calls.Does Answers _ (wPwrite maxOffset fd (str.drop written) lo hi >>= _ >>= _)
    by_cases hmax : maxOffset < ofst + written
    · rw [wPwrite_refused fd _ (by rwa [hpos])]
      exact Calls.Does.pure (.still hw (fun _ => hmore) (fun _ => hmax))
    · rw [wPwrite_resolved fd _ (by rwa [hpos]), hpos]
      have hofst : ofst ≤ maxOffset := by omega
      refine Calls.Does.call (c := OsCall.pwrite fd (str.drop written) (ofst + written)) ?_
      rintro (r : Int) ⟨hlow, hhigh⟩
      rw [List.length_drop] at hhigh
      have hcast : toInt r = r := toInt_eq hlow (by omega)
      change Calls.Does Answers _ (Calls.via (port maxOffset) (if toInt r ≤ 0 then _ else _) ())
      rw [hcast]
      by_cases hr : r ≤ 0
      · rw [if_pos hr]
        exact Calls.Does.pure (.stuck hmore hr hofst)
      · rw [if_neg hr]
        obtain ⟨step, rfl⟩ := Int.eq_ofNat_of_zero_le (Int.le_of_not_le hr)
        have hle : step ≤ str.length - written := Int.ofNat_le.mp hhigh
        have hpositive : 0 < step := Nat.pos_of_ne_zero (by rintro rfl; exact hr (Int.le_refl 0))
        clear hlow hhigh hcast hr
        have hfit : written + step ≤ str.length := by omega
        have hstep : step < 2 ^ 32 := by omega
        have hroom : 2 ^ 32 * hi + lo + step < 2 ^ 64 := by omega
        have hfuel : str.length ≤ written + step + n := by omega
        have hnext := carry_offset hlo hstep hroom
        rw [hpos, Nat.add_assoc] at hnext
        have hrest := @ih (written + step) _ _ step (Nat.mod_lt _ (by decide)) hnext hfit hfuel
          (Int.natCast_nonneg step)
        exact hrest.mono fun _ _ h => h.cons hfit hofst

end Loop

/-- The payload of a WRITE request, with whatever follows it. -/
def writeRequest (handle : Bytes) (ofst : Nat) (str rest : Bytes) : Bytes :=
  copyString handle ++ (c32toa (ofst / 2 ^ 32) ++ (c32toa (ofst % 2 ^ 32) ++ (copyString str ++ rest)))

theorem recvWrite_request {ssh : Session} {handle : Bytes} {cur : FileEntry} (reqId : Nat) {ofst : Nat}
    {str : Bytes} (rest : Bytes) (hcur : fileOfHandle ssh handle = some cur) (hofst : ofst < 2 ^ 64)
    (hstr : str.length < 2 ^ 32) :
    recvWrite ssh reqId (writeRequest handle ofst str rest) = (do
      let (ret, written) ← writeAll cur.fd cur.isAppend str str.length 0 (ofst % 2 ^ 32)
        (ofst / 2 ^ 32) 0
      if ret < 0 ∨ written ≠ str.length then writeFailed ssh reqId .invalidStateE
      else sendStatus ssh ftpOk reqId (ascii "Write File Success") .success) := by
  have hhandle : handle.length < 2 ^ 32 := by
    rw [fileOfHandle] at hcur
    split at hcur
    · rename_i hsz
      rw [hsz]
      decide
    · cases hcur
  have h0 : Rest (writeRequest handle ofst str rest) 0 (copyString handle ++ (c32toa (ofst / 2 ^ 32) ++
      (c32toa (ofst % 2 ^ 32) ++ (copyString str ++ rest)))) := rfl
  have h1 := h0.skip
  have h2 := h1.skip
  have h3 := h2.skip
  have hread := decodes_string hhandle _ _ _ h0
  have hofst1 := decodes_uint32 (by omega : ofst / 2 ^ 32 < 2 ^ 32) _ _ _ h1
  have hofst0 := decodes_uint32 (by omega : ofst % 2 ^ 32 < 2 ^ 32) _ _ _ h2
  have hdata := decodes_string hstr _ _ _ h3
  rw [Fallible.Yields] at hread hofst1 hofst0 hdata
  rw [recvWrite, hread]
  dsimp only
  rw [hcur]
  dsimp only
  rw [hofst1]
  dsimp only
  rw [hofst0]
  dsimp only
  rw [hdata]

/-- The calls `ws` of a WRITE request stored the first `written` octets of `str` at `ofst`, and the
reply that there was `memory` for says whether that was all of it. -/
structure Written (ssh : Session) (reqId fd ofst : Nat) (str : Bytes) (maxOffset : Nat) (r : Outcome)
    (ws : List OsEvent) (written : Nat) (memory : Bool) : Prop where
  onFile : ∀ e ∈ ws, Pwrites fd e
  fits : written ≤ str.length
  stored : ∀ file, fileAfter fd file ws = file.put ofst (str.take written)
  short : written < str.length → (∃ e ∈ ws, Stuck e) ∨ maxOffset < ofst + written
  refused : maxOffset < ofst → ws = [] ∧ written = 0
  reply : r = if memory = false then ⟨ssh, .memoryE, none⟩
    else if written = str.length then
      ⟨ssh, .success, some (createStatus ftpOk reqId (ascii "Write File Success"))⟩
    else ⟨ssh, .invalidStateE, some (createStatus ftpFailure reqId (ascii "Write File Error"))⟩

theorem sendStatus_ported {ssh : Session} {status reqId : Nat} {msg : Bytes} {ret : Code}
    (maxOffset : Nat) :
    Calls.Does Answers (fun r es => ∃ sz, ∃ memory : Bool, es = [⟨.other (.malloc sz), memory⟩] ∧
        r.1 = if memory = false then ⟨ssh, .memoryE, none⟩
          else ⟨ssh, ret, some (createStatus status reqId msg)⟩)
      (ported maxOffset (sendStatus ssh status reqId msg ret)) := by
  refine Calls.Does.call (c := OsCall.other (.malloc (createStatus status reqId msg).length)) ?_
  rintro (memory : Bool) -
  cases memory with
  | false => exact Calls.Does.pure ⟨_, false, rfl, rfl⟩
  | true => exact Calls.Does.pure ⟨_, true, rfl, rfl⟩

theorem recvWrite_written {ssh : Session} {handle : Bytes} {cur : FileEntry} (reqId : Nat)
    {maxOffset ofst : Nat} {str : Bytes} (rest : Bytes) (hmaxOffset : maxOffset < 2 ^ 63)
    (hcur : fileOfHandle ssh handle = some cur) (happend : cur.isAppend = false)
    (hofst : ofst < 2 ^ 64) (hstr : str.length < 2 ^ 31) :
    Calls.Does Answers (fun r es => ∃ ws sz written, ∃ memory : Bool,
        es = ws ++ [⟨.other (.malloc sz), memory⟩] ∧
          Written ssh reqId cur.fd ofst str maxOffset r.1 ws written memory)
      (ported maxOffset (recvWrite ssh reqId (writeRequest handle ofst str rest))) := by
  rw [recvWrite_request reqId rest hcur hofst (by omega), happend, ported, Calls.via_bind]
  have hpos : 2 ^ 32 * (ofst / 2 ^ 32) + ofst % 2 ^ 32 = ofst + 0 := Nat.div_add_mod ofst (2 ^ 32)
  have hloop := @writeAll_wrote maxOffset cur.fd ofst str hmaxOffset hstr str.length 0 _ _ 0
    (Nat.mod_lt _ (by decide)) hpos (Nat.zero_le _) (by omega) (Int.le_refl 0)
  refine Calls.Does.bind hloop ?_
  rintro ⟨⟨ret, written⟩, ⟨⟩⟩ ws hwrote
  have hstored := hwrote.stored
  rw [Nat.add_zero, List.drop_zero, Nat.sub_zero] at hstored
  dsimp only
  by_cases hall : written = str.length
  · have hret : ¬(ret < 0 ∨ written ≠ str.length) := by
      have hfailed := hwrote.failed
      dsimp only at hfailed
      omega
    rw [if_neg hret]
    refine (sendStatus_ported maxOffset).mono ?_
    rintro ⟨r, ⟨⟩⟩ es ⟨sz, memory, rfl, hr⟩
    refine ⟨ws, sz, written, memory, rfl, hwrote.onFile, hwrote.fits, hstored, hwrote.short,
      hwrote.refused, ?_⟩
    rw [if_pos hall]
    exact hr
  · rw [if_pos (.inr hall)]
    refine (sendStatus_ported maxOffset).mono ?_
    rintro ⟨r, ⟨⟩⟩ es ⟨sz, memory, rfl, hr⟩
    refine ⟨ws, sz, written, memory, rfl, hwrote.onFile, hwrote.fits, hstored, hwrote.short,
      hwrote.refused, ?_⟩
    rw [if_neg hall]
    exact hr

/-- A WRITE request on a handle that does not append stores its data at its offset and reports whether it
stored all of it; data that lies behind the port's offsets is not written. An attribute block has the
size that was reckoned for it, is read back to its flags and flagged fields, and no parse leaves the
buffer or moves the index where it fails. -/
theorem write_and_attributes :
    (∀ (sizeofOffT : Nat) (ssh : Session) (reqId : Nat) (handle : Bytes) (cur : FileEntry) (ofst : Nat)
      (str rest : Bytes) (env : OsEnv) (h : List OsEvent), fileOfHandle ssh handle = some cur →
      cur.isAppend = false → ofst < 2 ^ 64 → (writeRequest handle ofst str rest).length < 2 ^ 31 →
      (∀ h c, Answers c (env h c)) →
      ∃ ws sz written, ∃ memory : Bool,
        (Calls.run env (ported (fileOffsetMax sizeofOffT)
          (recvWrite ssh reqId (writeRequest handle ofst str rest))) h).2
          = h ++ (ws ++ [⟨.other (.malloc sz), memory⟩]) ∧
        Written ssh reqId cur.fd ofst str (fileOffsetMax sizeofOffT)
          (Calls.run env (ported (fileOffsetMax sizeofOffT)
            (recvWrite ssh reqId (writeRequest handle ofst str rest))) h).1.1 ws written memory) ∧
    (∀ a : FileAtrb, (setAttributes a).length = attributesSz a) ∧
    (∀ (a : FileAtrb) (p : Words.Payload) (idx : UInt32) (rest : Bytes), a.Fits →
      Rest p.octets idx.toNat (setAttributes a ++ rest) →
      ∃ i, Words.parseAttributesBuffer p idx = (.ok (a.flagged 0), i) ∧
        i.toNat = idx.toNat + attributesSz a) ∧
    ∀ (p : Words.Payload) (idx : UInt32),
      (∃ a i pairs, Words.parseAttributesBuffer p idx = (.ok a, i) ∧ a = a.flagged pairs.length ∧
        Rest p.octets idx.toNat (attributesBlock a pairs ++ p.octets.drop i.toNat) ∧
        i.toNat = idx.toNat + (attributesBlock a pairs).length ∧ i.toNat ≤ p.len.toNat) ∨
      Words.parseAttributesBuffer p idx = (.error (.failed .bufferE), idx) := by
  refine ⟨?_, length_setAttributes, ?_, Words.parseAttributesBuffer_outcome⟩
  · intro sizeofOffT ssh reqId handle cur ofst str rest env h hcur happend hofst hsz henv
    have hstr : str.length < 2 ^ 31 := by
      simp only [writeRequest, copyString, List.length_append, c32toa_length] at hsz
      omega
    have hdoes := recvWrite_written reqId rest (fileOffsetMax_lt sizeofOffT) hcur happend hofst hstr
    obtain ⟨_, hnew, ws, sz, written, memory, rfl, hwritten⟩ := hdoes.run henv h
    exact ⟨ws, sz, written, memory, hnew, hwritten⟩
  · intro a p idx rest ha hrest
    rw [← length_setAttributes a]
    rw [setAttributes_block] at hrest ⊢
    exact Words.parseAttributesBuffer_block ha ⟨by decide, by simp⟩ hrest

def oneFile : Session := { fileList := [⟨5, ascii "/tmp/log", (0, 0), false⟩] }

/-- `pwrite` stores two octets at a time; `memory` is there for the replies, or it is not. -/
def slowEnv (memory : Bool) : OsEnv := fun _ c =>
  match c with
  | .pwrite _ buf _ => ((min 2 buf.length : Nat) : Int)
  | .other (.malloc _) => memory
  | .other c => plainEnv [] c

theorem slowEnv_answers (memory : Bool) (h : List OsEvent) (c : OsCall) :
    Answers c (slowEnv memory h c) := by
  cases c with
  | other c => trivial
  | pwrite fd buf offset =>
    refine ⟨?_, Int.ofNat_le.mpr (Nat.min_le_right 2 buf.length)⟩
    exact Int.le_trans (by decide) (Int.natCast_nonneg _)

/-- What `oneFile` does with a WRITE request, and its calls. -/
def wrote (memory : Bool) (ofst : Nat) (str : Bytes) : (Outcome × Unit) × List OsEvent :=
  Calls.run (slowEnv memory) (ported (fileOffsetMax 8)
    (recvWrite oneFile 7 (writeRequest (handleIdEncode (0, 0)) ofst str []))) []

/-- A size, times and the mark of extensions. -/
def sampleAttributes : FileAtrb := { flags := 0x80000009, sz0 := 5, atime := 7, mtime := 8 }

/-- Their block behind four octets, and one octet more. -/
def sampleBlock : Words.Payload :=
  ⟨[0, 0, 0, 0] ++ (setAttributes sampleAttributes ++ [9]), 29, by decide⟩

theorem write_and_attributes_sample :
    (∃ ws sz written, ∃ memory : Bool, (wrote true 4294967295 [1, 2, 3]).2
        = [] ++ (ws ++ [⟨.other (.malloc sz), memory⟩]) ∧
      Written oneFile 7 5 4294967295 [1, 2, 3] (fileOffsetMax 8) (wrote true 4294967295 [1, 2, 3]).1.1
        ws written memory) ∧
    (wrote true 4294967295 [1, 2, 3]).1.1.toSend
      = some (createStatus ftpOk 7 (ascii "Write File Success")) ∧
    (setAttributes sampleAttributes).length = 24 ∧
    ∃ i, Words.parseAttributesBuffer sampleBlock 4 = (.ok (sampleAttributes.flagged 0), i) ∧
      i.toNat = 28 := by
  have hfile : fileOfHandle oneFile (handleIdEncode (0, 0)) = some ⟨5, ascii "/tmp/log", (0, 0), false⟩ := by
    decide +kernel
  have hrun := write_and_attributes.1 8 oneFile 7 (handleIdEncode (0, 0)) _ 4294967295 [1, 2, 3] []
    (slowEnv true) [] hfile rfl (by decide) (by decide +kernel) (slowEnv_answers true)
  have hfits : sampleAttributes.Fits := by
    constructor <;> decide
  have hrest : Rest sampleBlock.octets 4 (setAttributes sampleAttributes ++ [9]) := by
    rw [Rest]
    decide
  exact ⟨hrun, by decide +kernel, write_and_attributes.2.1 sampleAttributes,
    write_and_attributes.2.2.1 sampleAttributes sampleBlock 4 [9] hfits hrest⟩

/-- A request without data is not refused however large its offset; and where there is no memory for
the status, none is sent for data that was stored. -/
theorem empty_write_beyond_range :
    (fileOffsetMax 8 < 9223372036854775808 ∧ (wrote true 9223372036854775808 []).1.1.toSend
      = some (createStatus ftpOk 7 (ascii "Write File Success"))) ∧
    (wrote false 0 [1, 2]).1.1.toSend = none ∧
    ((wrote false 0 [1, 2]).2.map Sigma.fst).head? = some (.pwrite 5 [1, 2] 0) := by
  refine ⟨⟨by decide, by decide +kernel⟩, by decide +kernel, by decide +kernel⟩

end WolfSsh.Sftp
