import WolfSsh.KexHash
import WolfSsh.Lib.Feedback

/-! Keys and IVs from the shared secret and the exchange hash (RFC 4253 section 7.2), by a hash whose
every call may fail. -/

namespace WolfSsh

open Fallible

/-- The hash in use. No digest is longer than its size says. -/
structure KeyHash where
  digestSz : Nat
  digest : Bytes → Bytes
  length_digest : ∀ data, (digest data).length = digestSz

/-- A hash at work, and the output that it writes to. `results` is what its next calls come to: a
failed call may leave octets where its digest was to go. Past the end of the list they succeed. -/
structure HashRun where
  results : List (Option Bytes)
  hashed : Bytes
  key : Bytes

abbrev HashM := Fallible WsErr HashRun

def nextResult : HashM (Option Bytes) := do
  let s ← get
  set { s with results := s.results.tail }
  return s.results.head?.join

/-- A call of the hash that does `f` if it succeeds. -/
def hashCall (f : HashRun → HashRun) : HashM Unit := do
  let result ← nextResult
  require (result = none) .cryptoFailed
  modify f

def hashInit : HashM Unit := hashCall fun s => { s with hashed := [] }

def hashUpdate (data : Bytes) : HashM Unit := hashCall fun s => { s with hashed := s.hashed ++ data }

def hashFinal (H : KeyHash) : HashM Bytes := do
  hashCall id
  let s ← get
  return H.digest s.hashed

def overwrite (buf : Bytes) (off : Nat) (bs : Bytes) : Bytes :=
  buf.take off ++ (bs ++ buf.drop (off + bs.length))

/-- A digest into the output, from `off` on. -/
def hashFinalTo (H : KeyHash) (off : Nat) : HashM Unit := do
  match ← nextResult with
  | none => modify fun s => { s with key := overwrite s.key off (H.digest s.hashed) }
  | some junk =>
    modify fun s => { s with key := overwrite s.key off (junk.take H.digestSz) }
    throw .cryptoFailed

def hashMpintHeader (sz : Nat) (pad : Bool) : HashM Unit :=
  hashUpdate (c32toa (sz + pad.toNat) ++ padBytes pad)

/-- What every block starts from: the shared secret and the exchange hash. -/
def hashSecret (k : Bytes) (kPad : Bool) (h : Bytes) : HashM Unit := do
  hashInit
  hashMpintHeader k.length kPad
  hashUpdate k
  hashUpdate h

/-- `n` more blocks after `runningKeySz` octets of output; the octets there are then. -/
def hashBlocks (H : KeyHash) (k : Bytes) (kPad : Bool) (h : Bytes) : Nat → Nat → HashM Nat
  | 0, runningKeySz => return runningKeySz
  | n + 1, runningKeySz => do
    hashSecret k kPad h
    let s ← get
    hashUpdate (s.key.take runningKeySz)
    hashFinalTo H runningKeySz
    hashBlocks H k kPad h n (runningKeySz + H.digestSz)

def writeKey (off : Nat) (bs : Bytes) : HashM Unit :=
  modify fun s => { s with key := overwrite s.key off bs }

/-- The output of `GenerateKey`, for arguments that it takes. -/
def generateBlocks (H : KeyHash) (keyId : UInt8) (keySz : Nat) (k : Bytes) (kPad : Bool)
    (h sessionId : Bytes) : HashM Unit := do
  let blocks := keySz / H.digestSz
  let remainder := keySz % H.digestSz
  hashSecret k kPad h
  hashUpdate [keyId]
  hashUpdate sessionId
  if blocks = 0 then
    if remainder > 0 then
      let lastBlock ← hashFinal H
      writeKey 0 (lastBlock.take remainder)
  else
    hashFinalTo H 0
    let runningKeySz ← hashBlocks H k kPad h (blocks - 1) H.digestSz
    if remainder > 0 then
      hashSecret k kPad h
      let s ← get
      hashUpdate (s.key.take runningKeySz)
      let lastBlock ← hashFinal H
      writeKey runningKeySz (lastBlock.take remainder)

def generateKey (H : KeyHash) (keyId : UInt8) (keySz : Nat) (k h sessionId : Bytes)
    (doKeyPad : Bool) : HashM Unit := do
  require (keySz ≠ 0 ∧ k ≠ [] ∧ h ≠ [] ∧ sessionId ≠ []) .badArgument
  require (0 < H.digestSz) .badArgument
  generateBlocks H keyId keySz k (doKeyPad && k.headD 0 >>> 7 == 1) h sessionId

/-! The stream of RFC 4253 section 7.2. -/

/-- The shared secret as the hash takes it: an mpint, or a string where no padding is asked for. -/
def secretForm (doKeyPad : Bool) (k : Bytes) : Bytes :=
  copyMpint (if doKeyPad then msbPadded k else (k, false))

/-- K1, K2 and so on, up to the block after the `n`th. -/
def keyStream (H : KeyHash) (keyId : UInt8) (k h sessionId : Bytes) (doKeyPad : Bool) : Nat → Bytes :=
  Feedback.chain (H.digest (secretForm doKeyPad k ++ (h ++ (keyId :: sessionId))))
    fun out => H.digest (secretForm doKeyPad k ++ (h ++ out))

theorem shiftRight_seven_eq (b : UInt8) : (b >>> 7 == 1) = (b &&& 0x80 != 0) := by
  have hlt : b.toNat < 256 := b.toNat_lt
  have hshift : (b >>> 7).toNat = b.toNat / 128 := by
    rw [UInt8.toNat_shiftRight]
    exact Nat.shiftRight_eq_div_pow _ _
  rw [and_high_eq, beq_eq_decide, decide_eq_decide, ← UInt8.toNat_inj, hshift]
  constructor
  · intro h
    have h1 : b.toNat / 128 = 1 := h
    omega
  · intro h
    show b.toNat / 128 = 1
    omega

/-! What a run of the hash leaves, if no call of it fails. -/

section Yields

variable {H : KeyHash} {s t : HashRun} {u : Unit} {k h : Bytes} {kPad : Bool}

theorem overwrite_append (pre rest bs : Bytes) :
    overwrite (pre ++ rest) pre.length bs = pre ++ (bs ++ rest.drop bs.length) := by
  rw [overwrite, List.take_left, ← List.drop_drop, List.drop_left]

theorem nextResult_yields_iff {result : Option Bytes} :
    Yields nextResult s result t ↔
      s.results.head?.join = result ∧ { s with results := s.results.tail } = t := by
  simp only [nextResult, Yields, runAt_bind, runAt_get, runAt_set, runAt_pure, Prod.mk.injEq,
    Except.ok.injEq]

theorem hashCall_yields {f : HashRun → HashRun} (hrun : Yields (hashCall f) s u t) :
    f { s with results := s.results.tail } = t := by
  simp only [hashCall, yields_bind_iff, nextResult_yields_iff, yields_require_iff,
    yields_modify_iff] at hrun
  obtain ⟨_, _, ⟨-, rfl⟩, _, _, ⟨-, rfl⟩, hf⟩ := hrun
  exact hf

theorem hashUpdate_yields {data : Bytes} (hrun : Yields (hashUpdate data) s u t) :
    ∃ results, t = ⟨results, s.hashed ++ data, s.key⟩ :=
  ⟨_, (hashCall_yields hrun).symm⟩

theorem hashFinal_yields {digest : Bytes} (hrun : Yields (hashFinal H) s digest t) :
    digest = H.digest s.hashed ∧ ∃ results, t = ⟨results, s.hashed, s.key⟩ := by
  simp only [hashFinal, yields_bind_iff, yields_get_iff, yields_pure_iff] at hrun
  obtain ⟨_, _, hcall, _, _, ⟨rfl, rfl⟩, rfl, rfl⟩ := hrun
  obtain rfl := hashCall_yields hcall
  exact ⟨rfl, _, rfl⟩

theorem hashFinalTo_yields {off : Nat} (hrun : Yields (hashFinalTo H off) s u t) :
    ∃ results, t = ⟨results, s.hashed, overwrite s.key off (H.digest s.hashed)⟩ := by
  simp only [hashFinalTo, yields_bind_iff, nextResult_yields_iff] at hrun
  obtain ⟨result, _, ⟨-, rfl⟩, hrun⟩ := hrun
  cases result with
  | none => exact ⟨_, (yields_modify_iff.mp hrun).symm⟩
  | some junk =>
    rw [yields_bind_iff] at hrun
    obtain ⟨_, _, -, hthrow⟩ := hrun
    simp [Yields] at hthrow

theorem hashSecret_yields (hrun : Yields (hashSecret k kPad h) s u t) :
    ∃ results, t = ⟨results, copyMpint (k, kPad) ++ h, s.key⟩ := by
  simp only [hashSecret, yields_bind_iff] at hrun
  obtain ⟨_, _, hinit, _, _, hheader, _, _, hk, hh⟩ := hrun
  obtain rfl := hashCall_yields hinit
  obtain ⟨_, rfl⟩ := hashUpdate_yields hheader
  obtain ⟨_, rfl⟩ := hashUpdate_yields hk
  obtain ⟨results, rfl⟩ := hashUpdate_yields hh
  refine ⟨results, ?_⟩
  cases kPad <;> simp [copyMpint, padBytes]

end Yields

/-! The blocks, and the part of the last one. -/

section Stream

variable {H : KeyHash} {s t : HashRun} {u : Unit} {first k h : Bytes} {kPad : Bool}

/-- The block after the octets `out`. -/
def nextBlock (H : KeyHash) (k : Bytes) (kPad : Bool) (h out : Bytes) : Bytes :=
  H.digest (copyMpint (k, kPad) ++ (h ++ out))

theorem length_nextBlock (out : Bytes) : (nextBlock H k kPad h out).length = H.digestSz :=
  H.length_digest _

/-- With the first `n + 1` blocks in the output the loop puts the next `m` behind them. -/
theorem hashBlocks_yields {n m running last : Nat} {rest : Bytes}
    (hkey : s.key = Feedback.chain first (nextBlock H k kPad h) n ++ rest)
    (hrunning : running = (Feedback.chain first (nextBlock H k kPad h) n).length)
    (hrun : Yields (hashBlocks H k kPad h m running) s last t) :
    last = (Feedback.chain first (nextBlock H k kPad h) (n + m)).length ∧
      t.key = Feedback.chain first (nextBlock H k kPad h) (n + m) ++ rest.drop (m * H.digestSz) := by
  induction m generalizing s n running rest with
  | zero =>
    obtain ⟨rfl, rfl⟩ := yields_pure_iff.mp hrun
    refine ⟨hrunning, ?_⟩
    rw [Nat.zero_mul, List.drop_zero, Nat.add_zero, hkey]
  | succ m ih =>
    simp only [hashBlocks, yields_bind_iff, yields_get_iff] at hrun
    obtain ⟨_, _, hsecret, _, _, ⟨rfl, rfl⟩, _, _, hupdate, _, _, hfinal, hrun⟩ := hrun
    obtain ⟨_, rfl⟩ := hashSecret_yields hsecret
    obtain ⟨_, rfl⟩ := hashUpdate_yields hupdate
    obtain ⟨results, rfl⟩ := hashFinalTo_yields hfinal
    have hlen : (nextBlock H k kPad h (Feedback.chain first (nextBlock H k kPad h) n)).length =
        H.digestSz := length_nextBlock _
    have hout : s.key.take running = Feedback.chain first (nextBlock H k kPad h) n := by
      rw [hkey, hrunning, List.take_left]
    have hnext := @ih ⟨results, copyMpint (k, kPad) ++ h ++ s.key.take running,
      overwrite s.key running (nextBlock H k kPad h (s.key.take running))⟩ (n + 1)
      (running + H.digestSz) (rest.drop H.digestSz) ?_ ?_ ?_
    · rw [List.drop_drop, Nat.add_assoc, Nat.add_comm 1 m] at hnext
      rw [Nat.add_one_mul, Nat.add_comm (m * H.digestSz)]
      exact hnext
    · rw [hout]
      show overwrite s.key running _ = _
      rw [hkey, hrunning, overwrite_append, hlen, Feedback.chain, List.append_assoc]
    · rw [Feedback.chain, List.length_append, hlen, hrunning]
    · rw [nextBlock, ← List.append_assoc]
      exact hrun

/-- The octets of the first digest and the loop, with those of the last digest that are asked for. -/
theorem generateBlocks_yields {keyId : UInt8} {keySz : Nat} {sessionId : Bytes}
    (hd : 0 < H.digestSz)
    (hrun : Yields (generateBlocks H keyId keySz k kPad h sessionId) s u t) :
    t.key = (Feedback.chain (H.digest (copyMpint (k, kPad) ++ (h ++ (keyId :: sessionId))))
        (nextBlock H k kPad h) (keySz / H.digestSz)).take keySz ++ s.key.drop keySz := by
  unfold generateBlocks at hrun
  simp only [yields_bind_iff] at hrun
  obtain ⟨_, _, hsecret, _, _, hletter, _, _, hsession, hrun⟩ := hrun
  obtain ⟨_, rfl⟩ := hashSecret_yields hsecret
  obtain ⟨_, rfl⟩ := hashUpdate_yields hletter
  obtain ⟨_, rfl⟩ := hashUpdate_yields hsession
  have hhashed : copyMpint (k, kPad) ++ h ++ [keyId] ++ sessionId =
      copyMpint (k, kPad) ++ (h ++ (keyId :: sessionId)) := by simp
  simp only [hhashed] at hrun
  generalize hfirst : copyMpint (k, kPad) ++ (h ++ (keyId :: sessionId)) = data at hrun ⊢
  have hlen : (H.digest data).length = H.digestSz := H.length_digest _
  have hsplit := Nat.div_add_mod' keySz H.digestSz
  cases hblocks : keySz / H.digestSz with
  | zero =>
    have hsmall : keySz % H.digestSz = keySz := by
      rw [hblocks] at hsplit
      omega
    rw [hblocks, if_pos rfl, hsmall] at hrun
    have hshort : keySz < H.digestSz := (Nat.div_eq_zero_iff_lt hd).mp hblocks
    split at hrun
    · rw [yields_bind_iff] at hrun
      obtain ⟨_, _, hfinal, hwrite⟩ := hrun
      obtain ⟨rfl, _, rfl⟩ := hashFinal_yields hfinal
      obtain rfl := yields_modify_iff.mp hwrite
      have hbs : ((H.digest data).take keySz).length = keySz := by
        rw [List.length_take, hlen]
        omega
      simp only [overwrite, List.take_zero, List.nil_append, Nat.zero_add, hbs, Feedback.chain]
    · obtain ⟨-, rfl⟩ := yields_pure_iff.mp hrun
      have hzero : keySz = 0 := by omega
      simp [hzero]
  | succ b =>
    rw [hblocks, if_neg (Nat.succ_ne_zero b), Nat.add_sub_cancel] at hrun
    rw [hblocks] at hsplit
    simp only [yields_bind_iff] at hrun
    obtain ⟨_, _, hfinal, last, _, hloop, hrun⟩ := hrun
    obtain ⟨results, rfl⟩ := hashFinalTo_yields hfinal
    have hstart : overwrite s.key 0 (H.digest data) =
        Feedback.chain (H.digest data) (nextBlock H k kPad h) 0 ++ s.key.drop H.digestSz := by
      simp [overwrite, hlen, Feedback.chain]
    obtain ⟨hlast, hkey⟩ := hashBlocks_yields hstart hlen.symm hloop
    rw [Nat.zero_add] at hlast hkey
    rw [List.drop_drop, Nat.add_comm, ← Nat.add_one_mul] at hkey
    have hchain : (Feedback.chain (H.digest data) (nextBlock H k kPad h) b).length =
        (b + 1) * H.digestSz := Feedback.length_chain hlen (fun _ => length_nextBlock _) b
    generalize hout : Feedback.chain (H.digest data) (nextBlock H k kPad h) b = out at hlast hkey hchain
    rw [Feedback.chain, hout, List.take_append, hchain]
    split at hrun
    · simp only [yields_bind_iff, yields_get_iff] at hrun
      obtain ⟨_, _, hsecret, _, _, ⟨rfl, rfl⟩, _, _, hupdate, _, _, hfinal, hwrite⟩ := hrun
      obtain ⟨_, rfl⟩ := hashSecret_yields hsecret
      obtain ⟨_, rfl⟩ := hashUpdate_yields hupdate
      obtain ⟨rfl, _, rfl⟩ := hashFinal_yields hfinal
      obtain rfl := yields_modify_iff.mp hwrite
      have hpart : ((nextBlock H k kPad h out).take (keySz % H.digestSz)).length =
          keySz % H.digestSz := by
        rw [List.length_take, length_nextBlock]
        exact Nat.min_eq_left (Nat.mod_lt _ hd).le
      have hrest : keySz - (b + 1) * H.digestSz = keySz % H.digestSz := by omega
      have hwhole : out.take keySz = out := List.take_of_length_le (by omega)
      simp only [hkey, hlast, List.take_left, overwrite_append, List.append_assoc]
      rw [← nextBlock, hpart, List.drop_drop, hsplit, hrest, hwhole]
    · obtain ⟨-, rfl⟩ := yields_pure_iff.mp hrun
      have hwhole : keySz = (b + 1) * H.digestSz := by omega
      rw [hkey, hwhole, Nat.sub_self, List.take_zero, List.append_nil, ← hchain, List.take_length]

end Stream

/-! A run fails if a call of the hash did, and only then. -/

/-- The run takes results from the front of the list, and comes to an end of its own unless one of
them is a failure. -/
def Heeds {σ α : Type} (results : σ → List (Option Bytes)) (m : Fallible WsErr σ α) : Prop :=
  ∀ s, ∃ used, results s = used ++ results (m.runAt s).2 ∧
    if ∀ result ∈ used, result = none then ∃ a, (m.runAt s).1 = .ok a
    else (m.runAt s).1 = .error .cryptoFailed

namespace Heeds

variable {σ τ α β : Type} {results : σ → List (Option Bytes)} {m : Fallible WsErr σ α}
  {f : α → Fallible WsErr σ β}

theorem pure (a : α) : Heeds results (pure a : Fallible WsErr σ α) := by
  intro s
  exact ⟨[], rfl, by simp⟩

theorem get : Heeds results (get : Fallible WsErr σ σ) := by
  intro s
  exact ⟨[], rfl, by simp⟩

theorem modify {f : σ → σ} (hf : ∀ s, results (f s) = results s) :
    Heeds results (modify f : Fallible WsErr σ Unit) := by
  intro s
  exact ⟨[], (hf s).symm, by simp⟩

theorem zoom {into : τ → σ} {back : σ → τ → τ} {whole : τ → List (Option Bytes)}
    (hinto : ∀ t, results (into t) = whole t) (hback : ∀ s t, whole (back s t) = results s)
    (hm : Heeds results m) : Heeds whole (zoom into back m) := by
  intro t
  obtain ⟨used, hused, hend⟩ := hm (into t)
  refine ⟨used, ?_, hend⟩
  rw [runAt_zoom, hback, ← hused, hinto]

theorem bind (hm : Heeds results m) (hf : ∀ a, Heeds results (f a)) : Heeds results (m >>= f) := by
  intro s
  obtain ⟨used, hused, hend⟩ := hm s
  rw [runAt_bind]
  rcases hrun : m.runAt s with ⟨_ | a, t⟩
  · rw [hrun] at hused hend
    have hfail : ¬ ∀ result ∈ used, result = none := by
      intro hall
      rw [if_pos hall] at hend
      obtain ⟨_, hend⟩ := hend
      cases hend
    rw [if_neg hfail] at hend
    refine ⟨used, hused, ?_⟩
    rw [if_neg hfail]
    exact congrArg Except.error (Except.error.inj hend)
  · rw [hrun] at hused hend
    have hfine : ∀ result ∈ used, result = none := by
      by_contra hfail
      rw [if_neg hfail] at hend
      cases hend
    obtain ⟨more, hmore, hlast⟩ := hf a t
    refine ⟨used ++ more, ?_, ?_⟩
    · rw [hused, hmore, List.append_assoc]
    · by_cases hall : ∀ result ∈ more, result = none
      · rw [if_pos hall] at hlast
        rw [if_pos fun result hr => (List.mem_append.mp hr).elim (hfine result) (hall result)]
        exact hlast
      · rw [if_neg hall] at hlast
        rw [if_neg fun h => hall fun result hr => h result (List.mem_append_right _ hr)]
        exact hlast

end Heeds

section Calls

variable {α : Type} {m : HashM α}

theorem heeds_call (hfine : ∀ s, s.results.head?.join = none → ∃ a, (m.runAt s).1 = .ok a)
    (hfail : ∀ s junk, s.results.head?.join = some junk → (m.runAt s).1 = .error .cryptoFailed)
    (hrest : ∀ s, (m.runAt s).2.results = s.results.tail) : Heeds HashRun.results m := by
  intro s
  rw [hrest]
  cases hres : s.results with
  | nil => exact ⟨[], rfl, by simpa using hfine s (by simp [hres])⟩
  | cons result rest =>
    refine ⟨[result], rfl, ?_⟩
    cases result with
    | none => simpa using hfine s (by simp [hres])
    | some junk => simpa using hfail s junk (by simp [hres])

theorem nextResult_runAt (s : HashRun) :
    nextResult.runAt s = (.ok s.results.head?.join, { s with results := s.results.tail }) :=
  nextResult_yields_iff.mpr ⟨rfl, rfl⟩

theorem heeds_hashCall {f : HashRun → HashRun} (hf : ∀ s, (f s).results = s.results) :
    Heeds HashRun.results (hashCall f) := by
  have hrun : ∀ s, (hashCall f).runAt s = if s.results.head?.join = none then
      (.ok ⟨⟩, f { s with results := s.results.tail })
      else (.error .cryptoFailed, { s with results := s.results.tail }) := by
    intro s
    by_cases hnone : s.results.head?.join = none <;>
      simp [hashCall, runAt_bind, nextResult_runAt, require, hnone]
  refine heeds_call (fun s hs => ?_) (fun s junk hs => ?_) (fun s => ?_)
  · rw [hrun, if_pos hs]
    exact ⟨_, rfl⟩
  · rw [hrun, if_neg (by simp [hs])]
  · rw [hrun]
    split
    · exact hf _
    · rfl

theorem heeds_hashInit : Heeds HashRun.results hashInit := heeds_hashCall fun _ => rfl

theorem heeds_hashUpdate (data : Bytes) : Heeds HashRun.results (hashUpdate data) :=
  heeds_hashCall fun _ => rfl

theorem heeds_hashFinal (H : KeyHash) : Heeds HashRun.results (hashFinal H) :=
  (heeds_hashCall fun _ => rfl).bind fun _ => Heeds.get.bind fun _ => Heeds.pure _

theorem heeds_hashFinalTo (H : KeyHash) (off : Nat) : Heeds HashRun.results (hashFinalTo H off) := by
  refine heeds_call (fun s hs => ?_) (fun s junk hs => ?_) (fun s => ?_)
  · simp [hashFinalTo, runAt_bind, nextResult_runAt, hs]
  · simp [hashFinalTo, runAt_bind, nextResult_runAt, hs]
  · cases hs : s.results.head?.join <;> simp [hashFinalTo, runAt_bind, nextResult_runAt, hs]

theorem heeds_hashSecret (k : Bytes) (kPad : Bool) (h : Bytes) :
    Heeds HashRun.results (hashSecret k kPad h) :=
  heeds_hashInit.bind fun _ => (heeds_hashUpdate _).bind fun _ => (heeds_hashUpdate _).bind fun _ =>
    heeds_hashUpdate _

theorem heeds_hashBlocks (H : KeyHash) (k : Bytes) (kPad : Bool) (h : Bytes) (n running : Nat) :
    Heeds HashRun.results (hashBlocks H k kPad h n running) := by
  induction n generalizing running with
  | zero => exact Heeds.pure _
  | succ n ih =>
    exact (heeds_hashSecret k kPad h).bind fun _ => Heeds.get.bind fun _ =>
      (heeds_hashUpdate _).bind fun _ => (heeds_hashFinalTo H _).bind fun _ => ih _

theorem heeds_generateBlocks (H : KeyHash) (keyId : UInt8) (keySz : Nat) (k : Bytes) (kPad : Bool)
    (h sessionId : Bytes) : Heeds HashRun.results (generateBlocks H keyId keySz k kPad h sessionId) := by
  have hwrite : ∀ off bs, Heeds HashRun.results (writeKey off bs) :=
    fun off bs => Heeds.modify fun _ => rfl
  unfold generateBlocks
  refine (heeds_hashSecret k kPad h).bind fun _ => (heeds_hashUpdate _).bind fun _ =>
    (heeds_hashUpdate _).bind fun _ => ?_
  split
  · split
    · exact (heeds_hashFinal H).bind fun _ => hwrite _ _
    · exact Heeds.pure _
  · refine (heeds_hashFinalTo H 0).bind fun _ => (heeds_hashBlocks H k kPad h _ _).bind fun _ => ?_
    split
    · exact (heeds_hashSecret k kPad h).bind fun _ => Heeds.get.bind fun _ =>
        (heeds_hashUpdate _).bind fun _ => (heeds_hashFinal H).bind fun _ => hwrite _ _
    · exact Heeds.pure _

end Calls

/-! One key. -/

section GenerateKey

variable {H : KeyHash} {keyId : UInt8} {keySz : Nat} {k h sessionId : Bytes} {doKeyPad : Bool}

/-- The arguments that `GenerateKey` takes. -/
def KeyArgs (H : KeyHash) (keySz : Nat) (k h sessionId : Bytes) : Prop :=
  (keySz ≠ 0 ∧ k ≠ [] ∧ h ≠ [] ∧ sessionId ≠ []) ∧ 0 < H.digestSz

instance : Decidable (KeyArgs H keySz k h sessionId) := inferInstanceAs (Decidable (_ ∧ _))

/-- The first octets of the stream, however far it is taken. -/
def IsKey (H : KeyHash) (keyId : UInt8) (keySz : Nat) (k h sessionId : Bytes) (doKeyPad : Bool)
    (key : Bytes) : Prop :=
  key.length = keySz ∧
    ∀ n, keySz ≤ (n + 1) * H.digestSz →
      key = (keyStream H keyId k h sessionId doKeyPad n).take keySz

theorem secretForm_eq (k : Bytes) (doKeyPad : Bool) :
    secretForm doKeyPad k = copyMpint (k, doKeyPad && k.headD 0 >>> 7 == 1) := by
  cases doKeyPad with
  | false => rfl
  | true =>
    rw [secretForm, if_pos rfl, msbPadded, shiftRight_seven_eq, Bool.true_and]

theorem length_keyStream (n : Nat) :
    (keyStream H keyId k h sessionId doKeyPad n).length = (n + 1) * H.digestSz :=
  Feedback.length_chain (H.length_digest _) (fun _ => H.length_digest _) n

theorem isKey_take (hd : 0 < H.digestSz) :
    IsKey H keyId keySz k h sessionId doKeyPad
      ((keyStream H keyId k h sessionId doKeyPad (keySz / H.digestSz)).take keySz) := by
  have hlong : keySz ≤ (keyStream H keyId k h sessionId doKeyPad (keySz / H.digestSz)).length := by
    rw [length_keyStream, Nat.mul_comm]
    exact (Nat.lt_mul_div_succ keySz hd).le
  refine ⟨by rw [List.length_take, Nat.min_eq_left hlong], fun n hn => ?_⟩
  exact Feedback.take_chain hlong (by rwa [← keyStream, length_keyStream])

theorem IsKey.unique {key key' : Bytes} (hd : 0 < H.digestSz)
    (hkey : IsKey H keyId keySz k h sessionId doKeyPad key)
    (hkey' : IsKey H keyId keySz k h sessionId doKeyPad key') : key = key' := by
  have hlong : keySz ≤ (keySz / H.digestSz + 1) * H.digestSz := by
    rw [Nat.mul_comm]
    exact (Nat.lt_mul_div_succ keySz hd).le
  rw [hkey.2 _ hlong, hkey'.2 _ hlong]

theorem generateKey_refuses (hargs : ¬ KeyArgs H keySz k h sessionId) (s : HashRun) :
    (generateKey H keyId keySz k h sessionId doKeyPad).runAt s = (.error .badArgument, s) := by
  by_cases hfirst : keySz ≠ 0 ∧ k ≠ [] ∧ h ≠ [] ∧ sessionId ≠ []
  · have hsecond : ¬ 0 < H.digestSz := fun hd => hargs ⟨hfirst, hd⟩
    have hpass : Yields (require (keySz ≠ 0 ∧ k ≠ [] ∧ h ≠ [] ∧ sessionId ≠ []) WsErr.badArgument)
      s ⟨⟩ s := yields_require_iff.mpr ⟨hfirst, rfl⟩
    rw [generateKey, hpass.runAt_bind, runAt_bind, require, if_neg hsecond]
    rfl
  · rw [generateKey, runAt_bind, require, if_neg hfirst]
    rfl

theorem generateKey_runAt (hargs : KeyArgs H keySz k h sessionId) (s : HashRun) :
    (generateKey H keyId keySz k h sessionId doKeyPad).runAt s =
      (generateBlocks H keyId keySz k (doKeyPad && k.headD 0 >>> 7 == 1) h sessionId).runAt s := by
  have hfirst : Yields (require (keySz ≠ 0 ∧ k ≠ [] ∧ h ≠ [] ∧ sessionId ≠ []) WsErr.badArgument)
    s ⟨⟩ s := yields_require_iff.mpr ⟨hargs.1, rfl⟩
  have hsecond : Yields (require (0 < H.digestSz) WsErr.badArgument) s ⟨⟩ s :=
    yields_require_iff.mpr ⟨hargs.2, rfl⟩
  rw [generateKey, hfirst.runAt_bind, hsecond.runAt_bind]

theorem generateKey_yields {s t : HashRun} {u : Unit}
    (hrun : Yields (generateKey H keyId keySz k h sessionId doKeyPad) s u t) :
    ∃ key, IsKey H keyId keySz k h sessionId doKeyPad key ∧ t.key = key ++ s.key.drop keySz := by
  by_cases hargs : KeyArgs H keySz k h sessionId
  · rw [Yields, generateKey_runAt hargs] at hrun
    have hkey := generateBlocks_yields hargs.2 hrun
    refine ⟨_, isKey_take hargs.2, ?_⟩
    rw [keyStream, secretForm_eq]
    exact hkey
  · rw [Yields, generateKey_refuses hargs] at hrun
    simp at hrun

theorem generateKey_spec (s : HashRun) :
    let r := (generateKey H keyId keySz k h sessionId doKeyPad).runAt s
    if KeyArgs H keySz k h sessionId then
      ∃ used, s.results = used ++ r.2.results ∧
        if ∀ result ∈ used, result = none then
          r.1 = .ok ⟨⟩ ∧ ∃ key, IsKey H keyId keySz k h sessionId doKeyPad key ∧
            r.2.key = key ++ s.key.drop keySz
        else r.1 = .error .cryptoFailed
    else r = (.error .badArgument, s) := by
  intro r
  split
  · rename_i hargs
    have hr : r = _ := generateKey_runAt hargs s
    obtain ⟨used, hused, hend⟩ := heeds_generateBlocks H keyId keySz k
      (doKeyPad && k.headD 0 >>> 7 == 1) h sessionId s
    rw [← hr] at hused hend
    refine ⟨used, hused, ?_⟩
    split
    · rename_i hall
      rw [if_pos hall] at hend
      obtain ⟨⟨⟩, hok⟩ := hend
      have hyields : Yields (generateKey H keyId keySz k h sessionId doKeyPad) s ⟨⟩ r.2 :=
        Prod.ext hok rfl
      exact ⟨hok, generateKey_yields hyields⟩
    · rename_i hsome
      rwa [if_neg hsome] at hend
  · rename_i hargs
    exact generateKey_refuses hargs s

end GenerateKey

end WolfSsh
