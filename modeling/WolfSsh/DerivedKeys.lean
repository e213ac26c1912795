import WolfSsh.KeyDerivation
import WolfSsh.NegotiateAgreement
import Mathlib.Data.UInt

/-! The keys of both directions, as a client and a server derive them. -/

namespace WolfSsh

open Fallible

def aes256KeySize : Nat := 32
def maxHmacSz : Nat := 64

/-- The keys of one direction, in the arrays that are there for them. -/
structure Keys where
  iv : Bytes
  ivSz : Nat
  encKey : Bytes
  encKeySz : Nat
  macKey : Bytes
  macKeySz : Nat
deriving DecidableEq

inductive KeyField where
  | iv | encKey | macKey
deriving DecidableEq

namespace Keys

def buf (keys : Keys) : KeyField → Bytes
  | .iv => keys.iv
  | .encKey => keys.encKey
  | .macKey => keys.macKey

def sz (keys : Keys) : KeyField → Nat
  | .iv => keys.ivSz
  | .encKey => keys.encKeySz
  | .macKey => keys.macKeySz

def put (field : KeyField) (bs : Bytes) (keys : Keys) : Keys :=
  match field with
  | .iv => { keys with iv := bs }
  | .encKey => { keys with encKey := bs }
  | .macKey => { keys with macKey := bs }

/-- The arrays are zeroed, and the negotiated sizes kept. -/
def wipe (keys : Keys) : Keys :=
  { keys with
    iv := List.replicate aesBlockSize 0
    encKey := List.replicate aes256KeySize 0
    macKey := List.replicate maxHmacSz 0 }

/-- The key or IV itself, without what the array has behind it. -/
def key (keys : Keys) (field : KeyField) : Bytes := (keys.buf field).take (keys.sz field)

@[simp] theorem sz_put (field : KeyField) (bs : Bytes) (keys : Keys) :
    (keys.put field bs).sz = keys.sz := by
  cases field <;> rfl

@[simp] theorem buf_put (field : KeyField) (bs : Bytes) (keys : Keys) :
    (keys.put field bs).buf field = bs := by
  cases field <;> rfl

theorem buf_put_of_ne {field other : KeyField} (h : other ≠ field) (bs : Bytes) (keys : Keys) :
    (keys.put field bs).buf other = keys.buf other := by
  cases field <;> cases other <;> first | rfl | exact absurd rfl h

end Keys

structure KeySession where
  side : Endpoint
  k : Bytes
  h : Bytes
  sessionId : Bytes
  keys : Keys
  peerKeys : Keys
deriving DecidableEq

/-- The client's keys and the server's. -/
structure DeriveState where
  cK : Keys
  sK : Keys
  results : List (Option Bytes)

namespace DeriveState

def keys (s : DeriveState) : Endpoint → Keys
  | .client => s.cK
  | .server => s.sK

def put (owner : Endpoint) (keys : Keys) (results : List (Option Bytes)) (s : DeriveState) :
    DeriveState :=
  match owner with
  | .client => { s with cK := keys, results := results }
  | .server => { s with sK := keys, results := results }

end DeriveState

abbrev DeriveM := Fallible WsErr DeriveState

/-- One derivation of `GenerateKeys`. The "none" cipher has no key or IV, and nothing is derived. -/
def derive (H : KeyHash) (ssh : KeySession) (doKeyPad : Bool) (keyId : UInt8) (owner : Endpoint)
    (field : KeyField) : DeriveM Unit := do
  let s ← get
  if (s.keys owner).sz field > 0 then
    zoom (fun s => ⟨s.results, [], (s.keys owner).buf field⟩)
      (fun run s => s.put owner ((s.keys owner).put field run.key) run.results)
      (generateKey H keyId ((s.keys owner).sz field) ssh.k ssh.h ssh.sessionId doKeyPad)

def deriveAll (H : KeyHash) (ssh : KeySession) (doKeyPad : Bool) : DeriveM Unit := do
  derive H ssh doKeyPad 0x41 .client .iv
  derive H ssh doKeyPad 0x42 .server .iv
  derive H ssh doKeyPad 0x43 .client .encKey
  derive H ssh doKeyPad 0x44 .server .encKey
  derive H ssh doKeyPad 0x45 .client .macKey
  derive H ssh doKeyPad 0x46 .server .macKey

def clientKeys (ssh : KeySession) : Keys :=
  match ssh.side with
  | .server => ssh.peerKeys
  | .client => ssh.keys

def serverKeys (ssh : KeySession) : Keys :=
  match ssh.side with
  | .server => ssh.keys
  | .client => ssh.peerKeys

def putKeys (ssh : KeySession) (cK sK : Keys) : KeySession :=
  match ssh.side with
  | .server => { ssh with peerKeys := cK, keys := sK }
  | .client => { ssh with keys := cK, peerKeys := sK }

/-- The keys of both directions, or none if a derivation fails. -/
def generateKeys (H : KeyHash) (doKeyPad : Bool) (results : List (Option Bytes)) (ssh : KeySession) :
    Except WsErr Unit × KeySession × List (Option Bytes) :=
  match (deriveAll H ssh doKeyPad).runAt ⟨clientKeys ssh, serverKeys ssh, results⟩ with
  | (.ok u, s) => (.ok u, putKeys ssh s.cK s.sK, s.results)
  | (.error e, s) => (.error e, putKeys ssh s.cK.wipe s.sK.wipe, s.results)

/-! What the six derivations leave. -/

section Derive

variable {H : KeyHash} {ssh : KeySession} {doKeyPad : Bool} {s t : DeriveState} {u : Unit}

/-- The letter of RFC 4253 for each key. -/
def letter : Endpoint → KeyField → UInt8
  | .client, .iv => 0x41
  | .server, .iv => 0x42
  | .client, .encKey => 0x43
  | .server, .encKey => 0x44
  | .client, .macKey => 0x45
  | .server, .macKey => 0x46

/-- The secrets that `GenerateKey` takes. -/
def Usable (H : KeyHash) (ssh : KeySession) : Prop :=
  (ssh.k ≠ [] ∧ ssh.h ≠ [] ∧ ssh.sessionId ≠ []) ∧ 0 < H.digestSz

instance : Decidable (Usable H ssh) := inferInstanceAs (Decidable (_ ∧ _))

/-- The key in its place is the one of its letter. -/
def Holds (H : KeyHash) (ssh : KeySession) (doKeyPad : Bool) (owner : Endpoint) (field : KeyField)
    (keys : Keys) : Prop :=
  IsKey H (letter owner field) (keys.sz field) ssh.k ssh.h ssh.sessionId doKeyPad (keys.key field)

namespace DeriveState

theorem keys_put (owner : Endpoint) (keys : Keys) (results : List (Option Bytes)) (s : DeriveState) :
    (s.put owner keys results).keys owner = keys := by
  cases owner <;> rfl

theorem keys_put_of_ne {owner other : Endpoint} (h : other ≠ owner) (keys : Keys)
    (results : List (Option Bytes)) (s : DeriveState) :
    (s.put owner keys results).keys other = s.keys other := by
  cases owner <;> cases other <;> first | rfl | exact absurd rfl h

theorem results_put (owner : Endpoint) (keys : Keys) (results : List (Option Bytes))
    (s : DeriveState) : (s.put owner keys results).results = results := by
  cases owner <;> rfl

end DeriveState

theorem heeds_derive (husable : Usable H ssh) (keyId : UInt8) (owner : Endpoint) (field : KeyField) :
    Heeds DeriveState.results (derive H ssh doKeyPad keyId owner field) := by
  refine Heeds.get.bind fun now => ?_
  by_cases hsz : (now.keys owner).sz field > 0
  · have hargs : KeyArgs H ((now.keys owner).sz field) ssh.k ssh.h ssh.sessionId :=
      ⟨⟨by omega, husable.1⟩, husable.2⟩
    have hkey : Heeds HashRun.results
        (generateKey H keyId ((now.keys owner).sz field) ssh.k ssh.h ssh.sessionId doKeyPad) := by
      intro run
      rw [generateKey_runAt hargs]
      exact heeds_generateBlocks H keyId _ _ _ _ _ run
    rw [if_pos hsz]
    refine hkey.zoom (fun _ => rfl) fun run s => ?_
    exact DeriveState.results_put _ _ _ _
  · rw [if_neg hsz]
    exact Heeds.pure _

theorem derive_holds {owner : Endpoint} {field : KeyField}
    (hrun : Yields (derive H ssh doKeyPad (letter owner field) owner field) s u t) :
    Holds H ssh doKeyPad owner field (t.keys owner) ∧
      (∀ o, (t.keys o).sz = (s.keys o).sz) ∧
      ∀ o f, Holds H ssh doKeyPad o f (s.keys o) → Holds H ssh doKeyPad o f (t.keys o) := by
  simp only [derive, yields_bind_iff, yields_get_iff] at hrun
  obtain ⟨_, _, ⟨rfl, rfl⟩, hrun⟩ := hrun
  split at hrun
  · rename_i hsz
    obtain ⟨run, hkey, rfl⟩ := yields_zoom_iff.mp hrun
    obtain ⟨key, hiskey, hwritten⟩ := generateKey_yields hkey
    have hmine : Holds H ssh doKeyPad owner field
        ((s.keys owner).put field run.key) := by
      rw [Holds, Keys.key, Keys.sz_put, Keys.buf_put, hwritten, List.take_left' hiskey.1]
      exact hiskey
    refine ⟨by rwa [DeriveState.keys_put], fun o => ?_, fun o f hold => ?_⟩
    · by_cases ho : o = owner
      · subst ho
        rw [DeriveState.keys_put, Keys.sz_put]
      · rw [DeriveState.keys_put_of_ne ho]
    · by_cases ho : o = owner
      · subst ho
        rw [DeriveState.keys_put]
        by_cases hf : f = field
        · subst hf
          exact hmine
        · rw [Holds, Keys.key, Keys.sz_put, Keys.buf_put_of_ne hf]
          exact hold
      · rwa [DeriveState.keys_put_of_ne ho]
  · rename_i hsz
    obtain ⟨-, rfl⟩ := yields_pure_iff.mp hrun
    have hzero : (s.keys owner).sz field = 0 := by omega
    refine ⟨?_, fun _ => rfl, fun _ _ h => h⟩
    refine ⟨by simp [Keys.key, hzero], fun n _ => ?_⟩
    rw [Keys.key, hzero, List.take_zero, List.take_zero]

theorem heeds_deriveAll (husable : Usable H ssh) :
    Heeds DeriveState.results (deriveAll H ssh doKeyPad) := by
  have hstep : ∀ keyId owner field, Heeds DeriveState.results
      (derive H ssh doKeyPad keyId owner field) := fun _ _ _ => heeds_derive husable _ _ _
  exact (hstep _ _ _).bind fun _ => (hstep _ _ _).bind fun _ => (hstep _ _ _).bind fun _ =>
    (hstep _ _ _).bind fun _ => (hstep _ _ _).bind fun _ => hstep _ _ _

theorem derive_keeps_results (husable : ¬ Usable H ssh) (keyId : UInt8) (owner : Endpoint)
    (field : KeyField) : Keeps DeriveState.results (derive H ssh doKeyPad keyId owner field) := by
  refine Keeps.get.bind fun now => ?_
  by_cases hsz : (now.keys owner).sz field > 0
  · have hargs : ¬ KeyArgs H ((now.keys owner).sz field) ssh.k ssh.h ssh.sessionId :=
      fun h => husable ⟨h.1.2, h.2⟩
    rw [if_pos hsz]
    intro s
    rw [runAt_zoom, generateKey_refuses hargs, DeriveState.results_put]
  · rw [if_neg hsz]
    exact Keeps.pure _

theorem deriveAll_holds (hrun : Yields (deriveAll H ssh doKeyPad) s u t) (owner : Endpoint) :
    (t.keys owner).sz = (s.keys owner).sz ∧
      ∀ field, Holds H ssh doKeyPad owner field (t.keys owner) := by
  simp only [deriveAll, yields_bind_iff] at hrun
  obtain ⟨_, _, hA, _, _, hB, _, _, hC, _, _, hD, _, _, hE, hF⟩ := hrun
  have hA := @derive_holds H ssh doKeyPad _ _ _ .client .iv hA
  have hB := @derive_holds H ssh doKeyPad _ _ _ .server .iv hB
  have hC := @derive_holds H ssh doKeyPad _ _ _ .client .encKey hC
  have hD := @derive_holds H ssh doKeyPad _ _ _ .server .encKey hD
  have hE := @derive_holds H ssh doKeyPad _ _ _ .client .macKey hE
  have hF := @derive_holds H ssh doKeyPad _ _ _ .server .macKey hF
  have hsz := fun o => (hF.2.1 o).trans ((hE.2.1 o).trans ((hD.2.1 o).trans ((hC.2.1 o).trans
    ((hB.2.1 o).trans (hA.2.1 o)))))
  refine ⟨hsz owner, fun field => ?_⟩
  cases owner <;> cases field
  · exact hF.2.2 _ _ (hE.2.2 _ _ (hD.2.2 _ _ (hC.2.2 _ _ hB.1)))
  · exact hF.2.2 _ _ (hE.2.2 _ _ hD.1)
  · exact hF.1
  · exact hF.2.2 _ _ (hE.2.2 _ _ (hD.2.2 _ _ (hC.2.2 _ _ (hB.2.2 _ _ hA.1))))
  · exact hF.2.2 _ _ (hE.2.2 _ _ (hD.2.2 _ _ hC.1))
  · exact hF.2.2 _ _ hE.1

end Derive

/-! What `GenerateKeys` leaves in a session. -/

section GenerateKeys

variable {H : KeyHash} {doKeyPad : Bool} {ssh : KeySession} {results : List (Option Bytes)}

def ownedKeys (ssh : KeySession) : Endpoint → Keys
  | .client => clientKeys ssh
  | .server => serverKeys ssh

theorem ownedKeys_putKeys (ssh : KeySession) (s : DeriveState) (owner : Endpoint) :
    ownedKeys (putKeys ssh s.cK s.sK) owner = s.keys owner := by
  unfold ownedKeys clientKeys serverKeys putKeys
  cases owner <;> cases hside : ssh.side <;> rfl

theorem generateKeys_holds (hok : (generateKeys H doKeyPad results ssh).1 = .ok ⟨⟩)
    (owner : Endpoint) :
    (ownedKeys (generateKeys H doKeyPad results ssh).2.1 owner).sz = (ownedKeys ssh owner).sz ∧
      ∀ field, Holds H ssh doKeyPad owner field
        (ownedKeys (generateKeys H doKeyPad results ssh).2.1 owner) := by
  unfold generateKeys at hok ⊢
  rcases hrun : (deriveAll H ssh doKeyPad).runAt ⟨clientKeys ssh, serverKeys ssh, results⟩ with
    ⟨_ | u, s⟩
  · rw [hrun] at hok
    cases hok
  · have hkeys := deriveAll_holds hrun owner
    rw [ownedKeys_putKeys]
    refine ⟨hkeys.1.trans ?_, hkeys.2⟩
    cases owner <;> rfl

def Wiped (keys : Keys) : Prop := ∀ field, ∀ b ∈ keys.buf field, b = 0

theorem wiped_wipe (keys : Keys) : Wiped keys.wipe := by
  intro field b hb
  cases field <;> exact List.eq_of_mem_replicate hb

theorem generateKeys_wipes {e : WsErr} (hfail : (generateKeys H doKeyPad results ssh).1 = .error e) :
    Wiped (generateKeys H doKeyPad results ssh).2.1.keys ∧
      Wiped (generateKeys H doKeyPad results ssh).2.1.peerKeys := by
  unfold generateKeys at hfail ⊢
  rcases hrun : (deriveAll H ssh doKeyPad).runAt ⟨clientKeys ssh, serverKeys ssh, results⟩ with
    ⟨_ | u, s⟩
  · dsimp only
    unfold putKeys
    cases ssh.side
    · exact ⟨wiped_wipe _, wiped_wipe _⟩
    · exact ⟨wiped_wipe _, wiped_wipe _⟩
  · rw [hrun] at hfail
    cases hfail

theorem generateKeys_calls :
    ∃ used, results = used ++ (generateKeys H doKeyPad results ssh).2.2 ∧
      ((∀ result ∈ used, result = none) → Usable H ssh →
        (generateKeys H doKeyPad results ssh).1 = .ok ⟨⟩) ∧
      ((∃ result ∈ used, result ≠ none) → ∃ e, (generateKeys H doKeyPad results ssh).1 = .error e) := by
  unfold generateKeys
  by_cases husable : Usable H ssh
  · obtain ⟨used, hused, hend⟩ := @heeds_deriveAll H ssh doKeyPad husable
      ⟨clientKeys ssh, serverKeys ssh, results⟩
    rcases hrun : (deriveAll H ssh doKeyPad).runAt ⟨clientKeys ssh, serverKeys ssh, results⟩ with
      ⟨e | u, s⟩
    · rw [hrun] at hused hend
      refine ⟨used, hused, fun hall _ => ?_, fun _ => ⟨e, rfl⟩⟩
      rw [if_pos hall] at hend
      obtain ⟨_, hend⟩ := hend
      cases hend
    · rw [hrun] at hused hend
      refine ⟨used, hused, fun _ _ => rfl, fun ⟨result, hmem, hne⟩ => ?_⟩
      rw [if_neg fun hall => hne (hall result hmem)] at hend
      cases hend
  · have hstep : ∀ keyId owner field, Keeps DeriveState.results
        (derive H ssh doKeyPad keyId owner field) := fun _ _ _ => derive_keeps_results husable _ _ _
    have hkeeps : Keeps DeriveState.results (deriveAll H ssh doKeyPad) :=
      (hstep _ _ _).bind fun _ => (hstep _ _ _).bind fun _ => (hstep _ _ _).bind fun _ =>
        (hstep _ _ _).bind fun _ => (hstep _ _ _).bind fun _ => hstep _ _ _
    have hresults := hkeeps ⟨clientKeys ssh, serverKeys ssh, results⟩
    refine ⟨[], ?_, fun _ h => (husable h).elim, by simp⟩
    rcases hrun : (deriveAll H ssh doKeyPad).runAt ⟨clientKeys ssh, serverKeys ssh, results⟩ with
      ⟨e | u, s⟩
    · rw [hrun] at hresults
      exact hresults.symm
    · rw [hrun] at hresults
      exact hresults.symm

/-- Two sides of one key exchange: the same secrets, and the sizes they negotiated. -/
structure SamePair (c s : KeySession) : Prop where
  client : c.side = .client
  server : s.side = .server
  secrets : c.k = s.k ∧ c.h = s.h ∧ c.sessionId = s.sessionId
  sizes : c.keys.sz = s.peerKeys.sz ∧ c.peerKeys.sz = s.keys.sz

theorem SamePair.owned {c s : KeySession} (h : SamePair c s) (owner : Endpoint) :
    (ownedKeys c owner).sz = (ownedKeys s owner).sz := by
  cases owner with
  | client =>
    simp only [ownedKeys, clientKeys, h.client, h.server]
    exact h.sizes.1
  | server =>
    simp only [ownedKeys, serverKeys, h.client, h.server]
    exact h.sizes.2

/-- The keys of a new handshake, once the algorithms of their direction are settled. -/
def Keys.fresh (algos : DirectionAlgos) : Keys where
  iv := List.replicate aesBlockSize 0
  ivSz := algos.ivSz
  encKey := List.replicate aes256KeySize 0
  encKeySz := algos.encKeySz
  macKey := List.replicate maxHmacSz 0
  macKeySz := algos.macKeySz

def keySession (ssh : KexSession) (k h sessionId : Bytes) : KeySession where
  side := ssh.side
  k := k
  h := h
  sessionId := sessionId
  keys := .fresh (ssh.handshake.getD {}).self
  peerKeys := .fresh (ssh.handshake.getD {}).peer

theorem SameAlgorithms.samePair {c s : KexSession} (h : SameAlgorithms c s) (hc : c.side = .client)
    (hs : s.side = .server) (k x sessionId : Bytes) :
    SamePair (keySession c k x sessionId) (keySession s k x sessionId) := by
  obtain ⟨-, -, -, hself, hpeer, -, -⟩ := h
  refine ⟨hc, hs, ⟨rfl, rfl, rfl⟩, ?_, ?_⟩
  · rw [keySession, hself]
    rfl
  · rw [keySession, hpeer]
    rfl

theorem generateKeys_side : (generateKeys H doKeyPad results ssh).2.1.side = ssh.side := by
  have hput : ∀ cK sK, (putKeys ssh cK sK).side = ssh.side := by
    intro cK sK
    unfold putKeys
    cases hside : ssh.side <;> rfl
  unfold generateKeys
  rcases (deriveAll H ssh doKeyPad).runAt ⟨clientKeys ssh, serverKeys ssh, results⟩ with ⟨_ | _, _⟩
  · exact hput _ _
  · exact hput _ _

theorem owned_key_eq {c s : KeySession} {resultsC resultsS : List (Option Bytes)}
    (hd : 0 < H.digestSz) (hpair : SamePair c s)
    (hc : (generateKeys H doKeyPad resultsC c).1 = .ok ⟨⟩)
    (hs : (generateKeys H doKeyPad resultsS s).1 = .ok ⟨⟩) (owner : Endpoint) (field : KeyField) :
    (ownedKeys (generateKeys H doKeyPad resultsC c).2.1 owner).key field =
      (ownedKeys (generateKeys H doKeyPad resultsS s).2.1 owner).key field := by
  have hkeyC := generateKeys_holds hc owner
  have hkeyS := generateKeys_holds hs owner
  have hholdC := hkeyC.2 field
  have hholdS := hkeyS.2 field
  rw [Holds, hkeyC.1, hpair.owned, hpair.secrets.1, hpair.secrets.2.1, hpair.secrets.2.2] at hholdC
  rw [Holds, hkeyS.1] at hholdS
  exact hholdC.unique hd hholdS

end GenerateKeys

/-- Two octets for a digest: the sum and the number of those hashed. -/
def sumHash : KeyHash where
  digestSz := 2
  digest data := [data.sum, UInt8.ofNat data.length]
  length_digest _ := rfl

/-- A key of two blocks and a half, an IV of less than one, and no MAC. -/
def smallKeys : Keys where
  iv := List.replicate aesBlockSize 0
  ivSz := 1
  encKey := List.replicate aes256KeySize 0
  encKeySz := 5
  macKey := List.replicate maxHmacSz 0
  macKeySz := 0

def smallSession (side : Endpoint) : KeySession where
  side := side
  k := [0x80, 1]
  h := [2, 3]
  sessionId := [2, 3]
  keys := smallKeys
  peerKeys := smallKeys

end WolfSsh
