import Mathlib.Logic.Equiv.Basic
import WolfSsh.AgentIdentity
import WolfSsh.Lib.Runs

/-! The store that the messages of the agent keep: the keys that were added and not removed since,
listed with the octets that they were added with. -/

namespace WolfSsh.Agent

open Fallible Slices

/-- The blobs and comments of the keys, the newest first. -/
abbrev Store := List (Bytes × Bytes)

def AgentId.blob (id : AgentId) : Bytes := id.keyBlob.of id.keyBuffer
def AgentId.commentText (id : AgentId) : Bytes := id.comment.of id.keyBuffer

def listing (agent : AgentCtx) : Store :=
  agent.idList.map fun id => (id.blob, id.commentText)

/-! Reading a message apart from the agent. -/

/-- The string that octets start with, and what follows it. -/
def takeString (bs : Bytes) : Option (Bytes × Bytes) :=
  let sz := ato32 bs
  if uint32Sz + sz ≤ bs.length then some ((bs.drop uint32Sz).take sz, bs.drop (uint32Sz + sz))
  else none

def strings : Nat → Bytes → Option (List Bytes)
  | 0, _ => some []
  | n + 1, bs =>
    match takeString bs with
    | none => none
    | some (str, rest) => (strings n rest).map (str :: ·)

/-- The key that an ADD_IDENTITY holds: its first two fields, and its comment. -/
def addedKey (payload : Bytes) : Option (Bytes × Bytes) :=
  match takeString payload with
  | none => none
  | some (name, rest) =>
    match keyFields (nameToId name) with
    | none => none
    | some kinds =>
      match strings kinds.length rest with
      | some (a :: b :: fields) => some (copyString a ++ copyString b, fields.getLastD [])
      | _ => none

def removedKey (payload : Bytes) : Option Bytes := (takeString payload).map Prod.fst

/-- What a message that succeeds does to the store. -/
def Store.after (store : Store) (msg : UInt8) (payload : Bytes) : Store :=
  match msg.toNat with
  | 17 => (addedKey payload).toList ++ store
  | 18 => store.filter fun key => removedKey payload ≠ some key.1
  | 19 => []
  | _ => store

theorem takeString_copyString {str : Bytes} (hlen : str.length < 2 ^ 32) (rest : Bytes) :
    takeString (copyString str ++ rest) = some (str, rest) := by
  have hsz : ato32 (copyString str ++ rest) = str.length := by
    rw [copyString, List.append_assoc, ato32_c32toa hlen]
  have hdrop : (copyString str ++ rest).drop uint32Sz = str ++ rest := by
    rw [copyString, List.append_assoc, List.drop_append_of_le_length (by simp [uint32Sz])]
    simp [uint32Sz]
  have hfits : uint32Sz + str.length ≤ (copyString str ++ rest).length := by
    simp [copyString, uint32Sz]
  simp only [takeString, hsz, if_pos hfits]
  rw [← List.drop_drop, hdrop, List.take_left, List.drop_left]

theorem strings_wire {fs : List Bytes} (hlen : ∀ f ∈ fs, f.length < 2 ^ 32) (rest : Bytes) :
    strings fs.length (wire fs ++ rest) = some fs := by
  induction fs with
  | nil => rfl
  | cons f fs ih =>
    rw [List.length_cons, strings, wire_cons, List.append_assoc, takeString_copyString (hlen f (List.mem_cons_self ..))]
    dsimp only
    rw [ih fun g hg => hlen g (List.mem_cons_of_mem _ hg)]
    rfl

/-! What is kept of an added key. -/

section Add

variable {sha256 : Bytes → Bytes}

/-- The slices of an identity are in its buffer, and its digest is that of its blob. -/
structure Sound (sha256 : Bytes → Bytes) (id : AgentId) : Prop where
  digest : id.id = sha256 id.blob
  keyBlob : id.keyBlob.Inside id.keyBuffer.length
  key : ∀ s ∈ id.key, s.Inside id.keyBuffer.length
  comment : id.comment.Inside id.keyBuffer.length

theorem word32_of_lt {n : Nat} (h : n < 2 ^ 32) : word32 n = n := Nat.mod_eq_of_lt h

theorem sum_map_add (ns : List Nat) (k : Nat) : (ns.map (· + k)).sum = ns.sum + k * ns.length := by
  induction ns with
  | nil => rfl
  | cons n ns ih =>
    rw [List.map_cons, List.sum_cons, ih, List.sum_cons, List.length_cons, Nat.mul_succ]
    omega

variable {keyType : AlgoId} {a b comment : Bytes} {more : List Bytes}

/-- The identity that holds these fields. -/
def keptId (sha256 : Bytes → Bytes) (keyType : AlgoId) (a b : Bytes) (more : List Bytes)
    (comment : Bytes) : AgentId where
  keyType
  keyBuffer := wire (a :: b :: (more ++ [comment]))
  keyBlob := ⟨0, (copyString a ++ copyString b).length⟩
  key := layout lengthSz 0 ((a :: b :: more).map List.length)
  comment := ⟨(wire (a :: b :: more) ++ c32toa comment.length).length, comment.length⟩
  id := sha256 (copyString a ++ copyString b)

theorem wire_blob : wire (a :: b :: (more ++ [comment])) =
    (copyString a ++ copyString b) ++ wire (more ++ [comment]) := by
  rw [wire_cons, wire_cons, List.append_assoc]

theorem wire_comment : wire (a :: b :: (more ++ [comment])) =
    (wire (a :: b :: more) ++ c32toa comment.length) ++ (comment ++ []) := by
  rw [← List.cons_append, ← List.cons_append, wire_append, wire_cons comment, copyString]
  simp [wire]

theorem keptId_blob : (keptId sha256 keyType a b more comment).blob = copyString a ++ copyString b := by
  rw [AgentId.blob, keptId, wire_blob]
  exact Slice.of_behind [] _ _

theorem keptId_commentText : (keptId sha256 keyType a b more comment).commentText = comment := by
  rw [AgentId.commentText, keptId, wire_comment]
  exact Slice.of_behind _ _ _

theorem keptId_sound : Sound sha256 (keptId sha256 keyType a b more comment) where
  digest := by
    rw [keptId_blob]
    rfl
  keyBlob := by
    rw [keptId, wire_blob, Slice.Inside, @List.length_append _ (copyString a ++ copyString b)]
    dsimp only
    omega
  key := by
    refine layout_inside lengthSz 0 _ _ ?_
    rw [keptId, wire_comment, List.length_append, List.length_append, length_wire, List.length_map]
    omega
  comment := by
    rw [keptId, wire_comment, Slice.Inside]
    simp [Nat.add_assoc]

theorem postAddId_eq {key rest : Bytes} {agent : AgentCtx}
    (hkey : key = wire (a :: b :: (more ++ [comment])) ++ rest) (hfits : key.length < 2 ^ 32) :
    postAddId sha256 true keyType key (wire (a :: b :: (more ++ [comment]))).length
        ((a :: b :: more).map List.length) comment.length agent =
      .ok { idList := keptId sha256 keyType a b more comment :: agent.idList
            idListSz := word32 (agent.idListSz + 1) } := by
  have hcopy : key.take (wire (a :: b :: (more ++ [comment]))).length
      = wire (a :: b :: (more ++ [comment])) := by
    rw [hkey, List.take_left]
  have hblob : key.take (copyString a ++ copyString b).length = copyString a ++ copyString b := by
    rw [hkey, wire_blob, List.append_assoc, List.take_left]
  have hblobSz : word32 ((((a :: b :: more).map List.length).take 2).sum + lengthSz * 2)
      = (copyString a ++ copyString b).length := by
    have hsum : (((a :: b :: more).map List.length).take 2).sum + lengthSz * 2
        = (copyString a ++ copyString b).length := by
      simp [copyString, lengthSz]
      omega
    have hle : (copyString a ++ copyString b).length ≤ key.length := by
      rw [← hblob]
      exact List.length_take_le' _ _
    rw [hsum, word32_of_lt (Nat.lt_of_le_of_lt hle hfits)]
  have hcomment : lengthSz + (((a :: b :: more).map List.length).map (· + lengthSz)).sum
      = (wire (a :: b :: more) ++ c32toa comment.length).length := by
    rw [sum_map_add, List.length_append, length_wire, c32toa_length, List.length_map, lengthSz]
    omega
  rw [postAddId, if_pos rfl]
  dsimp only
  rw [hcopy, hblobSz, hblob, hcomment]
  rfl

theorem keyFields_length {keyType : AlgoId} {kinds : List FieldKind} (h : keyFields keyType = some kinds) :
    kinds.length = 7 ∨ kinds.length = 4 := by
  unfold keyFields at h
  split at h
  · left
    rw [← Option.some.inj h]
    rfl
  · right
    rw [← Option.some.inj h]
    rfl
  · right
    rw [← Option.some.inj h]
    rfl
  · right
    rw [← Option.some.inj h]
    rfl
  · simp at h

theorem postAdd_eq {fs : List Bytes} {key rest : Bytes} {agent : AgentCtx} (memory : Bool)
    (hkey : key = wire fs ++ rest) (hfits : key.length < 2 ^ 32) (hcount : fs.length = 7 ∨ fs.length = 4) :
    ∃ a b more comment, fs = a :: b :: (more ++ [comment]) ∧
      postAdd sha256 memory keyType key (fs.map List.length) agent =
        if memory then .ok { idList := keptId sha256 keyType a b more comment :: agent.idList
                             idListSz := word32 (agent.idListSz + 1) }
        else .error (.ws .memoryE) := by
  have hlen : (wire fs).length < 2 ^ 32 := by
    rw [hkey, List.length_append] at hfits
    omega
  rw [length_wire] at hlen
  rcases hcount with hcount | hcount
  · obtain ⟨n, e, d, fs, rfl⟩ : ∃ n e d gs, fs = n :: e :: d :: gs := by
      match fs, hcount with
      | n :: e :: d :: gs, _ => exact ⟨n, e, d, gs, rfl⟩
    obtain ⟨iqmp, p, q, comment, rfl⟩ := List.length_eq_four.mp (by simpa using hcount)
    refine ⟨n, e, [d, iqmp, p, q], comment, rfl, ?_⟩
    have hkeySz : word32 (n.length + e.length + d.length + iqmp.length + p.length + q.length
        + comment.length + lengthSz * 7) = (wire (n :: e :: ([d, iqmp, p, q] ++ [comment]))).length := by
      rw [length_wire]
      simp at hlen ⊢
      rw [word32_of_lt (by omega)]
      omega
    show postAddRsaId sha256 memory keyType key (word32 _) _ _ _ _ _ _ _ agent = _
    rw [hkeySz, postAddRsaId]
    cases memory with
    | false => rfl
    | true => exact postAddId_eq hkey hfits
  · obtain ⟨curveName, q, d, comment, rfl⟩ := List.length_eq_four.mp hcount
    refine ⟨curveName, q, [d], comment, rfl, ?_⟩
    have hkeySz : word32 (curveName.length + q.length + d.length + comment.length + lengthSz * 4)
        = (wire (curveName :: q :: ([d] ++ [comment]))).length := by
      rw [length_wire]
      simp at hlen ⊢
      rw [word32_of_lt (by omega)]
      omega
    show postAddEcdsaId sha256 memory keyType key (word32 _) _ _ _ _ agent = _
    rw [hkeySz, postAddEcdsaId]
    cases memory with
    | false => rfl
    | true => exact postAddId_eq hkey hfits

/-- What a message comes to: a failure that leaves the agent alone, or a step. -/
def Steps (o : Outcome) (agent : AgentCtx) (P : AgentCtx → Prop) : Prop :=
  (∃ e, o.ret = .error e ∧ o.agent = agent) ∨ (o.ret = .ok .done ∧ P o.agent)

theorem doAddIdentity_steps {buf : Bytes} (hfits : buf.length < 2 ^ 32) (memory : Bool)
    (agent : AgentCtx) :
    Steps (doAddIdentity sha256 memory buf agent) agent fun agent' =>
      ∃ id, Sound sha256 id ∧ addedKey buf = some (id.blob, id.commentText) ∧
        agent' = { idList := id :: agent.idList, idListSz := word32 (agent.idListSz + 1) } := by
  unfold doAddIdentity
  split
  · exact .inl ⟨_, rfl, rfl⟩
  · split
    · exact .inl ⟨_, rfl, rfl⟩
    · dsimp only
      split
      · exact .inl ⟨_, rfl, rfl⟩
      · cases hkinds : keyFields (nameSliceToId buf ⟨lengthSz, ato32 buf⟩) with
        | none => exact .inl ⟨_, rfl, rfl⟩
        | some kinds =>
          -- A key type that is known has its name in the buffer.
          have hinside : Slice.Inside ⟨lengthSz, ato32 buf⟩ buf.length := by
            by_contra hout
            rw [nameSliceToId, if_neg hout] at hkinds
            simp [keyFields] at hkinds
          have hname : nameSliceToId buf ⟨lengthSz, ato32 buf⟩ = nameToId (Slice.of ⟨lengthSz, ato32 buf⟩ buf) :=
            if_pos hinside
          rw [Slice.Inside] at hinside
          dsimp only at hinside
          have hbegin : word32 (lengthSz + ato32 buf) = lengthSz + ato32 buf :=
            word32_of_lt (Nat.lt_of_le_of_lt hinside hfits)
          rw [hbegin]
          dsimp only
          rcases hfields : getFields buf kinds (lengthSz + ato32 buf) with ⟨slices, _ | idx⟩
          · exact .inl ⟨_, rfl, rfl⟩
          · obtain ⟨hcount, hsizes, hdrop, -⟩ := getFields_ok hfields hinside
            have hlength := keyFields_length hkinds
            rw [← hcount, ← List.length_map (f := (·.of buf))] at hlength
            have hkeyfits : (buf.drop (lengthSz + ato32 buf)).length < 2 ^ 32 := by
              rw [List.length_drop]
              omega
            obtain ⟨a, b, more, comment, hfs, hpost⟩ :=
              @postAdd_eq sha256 (nameSliceToId buf ⟨lengthSz, ato32 buf⟩) _ _ _ agent memory hdrop
                hkeyfits hlength
            rw [← hsizes] at hpost
            dsimp only
            rw [hpost]
            cases memory with
            | false => exact .inl ⟨_, rfl, rfl⟩
            | true =>
              refine .inr ⟨rfl, _, keptId_sound, ?_, rfl⟩
              have hshort : ∀ f ∈ slices.map (·.of buf), f.length < 2 ^ 32 := by
                intro f hf
                obtain ⟨s, -, rfl⟩ := List.mem_map.mp hf
                rw [Slice.of, List.length_take, List.length_drop]
                omega
              have hread := strings_wire hshort (buf.drop idx)
              rw [← hdrop, List.length_map, hcount] at hread
              have htake : takeString buf =
                  some (Slice.of ⟨lengthSz, ato32 buf⟩ buf, buf.drop (lengthSz + ato32 buf)) := if_pos hinside
              rw [addedKey, htake]
              dsimp only
              rw [← hname, hkinds]
              dsimp only
              rw [hread, hfs, keptId_blob, keptId_commentText]
              simp

/-- Without a wrap in the check of its name, an added key has all its slices in the message. -/
theorem doAddIdentity_inside {buf : Bytes} (hname : lengthSz + ato32 buf < 2 ^ 32) (memory : Bool)
    (agent : AgentCtx) :
    ∀ s ∈ (doAddIdentity sha256 memory buf agent).taken, s.Inside buf.length := by
  unfold doAddIdentity
  split
  · simp
  · split
    · simp
    · dsimp only
      rw [word32_of_lt hname]
      split
      · simp
      · rename_i hfits
        have hmine : Slice.Inside ⟨lengthSz, ato32 buf⟩ buf.length := by
          rw [Slice.Inside]
          exact Nat.le_of_not_gt hfits
        cases keyFields (nameSliceToId buf ⟨lengthSz, ato32 buf⟩) with
        | none => simpa using hmine
        | some kinds =>
          have hall := @getFields_inside buf kinds (lengthSz + ato32 buf)
          dsimp only
          rcases hfields : getFields buf kinds (lengthSz + ato32 buf) with ⟨slices, _ | idx⟩
          · rw [hfields] at hall
            exact List.forall_mem_cons.mpr ⟨hmine, hall⟩
          · rw [hfields] at hall
            have hread : ∀ s ∈ Slice.mk lengthSz (ato32 buf) :: slices, s.Inside buf.length :=
              List.forall_mem_cons.mpr ⟨hmine, hall⟩
            obtain ⟨-, -, -, hidx⟩ := getFields_ok hfields hmine
            have hkey : Slice.Inside ⟨lengthSz + ato32 buf, idx - (lengthSz + ato32 buf)⟩ buf.length := by
              rw [Slice.Inside] at hmine ⊢
              dsimp only at hmine ⊢
              omega
            have htaken : ∀ s ∈ Slice.mk lengthSz (ato32 buf) :: slices ++
                [⟨lengthSz + ato32 buf, idx - (lengthSz + ato32 buf)⟩], s.Inside buf.length := by
              intro s hs
              rcases List.mem_append.mp hs with hs | hs
              · exact hread s hs
              · rw [List.mem_singleton.mp hs]
                exact hkey
            dsimp only
            split <;> exact htaken

end Add

/-! Looking up and removing a key. -/

section Remove

variable {sha256 : Bytes → Bytes} {agent : AgentCtx} {blob : Bytes}

theorem digest_eq_iff (hsha : Function.Injective sha256) {id : AgentId} (hid : Sound sha256 id) :
    id.id = sha256 blob ↔ id.blob = blob := by
  rw [hid.digest]
  exact hsha.eq_iff

theorem Sound.length_blob {id : AgentId} (hid : Sound sha256 id) : id.blob.length = id.keyBlob.size :=
  Slice.length_of hid.keyBlob

theorem findKeyId_some_iff (hsha : Function.Injective sha256) (hsound : ∀ id ∈ agent.idList, Sound sha256 id) :
    (findKeyId sha256 agent.idList blob).isSome ↔ ∃ comment, (blob, comment) ∈ listing agent := by
  rw [findKeyId, List.find?_isSome, listing]
  constructor
  · rintro ⟨id, hid, hmatch⟩
    have hblob : id.blob = blob := by
      rw [Bool.or_eq_true, Bool.and_eq_true, beq_iff_eq, beq_iff_eq, beq_iff_eq] at hmatch
      rcases hmatch with hdigest | ⟨-, hoctets⟩
      · exact (digest_eq_iff hsha (hsound id hid)).mp hdigest.symm
      · exact hoctets.symm
    exact ⟨id.commentText, List.mem_map.mpr ⟨id, hid, by rw [hblob]⟩⟩
  · rintro ⟨comment, hkey⟩
    obtain ⟨id, hid, hsame⟩ := List.mem_map.mp hkey
    refine ⟨id, hid, ?_⟩
    have hdigest := (digest_eq_iff hsha (hsound id hid)).mpr (Prod.mk.inj hsame).1
    rw [Bool.or_eq_true, beq_iff_eq]
    exact .inl hdigest.symm

theorem eraseP_eq_filter {α : Type} {p : α → Bool} {l : List α} (h : l.countP p ≤ 1) :
    l.eraseP p = l.filter (fun a => !p a) := by
  induction l with
  | nil => rfl
  | cons a l ih =>
    rw [List.countP_cons] at h
    cases hp : p a with
    | true =>
      rw [hp, if_pos rfl] at h
      have hnone : ∀ b ∈ l, ¬ p b := List.countP_eq_zero.mp (by omega)
      rw [List.eraseP_cons_of_pos hp, List.filter_cons_of_neg (by simp [hp])]
      exact (List.filter_eq_self.mpr fun b hb => by simpa using hnone b hb).symm
    | false =>
      rw [hp, if_neg (by simp)] at h
      rw [List.eraseP_cons_of_neg (by simp [hp]), List.filter_cons_of_pos (by simp [hp]), ih (by omega)]

theorem postRemoveId_ok (hsha : Function.Injective sha256) {agent' : AgentCtx}
    (hsound : ∀ id ∈ agent.idList, Sound sha256 id) (hcount : agent.idListSz = agent.idList.length)
    (hsmall : agent.idListSz < 2 ^ 32)
    (honce : (listing agent).countP (fun key => key.1 == blob) ≤ 1)
    (h : postRemoveId sha256 blob agent = .ok agent') :
    agent'.idListSz = agent'.idList.length ∧
      agent'.idList = agent.idList.filter (fun id => id.blob ≠ blob) := by
  have hsame : ∀ id ∈ agent.idList, (id.id == sha256 blob) = (id.blob == blob) := by
    intro id hid
    rw [Bool.eq_iff_iff, beq_iff_eq, beq_iff_eq]
    exact digest_eq_iff hsha (hsound id hid)
  rw [listing, List.countP_map] at honce
  have hmatches : agent.idList.countP (fun id => id.id == sha256 blob) ≤ 1 := by
    refine Nat.le_trans (Nat.le_of_eq (List.countP_congr fun id hid => ?_)) honce
    rw [hsame id hid]
    rfl
  have herase : agent.idList.eraseP (fun id => id.id == sha256 blob)
      = agent.idList.filter (fun id => id.blob ≠ blob) := by
    rw [eraseP_eq_filter hmatches]
    refine List.filter_congr fun id hid => ?_
    rw [hsame id hid, beq_eq_decide, decide_not]
  have hlength := List.length_eraseP (p := fun id => id.id == sha256 blob) (l := agent.idList)
  rw [postRemoveId] at h
  split at h
  · simp at h
  · dsimp only at h
    split at h
    · rename_i hany
      rw [if_pos hany] at hlength
      have hpos : 0 < agent.idList.length := by
        obtain ⟨id, hid, -⟩ := List.any_eq_true.mp hany
        exact List.length_pos_of_mem hid
      have hsz : word32 (agent.idListSz + (2 ^ 32 - 1)) = agent.idList.length - 1 := by
        rw [word32]
        omega
      obtain rfl := Except.ok.inj h
      exact ⟨by rw [hsz, hlength], herase⟩
    · rename_i hany
      have hself : agent.idList.eraseP (fun id => id.id == sha256 blob) = agent.idList :=
        List.eraseP_of_forall_not fun id hid hmatch => hany (List.any_eq_true.mpr ⟨id, hid, hmatch⟩)
      obtain rfl := Except.ok.inj h
      exact ⟨hcount, hself.symm.trans herase⟩

theorem doRemoveIdentity_steps (hsha : Function.Injective sha256)
    (hsound : ∀ id ∈ agent.idList, Sound sha256 id) (hcount : agent.idListSz = agent.idList.length)
    (hsmall : agent.idListSz < 2 ^ 32) {buf : Bytes} (hfits : buf.length < 2 ^ 32)
    (honce : ∀ blob ∈ removedKey buf, (listing agent).countP (fun key => key.1 == blob) ≤ 1) :
    Steps (doRemoveIdentity sha256 buf agent) agent fun agent' =>
      ∃ blob, removedKey buf = some blob ∧ agent'.idListSz = agent'.idList.length ∧
        agent'.idList = agent.idList.filter (fun id => id.blob ≠ blob) := by
  rw [doRemoveIdentity]
  split
  · exact .inl ⟨_, rfl, rfl⟩
  · split
    · exact .inl ⟨_, rfl, rfl⟩
    · rcases hfield : (getField buf .string).runAt 0 with ⟨_ | keyBlob, idx⟩
      · exact .inl ⟨_, rfl, rfl⟩
      · obtain ⟨-, -, -, hdrop, hlen⟩ := getField_ok hfield
        rw [List.drop_zero] at hdrop
        have hshort : (keyBlob.of buf).length < 2 ^ 32 := by
          rw [Slice.of, List.length_take, List.length_drop]
          omega
        have hremoved : removedKey buf = some (keyBlob.of buf) := by
          have htake := takeString_copyString hshort (buf.drop idx)
          rw [← hdrop] at htake
          rw [removedKey, htake]
          rfl
        have honce := honce _ hremoved
        dsimp only
        rcases hpost : postRemoveId sha256 (keyBlob.of buf) agent with _ | agent'
        · exact .inl ⟨_, rfl, rfl⟩
        · obtain ⟨hsize, hlist⟩ := postRemoveId_ok hsha hsound hcount hsmall honce hpost
          exact .inr ⟨rfl, _, hremoved, hsize, hlist⟩

end Remove

/-! Listing the keys. -/

section Answer

variable {sha256 : Bytes → Bytes} {agent : AgentCtx}

def identitiesAnswer (store : Store) : Bytes :=
  copyString (msgidIdentitiesAnswer :: c32toa store.length ++
    store.flatMap fun key => copyString key.1 ++ copyString key.2)

def AgentId.entrySz (id : AgentId) : Nat := lengthSz * 2 + id.keyBlob.size + id.comment.size

/-- The size of the answer with these keys. -/
def answerSz (agent : AgentCtx) : Nat :=
  lengthSz + (msgIdSz + uint32Sz + (agent.idList.map AgentId.entrySz).sum)

theorem Sound.written_eq {id : AgentId} (hid : Sound sha256 id) :
    id.written = copyString id.blob ++ copyString id.commentText := by
  rw [AgentId.written, copyString, copyString, hid.length_blob, AgentId.commentText,
    Slice.length_of hid.comment]
  rfl

theorem Sound.length_written {id : AgentId} (hid : Sound sha256 id) : id.written.length = id.entrySz := by
  have hblob := Slice.length_of hid.keyBlob
  have hcomment := Slice.length_of hid.comment
  simp only [AgentId.written, List.length_append, c32toa_length, hblob, hcomment, AgentId.entrySz, lengthSz]
  omega

theorem foldl_word32 (ids : List AgentId) (sz : Nat) (hfits : sz + (ids.map AgentId.entrySz).sum < 2 ^ 32) :
    ids.foldl (fun sz id => word32 (sz + (lengthSz * 2 + id.keyBlob.size + id.comment.size))) sz
      = sz + (ids.map AgentId.entrySz).sum := by
  induction ids generalizing sz with
  | nil => rfl
  | cons id ids ih =>
    rw [List.map_cons, List.sum_cons] at hfits ⊢
    rw [List.foldl_cons, word32_of_lt (by rw [AgentId.entrySz] at hfits; omega)]
    have hrest := ih (sz + id.entrySz) (by omega)
    rw [AgentId.entrySz] at hrest ⊢
    rw [hrest]
    omega

theorem length_flatMap_written {ids : List AgentId} (hsound : ∀ id ∈ ids, Sound sha256 id) :
    (ids.flatMap AgentId.written).length = (ids.map AgentId.entrySz).sum := by
  rw [List.length_flatMap]
  congr 1
  exact List.map_congr_left fun id hid => (hsound id hid).length_written

theorem length_le_entries (ids : List AgentId) : ids.length ≤ (ids.map AgentId.entrySz).sum := by
  induction ids with
  | nil => exact Nat.le_refl 0
  | cons id ids ih =>
    rw [List.map_cons, List.sum_cons, List.length_cons, AgentId.entrySz, lengthSz]
    omega

theorem sendIdentitiesAnswer_ok {memory : Bool} {a : Answer}
    (hsound : ∀ id ∈ agent.idList, Sound sha256 id) (hfits : answerSz agent < 2 ^ 32)
    (h : sendIdentitiesAnswer memory agent = .ok a) :
    a.msg = identitiesAnswer (listing agent) ∧ a.msgSz = a.msg.length := by
  rw [answerSz] at hfits
  have hcount := length_le_entries agent.idList
  have hentries : agent.idList.flatMap AgentId.written =
      (listing agent).flatMap fun key => copyString key.1 ++ copyString key.2 := by
    rw [listing, List.flatMap_map]
    exact List.flatMap_congr fun id hid => (hsound id hid).written_eq
  have hlen := length_flatMap_written hsound
  rw [sendIdentitiesAnswer, foldl_word32 _ _ (by omega)] at h
  dsimp only at h
  rcases hprepare : prepareMessage memory (msgIdSz + uint32Sz + (agent.idList.map AgentId.entrySz).sum)
    with _ | msgSz
  · simp [hprepare] at h
  · have hmsgSz : msgSz = lengthSz + (msgIdSz + uint32Sz + (agent.idList.map AgentId.entrySz).sum) := by
      rw [prepareMessage] at hprepare
      split at hprepare
      · simp at hprepare
      · split at hprepare
        · rw [← Except.ok.inj hprepare, word32_of_lt (by omega), Nat.add_comm]
        · simp at hprepare
    simp only [hprepare] at h
    split at h
    · simp at h
    · obtain rfl := (Except.ok.inj h).symm
      have hpayload : (msgidIdentitiesAnswer :: c32toa agent.idList.length ++
          agent.idList.flatMap AgentId.written).length
          = msgIdSz + uint32Sz + (agent.idList.map AgentId.entrySz).sum := by
        simp only [List.length_append, List.length_cons, c32toa_length, hlen, msgIdSz, uint32Sz]
      have hlisted : (listing agent).length = agent.idList.length := by simp [listing]
      rw [word32_of_lt (by omega)]
      constructor
      · rw [identitiesAnswer, hlisted, ← hentries, copyString, hpayload]
      · rw [List.length_append, hpayload, c32toa_length, hmsgSz, lengthSz]

end Answer

/-! One message. -/

section Payload

variable {sha256 : Bytes → Bytes} {agent : AgentCtx} {payload : Bytes}

/-- The agent's list is sound and counted. -/
structure Kept (sha256 : Bytes → Bytes) (agent : AgentCtx) : Prop where
  sound : ∀ id ∈ agent.idList, Sound sha256 id
  count : agent.idListSz = agent.idList.length
  small : agent.idListSz < 2 ^ 32

/-- A listing has room for its answer. An added key has a name whose size does not wrap, and there is
room to count it. A removed key is listed once at most. -/
def PayloadFits (agent : AgentCtx) (msg : Nat) (payload : Bytes) : Prop :=
  (msg = 11 → answerSz agent < 2 ^ 32) ∧
    (msg = 17 → lengthSz + ato32 payload < 2 ^ 32 ∧ agent.idList.length + 1 < 2 ^ 32) ∧
    (msg = 18 → ∀ blob ∈ removedKey payload, (listing agent).countP (fun key => key.1 == blob) ≤ 1)

instance (agent : AgentCtx) (msg : Nat) (payload : Bytes) : Decidable (PayloadFits agent msg payload) :=
  inferInstanceAs (Decidable (_ ∧ _ ∧ _))

/-- What holds of a message and its outcome. -/
structure PayloadRight (sha256 : Bytes → Bytes) (agent : AgentCtx) (msg : UInt8) (payload : Bytes)
    (o : Outcome) : Prop where
  kept : Kept sha256 o.agent
  refused : ∀ e, o.ret = .error e → o.agent = agent
  inside : ∀ s ∈ o.taken, s.Inside payload.length
  listed : ∀ r, o.ret = .ok r → listing o.agent = Store.after (listing agent) msg payload
  answered : ∀ a, o.ret = .ok (.answer a) →
    a.msg = identitiesAnswer (listing agent) ∧ a.msgSz = a.msg.length

theorem Store.after_add {msg : UInt8} (hmsg : msg.toNat = 17) (store : Store) :
    store.after msg payload = (addedKey payload).toList ++ store := by
  simp only [Store.after, hmsg]

theorem Store.after_remove {msg : UInt8} (hmsg : msg.toNat = 18) (store : Store) :
    store.after msg payload = store.filter fun key => removedKey payload ≠ some key.1 := by
  simp only [Store.after, hmsg]

theorem PayloadRight.quiet {msg : UInt8} {o : Outcome} (h : Kept sha256 agent) (hagent : o.agent = agent)
    (hinside : ∀ s ∈ o.taken, s.Inside payload.length)
    (hafter : ∀ r, o.ret = .ok r → (listing agent).after msg payload = listing agent)
    (hanswer : ∀ a, o.ret = .ok (.answer a) →
      a.msg = identitiesAnswer (listing agent) ∧ a.msgSz = a.msg.length) :
    PayloadRight sha256 agent msg payload o where
  kept := by
    rw [hagent]
    exact h
  refused := fun _ _ => hagent
  inside := hinside
  listed := fun r hr => by rw [hafter r hr, hagent]
  answered := hanswer

theorem doAddIdentity_right (h : Kept sha256 agent) (hfits : payload.length < 2 ^ 32)
    (hname : lengthSz + ato32 payload < 2 ^ 32) (hroom : agent.idList.length + 1 < 2 ^ 32) (memory : Bool)
    {msg : UInt8} (hmsg : msg.toNat = 17) :
    PayloadRight sha256 agent msg payload (doAddIdentity sha256 memory payload agent) := by
  have hinside := @doAddIdentity_inside sha256 payload hname memory agent
  rcases @doAddIdentity_steps sha256 payload hfits memory agent with
    ⟨e, hret, hagent⟩ | ⟨hret, id, hid, hadded, hagent⟩
  · exact .quiet h hagent hinside (fun r hr => by simp [hret] at hr) fun a ha => by simp [hret] at ha
  · refine ⟨?_, fun e he => by simp [hret] at he, hinside, fun r _ => ?_, fun a ha => by simp [hret] at ha⟩
    · rw [hagent]
      have hsz : word32 (agent.idListSz + 1) = agent.idList.length + 1 := by
        rw [h.count, word32_of_lt hroom]
      exact ⟨List.forall_mem_cons.mpr ⟨hid, h.sound⟩, hsz, by rw [hsz]; exact hroom⟩
    · rw [Store.after_add hmsg, hadded, hagent]
      rfl

theorem doRemoveIdentity_right (hsha : Function.Injective sha256) (h : Kept sha256 agent)
    (hfits : payload.length < 2 ^ 32)
    (honce : ∀ blob ∈ removedKey payload, (listing agent).countP (fun key => key.1 == blob) ≤ 1)
    {msg : UInt8} (hmsg : msg.toNat = 18) :
    PayloadRight sha256 agent msg payload (doRemoveIdentity sha256 payload agent) := by
  have hinside : ∀ s ∈ (doRemoveIdentity sha256 payload agent).taken, s.Inside payload.length := by
    rw [doRemoveIdentity]
    split
    · simp
    · split
      · simp
      · rcases hfield : (getField payload .string).runAt 0 with ⟨_ | keyBlob, idx⟩
        · simp
        · have hone := getField_inside hfield
          dsimp only
          split <;> simpa using hone
  rcases doRemoveIdentity_steps hsha h.sound h.count h.small hfits honce with
    ⟨e, hret, hagent⟩ | ⟨hret, blob, hremoved, hcount, hlist⟩
  · exact .quiet h hagent hinside (fun r hr => by simp [hret] at hr) fun a ha => by simp [hret] at ha
  · refine ⟨⟨?_, hcount, ?_⟩, fun e he => by simp [hret] at he, hinside, fun r _ => ?_,
      fun a ha => by simp [hret] at ha⟩
    · rw [hlist]
      exact fun id hid => h.sound id (List.mem_of_mem_filter hid)
    · rw [hcount, hlist]
      refine Nat.lt_of_le_of_lt (List.length_filter_le ..) ?_
      rw [← h.count]
      exact h.small
    · rw [Store.after_remove hmsg, listing, listing, hlist, hremoved, List.filter_map]
      congr 1
      refine List.filter_congr fun id _ => ?_
      simp [eq_comm]

theorem doSignRequest_right (h : Kept sha256 agent) {msg : UInt8} (hmsg : msg.toNat = 13) :
    PayloadRight sha256 agent msg payload (doSignRequest sha256 payload agent) := by
  have hafter : (listing agent).after msg payload = listing agent := by
    simp only [Store.after, hmsg]
  have hread := @getFields_inside payload [.string, .string] 0
  rw [doSignRequest]
  split
  · exact .quiet h rfl (by simp) (fun _ _ => hafter) nofun
  · rcases hfields : getFields payload [.string, .string] 0 with ⟨taken, _ | idx⟩
    · rw [hfields] at hread
      exact .quiet h rfl hread (fun _ _ => hafter) nofun
    · rw [hfields] at hread
      dsimp only
      rcases (getUint32 payload).runAt idx with ⟨_ | flags, idx'⟩
      · exact .quiet h rfl hread (fun _ _ => hafter) nofun
      · refine .quiet h rfl hread (fun _ _ => hafter) fun a ha => ?_
        dsimp only [postSignRequest] at ha
        split at ha
        · simp at ha
        · split at ha <;> simp at ha

theorem doPayload_right (hsha : Function.Injective sha256) (h : Kept sha256 agent)
    (hfits : payload.length < 2 ^ 32) {msg : UInt8} (hmsg : PayloadFits agent msg.toNat payload)
    (memory : Bool) : PayloadRight sha256 agent msg payload (doPayload sha256 memory msg payload agent) := by
  obtain ⟨hanswer, hadd, hremove⟩ := hmsg
  rw [doPayload]
  split
  · rename_i hmsg
    have hafter : (listing agent).after msg payload = listing agent := by
      simp only [Store.after, hmsg]
    rw [doRequestIdentities]
    split
    · exact .quiet h rfl (by simp) (fun _ _ => hafter) nofun
    · refine .quiet h rfl (by simp) (fun _ _ => hafter) fun a ha => ?_
      rcases hsent : sendIdentitiesAnswer memory agent with _ | a'
      · simp [hsent, Except.map] at ha
      · have hsame : a' = a := by simpa [hsent, Except.map] using ha
        exact sendIdentitiesAnswer_ok h.sound (hanswer hmsg) (hsame ▸ hsent)
  · rename_i hmsg
    exact doSignRequest_right h hmsg
  · rename_i hmsg
    exact doAddIdentity_right h hfits (hadd hmsg).1 (hadd hmsg).2 memory hmsg
  · rename_i hmsg
    exact doRemoveIdentity_right hsha h hfits (hremove hmsg) hmsg
  · rename_i hmsg
    rw [doRemoveAllIdentities]
    split
    · exact .quiet h rfl (by simp) nofun nofun
    · have hafter : (listing agent).after msg payload = [] := by
        simp only [Store.after, hmsg]
      exact ⟨⟨by simp [postRemoveAllIds], rfl, Nat.two_pow_pos 32⟩, nofun, by simp,
        fun _ _ => hafter.symm, nofun⟩
  · exact .quiet h rfl (by simp) nofun nofun

end Payload

/-! Runs. -/

/-- The agent, and the keys that were added and not removed since. -/
structure Tracked where
  agent : AgentCtx := {}
  store : Store := []

def Tracked.step (sha256 : Bytes → Bytes) (t : Tracked) (m : Message) : Tracked :=
  let o := doMessage sha256 m t.agent
  { agent := o.agent
    store := match o.ret, m.split with
      | .ok _, some (msg, payload) => t.store.after msg payload
      | _, _ => t.store }

def MessageFits (t : Tracked) (m : Message) : Prop :=
  ∀ p ∈ m.split, PayloadFits t.agent p.1.toNat p.2

instance (t : Tracked) (m : Message) : Decidable (MessageFits t m) :=
  inferInstanceAs (Decidable (∀ p ∈ m.split, PayloadFits t.agent p.1.toNat p.2))

/-- What one message does to the store and to its listing. -/
structure StepRight (sha256 : Bytes → Bytes) (t : Tracked) (m : Message) : Prop where
  count : (t.step sha256 m).agent.idListSz = (t.step sha256 m).agent.idList.length
  refused : ∀ e, (doMessage sha256 m t.agent).ret = .error e →
    (t.step sha256 m).agent = t.agent
  inside : ∀ p ∈ m.split, ∀ s ∈ (doMessage sha256 m t.agent).taken, s.Inside p.2.length
  listed : listing (t.step sha256 m).agent = (t.step sha256 m).store
  answered : ∀ a, (doMessage sha256 m t.agent).ret = .ok (.answer a) →
    a.msg = identitiesAnswer t.store ∧ a.msgSz = a.msg.length
  found : ∀ blob, (findKeyId sha256 (t.step sha256 m).agent.idList blob).isSome ↔
    ∃ comment, (blob, comment) ∈ (t.step sha256 m).store
  removed : ∀ p ∈ m.split, p.1.toNat = 18 → (doMessage sha256 m t.agent).ret = .ok .done →
    ∀ blob ∈ removedKey p.2, findKeyId sha256 (t.step sha256 m).agent.idList blob = none ∧
      ∀ comment, (blob, comment) ∉ listing (t.step sha256 m).agent

section Run

variable {sha256 : Bytes → Bytes}

theorem Message.split_fits {m : Message} {p : UInt8 × Bytes} (h : p ∈ m.split) : p.2.length < 2 ^ 32 := by
  have hall := m.fits
  rw [Message.split] at h
  rcases hsize : (getSize m.buf).runAt 0 with ⟨_ | payloadSz, idx⟩
  · simp [hsize] at h
  · simp only [hsize] at h
    rcases hpayload : (m.buf.drop idx).take payloadSz with _ | ⟨msg, payload⟩
    · simp [hpayload] at h
    · have hlen := congrArg List.length hpayload
      rw [List.length_take, List.length_drop, List.length_cons] at hlen
      simp only [hpayload, Option.mem_def, Option.some.injEq] at h
      rw [← h]
      dsimp only
      omega

theorem doMessage_none {m : Message} (h : m.split = none) (agent : AgentCtx) :
    doMessage sha256 m agent = { ret := .error (.ws .overflowE), agent } := by
  rw [doMessage, h]

theorem step_store {t : Tracked} {m : Message} {msg : UInt8} {payload : Bytes}
    (h : m.split = some (msg, payload)) :
    (t.step sha256 m).store =
      match (doMessage sha256 m t.agent).ret with
      | .ok _ => t.store.after msg payload
      | .error _ => t.store := by
  rw [Tracked.step]
  dsimp only
  rw [h]
  cases (doMessage sha256 m t.agent).ret <;> rfl

theorem removed_gone {msg : UInt8} {payload blob : Bytes} {store : Store} (hmsg : msg.toNat = 18)
    (hremoved : blob ∈ removedKey payload) (comment : Bytes) :
    (blob, comment) ∉ store.after msg payload := by
  rw [Store.after_remove hmsg, List.mem_filter]
  rintro ⟨-, hkeep⟩
  simp [Option.mem_def.mp hremoved] at hkeep

theorem step_right (hsha : Function.Injective sha256) {t : Tracked}
    (h : Kept sha256 t.agent ∧ listing t.agent = t.store) {m : Message} (hm : MessageFits t m) :
    (Kept sha256 (t.step sha256 m).agent ∧ listing (t.step sha256 m).agent = (t.step sha256 m).store) ∧
      StepRight sha256 t m := by
  obtain ⟨hkept, hlisted⟩ := h
  have hright : ∀ p ∈ m.split, PayloadRight sha256 t.agent p.1 p.2 (doMessage sha256 m t.agent) := by
    intro p hp
    have hpayload := doPayload_right hsha hkept (Message.split_fits hp) (hm p hp) m.memory
    rw [doMessage, Option.mem_def.mp hp]
    exact hpayload
  have hrefused : ∀ e, (doMessage sha256 m t.agent).ret = .error e →
      (doMessage sha256 m t.agent).agent = t.agent := by
    intro e he
    rcases hsplit : m.split with _ | p
    · rw [doMessage_none hsplit]
    · exact (hright p hsplit).refused e he
  have hnext : Kept sha256 (doMessage sha256 m t.agent).agent ∧
      listing (doMessage sha256 m t.agent).agent = (t.step sha256 m).store := by
    rcases hsplit : m.split with _ | ⟨msg, payload⟩
    · have hstore : (t.step sha256 m).store = t.store := by
        simp only [Tracked.step, doMessage_none hsplit]
      rw [doMessage_none hsplit, hstore]
      exact ⟨hkept, hlisted⟩
    · have hthis := hright _ hsplit
      refine ⟨hthis.kept, ?_⟩
      rw [step_store hsplit]
      cases hret : (doMessage sha256 m t.agent).ret with
      | ok r =>
        dsimp only
        rw [← hlisted]
        exact hthis.listed r hret
      | error e =>
        dsimp only
        rw [← hlisted, hrefused e hret]
  obtain ⟨hkept', hlisted'⟩ := hnext
  have hfound : ∀ blob, (findKeyId sha256 (t.step sha256 m).agent.idList blob).isSome ↔
      ∃ comment, (blob, comment) ∈ (t.step sha256 m).store := by
    intro blob
    rw [← hlisted']
    exact findKeyId_some_iff hsha hkept'.sound
  refine ⟨⟨hkept', hlisted'⟩, hkept'.count, hrefused, fun p hp => (hright p hp).inside, hlisted', ?_,
    hfound, ?_⟩
  · intro a ha
    rcases hsplit : m.split with _ | p
    · rw [doMessage_none hsplit] at ha
      simp at ha
    · rw [← hlisted]
      exact (hright p hsplit).answered a ha
  · rintro ⟨msg, payload⟩ hp hmsg hret blob hremoved
    have hgone : ∀ comment, (blob, comment) ∉ (t.step sha256 m).store := by
      rw [step_store hp, hret]
      exact removed_gone hmsg hremoved
    constructor
    · rw [← Option.not_isSome_iff_eq_none, hfound]
      exact fun ⟨comment, hkey⟩ => hgone comment hkey
    · have hlist : listing (t.step sha256 m).agent = (t.step sha256 m).store := hlisted'
      rw [hlist]
      exact hgone

end Run

/-- In every run of messages that fit, the store is that of the keys added and not removed since. It
is counted, listed in full and searched by its blobs. A message that fails leaves it alone. -/
theorem agent_store_kept (sha256 : Bytes → Bytes) (hsha : Function.Injective sha256) (ms : List Message)
    (hms : Runs.Meets (Tracked.step sha256) MessageFits {} ms) :
    ∀ p ∈ Runs.steps (Tracked.step sha256) {} ms, StepRight sha256 p.1 p.2 := by
  have hinv : ∀ t ∈ Runs.states (Tracked.step sha256) {} ms,
      Kept sha256 t.agent ∧ listing t.agent = t.store := by
    refine Runs.invariant (fun t m h hm => (step_right hsha h hm).1) ?_ hms
    exact ⟨⟨by simp, rfl, Nat.two_pow_pos 32⟩, rfl⟩
  intro p hp
  exact (step_right hsha (hinv p.1 (Runs.mem_states_of_mem_steps hp)) (hms p hp)).2

/-- The blob of an ECDSA key with no curve name and one octet of `q`. -/
def tinyBlob : Bytes := copyString [] ++ copyString [4]

/-- A digest with the right value at the blob of the tiny key. -/
def tinySha256 : Bytes → Bytes :=
  Equiv.swap tinyBlob [244, 51, 67, 203, 82, 231, 215, 233, 176, 158, 122, 20, 74, 124, 196, 124, 162, 244, 181, 203,
    59, 243, 159, 209, 82, 197, 71, 235, 52, 68, 61, 57]

theorem tinySha256_injective : Function.Injective tinySha256 := (Equiv.swap _ _).injective

def tinyAdd : Message where
  buf := copyString (17 :: copyString (ascii "ecdsa-sha2-nistp256") ++
    (tinyBlob ++ (copyString [1] ++ copyString [99])))
  fits := by decide +kernel

def tinyRemove : Message where
  buf := copyString (18 :: copyString tinyBlob)
  fits := by decide +kernel

def listIdentities : Message where
  buf := copyString [11]
  fits := by decide +kernel

theorem agent_store_kept_tiny :
    StepRight tinySha256 ((({} : Tracked).step tinySha256 tinyAdd).step tinySha256 listIdentities)
      tinyRemove := by
  refine agent_store_kept tinySha256 tinySha256_injective [tinyAdd, listIdentities, tinyRemove, tinyAdd] ?_
    (_, _) (.tail _ (.tail _ (.head _)))
  show ∀ p ∈ Runs.steps (Tracked.step tinySha256) {} _, MessageFits p.1 p.2
  decide +kernel

/-- A key that was added twice is found after it was removed. -/
theorem removed_key_stays :
    ¬ ∀ (sha256 : Bytes → Bytes), Function.Injective sha256 → ∀ (ms : List Message),
      ∀ p ∈ Runs.steps (Tracked.step sha256) {} ms, StepRight sha256 p.1 p.2 := by
  intro h
  have hstep := h tinySha256 tinySha256_injective [tinyAdd, tinyAdd, tinyRemove]
    ((({} : Tracked).step tinySha256 tinyAdd).step tinySha256 tinyAdd, tinyRemove) (by simp [Runs.steps])
  have hgone := hstep.removed (18, copyString tinyBlob) (by decide +kernel) rfl (by decide +kernel)
    tinyBlob (by decide +kernel)
  exact absurd hgone.1 (by decide +kernel)

end WolfSsh.Agent
