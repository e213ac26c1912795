import WolfSsh.Names
import WolfSsh.WireSlices

/-! The key store of the agent: the messages that add and remove identities, list them and look one
up to sign with it. The digest function is a parameter. -/

namespace WolfSsh.Agent

open Fallible Slices

inductive AgentErr where
  | ws (e : WsErr)
  | agentNoKeyE
deriving DecidableEq, Repr

/-- A value kept in a `word32`. -/
def word32 (n : Nat) : Nat := n % 2 ^ 32

/-- The slices are of `keyBuffer`. The ones in `key` are `n`, `e`, `d`, `iqmp`, `p` and `q` of an RSA
key, and the curve name, `q` and `d` of an ECDSA key. -/
structure AgentId where
  keyType : AlgoId
  keyBuffer : Bytes
  keyBlob : Slice
  key : List Slice
  comment : Slice
  id : Bytes
deriving DecidableEq, Repr

structure AgentCtx where
  idList : List AgentId := []
  idListSz : Nat := 0
deriving DecidableEq, Repr

/-- An answer: the size of its buffer, and what is written to it. -/
structure Answer where
  msgSz : Nat
  msg : Bytes
deriving DecidableEq, Repr

inductive Reply where
  | done
  | answer (a : Answer)
  | signWith (id : AgentId)
deriving DecidableEq, Repr

/-- What a message comes to, with the slices of it that the parser hands out. -/
structure Outcome where
  ret : Except AgentErr Reply
  taken : List Slice := []
  agent : AgentCtx
deriving Repr

/-- The fields that follow the name of a key type, the comment last. -/
def keyFields : AlgoId → Option (List FieldKind)
  | .sshRsa => some [.mpint, .mpint, .mpint, .mpint, .mpint, .mpint, .string]
  | .ecdsaSha2Nistp256 | .ecdsaSha2Nistp384 | .ecdsaSha2Nistp521 =>
    some [.string, .mpint, .mpint, .string]
  | _ => none

section Store

variable (sha256 : Bytes → Bytes)

/-- What `PostAddRsaId` and `PostAddEcdsaId` do with the sizes of the fields of a key. The first two
fields are its blob. -/
def postAddId (memory : Bool) (keyType : AlgoId) (key : Bytes) (keySz : Nat) (sizes : List Nat)
    (commentSz : Nat) (agent : AgentCtx) : Except AgentErr AgentCtx :=
  if memory then
    let blobSz := word32 ((sizes.take 2).sum + lengthSz * 2)
    let id : AgentId := {
      keyType
      keyBuffer := key.take keySz
      keyBlob := ⟨0, blobSz⟩
      key := layout lengthSz 0 sizes
      comment := ⟨lengthSz + (sizes.map (· + lengthSz)).sum, commentSz⟩
      id := sha256 (key.take blobSz) }
    .ok { idList := id :: agent.idList, idListSz := word32 (agent.idListSz + 1) }
  else .error (.ws .memoryE)

def postAddRsaId (memory : Bool) (keyType : AlgoId) (key : Bytes)
    (keySz nSz eSz dSz iqmpSz pSz qSz commentSz : Nat) : AgentCtx → Except AgentErr AgentCtx :=
  postAddId sha256 memory keyType key keySz [nSz, eSz, dSz, iqmpSz, pSz, qSz] commentSz

def postAddEcdsaId (memory : Bool) (keyType : AlgoId) (key : Bytes)
    (keySz curveNameSz qSz dSz commentSz : Nat) : AgentCtx → Except AgentErr AgentCtx :=
  postAddId sha256 memory keyType key keySz [curveNameSz, qSz, dSz] commentSz

/-- The end of `DoAddIdentity`, on the sizes of the fields that were read. -/
def postAdd (memory : Bool) (keyType : AlgoId) (key : Bytes) (sizes : List Nat) (agent : AgentCtx) :
    Except AgentErr AgentCtx :=
  match sizes with
  | [nSz, eSz, dSz, iqmpSz, pSz, qSz, commentSz] =>
    let keySz := word32 (nSz + eSz + dSz + iqmpSz + pSz + qSz + commentSz + lengthSz * 7)
    postAddRsaId sha256 memory keyType key keySz nSz eSz dSz iqmpSz pSz qSz commentSz agent
  | [curveNameSz, qSz, dSz, commentSz] =>
    let keySz := word32 (curveNameSz + qSz + dSz + commentSz + lengthSz * 4)
    postAddEcdsaId sha256 memory keyType key keySz curveNameSz qSz dSz commentSz agent
  | _ => .error (.ws .parseE)

/-- The slice of a name may be any after a bound check that wraps. No name of the table has the
size of one that is not in the buffer, and it is not looked into. -/
def nameSliceToId (buf : Bytes) (name : Slice) : AlgoId :=
  if name.Inside buf.length then nameToId (name.of buf) else .unknown

def doAddIdentity (memory : Bool) (buf : Bytes) (agent : AgentCtx) : Outcome :=
  if buf = [] then { ret := .error (.ws .badArgument), agent }
  else if lengthSz > buf.length then { ret := .error (.ws .parseE), agent }
  else
    let sz := ato32 buf
    if word32 (lengthSz + sz) > buf.length then { ret := .error (.ws .parseE), agent }
    else
      let name : Slice := ⟨lengthSz, sz⟩
      let keyType := nameSliceToId buf name
      let begin := word32 (lengthSz + sz)
      match keyFields keyType with
      | none => { ret := .error (.ws .parseE), taken := [name], agent }
      | some kinds =>
        match getFields buf kinds begin with
        | (slices, .error e) => { ret := .error (.ws e), taken := name :: slices, agent }
        | (slices, .ok idx) =>
          let key : Slice := ⟨begin, idx - begin⟩
          match postAdd sha256 memory keyType (buf.drop begin) (slices.map Slice.size) agent with
          | .error e => { ret := .error e, taken := name :: slices ++ [key], agent }
          | .ok agent => { ret := .ok .done, taken := name :: slices ++ [key], agent }

/-- The first identity with this digest goes. -/
def postRemoveId (keyBlob : Bytes) (agent : AgentCtx) : Except AgentErr AgentCtx :=
  if keyBlob = [] then .error (.ws .badArgument)
  else
    let digest := sha256 keyBlob
    if agent.idList.any (fun id => id.id == digest) then
      .ok {
        idList := agent.idList.eraseP (fun id => id.id == digest)
        idListSz := word32 (agent.idListSz + (2 ^ 32 - 1)) }
    else .ok agent

def doRemoveIdentity (buf : Bytes) (agent : AgentCtx) : Outcome :=
  if buf = [] then { ret := .error (.ws .badArgument), agent }
  else if lengthSz > buf.length then { ret := .error (.ws .parseE), agent }
  else
    match (getField buf .string).runAt 0 with
    | (.error e, _) => { ret := .error (.ws e), agent }
    | (.ok keyBlob, _) =>
      match postRemoveId sha256 (keyBlob.of buf) agent with
      | .error e => { ret := .error e, taken := [keyBlob], agent }
      | .ok agent => { ret := .ok .done, taken := [keyBlob], agent }

def postRemoveAllIds (_ : AgentCtx) : AgentCtx := {}

def doRemoveAllIdentities (buf : Bytes) (agent : AgentCtx) : Outcome :=
  if buf ≠ [] then { ret := .error (.ws .badArgument), agent }
  else { ret := .ok .done, agent := postRemoveAllIds agent }

/-- The digest is compared first, then the octets of a blob of the same size. -/
def findKeyId (list : List AgentId) (keyBlob : Bytes) : Option AgentId :=
  list.find? fun id =>
    sha256 keyBlob == id.id ||
      (id.keyBlob.size == keyBlob.length && keyBlob == id.keyBlob.of id.keyBuffer)

/-- `PostSignRequest` up to the key that it signs with. -/
def postSignRequest (keyBlob : Bytes) (agent : AgentCtx) : Except AgentErr Reply :=
  if keyBlob = [] then .error (.ws .badArgument)
  else
    match findKeyId sha256 agent.idList keyBlob with
    | none => .error .agentNoKeyE
    | some id => .ok (.signWith id)

def doSignRequest (buf : Bytes) (agent : AgentCtx) : Outcome :=
  if buf = [] then { ret := .error (.ws .badArgument), agent }
  else
    match getFields buf [.string, .string] 0 with
    | (taken, .error e) => { ret := .error (.ws e), taken, agent }
    | (taken, .ok idx) =>
      match (getUint32 buf).runAt idx with
      | (.error e, _) => { ret := .error (.ws e), taken, agent }
      | (.ok _, _) =>
        let keyBlob := (taken.map (·.of buf)).headD []
        { ret := postSignRequest sha256 keyBlob agent, taken, agent }

def prepareMessage (memory : Bool) (payloadSz : Nat) : Except AgentErr Nat :=
  if payloadSz = 0 then .error (.ws .badArgument)
  else if memory then .ok (word32 (payloadSz + lengthSz))
  else .error (.ws .memoryE)

def msgidIdentitiesAnswer : UInt8 := 12

def AgentId.written (id : AgentId) : Bytes :=
  c32toa id.keyBlob.size ++ id.keyBlob.of id.keyBuffer ++
    (c32toa id.comment.size ++ id.comment.of id.keyBuffer)

/-- `BundleMessage` compares sizes that wrap alike. -/
def sendIdentitiesAnswer (memory : Bool) (agent : AgentCtx) : Except AgentErr Answer :=
  let payloadSz := agent.idList.foldl
    (fun sz id => word32 (sz + (lengthSz * 2 + id.keyBlob.size + id.comment.size)))
    (msgIdSz + uint32Sz)
  match prepareMessage memory payloadSz with
  | .error e => .error e
  | .ok msgSz =>
    let idCount := word32 agent.idList.length
    let written := msgidIdentitiesAnswer :: c32toa idCount ++ agent.idList.flatMap AgentId.written
    if word32 (lengthSz + payloadSz) > msgSz ∨ word32 (lengthSz + written.length) > msgSz then
      .error (.ws .bufferE)
    else .ok { msgSz, msg := c32toa payloadSz ++ written }

def doRequestIdentities (memory : Bool) (buf : Bytes) (agent : AgentCtx) : Outcome :=
  if buf ≠ [] then { ret := .error (.ws .parseE), agent }
  else { ret := (sendIdentitiesAnswer memory agent).map .answer, agent }

/-- The messages of the store. The other ones leave it alone. -/
def doPayload (memory : Bool) (msg : UInt8) (payload : Bytes) (agent : AgentCtx) : Outcome :=
  match msg.toNat with
  | 11 => doRequestIdentities memory payload agent
  | 13 => doSignRequest sha256 payload agent
  | 17 => doAddIdentity sha256 memory payload agent
  | 18 => doRemoveIdentity sha256 payload agent
  | 19 => doRemoveAllIdentities payload agent
  | _ => { ret := .error (.ws .unimplementedE), agent }

end Store

/-- A message as it comes in, and whether memory can be had for what it needs. -/
structure Message where
  memory : Bool := true
  buf : Bytes
  fits : buf.length < 2 ^ 32

/-- The message number and what follows it, if the size of the message can be right. -/
def Message.split (m : Message) : Option (UInt8 × Bytes) :=
  match (getSize m.buf).runAt 0 with
  | (.error _, _) => none
  | (.ok payloadSz, begin) =>
    match (m.buf.drop begin).take payloadSz with
    | [] => none
    | msg :: payload => some (msg, payload)

def doMessage (sha256 : Bytes → Bytes) (m : Message) (agent : AgentCtx) : Outcome :=
  match m.split with
  | none => { ret := .error (.ws .overflowE), agent }
  | some (msg, payload) => doPayload sha256 m.memory msg payload agent

end WolfSsh.Agent
