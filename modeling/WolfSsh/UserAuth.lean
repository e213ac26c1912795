import WolfSsh.UserAuthKey
import WolfSsh.KexSession

/-! User authentication on the server: `DoUserAuthRequest`, `DoUserAuthInfoResponse` and the methods
under them, with the attempts they count and the keyboard-interactive exchange they keep open. What
the application's callbacks, the transport and the allocator answer comes in with each packet. -/

namespace WolfSsh.UserAuth

open Session (Ret)

/-- What a send answers; only the callback has a packet wait. -/
abbrev SendRet := { ret : Ret // ret ≠ .error .authPending }

/-- What `userAuthCb` may answer; any value that is not named counts as a failure. -/
inductive AuthResult where
  | success | failure | rejected | partialSuccess | successAnother | wouldBlock
deriving DecidableEq, Repr

inductive AuthType where
  | password | publickey | keyboard | none | keyboardSetup
deriving DecidableEq, Repr

/-- The callback for one packet: its answer, and for a keyboard setup the answer and the prompts'
lengths, none of them where an array is left unset. -/
structure Callback where
  check : AuthResult := .failure
  setup : AuthResult := .failure
  promptCount : Nat := 0
  promptLengths : Option (List Nat) := some []
deriving Repr

structure Env where
  userAuthCb : Option Callback := some {}
  oracles : Oracles
  resultCb : Bool := true
  failureSend : SendRet := ⟨.ok (), nofun⟩
  pkOkSend : SendRet := ⟨.ok (), nofun⟩
  infoRequest : SendRet := ⟨.ok (), nofun⟩
  userNameAlloc : Bool := true
  responsesAlloc : Bool := true

/-- An INFO_REQUEST that was bundled: the packet that it answers, for whom, and how many prompts. -/
structure InfoRequest where
  no : Nat
  user : Bytes
  promptCount : Nat
deriving DecidableEq, Repr

/-- A call of `userAuthCb`: for which packet, what about, how many failures had been counted, the
responses with the INFO_REQUEST they answer, and the key. -/
structure Call where
  no : Nat
  type : AuthType
  user : Bytes
  failures : Nat
  answers : Option InfoRequest := none
  responseCount : Nat := 0
  key : Bytes := []
  result : AuthResult
deriving DecidableEq, Repr

/-- What the handlers read and write of the session, and its history, the latest first. A packet is
known by its number. -/
structure Ssh where
  allowNone : Bool
  maxAuthAttempts : Nat
  sessionId : Bytes := []
  authId : AlgoId := .userauthPublickey
  authRequests : Nat := 0
  authFailures : Nat := 0
  userAuthSeen : Bool := false
  userName : Bytes := []
  kbSetupPending : Bool := false
  promptCount : Nat := 0
  userauthDone : Bool := false
  disconnected : Bool := false
  charged : List Nat := []
  abandoned : List Nat := []
  outstanding : Option InfoRequest := none
  calls : List Call := []
  verifications : List Verification := []
  /-- The packets that came to a method, once for every dispatch. -/
  methodNos : List Nat := []
deriving DecidableEq, Repr

/-- The packet that is dispatched: the INFO_REQUEST that was outstanding when it came, and whether it
is an INFO_RESPONSE. -/
structure Packet where
  no : Nat
  answers : Option InfoRequest
  responding : Bool
deriving DecidableEq, Repr

def wolfsshMaxPrompts : Nat := 64
def wolfsshMaxPromptSz : Nat := 1024

namespace Ssh

def logCall (c : Call) (s : Ssh) : Ssh := { s with calls := c :: s.calls }

/-- The packet that a charge falls on is `no`. -/
def countUserAuthFailure (no : Nat) (s : Ssh) : Ssh × Ret :=
  let s := { s with
    authFailures := (s.authFailures + 1) % 2 ^ 32
    charged := no :: s.charged }
  if s.authFailures ≥ s.maxAuthAttempts then ({ s with disconnected := true }, .error .userAuthE)
  else (s, .ok ())

def sendUserAuthFailureCount (env : Env) (no : Nat) (count : Bool) (s : Ssh) : Ssh × Ret :=
  if count then
    let (s, cntRet) := s.countUserAuthFailure no
    (s, if cntRet.isOk then env.failureSend else cntRet)
  else (s, env.failureSend)

/-- A failure that is charged; a rejection ends the session. -/
def refuse (env : Env) (no : Nat) (rejected : Bool) (s : Ssh) : Ssh × Ret :=
  let (s, ret) := s.sendUserAuthFailureCount env no true
  (s, if rejected then .error .userAuthE else ret)

def doUserAuthRequestNone (env : Env) (p : Packet) (s : Ssh) : Ssh × Ret :=
  let countIt := s.authRequests ≠ 1
  match env.userAuthCb with
  | none => ((s.sendUserAuthFailureCount env p.no countIt).1, .error .fatalError)
  | some cb =>
    let s := s.logCall ⟨p.no, .none, s.userName, s.authFailures, none, 0, [], cb.check⟩
    match cb.check with
    | .success => ({ s with userauthDone := true }, .ok ())
    | .rejected => ((s.sendUserAuthFailureCount env p.no countIt).1, .error .userAuthE)
    | .wouldBlock => (s, .error .authPending)
    | .failure | .partialSuccess | .successAnother => s.sendUserAuthFailureCount env p.no countIt

/-- The prompts that the setup has left are fit to be sent. -/
def promptsOk (cb : Callback) : Bool :=
  cb.promptCount ≤ wolfsshMaxPrompts &&
    (cb.promptCount = 0 ||
      match cb.promptLengths with
      | none => false
      | some lengths =>
        (lengths.take cb.promptCount).all fun sz => sz ≠ 0 && sz ≤ wolfsshMaxPromptSz)

def sendUserAuthKeyboardRequest (env : Env) (p : Packet) (s : Ssh) : Ssh × Ret :=
  match env.userAuthCb with
  | none => (s, .error .badUsage)
  | some cb =>
    let s := s.logCall ⟨p.no, .keyboardSetup, s.userName, s.authFailures, none, 0, [], cb.setup⟩
    match cb.setup with
    | .success =>
      if promptsOk cb then
        let s := { s with promptCount := cb.promptCount }
        if env.infoRequest.val = .ok () ∨ env.infoRequest.val = .error .wantWrite then
          ({ s with
            kbSetupPending := true
            outstanding := some ⟨p.no, s.userName, cb.promptCount⟩ }, env.infoRequest)
        else (s, env.infoRequest)
      else (s, .error .badUsage)
    | .wouldBlock => ({ s with kbSetupPending := false }, .error .authPending)
    | .rejected => { s with kbSetupPending := false }.refuse env p.no true
    | .failure | .partialSuccess | .successAnother =>
      { s with kbSetupPending := false }.refuse env p.no false

/-- The responses, one string after the other. -/
def getResponses (buf : Bytes) : Nat → Nat → Except WsErr Nat
  | 0, idx => .ok idx
  | n + 1, idx => do
    let (_, idx) ← readAt (getStringRef buf) idx
    getResponses buf n idx

/-- `DoUserAuthInfoResponse` once the responses are read. -/
def checkResponses (env : Env) (p : Packet) (responseCount : Nat) (s : Ssh) : Ssh × Ret :=
  match env.userAuthCb with
  | none => s.refuse env p.no false
  | some cb =>
    let s := s.logCall
      ⟨p.no, .keyboard, s.userName, s.authFailures, p.answers, responseCount, [], cb.check⟩
    match cb.check with
    | .success => ({ s with userauthDone := true }, .ok ())
    | .successAnother => s.sendUserAuthKeyboardRequest env p
    | .wouldBlock => (s, .error .authPending)
    | .rejected => s.refuse env p.no true
    | .partialSuccess | .failure => s.refuse env p.no false

/-- `DoUserAuthInfoResponse` from the number of responses on. -/
def doUserAuthInfoResponseRead (env : Env) (p : Packet) (buf : Bytes) (s : Ssh) : Ssh × Ret :=
  match readAt (getUint32 buf) 0 with
  | .error e => (s, .error e)
  | .ok (responseCount, idx) =>
    if s.promptCount ≠ responseCount then s.refuse env p.no false
    else if responseCount ≠ 0 ∧ env.responsesAlloc = false then (s, .error .memoryE)
    else
      match getResponses buf responseCount idx with
      | .error e => (s, .error e)
      | .ok _ => s.checkResponses env p responseCount

def doUserAuthInfoResponse (env : Env) (p : Packet) (buf : Bytes) (s : Ssh) : Ssh × Ret :=
  if buf = [] then (s, .error .badArgument)
  else if s.authId ≠ .userauthKeyboard then (s, .error .fatalError)
  else { s with kbSetupPending := false, outstanding := none }.doUserAuthInfoResponseRead env p buf

def getPassword (buf : Bytes) (idx : Nat) : Except WsErr Bool := do
  let (hasNewPassword, idx) ← readAt (getBoolean buf) idx
  let (_, idx) ← readAt (getStringRef buf) idx
  if hasNewPassword then
    let _ ← readAt (getStringRef buf) idx
  return hasNewPassword

def doUserAuthRequestPassword (env : Env) (p : Packet) (buf : Bytes) (idx : Nat) (s : Ssh) :
    Ssh × Ret :=
  match getPassword buf idx with
  | .error e => (s, .error e)
  | .ok true => s.refuse env p.no false
  | .ok false =>
    match env.userAuthCb with
    | none => s.refuse env p.no false
    | some cb =>
      let s := s.logCall ⟨p.no, .password, s.userName, s.authFailures, none, 0, [], cb.check⟩
      match cb.check with
      | .success => ({ s with userauthDone := true }, .ok ())
      | .wouldBlock => (s, .error .authPending)
      | .rejected => s.refuse env p.no true
      | .partialSuccess | .failure | .successAnother => s.refuse env p.no false

/-- The end of `DoUserAuthRequestPublicKey`, once the callback has granted the key, in part or in
full: PK_OK for a probe, the check of the signature for the rest. -/
def checkKey (env : Env) (p : Packet) (authData : AuthData) (r : PkRequest) (alg : AlgoId)
    (pk : PublicKey) (granted : Bool) (s : Ssh) : Ssh × Ret :=
  if r.hasSig then
    match SignedRequest.verification env.oracles ⟨s.sessionId, authData, r.pubKeyBlob.length, pk⟩ alg with
    | .error _ => s.refuse env p.no false
    | .ok v =>
      let s := { s with verifications := v :: s.verifications }
      if env.oracles.verify v ∧ env.resultCb then
        if granted then ({ s with userauthDone := true }, .ok ()) else s.refuse env p.no false
      else s.refuse env p.no false
  else (s, if r.pubKeyAlgo = [] ∨ r.pubKeyBlob = [] then .error .badArgument else env.pkOkSend)

def doUserAuthRequestPublicKey (env : Env) (p : Packet) (authData : AuthData) (buf : Bytes)
    (idx : Nat) (s : Ssh) : Ssh × Ret :=
  match getPkRequest buf idx with
  | .error e => (s, .error e)
  | .ok (r, _) =>
    match getSigAlgo r with
    | .error e => (s, .error e)
    | .ok sigAlgo =>
      match prepareKey env.oracles buf r sigAlgo with
      | none => s.refuse env p.no false
      | some (alg, pk) =>
        match env.userAuthCb with
        | none => s.refuse env p.no false
        | some cb =>
          let s := s.logCall
            ⟨p.no, .publickey, s.userName, s.authFailures, none, 0, pk.publicKey, cb.check⟩
          match cb.check with
          | .wouldBlock => (s, .error .authPending)
          | .rejected => s.refuse env p.no true
          | .success => s.checkKey env p authData r alg pk true
          | .partialSuccess => s.checkKey env p authData r alg pk false
          | .failure | .successAnother => s.refuse env p.no false

/-- The exchange that another request ends is charged to the packet that opened it. -/
def abandonKeyboard (s : Ssh) : Ssh × Ret :=
  let opener := (s.outstanding.map InfoRequest.no).getD 0
  let s := { s with
    abandoned := (s.outstanding.map InfoRequest.no).toList ++ s.abandoned
    outstanding := none }
  if s.kbSetupPending then { s with kbSetupPending := false }.countUserAuthFailure opener
  else (s, .ok ())

/-- A request for any service but the connection is refused before its method is read. -/
def refuseService (env : Env) (p : Packet) (s : Ssh) : Ssh × Ret :=
  let (s, ret) := { s with authId := .none }.abandonKeyboard
  if ret.isOk then s.sendUserAuthFailureCount env p.no true else (s, ret)

def dispatchMethod (env : Env) (p : Packet) (authData : AuthData) (buf : Bytes) (idx : Nat)
    (s : Ssh) : Ssh × Ret :=
  match s.authId with
  | .userauthPassword => s.doUserAuthRequestPassword env p buf idx
  | .userauthKeyboard => s.sendUserAuthKeyboardRequest env p
  | .userauthPublickey => s.doUserAuthRequestPublicKey env p authData buf idx
  | id =>
    if id = .none ∧ s.allowNone then s.doUserAuthRequestNone env p
    else s.sendUserAuthFailureCount env p.no !(id = .none ∧ s.authRequests = 1)

/-- `DoUserAuthRequest` from the method on, for the user that the session is bound to. -/
def doUserAuthMethod (env : Env) (p : Packet) (authData : AuthData) (buf : Bytes) (idx : Nat)
    (s : Ssh) : Ssh × Ret :=
  let (s, ret) := { s with
    authId := nameToId authData.authName
    authRequests := (s.authRequests + 1) % 2 ^ 32
    methodNos := p.no :: s.methodNos }.abandonKeyboard
  if ret.isOk then s.dispatchMethod env p authData buf idx else (s, ret)

/-- The first request binds the user name, and another name ends the session. -/
def bindUser (env : Env) (username : Bytes) (s : Ssh) : Ssh × Ret :=
  if s.userAuthSeen then
    if username = s.userName then (s, .ok ())
    else ({ s with disconnected := true }, .error .invalidStateE)
  else if username = [] then (s, .error .badArgument)
  else if env.userNameAlloc then ({ s with userName := username, userAuthSeen := true }, .ok ())
  else (s, .error .memoryE)

def getNames (buf : Bytes) : Except WsErr (Bytes × Bytes × Nat) := do
  let (username, idx) ← readAt (getStringRef buf) 0
  let (serviceName, idx) ← readAt (getStringRef buf) idx
  return (username, serviceName, idx)

def doUserAuthRequest (env : Env) (p : Packet) (buf : Bytes) (s : Ssh) : Ssh × Ret :=
  if buf = [] then (s, .error .badArgument)
  else
    match getNames buf with
    | .error e => (s, .error e)
    | .ok (username, serviceName, idx) =>
      if nameToId serviceName ≠ .serviceConnection then s.refuseService env p
      else
        match readAt (getStringRef buf) idx with
        | .error e => (s, .error e)
        | .ok (authName, idx) =>
          let (s, ret) := s.bindUser env username
          if ret.isOk then s.doUserAuthMethod env p ⟨username, serviceName, authName⟩ buf idx
          else (s, ret)

end Ssh

/-! The packets of a session, one after the other. -/

inductive Message where
  | request (buf : Bytes)
  | infoResponse (buf : Bytes)
deriving DecidableEq, Repr

namespace Message

def packet (m : Message) (no : Nat) (answers : Option InfoRequest) : Packet where
  no := no
  answers := answers
  responding :=
    match m with
    | .request _ => false
    | .infoResponse _ => true

def handle (m : Message) (env : Env) (no : Nat) (answers : Option InfoRequest) (s : Ssh) : Ssh × Ret :=
  match m with
  | .request buf => s.doUserAuthRequest env (m.packet no answers) buf
  | .infoResponse buf => s.doUserAuthInfoResponse env (m.packet no answers) buf

end Message

end WolfSsh.UserAuth
