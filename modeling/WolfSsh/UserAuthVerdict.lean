import WolfSsh.UserAuth

/-! What is to become of a packet of the user authentication, read off the packet and the answers of
the callbacks, who is to be charged for it, and that the handlers do just that. -/

namespace WolfSsh.UserAuth

open Session (Ret)

/-- `broken` is an error before anything is decided, `stranger` a request for another user, and
`cutOff` a request that abandons the last exchange the session may fail. -/
inductive Verdict where
  | broken | stranger | cutOff | waits | authenticated | refused | probed | round
deriving DecidableEq, Repr

/-- The attempts of a session: how many have failed, whether it is over, who was charged, whose
exchange was abandoned, and the packet whose exchange is outstanding. -/
structure Account where
  failures : Nat
  ended : Bool
  charged : List Nat
  abandoned : List Nat
  opener : Option Nat
deriving DecidableEq, Repr

namespace Account

def charge (max no : Nat) (a : Account) : Account :=
  { a with
    failures := a.failures + 1
    ended := a.ended || max ≤ a.failures + 1
    charged := no :: a.charged }

def answer (a : Account) : Account := { a with opener := none }

def abandon (max : Nat) (a : Account) : Account :=
  match a.opener with
  | none => a
  | some no => { a with opener := none, abandoned := no :: a.abandoned }.charge max no

/-- What a verdict on packet `no` does to the account. -/
def settle (max : Nat) (v : Verdict) (exempt : Bool) (no : Nat) (a : Account) : Account :=
  match v with
  | .refused => if exempt then a else a.charge max no
  | .round => { a with opener := some no }
  | .stranger => { a with ended := true }
  | .broken | .cutOff | .waits | .authenticated | .probed => a

section Settle

variable (max : Nat) (v : Verdict) (exempt : Bool) (no : Nat) (a : Account)

/-- Only a refusal that counts is charged. -/
def charges : Prop := v = .refused ∧ exempt = false

instance : Decidable (charges v exempt) := inferInstanceAs (Decidable (_ ∧ _))

theorem settle_failures : (a.settle max v exempt no).failures =
    if charges v exempt then a.failures + 1 else a.failures := by
  cases v <;> cases exempt <;> rfl

theorem settle_charged : (a.settle max v exempt no).charged =
    if charges v exempt then no :: a.charged else a.charged := by
  cases v <;> cases exempt <;> rfl

theorem settle_abandoned : (a.settle max v exempt no).abandoned = a.abandoned := by
  cases v <;> cases exempt <;> rfl

theorem settle_opener : (a.settle max v exempt no).opener =
    if v = .round then some no else a.opener := by
  cases v <;> cases exempt <;> rfl

theorem settle_ended : (a.settle max v exempt no).ended =
    if charges v exempt then a.ended || max ≤ a.failures + 1 else a.ended || v = .stranger := by
  cases v <;> cases exempt <;> simp [settle, charges, charge]

theorem settle_capped (h : a.ended = false → a.failures < max)
    (hover : (a.settle max v exempt no).ended = false) :
    (a.settle max v exempt no).failures < max := by
  rw [settle_failures]
  rw [settle_ended] at hover
  by_cases hch : charges v exempt
  · rw [if_pos hch] at hover ⊢
    simpa using (Bool.or_eq_false_iff.mp hover).2
  · rw [if_neg hch] at hover ⊢
    exact h (Bool.or_eq_false_iff.mp hover).1

theorem abandon_capped (h : a.ended = false → a.failures < max)
    (hover : (a.abandon max).ended = false) : (a.abandon max).failures < max := by
  rw [abandon] at hover ⊢
  cases hop : a.opener with
  | none =>
    rw [hop] at hover
    exact h hover
  | some no =>
    rw [hop] at hover
    simpa [charge] using (Bool.or_eq_false_iff.mp hover).2

end Settle

end Account

/-! The verdicts. -/

def checkVerdict : AuthResult → Verdict
  | .success => .authenticated
  | .wouldBlock => .waits
  | .failure | .rejected | .partialSuccess | .successAnother => .refused

def noneVerdict (env : Env) : Verdict :=
  match env.userAuthCb with
  | none => .refused
  | some cb => checkVerdict cb.check

/-- A round of prompts goes out, unless the setup is declined or has left nothing fit to send. -/
def setupVerdict (env : Env) : Verdict :=
  match env.userAuthCb with
  | none => .broken
  | some cb =>
    match cb.setup with
    | .success =>
      if Ssh.promptsOk cb ∧ (env.infoRequest.val = .ok () ∨ env.infoRequest.val = .error .wantWrite) then .round
      else .broken
    | .wouldBlock => .waits
    | .failure | .rejected | .partialSuccess | .successAnother => .refused

def responsesVerdict (env : Env) : Verdict :=
  match env.userAuthCb with
  | none => .refused
  | some cb => if cb.check = .successAnother then setupVerdict env else checkVerdict cb.check

def passwordVerdict (env : Env) (buf : Bytes) (idx : Nat) : Verdict :=
  match Ssh.getPassword buf idx with
  | .error _ => .broken
  | .ok true => .refused
  | .ok false =>
    match env.userAuthCb with
    | none => .refused
    | some cb => checkVerdict cb.check

/-- A signature has to verify under the key that is granted; without one the key is only probed. -/
def keyVerdict (env : Env) (sessionId : Bytes) (authData : AuthData) (r : PkRequest) (alg : AlgoId)
    (pk : PublicKey) (granted : Bool) : Verdict :=
  if r.hasSig then
    match SignedRequest.verification env.oracles ⟨sessionId, authData, r.pubKeyBlob.length, pk⟩ alg with
    | .error _ => .refused
    | .ok v =>
      if env.oracles.verify v ∧ env.resultCb ∧ granted then .authenticated else .refused
  else .probed

def publicKeyVerdict (env : Env) (sessionId : Bytes) (authData : AuthData) (buf : Bytes)
    (idx : Nat) : Verdict :=
  match getPkRequest buf idx with
  | .error _ => .broken
  | .ok (r, _) =>
    match getSigAlgo r with
    | .error _ => .broken
    | .ok sigAlgo =>
      match prepareKey env.oracles buf r sigAlgo with
      | none => .refused
      | some (alg, pk) =>
        match env.userAuthCb with
        | none => .refused
        | some cb =>
          match cb.check with
          | .wouldBlock => .waits
          | .success => keyVerdict env sessionId authData r alg pk true
          | .partialSuccess => keyVerdict env sessionId authData r alg pk false
          | .failure | .rejected | .successAnother => .refused

def methodVerdict (env : Env) (s : Ssh) (authData : AuthData) (buf : Bytes) (idx : Nat) : Verdict :=
  match nameToId authData.authName with
  | .userauthPassword => passwordVerdict env buf idx
  | .userauthKeyboard => setupVerdict env
  | .userauthPublickey => publicKeyVerdict env s.sessionId authData buf idx
  | id => if id = .none ∧ s.allowNone then noneVerdict env else .refused

/-- What a packet does to an exchange that is outstanding. -/
inductive Closing where
  | none | answers | abandons
deriving DecidableEq, Repr

def Closing.apply (max : Nat) (closing : Closing) (a : Account) : Account :=
  match closing with
  | .none => a
  | .answers => a.answer
  | .abandons => a.abandon max

/-- A packet read: the exchange it closes, whether it comes to a method, its verdict, whether that
is not to be counted, and whether the method is `none`. -/
structure Reading where
  closing : Closing := .none
  method : Bool := false
  verdict : Verdict
  exempt : Bool := false
  namesNone : Bool := false
deriving DecidableEq, Repr

/-- Abandoning what is outstanding would be one failure too many. -/
def Ssh.lastChance (s : Ssh) : Bool :=
  s.outstanding.isSome && s.maxAuthAttempts ≤ s.authFailures + 1

def methodReading (env : Env) (s : Ssh) (authData : AuthData) (buf : Bytes) (idx : Nat) : Reading where
  closing := .abandons
  method := true
  verdict := if s.lastChance then .cutOff else methodVerdict env s authData buf idx
  exempt := nameToId authData.authName = .none && (s.authRequests + 1) % 2 ^ 32 = 1
  namesNone := nameToId authData.authName = .none

def requestReading (env : Env) (s : Ssh) (buf : Bytes) : Reading :=
  if buf = [] then { verdict := .broken }
  else
    match Ssh.getNames buf with
    | .error _ => { verdict := .broken }
    | .ok (username, serviceName, idx) =>
      if nameToId serviceName ≠ .serviceConnection then
        { closing := .abandons, verdict := if s.lastChance then .cutOff else .refused }
      else
        match readAt (getStringRef buf) idx with
        | .error _ => { verdict := .broken }
        | .ok (authName, idx) =>
          if (s.bindUser env username).2.isOk then
            methodReading env s ⟨username, serviceName, authName⟩ buf idx
          else if s.userAuthSeen then { verdict := .stranger }
          else { verdict := .broken }

def responseVerdict (env : Env) (s : Ssh) (buf : Bytes) : Verdict :=
  match readAt (getUint32 buf) 0 with
  | .error _ => .broken
  | .ok (responseCount, idx) =>
    if s.promptCount ≠ responseCount then .refused
    else if responseCount ≠ 0 ∧ env.responsesAlloc = false then .broken
    else
      match Ssh.getResponses buf responseCount idx with
      | .error _ => .broken
      | .ok _ => responsesVerdict env

def infoResponseReading (env : Env) (s : Ssh) (buf : Bytes) : Reading :=
  if buf = [] ∨ s.authId ≠ .userauthKeyboard then { verdict := .broken }
  else { closing := .answers, verdict := responseVerdict env s buf }

def Message.reading (m : Message) (env : Env) (s : Ssh) : Reading :=
  match m with
  | .request buf => requestReading env s buf
  | .infoResponse buf => infoResponseReading env s buf

/-! The errors of the readers. -/

section Readers

variable {α β : Type}

/-- The packet is not to wait. -/
def Decides (x : Except WsErr α) : Prop := x ≠ .error .authPending

theorem Decides.bind {x : Except WsErr α} {f : α → Except WsErr β} (hx : Decides x)
    (hf : ∀ a, Decides (f a)) : Decides (x >>= f) := by
  cases x with
  | ok a => exact hf a
  | error e =>
    intro h
    apply hx
    cases h
    rfl

theorem Decides.pure (a : α) : Decides (pure a : Except WsErr α) := nofun

theorem getUint32_decides (buf : Bytes) (idx : Nat) : Decides (readAt (getUint32 buf) idx) := by
  simp only [Decides, readAt, getUint32, Fallible.runAt_bind, Fallible.runAt_get]
  by_cases hidx : idx < buf.length ∧ uint32Sz ≤ buf.length - idx
  · simp only [if_pos hidx, Fallible.runAt_bind, Fallible.runAt_set, Fallible.runAt_pure]
    rintro ⟨⟩
  · simp [hidx]

theorem getBoolean_decides (buf : Bytes) (idx : Nat) : Decides (readAt (getBoolean buf) idx) := by
  simp only [Decides, readAt, getBoolean, Fallible.runAt_bind, Fallible.runAt_get]
  by_cases hidx : idx < buf.length
  · simp only [dif_pos hidx, Fallible.runAt_bind, Fallible.runAt_set, Fallible.runAt_pure]
    rintro ⟨⟩
  · simp [hidx]

theorem getStringRef_decides (buf : Bytes) (idx : Nat) : Decides (readAt (getStringRef buf) idx) := by
  have hsz := getUint32_decides buf idx
  simp only [Decides, readAt, getStringRef, Fallible.runAt_bind] at hsz ⊢
  rcases h : (getUint32 buf).runAt idx with ⟨e | strSz, i⟩
  · simpa [h] using hsz
  · simp only [Fallible.runAt_get]
    by_cases hin : i ≤ buf.length ∧ strSz ≤ buf.length - i
    · simp only [if_pos hin, Fallible.runAt_bind, Fallible.runAt_set, Fallible.runAt_pure]
      rintro ⟨⟩
    · simp [hin]

theorem getPassword_decides (buf : Bytes) (idx : Nat) : Decides (Ssh.getPassword buf idx) := by
  refine (getBoolean_decides buf idx).bind fun ⟨hasNewPassword, idx⟩ => ?_
  refine (getStringRef_decides buf idx).bind fun ⟨_, idx⟩ => ?_
  dsimp only
  split
  · exact (getStringRef_decides buf idx).bind fun _ => .pure _
  · exact .pure _

theorem getResponses_decides (buf : Bytes) (n idx : Nat) : Decides (Ssh.getResponses buf n idx) := by
  induction n generalizing idx with
  | zero => exact .pure _
  | succ n ih => exact (getStringRef_decides buf idx).bind fun ⟨_, i⟩ => ih i

theorem getPkRequest_decides (buf : Bytes) (idx : Nat) : Decides (getPkRequest buf idx) := by
  refine (getBoolean_decides buf idx).bind fun ⟨hasSig, idx⟩ => ?_
  refine (getStringRef_decides buf idx).bind fun ⟨_, idx⟩ => ?_
  refine (getStringRef_decides buf idx).bind fun ⟨_, idx⟩ => ?_
  dsimp only
  split
  · exact (getStringRef_decides buf idx).bind fun _ => .pure _
  · exact (Decides.pure _).bind fun _ => .pure _

theorem getSigAlgo_decides (r : PkRequest) : Decides (getSigAlgo r) := by
  refine (getStringRef_decides _ _).bind fun _ => ?_
  split
  · refine (getStringRef_decides _ _).bind fun _ => ?_
    exact (getStringRef_decides _ _).bind fun _ => .pure _
  · exact .pure _

theorem getNames_decides (buf : Bytes) : Decides (Ssh.getNames buf) := by
  refine (getStringRef_decides _ _).bind fun _ => ?_
  exact (getStringRef_decides _ _).bind fun _ => .pure _

end Readers

/-! What the handlers do. -/

def Ssh.account (s : Ssh) : Account where
  failures := s.authFailures
  ended := s.disconnected
  charged := s.charged
  abandoned := s.abandoned
  opener := s.outstanding.map InfoRequest.no

/-- What a handler leaves as it is. -/
structure Fixed (s t : Ssh) : Prop where
  allowNone : t.allowNone = s.allowNone
  maxAuthAttempts : t.maxAuthAttempts = s.maxAuthAttempts
  sessionId : t.sessionId = s.sessionId
  authId : t.authId = s.authId
  authRequests : t.authRequests = s.authRequests
  methodNos : t.methodNos = s.methodNos
  userName : t.userName = s.userName
  userAuthSeen : t.userAuthSeen = s.userAuthSeen

/-- A call of the callback for packet `p`, made in the state `s`. -/
structure Made (p : Packet) (s : Ssh) (c : Call) : Prop where
  no : c.no = p.no
  user : c.user = s.userName
  failures : c.failures = s.authFailures
  answers : c.type = .keyboard →
    p.responding ∧ c.answers = p.answers ∧ c.responseCount = s.promptCount

/-- A handler has come to a verdict on packet `p`. -/
structure Handled (p : Packet) (v : Verdict) (exempt : Bool) (s t : Ssh) (ret : Ret) : Prop where
  account : t.account = s.account.settle s.maxAuthAttempts v exempt p.no
  waits : ret = .error .authPending ↔ v = .waits
  done : t.userauthDone = (s.userauthDone || v = .authenticated)
  fixed : Fixed s t
  pending : t.kbSetupPending = t.outstanding.isSome
  outstanding : t.outstanding =
    if v = .round then some ⟨p.no, s.userName, t.promptCount⟩ else s.outstanding
  calls : ∃ new, t.calls = new ++ s.calls ∧ ∀ c ∈ new, Made p s c
  granted : v = .authenticated → ∃ c ∈ t.calls, Made p s c ∧ c.result = .success
  prompts : v = .waits → t.promptCount = s.promptCount

/-- Failures may still be counted, and an exchange is outstanding when the session says so. -/
structure Open (s : Ssh) : Prop where
  failures : s.authFailures < s.maxAuthAttempts
  bound : s.maxAuthAttempts < 2 ^ 32
  pending : s.kbSetupPending = s.outstanding.isSome

theorem Open.of_call {s : Ssh} (ho : Open s) (c : Call) : Open (s.logCall c) :=
  ⟨ho.failures, ho.bound, ho.pending⟩

theorem Fixed.refl (s : Ssh) : Fixed s s := ⟨rfl, rfl, rfl, rfl, rfl, rfl, rfl, rfl⟩

theorem Handled.of_call {p : Packet} {v : Verdict} {exempt : Bool} {s t : Ssh} {ret : Ret} {c : Call}
    (hc : Made p s c) (h : Handled p v exempt (s.logCall c) t ret) :
    Handled p v exempt s t ret := by
  have hmade : ∀ c', Made p (s.logCall c) c' → Made p s c' :=
    fun c' h' => ⟨h'.no, h'.user, h'.failures, h'.answers⟩
  refine ⟨h.account, h.waits, h.done, ?_, h.pending, h.outstanding, ?_, ?_, h.prompts⟩
  · exact ⟨h.fixed.allowNone, h.fixed.maxAuthAttempts, h.fixed.sessionId, h.fixed.authId,
      h.fixed.authRequests, h.fixed.methodNos, h.fixed.userName, h.fixed.userAuthSeen⟩
  · obtain ⟨new, hnew, hall⟩ := h.calls
    refine ⟨new ++ [c], by simpa [Ssh.logCall] using hnew, fun c' hc' => ?_⟩
    rcases List.mem_append.mp hc' with hc' | hc'
    · exact hmade c' (hall c' hc')
    · exact List.mem_singleton.mp hc' ▸ hc
  · intro hv
    obtain ⟨c', hc', hm, hres⟩ := h.granted hv
    exact ⟨c', hc', hmade c' hm, hres⟩

namespace Ssh

variable {s t : Ssh} {env : Env} {p : Packet} {no : Nat}

theorem countUserAuthFailure_eq (ho : Open s) : s.countUserAuthFailure no =
    ({ s with
      authFailures := s.authFailures + 1
      charged := no :: s.charged
      disconnected := s.disconnected || s.maxAuthAttempts ≤ s.authFailures + 1 },
      if s.maxAuthAttempts ≤ s.authFailures + 1 then .error .userAuthE else .ok ()) := by
  have hmod : (s.authFailures + 1) % 2 ^ 32 = s.authFailures + 1 :=
    Nat.mod_eq_of_lt (by have := ho.failures; have := ho.bound; omega)
  simp only [countUserAuthFailure, hmod, ge_iff_le]
  by_cases hmax : s.maxAuthAttempts ≤ s.authFailures + 1
  · simp [hmax]
  · simp [hmax]

theorem handled_of_quiet {v : Verdict} {exempt : Bool} {ret : Ret} (ho : Open s)
    (hv : v = .broken ∨ v = .waits ∨ v = .probed) (hret : ret = .error .authPending ↔ v = .waits) :
    Handled p v exempt s s ret := by
  refine ⟨?_, hret, ?_, .refl s, ho.pending, ?_, ⟨[], rfl, by simp⟩, ?_, fun _ => rfl⟩
  all_goals rcases hv with rfl | rfl | rfl <;> simp [Account.settle]

theorem sendUserAuthFailureCount_decides (ho : Open s) (env : Env) (no : Nat) (count : Bool) :
    (s.sendUserAuthFailureCount env no count).2 ≠ .error .authPending := by
  have hsend := env.failureSend.property
  rw [sendUserAuthFailureCount]
  split
  · rw [countUserAuthFailure_eq ho]
    by_cases hmax : s.maxAuthAttempts ≤ s.authFailures + 1
    · simp [hmax, Session.Ret.isOk]
    · simpa [hmax, Session.Ret.isOk] using hsend
  · exact hsend

theorem sendUserAuthFailureCount_handled (ho : Open s) (env : Env) (count : Bool) {ret : Ret}
    (hret : ret ≠ .error .authPending) :
    Handled p .refused (!count) s (s.sendUserAuthFailureCount env p.no count).1 ret := by
  cases count with
  | false =>
    refine ⟨rfl, by simp [hret], ?_, .refl s, ho.pending, ?_, ⟨[], rfl, by simp⟩, by simp, nofun⟩
    · simp [sendUserAuthFailureCount]
    · simp [sendUserAuthFailureCount]
  | true =>
    have heq : (s.sendUserAuthFailureCount env p.no true).1 = (s.countUserAuthFailure p.no).1 := rfl
    rw [heq, countUserAuthFailure_eq ho]
    exact ⟨rfl, by simp [hret], by simp, ⟨rfl, rfl, rfl, rfl, rfl, rfl, rfl, rfl⟩, ho.pending,
      by simp, ⟨[], rfl, by simp⟩, by simp, nofun⟩

theorem refuse_handled (ho : Open s) (env : Env) (rejected : Bool) :
    Handled p .refused false s (s.refuse env p.no rejected).1 (s.refuse env p.no rejected).2 := by
  refine sendUserAuthFailureCount_handled ho env true ?_
  cases rejected with
  | false => exact sendUserAuthFailureCount_decides ho env p.no true
  | true => exact nofun

theorem handled_of_success {c : Call} (ho : Open s) (hc : Made p s c) (hres : c.result = .success)
    (exempt : Bool) :
    Handled p .authenticated exempt s { s.logCall c with userauthDone := true } (.ok ()) :=
  ⟨rfl, by simp, by simp, ⟨rfl, rfl, rfl, rfl, rfl, rfl, rfl, rfl⟩, ho.pending, by simp [Ssh.logCall],
    ⟨[c], rfl, by simpa using hc⟩, fun _ => ⟨c, by simp [Ssh.logCall], hc, hres⟩, nofun⟩

theorem doUserAuthRequestNone_handled (ho : Open s) (env : Env) :
    Handled p (noneVerdict env) (s.authRequests = 1) s (s.doUserAuthRequestNone env p).1
      (s.doUserAuthRequestNone env p).2 := by
  have hex : decide (s.authRequests = 1) = !decide (s.authRequests ≠ 1) := by simp
  rw [noneVerdict, doUserAuthRequestNone, hex]
  cases env.userAuthCb with
  | none => exact sendUserAuthFailureCount_handled ho env _ nofun
  | some cb =>
    have hc : Made p s ⟨p.no, .none, s.userName, s.authFailures, none, 0, [], cb.check⟩ :=
      ⟨rfl, rfl, rfl, nofun⟩
    have hoc := ho.of_call ⟨p.no, .none, s.userName, s.authFailures, none, 0, [], cb.check⟩
    dsimp only
    generalize cb.check = check at hc hoc ⊢
    cases check with
    | success => exact handled_of_success ho hc rfl _
    | wouldBlock =>
      refine Handled.of_call hc ?_
      exact handled_of_quiet hoc (by simp [checkVerdict]) (by simp [checkVerdict])
    | rejected =>
      refine Handled.of_call hc ?_
      exact sendUserAuthFailureCount_handled hoc env _ nofun
    | failure | partialSuccess | successAnother =>
      refine Handled.of_call hc ?_
      exact sendUserAuthFailureCount_handled hoc env _ (sendUserAuthFailureCount_decides hoc env p.no _)

theorem handled_of_round (s : Ssh) (count : Nat) {ret : Ret} (hret : ret ≠ .error .authPending) :
    Handled p .round false s
      { s with
        promptCount := count
        kbSetupPending := true
        outstanding := some ⟨p.no, s.userName, count⟩ } ret :=
  ⟨rfl, by simp [hret], by simp, ⟨rfl, rfl, rfl, rfl, rfl, rfl, rfl, rfl⟩, rfl, by simp,
    ⟨[], rfl, by simp⟩, by simp, nofun⟩

theorem handled_of_unsent (ho : Open s) (count : Nat) {ret : Ret} (hret : ret ≠ .error .authPending) :
    Handled p .broken false s { s with promptCount := count } ret :=
  ⟨rfl, by simp [hret], by simp, ⟨rfl, rfl, rfl, rfl, rfl, rfl, rfl, rfl⟩, ho.pending, by simp,
    ⟨[], rfl, by simp⟩, by simp, nofun⟩

theorem clear_pending (h : s.kbSetupPending = false) : { s with kbSetupPending := false } = s := by
  rw [← h]

theorem sendUserAuthKeyboardRequest_handled (ho : Open s) (hnone : s.outstanding = none) (env : Env) :
    Handled p (setupVerdict env) false s (s.sendUserAuthKeyboardRequest env p).1
      (s.sendUserAuthKeyboardRequest env p).2 := by
  have hpend : s.kbSetupPending = false := by simp [ho.pending, hnone]
  rw [setupVerdict, sendUserAuthKeyboardRequest]
  cases env.userAuthCb with
  | none => exact handled_of_quiet ho (by simp) (by simp)
  | some cb =>
    have hc : Made p s ⟨p.no, .keyboardSetup, s.userName, s.authFailures, none, 0, [], cb.setup⟩ :=
      ⟨rfl, rfl, rfl, nofun⟩
    have hoc := ho.of_call ⟨p.no, .keyboardSetup, s.userName, s.authFailures, none, 0, [], cb.setup⟩
    dsimp only
    generalize cb.setup = setup at hc hoc ⊢
    refine Handled.of_call hc ?_
    rw [show { s.logCall _ with kbSetupPending := false } = s.logCall _ from clear_pending hpend]
    cases setup with
    | success =>
      dsimp only
      by_cases hprompts : promptsOk cb
      · by_cases hsent : env.infoRequest.val = .ok () ∨ env.infoRequest.val = .error .wantWrite
        · simp only [hprompts, hsent, and_self, if_true]
          exact handled_of_round _ _ env.infoRequest.property
        · simp only [hprompts, hsent, and_false, if_true, if_false]
          exact handled_of_unsent hoc _ env.infoRequest.property
      · simp only [hprompts]
        exact handled_of_quiet hoc (by simp) (by simp)
    | wouldBlock => exact handled_of_quiet hoc (by simp) (by simp)
    | rejected => exact refuse_handled hoc env true
    | failure | partialSuccess | successAnother => exact refuse_handled hoc env false

theorem checkResponses_handled (ho : Open s) (hnone : s.outstanding = none) (hp : p.responding)
    (env : Env) :
    Handled p (responsesVerdict env) false s (s.checkResponses env p s.promptCount).1
      (s.checkResponses env p s.promptCount).2 := by
  rw [responsesVerdict, checkResponses]
  cases env.userAuthCb with
  | none => exact refuse_handled ho env false
  | some cb =>
    have hc : Made p s
        ⟨p.no, .keyboard, s.userName, s.authFailures, p.answers, s.promptCount, [], cb.check⟩ :=
      ⟨rfl, rfl, rfl, fun _ => ⟨hp, rfl, rfl⟩⟩
    have hoc := ho.of_call
      ⟨p.no, .keyboard, s.userName, s.authFailures, p.answers, s.promptCount, [], cb.check⟩
    dsimp only
    generalize cb.check = check at hc hoc ⊢
    cases check with
    | success => exact handled_of_success ho hc rfl _
    | successAnother =>
      refine Handled.of_call hc ?_
      exact sendUserAuthKeyboardRequest_handled hoc hnone env
    | wouldBlock =>
      refine Handled.of_call hc ?_
      exact handled_of_quiet hoc (by simp [checkVerdict]) (by simp [checkVerdict])
    | rejected =>
      refine Handled.of_call hc ?_
      exact refuse_handled hoc env true
    | failure | partialSuccess =>
      refine Handled.of_call hc ?_
      exact refuse_handled hoc env false

theorem doUserAuthRequestPassword_handled (ho : Open s) (env : Env) (buf : Bytes) (idx : Nat) :
    Handled p (passwordVerdict env buf idx) false s (s.doUserAuthRequestPassword env p buf idx).1
      (s.doUserAuthRequestPassword env p buf idx).2 := by
  have hdec := getPassword_decides buf idx
  rw [passwordVerdict, doUserAuthRequestPassword]
  generalize getPassword buf idx = password at hdec ⊢
  match password, hdec with
  | .error e, hdec => exact handled_of_quiet ho (by simp) (by simpa [Decides] using hdec)
  | .ok true, _ => exact refuse_handled ho env false
  | .ok false, _ =>
    cases env.userAuthCb with
    | none => exact refuse_handled ho env false
    | some cb =>
      have hc : Made p s ⟨p.no, .password, s.userName, s.authFailures, none, 0, [], cb.check⟩ :=
        ⟨rfl, rfl, rfl, nofun⟩
      have hoc := ho.of_call ⟨p.no, .password, s.userName, s.authFailures, none, 0, [], cb.check⟩
      dsimp only
      generalize cb.check = check at hc hoc ⊢
      cases check with
      | success => exact handled_of_success ho hc rfl _
      | wouldBlock =>
        refine Handled.of_call hc ?_
        exact handled_of_quiet hoc (by simp [checkVerdict]) (by simp [checkVerdict])
      | rejected =>
        refine Handled.of_call hc ?_
        exact refuse_handled hoc env true
      | failure | partialSuccess | successAnother =>
        refine Handled.of_call hc ?_
        exact refuse_handled hoc env false

theorem Handled.of_verification {v : Verdict} {exempt : Bool} {ret : Ret} (w : Verification)
    (h : Handled p v exempt { s with verifications := w :: s.verifications } t ret) :
    Handled p v exempt s t ret := by
  have hmade : ∀ c, Made p { s with verifications := w :: s.verifications } c → Made p s c :=
    fun c h' => ⟨h'.no, h'.user, h'.failures, h'.answers⟩
  refine ⟨h.account, h.waits, h.done, ?_, h.pending, h.outstanding, ?_, ?_, h.prompts⟩
  · exact ⟨h.fixed.allowNone, h.fixed.maxAuthAttempts, h.fixed.sessionId, h.fixed.authId,
      h.fixed.authRequests, h.fixed.methodNos, h.fixed.userName, h.fixed.userAuthSeen⟩
  · obtain ⟨new, hnew, hall⟩ := h.calls
    exact ⟨new, hnew, fun c hc => hmade c (hall c hc)⟩
  · intro hv
    obtain ⟨c, hc, hm, hres⟩ := h.granted hv
    exact ⟨c, hc, hmade c hm, hres⟩

/-- Once the callback has granted the key; `c` is its call. -/
theorem checkKey_handled {c : Call} (ho : Open s) (hc : Made p s c) (env : Env) (authData : AuthData)
    (r : PkRequest) (alg : AlgoId) (pk : PublicKey) (granted : Bool)
    (hres : granted = true → c.result = .success) :
    Handled p (keyVerdict env s.sessionId authData r alg pk granted) false s
      ((s.logCall c).checkKey env p authData r alg pk granted).1
      ((s.logCall c).checkKey env p authData r alg pk granted).2 := by
  have hoc := ho.of_call c
  rw [keyVerdict, checkKey]
  by_cases hsig : r.hasSig
  · simp only [hsig, if_true]
    have hsession : (s.logCall c).sessionId = s.sessionId := rfl
    rw [hsession]
    cases SignedRequest.verification env.oracles ⟨s.sessionId, authData, r.pubKeyBlob.length, pk⟩ alg with
    | error e =>
      refine Handled.of_call hc ?_
      exact refuse_handled hoc env false
    | ok v =>
      have hov : Open { s.logCall c with verifications := v :: (s.logCall c).verifications } :=
        ⟨hoc.failures, hoc.bound, hoc.pending⟩
      dsimp only
      by_cases hverify : env.oracles.verify v ∧ env.resultCb
      · cases granted with
        | true =>
          simp only [hverify, and_self, if_true]
          exact ⟨rfl, by simp, by simp, ⟨rfl, rfl, rfl, rfl, rfl, rfl, rfl, rfl⟩, ho.pending,
            by simp [logCall], ⟨[c], rfl, by simpa using hc⟩,
            fun _ => ⟨c, by simp [logCall], hc, hres rfl⟩, by rintro ⟨⟩⟩
        | false =>
          simp only [hverify, and_self, if_true, Bool.false_eq_true, and_false, if_false]
          refine Handled.of_call hc (Handled.of_verification v ?_)
          exact refuse_handled hov env false
      · have hnot : ¬ (env.oracles.verify v ∧ env.resultCb ∧ granted) :=
          fun h => hverify ⟨h.1, h.2.1⟩
        rw [if_neg hverify, if_neg hnot]
        refine Handled.of_call hc (Handled.of_verification v ?_)
        exact refuse_handled hov env false
  · simp only [hsig, Bool.false_eq_true, if_false]
    refine Handled.of_call hc (handled_of_quiet hoc (by simp) ?_)
    have hsend := env.pkOkSend.property
    split <;> simp_all

theorem doUserAuthRequestPublicKey_handled (ho : Open s) (env : Env) (authData : AuthData)
    (buf : Bytes) (idx : Nat) :
    Handled p (publicKeyVerdict env s.sessionId authData buf idx) false s
      (s.doUserAuthRequestPublicKey env p authData buf idx).1
      (s.doUserAuthRequestPublicKey env p authData buf idx).2 := by
  have hdec := getPkRequest_decides buf idx
  rw [publicKeyVerdict, doUserAuthRequestPublicKey]
  generalize getPkRequest buf idx = parsed at hdec ⊢
  match parsed, hdec with
  | .error e, hdec => exact handled_of_quiet ho (by simp) (by simpa [Decides] using hdec)
  | .ok (r, _), _ =>
    have hdec := getSigAlgo_decides r
    dsimp only
    generalize getSigAlgo r = parsed at hdec ⊢
    match parsed, hdec with
    | .error e, hdec => exact handled_of_quiet ho (by simp) (by simpa [Decides] using hdec)
    | .ok sigAlgo, _ =>
      dsimp only
      cases prepareKey env.oracles buf r sigAlgo with
      | none => exact refuse_handled ho env false
      | some key =>
        obtain ⟨alg, pk⟩ := key
        cases env.userAuthCb with
        | none => exact refuse_handled ho env false
        | some cb =>
          have hc : Made p s
              ⟨p.no, .publickey, s.userName, s.authFailures, none, 0, pk.publicKey, cb.check⟩ :=
            ⟨rfl, rfl, rfl, nofun⟩
          have hoc := ho.of_call
            ⟨p.no, .publickey, s.userName, s.authFailures, none, 0, pk.publicKey, cb.check⟩
          dsimp only
          generalize cb.check = check at hc hoc ⊢
          cases check with
          | success => exact checkKey_handled ho hc env authData r alg pk true fun _ => rfl
          | partialSuccess => exact checkKey_handled ho hc env authData r alg pk false nofun
          | wouldBlock =>
            refine Handled.of_call hc ?_
            exact handled_of_quiet hoc (by simp) (by simp)
          | rejected =>
            refine Handled.of_call hc ?_
            exact refuse_handled hoc env true
          | failure | successAnother =>
            refine Handled.of_call hc ?_
            exact refuse_handled hoc env false

theorem dispatchMethod_handled (ho : Open s) (hnone : s.outstanding = none) (env : Env)
    (authData : AuthData) (hid : s.authId = nameToId authData.authName) (buf : Bytes) (idx : Nat) :
    Handled p (methodVerdict env s authData buf idx)
      (nameToId authData.authName = .none && s.authRequests = 1) s
      (s.dispatchMethod env p authData buf idx).1 (s.dispatchMethod env p authData buf idx).2 := by
  rw [methodVerdict, dispatchMethod, hid]
  generalize nameToId authData.authName = id
  cases id
  case userauthPassword => exact doUserAuthRequestPassword_handled ho env buf idx
  case userauthKeyboard => exact sendUserAuthKeyboardRequest_handled ho hnone env
  case userauthPublickey => exact doUserAuthRequestPublicKey_handled ho env authData buf idx
  case none =>
    by_cases hallow : s.allowNone
    · simpa [hallow] using doUserAuthRequestNone_handled ho env
    · have hdec := sendUserAuthFailureCount_decides ho env p.no (!decide (s.authRequests = 1))
      have h := sendUserAuthFailureCount_handled (p := p) ho env (!decide (s.authRequests = 1)) hdec
      rw [Bool.not_not] at h
      simpa [hallow] using h
  all_goals
    exact sendUserAuthFailureCount_handled ho env true (sendUserAuthFailureCount_decides ho env p.no true)

end Ssh

/-- What a packet has done to the session before its verdict. -/
structure Closed (p : Packet) (r : Reading) (s t : Ssh) : Prop where
  account : t.account = r.closing.apply s.maxAuthAttempts s.account
  allowNone : t.allowNone = s.allowNone
  maxAuthAttempts : t.maxAuthAttempts = s.maxAuthAttempts
  sessionId : t.sessionId = s.sessionId
  done : t.userauthDone = s.userauthDone
  promptCount : t.promptCount = s.promptCount
  calls : t.calls = s.calls
  methodNos : t.methodNos = if r.method then p.no :: s.methodNos else s.methodNos
  authRequests : t.authRequests = if r.method then (s.authRequests + 1) % 2 ^ 32 else s.authRequests
  user : s.userAuthSeen → t.userAuthSeen ∧ t.userName = s.userName
  pending : t.kbSetupPending = t.outstanding.isSome
  outstanding : t.outstanding = if r.closing = .none then s.outstanding else none
  authId : r.closing ≠ .abandons → t.authId = s.authId
  seen : (s.authId = .userauthKeyboard → s.userAuthSeen) → t.authId = .userauthKeyboard →
    t.userAuthSeen

namespace Ssh

variable {s t : Ssh} {env : Env} {p : Packet} {no : Nat}

theorem abandonKeyboard_none (ho : Open s) (hnone : s.outstanding = none) :
    s.abandonKeyboard = (s, .ok ()) := by
  have hpend : s.kbSetupPending = false := by simp [ho.pending, hnone]
  simp only [abandonKeyboard, hnone, Option.map_none, Option.toList_none, List.nil_append]
  rw [← hnone, hpend]
  simp only [Bool.false_eq_true, if_false]
  rw [← hpend]

theorem abandonKeyboard_some (ho : Open s) {q : InfoRequest} (hq : s.outstanding = some q) :
    s.abandonKeyboard =
      ({ s with
        abandoned := q.no :: s.abandoned
        outstanding := none
        kbSetupPending := false
        authFailures := s.authFailures + 1
        charged := q.no :: s.charged
        disconnected := s.disconnected || s.maxAuthAttempts ≤ s.authFailures + 1 },
        if s.lastChance then .error .userAuthE else .ok ()) := by
  have hpend : s.kbSetupPending := by simp [ho.pending, hq]
  have hlast : s.lastChance = decide (s.maxAuthAttempts ≤ s.authFailures + 1) := by
    simp [lastChance, hq]
  have hmod : (s.authFailures + 1) % 2 ^ 32 = s.authFailures + 1 :=
    Nat.mod_eq_of_lt (by have := ho.failures; have := ho.bound; omega)
  simp only [abandonKeyboard, hpend, hq, hlast, countUserAuthFailure, hmod, if_true, Option.map_some,
    Option.getD_some, Option.toList_some, List.singleton_append, ge_iff_le]
  by_cases hmax : s.maxAuthAttempts ≤ s.authFailures + 1
  · simp [hmax]
  · simp [hmax]

/-- The state in which a request that reaches its method, or is refused its service, gives up what
was outstanding. -/
structure Reset (s t : Ssh) : Prop where
  account : t.account = s.account
  outstanding : t.outstanding = s.outstanding
  kbSetupPending : t.kbSetupPending = s.kbSetupPending
  allowNone : t.allowNone = s.allowNone
  maxAuthAttempts : t.maxAuthAttempts = s.maxAuthAttempts
  sessionId : t.sessionId = s.sessionId
  done : t.userauthDone = s.userauthDone
  promptCount : t.promptCount = s.promptCount
  calls : t.calls = s.calls
  user : s.userAuthSeen → t.userAuthSeen ∧ t.userName = s.userName
  seen : t.authId = .userauthKeyboard → t.userAuthSeen

theorem Reset.open (h : Reset s t) (ho : Open s) : Open t := by
  have hfail : t.authFailures = s.authFailures := congrArg Account.failures h.account
  refine ⟨?_, ?_, ?_⟩
  · rw [hfail, h.maxAuthAttempts]
    exact ho.failures
  · rw [h.maxAuthAttempts]
    exact ho.bound
  · rw [h.kbSetupPending, h.outstanding]
    exact ho.pending

theorem Reset.lastChance (h : Reset s t) : t.lastChance = s.lastChance := by
  have hfail : t.authFailures = s.authFailures := congrArg Account.failures h.account
  rw [Ssh.lastChance, Ssh.lastChance, h.outstanding, h.maxAuthAttempts, hfail]

theorem Reset.abandon (h : Reset s t) (ho : Open s) (p : Packet) (v : Verdict)
    (method exempt namesNone : Bool)
    (hnos : t.methodNos = if method then p.no :: s.methodNos else s.methodNos)
    (hreq : t.authRequests = if method then (s.authRequests + 1) % 2 ^ 32 else s.authRequests) :
    Closed p ⟨.abandons, method, v, exempt, namesNone⟩ s t.abandonKeyboard.1 ∧
      t.abandonKeyboard.2 = (if s.lastChance then .error .userAuthE else .ok ()) ∧
      (s.lastChance = false → Open t.abandonKeyboard.1) ∧
      t.abandonKeyboard.1.authId = t.authId := by
  have hot := h.open ho
  cases hq : t.outstanding with
  | none =>
    have hlast : s.lastChance = false := by simp [Ssh.lastChance, ← h.outstanding, hq]
    rw [abandonKeyboard_none hot hq, hlast]
    refine ⟨⟨?_, h.allowNone, h.maxAuthAttempts, h.sessionId, h.done, h.promptCount, h.calls, hnos, hreq,
      h.user, hot.pending, by simpa using hq, by simp, fun _ => h.seen⟩, rfl, fun _ => hot, rfl⟩
    have hop : t.account.opener = none := by simp [Ssh.account, hq]
    rw [Closing.apply, ← h.account, Account.abandon, hop]
  | some q =>
    rw [abandonKeyboard_some hot hq, h.lastChance]
    refine ⟨⟨?_, h.allowNone, h.maxAuthAttempts, h.sessionId, h.done, h.promptCount, h.calls, hnos, hreq,
      h.user, rfl, rfl, by simp, fun _ => h.seen⟩, rfl, fun hlast => ⟨?_, hot.bound, rfl⟩, rfl⟩
    · have hop : t.account.opener = some q.no := by simp [Ssh.account, hq]
      rw [Closing.apply, ← h.account, ← h.maxAuthAttempts, Account.abandon, hop]
      rfl
    · rw [← h.lastChance, Ssh.lastChance, hq] at hlast
      simpa using hlast

end Ssh

/-- What the dispatch of a packet comes to: what it closes, then its verdict. -/
structure Settled (p : Packet) (r : Reading) (s t : Ssh) (ret : Ret) : Prop where
  closed : ∃ m, Closed p r s m ∧ Handled p r.verdict r.exempt m t ret ∧ (m.calls = t.calls ∨ Open m)
  round : r.verdict = .round → t.authId = .userauthKeyboard
  kept : r.closing = .none → t = { s with disconnected := t.disconnected }

theorem Closed.refl {p : Packet} {s : Ssh} (ho : Open s) (v : Verdict) :
    Closed p { verdict := v } s s :=
  ⟨rfl, rfl, rfl, rfl, rfl, rfl, rfl, rfl, rfl, fun h => ⟨h, rfl⟩, ho.pending, rfl, fun _ => rfl, id⟩

namespace Ssh

variable {s t : Ssh} {env : Env} {p : Packet} {no : Nat}

theorem settled_of_broken (ho : Open s) {ret : Ret} (hret : ret ≠ .error .authPending) :
    Settled p { verdict := .broken } s s ret :=
  ⟨⟨s, .refl ho .broken, handled_of_quiet ho (by simp) (by simp [hret]), .inl rfl⟩, by simp,
    fun _ => rfl⟩

theorem settled_of_cutOff {method exempt namesNone : Bool} {ret : Ret}
    (hret : ret ≠ .error .authPending)
    (hc : Closed p ⟨.abandons, method, .cutOff, exempt, namesNone⟩ s t) :
    Settled p ⟨.abandons, method, .cutOff, exempt, namesNone⟩ s t ret := by
  refine ⟨⟨t, hc, ⟨rfl, by simp [hret], by simp, .refl t, hc.pending, by simp, ⟨[], rfl, by simp⟩,
    by simp, nofun⟩, .inl rfl⟩, by simp, nofun⟩

theorem refuseService_settled (ho : Open s) (env : Env) :
    Settled p { closing := .abandons, verdict := if s.lastChance then .cutOff else .refused } s
      (s.refuseService env p).1 (s.refuseService env p).2 := by
  have hreset : Reset s { s with authId := .none } :=
    ⟨rfl, rfl, rfl, rfl, rfl, rfl, rfl, rfl, rfl, fun h => ⟨h, rfl⟩, by rintro ⟨⟩⟩
  rw [refuseService]
  by_cases hlast : s.lastChance
  · obtain ⟨hc, hret, -, -⟩ := hreset.abandon ho p .cutOff false false false rfl rfl
    rw [if_pos hlast] at hret ⊢
    simp only [hret, Session.Ret.isOk, Bool.false_eq_true, if_false]
    exact settled_of_cutOff (by simp) hc
  · obtain ⟨hc, hret, hopen, -⟩ := hreset.abandon ho p .refused false false false rfl rfl
    rw [if_neg hlast] at hret ⊢
    have hom := hopen (by simpa using hlast)
    simp only [hret, Session.Ret.isOk, if_true]
    exact ⟨⟨_, hc, sendUserAuthFailureCount_handled hom env true
      (sendUserAuthFailureCount_decides hom env p.no true), .inr hom⟩, by simp, by rintro ⟨⟩⟩

theorem checkVerdict_ne_round (check : AuthResult) : checkVerdict check ≠ .round := by
  cases check <;> simp [checkVerdict]

theorem passwordVerdict_ne_round (env : Env) (buf : Bytes) (idx : Nat) :
    passwordVerdict env buf idx ≠ .round := by
  rw [passwordVerdict]
  split
  · simp
  · simp
  · split
    · simp
    · exact checkVerdict_ne_round _

theorem keyVerdict_ne_round (env : Env) (sessionId : Bytes) (authData : AuthData) (r : PkRequest)
    (alg : AlgoId) (pk : PublicKey) (granted : Bool) :
    keyVerdict env sessionId authData r alg pk granted ≠ .round := by
  rw [keyVerdict]
  split
  · split
    · simp
    · split <;> simp
  · simp

theorem publicKeyVerdict_ne_round (env : Env) (sessionId : Bytes) (authData : AuthData)
    (buf : Bytes) (idx : Nat) : publicKeyVerdict env sessionId authData buf idx ≠ .round := by
  rw [publicKeyVerdict]
  cases getPkRequest buf idx with
  | error e => simp
  | ok parsed =>
    obtain ⟨r, _⟩ := parsed
    dsimp only
    cases getSigAlgo r with
    | error e => simp
    | ok sigAlgo =>
      dsimp only
      cases prepareKey env.oracles buf r sigAlgo with
      | none => simp
      | some key =>
        obtain ⟨alg, pk⟩ := key
        cases env.userAuthCb with
        | none => simp
        | some cb =>
          dsimp only
          cases cb.check with
          | success => exact keyVerdict_ne_round env sessionId authData r alg pk true
          | partialSuccess => exact keyVerdict_ne_round env sessionId authData r alg pk false
          | failure | rejected | successAnother | wouldBlock => simp

theorem methodVerdict_round {authData : AuthData} {buf : Bytes} {idx : Nat}
    (h : methodVerdict env s authData buf idx = .round) :
    nameToId authData.authName = .userauthKeyboard := by
  rw [methodVerdict] at h
  split at h
  · exact absurd h (passwordVerdict_ne_round env buf idx)
  · assumption
  · exact absurd h (publicKeyVerdict_ne_round env s.sessionId authData buf idx)
  · split at h
    · rw [noneVerdict] at h
      split at h
      · cases h
      · exact absurd h (checkVerdict_ne_round _)
    · cases h

theorem methodVerdict_congr {authData : AuthData} {buf : Bytes} {idx : Nat}
    (hs : t.sessionId = s.sessionId) (ha : t.allowNone = s.allowNone) :
    methodVerdict env t authData buf idx = methodVerdict env s authData buf idx := by
  rw [methodVerdict, methodVerdict, hs, ha]

theorem doUserAuthMethod_settled (ho : Open s) (env : Env) (authData : AuthData) (buf : Bytes)
    (idx : Nat)
    (hreset : Reset s { t with
      authId := nameToId authData.authName
      authRequests := (t.authRequests + 1) % 2 ^ 32
      methodNos := p.no :: t.methodNos })
    (hreq : t.authRequests = s.authRequests) (hnos : t.methodNos = s.methodNos) :
    Settled p (methodReading env s authData buf idx) s (t.doUserAuthMethod env p authData buf idx).1
      (t.doUserAuthMethod env p authData buf idx).2 := by
  rw [doUserAuthMethod, methodReading]
  by_cases hlast : s.lastChance
  · obtain ⟨hc, hret, -, -⟩ := hreset.abandon ho p .cutOff true
      (nameToId authData.authName = .none && (s.authRequests + 1) % 2 ^ 32 = 1)
      (nameToId authData.authName = .none) (by simp [hnos]) (by simp [hreq])
    rw [if_pos hlast] at hret ⊢
    simp only [hret, Session.Ret.isOk, Bool.false_eq_true, if_false]
    exact settled_of_cutOff (by simp) hc
  · obtain ⟨hc, hret, hopen, hid⟩ := hreset.abandon ho p
      (methodVerdict env s authData buf idx) true
      (nameToId authData.authName = .none && (s.authRequests + 1) % 2 ^ 32 = 1)
      (nameToId authData.authName = .none) (by simp [hnos]) (by simp [hreq])
    rw [if_neg hlast] at hret ⊢
    have hom := hopen (by simpa using hlast)
    simp only [hret, Session.Ret.isOk, if_true]
    have hh := dispatchMethod_handled (p := p) hom hc.outstanding env authData hid buf idx
    rw [methodVerdict_congr hc.sessionId hc.allowNone, hc.authRequests] at hh
    refine ⟨⟨_, hc, hh, .inr hom⟩, fun hround => ?_, by rintro ⟨⟩⟩
    rw [hh.fixed.authId, hid]
    exact methodVerdict_round hround

theorem settled_of_stranger (ho : Open s) :
    Settled p { verdict := .stranger } s { s with disconnected := true } (.error .invalidStateE) :=
  ⟨⟨s, .refl ho .stranger, ⟨rfl, by simp, by simp, ⟨rfl, rfl, rfl, rfl, rfl, rfl, rfl, rfl⟩, ho.pending,
    by simp, ⟨[], rfl, by simp⟩, by simp, nofun⟩, .inl rfl⟩, by simp, fun _ => rfl⟩

theorem doUserAuthRequest_settled (ho : Open s) (env : Env) (buf : Bytes) :
    Settled p (requestReading env s buf) s (s.doUserAuthRequest env p buf).1
      (s.doUserAuthRequest env p buf).2 := by
  rw [requestReading, doUserAuthRequest]
  by_cases hbuf : buf = []
  · rw [if_pos hbuf, if_pos hbuf]
    exact settled_of_broken ho (by simp)
  rw [if_neg hbuf, if_neg hbuf]
  have hdec := getNames_decides buf
  generalize getNames buf = parsed at hdec ⊢
  rcases parsed with e | ⟨username, serviceName, idx⟩
  · exact settled_of_broken ho (by simpa [Decides] using hdec)
  · dsimp only
    by_cases hservice : nameToId serviceName ≠ .serviceConnection
    · rw [if_pos hservice, if_pos hservice]
      exact refuseService_settled ho env
    rw [if_neg hservice, if_neg hservice]
    have hdec := getStringRef_decides buf idx
    generalize readAt (getStringRef buf) idx = parsed at hdec ⊢
    rcases parsed with e | ⟨authName, idx⟩
    · exact settled_of_broken ho (by simpa [Decides] using hdec)
    · dsimp only
      by_cases hseen : s.userAuthSeen
      · by_cases hname : username = s.userName
        · have hbind : s.bindUser env username = (s, .ok ()) := by simp [bindUser, hseen, hname]
          rw [hbind]
          exact doUserAuthMethod_settled ho env _ buf idx
            ⟨rfl, rfl, rfl, rfl, rfl, rfl, rfl, rfl, rfl, fun h => ⟨h, rfl⟩, fun _ => hseen⟩ rfl rfl
        · have hbind : s.bindUser env username = ({ s with disconnected := true }, .error .invalidStateE) := by
            simp [bindUser, hseen, hname]
          rw [hbind]
          simp only [Session.Ret.isOk, Bool.false_eq_true, if_false]
          rw [if_pos hseen]
          exact settled_of_stranger ho
      · rw [bindUser, if_neg hseen]
        by_cases hempty : username = []
        · rw [if_pos hempty]
          simp only [Session.Ret.isOk, Bool.false_eq_true, if_false]
          rw [if_neg hseen]
          exact settled_of_broken ho (by simp)
        rw [if_neg hempty]
        by_cases halloc : env.userNameAlloc
        · rw [if_pos halloc]
          exact doUserAuthMethod_settled ho env _ buf idx
            ⟨rfl, rfl, rfl, rfl, rfl, rfl, rfl, rfl, rfl, fun h => absurd h hseen, fun _ => rfl⟩ rfl rfl
        · rw [if_neg halloc]
          simp only [Session.Ret.isOk, Bool.false_eq_true, if_false]
          rw [if_neg hseen]
          exact settled_of_broken ho (by simp)

theorem doUserAuthInfoResponse_settled (ho : Open s) (hp : p.responding) (env : Env) (buf : Bytes) :
    Settled p (infoResponseReading env s buf) s (s.doUserAuthInfoResponse env p buf).1
      (s.doUserAuthInfoResponse env p buf).2 := by
  rw [infoResponseReading, doUserAuthInfoResponse]
  by_cases hbuf : buf = []
  · rw [if_pos (.inl hbuf), if_pos hbuf]
    exact settled_of_broken ho nofun
  by_cases hid : s.authId ≠ .userauthKeyboard
  · rw [if_pos (.inr hid), if_neg hbuf, if_pos hid]
    exact settled_of_broken ho nofun
  rw [if_neg (not_or.mpr ⟨hbuf, hid⟩), if_neg hbuf, if_neg hid]
  have hom : Open { s with kbSetupPending := false, outstanding := none } :=
    ⟨ho.failures, ho.bound, rfl⟩
  have hc : Closed p { closing := .answers, verdict := responseVerdict env s buf } s
      { s with kbSetupPending := false, outstanding := none } :=
    ⟨rfl, rfl, rfl, rfl, rfl, rfl, rfl, rfl, rfl, fun h => ⟨h, rfl⟩, rfl, rfl, fun _ => rfl, id⟩
  have hh : Handled p (responseVerdict env s buf) false
      { s with kbSetupPending := false, outstanding := none }
      (doUserAuthInfoResponseRead env p buf { s with kbSetupPending := false, outstanding := none }).1
      (doUserAuthInfoResponseRead env p buf { s with kbSetupPending := false, outstanding := none }).2 := by
    have hdec := getUint32_decides buf 0
    rw [responseVerdict, doUserAuthInfoResponseRead]
    generalize readAt (getUint32 buf) 0 = parsed at hdec ⊢
    match parsed, hdec with
    | .error e, hdec => exact handled_of_quiet hom (by simp) (by simpa [Decides] using hdec)
    | .ok (responseCount, idx), _ =>
      dsimp only
      by_cases hcount : s.promptCount ≠ responseCount
      · rw [if_pos hcount, if_pos hcount]
        exact refuse_handled hom env false
      rw [if_neg hcount, if_neg hcount]
      obtain rfl : s.promptCount = responseCount := by simpa using hcount
      by_cases halloc : s.promptCount ≠ 0 ∧ env.responsesAlloc = false
      · rw [if_pos halloc, if_pos halloc]
        exact handled_of_quiet hom (by simp) (by simp)
      rw [if_neg halloc, if_neg halloc]
      have hdec := getResponses_decides buf s.promptCount idx
      generalize getResponses buf s.promptCount idx = parsed at hdec ⊢
      match parsed, hdec with
      | .error e, hdec => exact handled_of_quiet hom (by simp) (by simpa [Decides] using hdec)
      | .ok _, _ => exact checkResponses_handled hom rfl hp env
  refine ⟨⟨_, hc, hh, .inr hom⟩, fun _ => ?_, nofun⟩
  rw [hh.fixed.authId]
  simpa using hid

theorem handle_settled (ho : Open s) (m : Message) (env : Env) (no : Nat)
    (answers : Option InfoRequest) :
    Settled (m.packet no answers) (m.reading env s) s (m.handle env no answers s).1
      (m.handle env no answers s).2 := by
  cases m with
  | request buf => exact doUserAuthRequest_settled ho env buf
  | infoResponse buf => exact doUserAuthInfoResponse_settled ho rfl env buf

end Ssh

end WolfSsh.UserAuth
