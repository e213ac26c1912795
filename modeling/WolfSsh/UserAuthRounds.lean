import WolfSsh.UserAuthCap

/-! The rounds of a keyboard-interactive exchange: which INFO_REQUEST an INFO_RESPONSE answers, and
when one reaches the callback that answers none. -/

namespace WolfSsh.UserAuth

open Session (Ret)

/-- The responses of an INFO_RESPONSE are as many as the last prompts and can be read. -/
def responsesRead (env : Env) (s : Ssh) (buf : Bytes) : Bool :=
  s.authId = .userauthKeyboard &&
    match readAt (getUint32 buf) 0 with
    | .error _ => false
    | .ok (responseCount, idx) =>
      responseCount = s.promptCount && (responseCount = 0 || env.responsesAlloc) &&
        match Ssh.getResponses buf responseCount idx with
        | .error _ => false
        | .ok _ => env.userAuthCb.isSome

/-- The packet puts responses before the callback. -/
def Message.submits (m : Message) (env : Env) (s : Ssh) : Bool :=
  match m with
  | .request _ => false
  | .infoResponse buf => responsesRead env s buf

/-- Responses come only while `kbSetupPending` is set. -/
def Solicited (r : Run) : Event → Prop
  | .receive m env =>
    r.ssh.disconnected = false → r.pending = none → m.submits env r.ssh → r.ssh.kbSetupPending
  | .skip | .disconnect => True

instance (r : Run) (e : Event) : Decidable (Solicited r e) := by
  cases e <;> (rw [Solicited]; infer_instance)

/-- The call `c` hands over the answers to an INFO_REQUEST. -/
structure Answers (c : Call) (q : InfoRequest) : Prop where
  answers : c.answers = some q
  user : q.user = c.user
  count : q.promptCount = c.responseCount
  earlier : q.no < c.no

/-- Every response that reached the callback answered a request of its own. -/
structure RoundsPaired (calls : List Call) : Prop where
  answered : ∀ c ∈ calls, c.type = .keyboard → ∃ q, Answers c q
  distinct : ∀ c ∈ calls, ∀ d ∈ calls, c.type = .keyboard → d.type = .keyboard →
    ∀ q q', c.answers = some q → d.answers = some q' → q.no = q'.no → c.no = d.no

/-- The packet `no` may put the answers to `q` before the callback. -/
structure Fresh (s : Ssh) (no : Nat) (q : InfoRequest) : Prop where
  seen : s.userAuthSeen
  user : q.user = s.userName
  count : q.promptCount = s.promptCount
  earlier : q.no < no
  unused : ∀ c ∈ s.calls, c.type = .keyboard → ∀ q', c.answers = some q' → q'.no = q.no → c.no = no

theorem Fresh.later {s : Ssh} {no : Nat} {q : InfoRequest} (h : Fresh s no q)
    (hcalls : ∀ c ∈ s.calls, c.no < no) : Fresh s (no + 1) q := by
  refine ⟨h.seen, h.user, h.count, Nat.lt_succ_of_lt h.earlier, fun c hc hkey q' hq' hno => ?_⟩
  have hlt := hcalls c hc
  have heq := h.unused c hc hkey q' hq' hno
  omega

namespace Ssh

variable {s : Ssh} {p : Packet}

theorem refuse_calls (env : Env) (no : Nat) (rejected : Bool) :
    (s.refuse env no rejected).1.calls = s.calls := by
  simp only [refuse, sendUserAuthFailureCount, countUserAuthFailure, if_true]
  split <;> rfl

theorem sendUserAuthKeyboardRequest_calls (env : Env) {c : Call} (hc : c ∈ s.calls) :
    c ∈ (s.sendUserAuthKeyboardRequest env p).1.calls := by
  rw [sendUserAuthKeyboardRequest]
  cases env.userAuthCb with
  | none => exact hc
  | some cb =>
    have hmem : ∀ d, c ∈ (s.logCall d).calls := fun _ => List.mem_cons_of_mem _ hc
    dsimp only
    generalize cb.setup = setup
    cases setup with
    | success =>
      dsimp only
      split
      · split <;> exact hmem _
      · exact hmem _
    | wouldBlock => exact hmem _
    | rejected | failure | partialSuccess | successAnother =>
      dsimp only
      rw [refuse_calls]
      exact hmem _

theorem checkResponses_call {env : Env} {cb : Callback} (hcb : env.userAuthCb = some cb)
    {responseCount : Nat} :
    ∃ c ∈ (s.checkResponses env p responseCount).1.calls,
      c.type = .keyboard ∧ c.answers = p.answers := by
  refine ⟨⟨p.no, .keyboard, s.userName, s.authFailures, p.answers, responseCount, [], cb.check⟩, ?_,
    rfl, rfl⟩
  rw [checkResponses, hcb]
  have hmem := List.mem_cons_self
    (a := (⟨p.no, .keyboard, s.userName, s.authFailures, p.answers, responseCount, [], cb.check⟩ : Call))
    (l := s.calls)
  dsimp only
  generalize cb.check = check at hmem ⊢
  cases check with
  | success | wouldBlock => exact hmem
  | successAnother => exact sendUserAuthKeyboardRequest_calls env hmem
  | rejected | partialSuccess | failure =>
    dsimp only
    rw [refuse_calls]
    exact hmem

theorem doUserAuthInfoResponse_calls {env : Env} {buf : Bytes} (h : responsesRead env s buf = false) :
    (s.doUserAuthInfoResponse env p buf).1.calls = s.calls := by
  rw [doUserAuthInfoResponse]
  by_cases hbuf : buf = []
  · rw [if_pos hbuf]
  by_cases hid : s.authId ≠ .userauthKeyboard
  · rw [if_neg hbuf, if_pos hid]
  rw [if_neg hbuf, if_neg hid, doUserAuthInfoResponseRead]
  rw [responsesRead] at h
  have hkey : s.authId = .userauthKeyboard := by simpa using hid
  simp only [hkey, decide_true, Bool.true_and] at h
  cases hcount : readAt (getUint32 buf) 0 with
  | error e => rfl
  | ok parsed =>
    obtain ⟨responseCount, idx⟩ := parsed
    rw [hcount] at h
    dsimp only at h ⊢
    by_cases hprompts : s.promptCount ≠ responseCount
    · rw [if_pos hprompts]
      exact refuse_calls env p.no false
    rw [if_neg hprompts]
    obtain rfl : s.promptCount = responseCount := by simpa using hprompts
    by_cases halloc : s.promptCount ≠ 0 ∧ env.responsesAlloc = false
    · rw [if_pos halloc]
    rw [if_neg halloc]
    cases hresp : getResponses buf s.promptCount idx with
    | error e => rfl
    | ok _ =>
      have hready : (decide (s.promptCount = 0) || env.responsesAlloc) = true := by
        by_cases hzero : s.promptCount = 0
        · simp [hzero]
        · simpa [hzero] using halloc
      simp only [hresp, hready, decide_true, Bool.and_true, Bool.true_and] at h
      have hcb : env.userAuthCb = none := by simpa using h
      rw [checkResponses, hcb]
      exact refuse_calls env p.no false

/-- Responses that are read are put before the callback, with the INFO_REQUEST they answer. -/
theorem doUserAuthInfoResponse_submits {env : Env} {buf : Bytes} (h : responsesRead env s buf) :
    ∃ c ∈ (s.doUserAuthInfoResponse env p buf).1.calls, c.type = .keyboard ∧ c.answers = p.answers := by
  simp only [responsesRead, Bool.and_eq_true, decide_eq_true_eq] at h
  obtain ⟨hid, h⟩ := h
  have hbuf : buf ≠ [] := by
    rintro rfl
    exact Bool.false_ne_true h
  rw [doUserAuthInfoResponse, if_neg hbuf, if_neg (not_not.mpr hid), doUserAuthInfoResponseRead]
  cases hcount : readAt (getUint32 buf) 0 with
  | error e => simp [hcount] at h
  | ok parsed =>
    obtain ⟨responseCount, idx⟩ := parsed
    rw [hcount] at h
    simp only [Bool.and_eq_true, decide_eq_true_eq] at h
    obtain ⟨⟨rfl, halloc⟩, h⟩ := h
    have hready : ¬ (s.promptCount ≠ 0 ∧ env.responsesAlloc = false) := by
      rintro ⟨hzero, hnone⟩
      simp [hzero, hnone] at halloc
    dsimp only
    rw [if_neg (not_not.mpr rfl), if_neg hready]
    cases hresp : getResponses buf s.promptCount idx with
    | error e => simp [hresp] at h
    | ok _ =>
      rw [hresp] at h
      obtain ⟨cb, hcb⟩ := Option.isSome_iff_exists.mp h
      exact checkResponses_call hcb

theorem responsesRead_of_waits {env : Env} {buf : Bytes} (hid : s.authId = .userauthKeyboard)
    (h : responseVerdict env s buf = .waits) : responsesRead env s buf := by
  rw [responseVerdict] at h
  rw [responsesRead, hid]
  cases hcount : readAt (getUint32 buf) 0 with
  | error e => simp [hcount] at h
  | ok parsed =>
    obtain ⟨responseCount, idx⟩ := parsed
    rw [hcount] at h
    dsimp only at h ⊢
    by_cases hprompts : s.promptCount ≠ responseCount
    · simp [hprompts] at h
    obtain rfl : s.promptCount = responseCount := by simpa using hprompts
    by_cases halloc : s.promptCount ≠ 0 ∧ env.responsesAlloc = false
    · simp [halloc] at h
    rw [if_neg hprompts, if_neg halloc] at h
    cases hresp : getResponses buf s.promptCount idx with
    | error e => simp [hresp] at h
    | ok _ =>
      rw [hresp] at h
      have hcb : env.userAuthCb ≠ none := by
        intro hnone
        simp [responsesVerdict, hnone] at h
      have hsome : env.userAuthCb.isSome := Option.isSome_iff_ne_none.mpr hcb
      by_cases hzero : s.promptCount = 0
      · simp [hzero, hsome]
      · have hready : env.responsesAlloc := by simpa [hzero] using halloc
        simp [hready, hsome]

end Ssh

theorem submits_of_waits {m : Message} {env : Env} {s : Ssh} {no : Nat} {answers : Option InfoRequest}
    (hp : (m.packet no answers).responding) (h : (m.reading env s).verdict = .waits) :
    m.submits env s := by
  cases m with
  | request buf => cases hp
  | infoResponse buf =>
    simp only [Message.reading, infoResponseReading] at h
    split at h
    · cases h
    · rename_i hbad
      have hid : s.authId = .userauthKeyboard := by simpa using (not_or.mp hbad).2
      exact Ssh.responsesRead_of_waits hid h

theorem handle_calls {m : Message} {env : Env} {s : Ssh} {no : Nat} {answers : Option InfoRequest}
    (hp : (m.packet no answers).responding) (h : m.submits env s = false) :
    (m.handle env no answers s).1.calls = s.calls := by
  cases m with
  | request buf => cases hp
  | infoResponse buf => exact Ssh.doUserAuthInfoResponse_calls h

section Settled

variable {p : Packet} {rd : Reading} {s t : Ssh} {ret : Ret}

theorem Settled.failures (h : Settled p rd s t ret)
    (hs : s.disconnected = false → s.authFailures < s.maxAuthAttempts)
    (hover : t.disconnected = false) : t.authFailures < t.maxAuthAttempts := by
  obtain ⟨haccount, hmax, -⟩ := h.frame
  have hclosed : (rd.closing.apply s.maxAuthAttempts s.account).ended = false →
      (rd.closing.apply s.maxAuthAttempts s.account).failures < s.maxAuthAttempts := by
    cases rd.closing with
    | none => exact hs
    | answers => exact hs
    | abandons => exact Account.abandon_capped _ _ hs
  have hcapped := Account.settle_capped s.maxAuthAttempts rd.verdict rd.exempt p.no _ hclosed
  rw [← haccount] at hcapped
  rw [hmax]
  exact hcapped hover

theorem Settled.new_calls (h : Settled p rd s t ret) :
    ∃ new, t.calls = new ++ s.calls ∧ ∀ c ∈ new, c.no = p.no := by
  obtain ⟨⟨m, hc, hh, -⟩, -, -⟩ := h
  obtain ⟨new, hnew, hmade⟩ := hh.calls
  rw [hc.calls] at hnew
  exact ⟨new, hnew, fun c hmem => (hmade c hmem).no⟩

/-- A response that is put before the callback answers the INFO_REQUEST that is known of the packet. -/
theorem Settled.answered (h : Settled p rd s t ret)
    (hi : p.responding → t.calls ≠ s.calls → ∃ i, p.answers = some i ∧ Fresh s p.no i) {c : Call}
    (hmem : c ∈ t.calls) (hkey : c.type = .keyboard) :
    c ∈ s.calls ∨ ∃ i, Answers c i ∧ c.no = p.no ∧ Fresh s p.no i := by
  obtain ⟨⟨m, hc, hh, -⟩, -, -⟩ := h
  obtain ⟨new, hnew, hmade⟩ := hh.calls
  rw [hc.calls] at hnew
  rw [hnew] at hmem
  rcases List.mem_append.mp hmem with hin | hin
  · right
    have hm := hmade c hin
    obtain ⟨hresp, hans, hcount⟩ := hm.answers hkey
    have hne : t.calls ≠ s.calls := by
      intro heq
      rw [heq, List.self_eq_append_left] at hnew
      rw [hnew] at hin
      cases hin
    obtain ⟨i, hpi, hfresh⟩ := hi hresp hne
    refine ⟨i, ⟨hans.trans hpi, ?_, ?_, ?_⟩, hm.no, hfresh⟩
    · rw [hm.user, (hc.user hfresh.seen).2]
      exact hfresh.user
    · rw [hcount, hc.promptCount]
      exact hfresh.count
    · rw [hm.no]
      exact hfresh.earlier
  · exact .inl hin

theorem Settled.paired (h : Settled p rd s t ret) (hs : RoundsPaired s.calls)
    (hi : p.responding → t.calls ≠ s.calls → ∃ i, p.answers = some i ∧ Fresh s p.no i) :
    RoundsPaired t.calls := by
  refine ⟨fun c hmem hkey => ?_, fun c hc d hd hkeyc hkeyd q q' hq hq' hno => ?_⟩
  · rcases h.answered hi hmem hkey with hin | ⟨i, hans, -⟩
    · exact hs.answered c hin hkey
    · exact ⟨i, hans⟩
  · rcases h.answered hi hc hkeyc with hinc | ⟨i, hansc, hnoc, hfresh⟩
    · rcases h.answered hi hd hkeyd with hind | ⟨j, hansd, hnod, hfresh⟩
      · exact hs.distinct c hinc d hind hkeyc hkeyd q q' hq hq' hno
      · obtain rfl : j = q' := Option.some.inj (hansd.answers.symm.trans hq')
        exact (hfresh.unused c hinc hkeyc q hq hno).trans hnod.symm
    · rcases h.answered hi hd hkeyd with hind | ⟨j, -, hnod, -⟩
      · obtain rfl : i = q := Option.some.inj (hansc.answers.symm.trans hq)
        exact hnoc.trans (hfresh.unused d hind hkeyd q' hq' hno.symm).symm
      · exact hnoc.trans hnod.symm

/-- What the session waits for after a packet that has closed an exchange was sent by that packet. -/
theorem Settled.fresh (h : Settled p rd s t ret) (hclosing : rd.closing ≠ .none)
    (hseen : s.authId = .userauthKeyboard → s.userAuthSeen) (hpaired : RoundsPaired t.calls)
    (hcalls : ∀ c ∈ t.calls, c.no < p.no + 1) {q : InfoRequest} (hq : t.outstanding = some q) :
    Fresh t (p.no + 1) q := by
  obtain ⟨⟨m, hc, hh, -⟩, hround, -⟩ := h
  have hout := hh.outstanding
  rw [hc.outstanding, if_neg hclosing, hq] at hout
  by_cases hv : rd.verdict = .round
  · rw [if_pos hv] at hout
    obtain rfl := Option.some.inj hout
    have hkey : t.authId = .userauthKeyboard := hround hv
    have hm : m.userAuthSeen := hc.seen hseen (hh.fixed.authId ▸ hkey)
    refine ⟨hh.fixed.userAuthSeen ▸ hm, hh.fixed.userName.symm, rfl, Nat.lt_succ_self _, ?_⟩
    intro c hmem hkeyc q' hq' hno
    obtain ⟨i, hans⟩ := hpaired.answered c hmem hkeyc
    obtain rfl : i = q' := Option.some.inj (hans.answers.symm.trans hq')
    have hlt := hans.earlier
    have hle := hcalls c hmem
    dsimp only at hno
    omega
  · rw [if_neg hv] at hout
    cases hout

theorem Settled.waiting (h : Settled p rd s t ret) (hv : rd.verdict = .waits) {i : InfoRequest}
    (hi : Fresh s p.no i) : Fresh t p.no i := by
  obtain ⟨new, hnew, hno⟩ := h.new_calls
  obtain ⟨⟨m, hc, hh, -⟩, -, -⟩ := h
  obtain ⟨hseen, hname⟩ := hc.user hi.seen
  refine ⟨hh.fixed.userAuthSeen ▸ hseen, ?_, ?_, hi.earlier, fun c hmem hkey q' hq' heq => ?_⟩
  · rw [hh.fixed.userName, hname]
    exact hi.user
  · rw [hh.prompts hv, hc.promptCount]
    exact hi.count
  · rw [hnew] at hmem
    rcases List.mem_append.mp hmem with hin | hin
    · exact hno c hin
    · exact hi.unused c hin hkey q' hq' heq

end Settled

/-- What holds between two packets while every response is solicited. -/
structure RoundsInv (r : Run) : Prop where
  failures : r.ssh.disconnected = false → r.ssh.authFailures < r.ssh.maxAuthAttempts
  bound : r.ssh.maxAuthAttempts < 2 ^ 32
  pending : r.ssh.kbSetupPending = r.ssh.outstanding.isSome
  seen : r.ssh.authId = .userauthKeyboard → r.ssh.userAuthSeen
  fresh : ∀ q, r.ssh.outstanding = some q → Fresh r.ssh r.next q
  waiting : ∀ w, r.pending = some w → w.no + 1 = r.next ∧
    ((w.message.packet w.no w.answers).responding → ∃ i, w.answers = some i ∧ Fresh r.ssh w.no i)
  numbered : ∀ c ∈ r.ssh.calls, c.no < r.next
  paired : RoundsPaired r.ssh.calls

namespace RoundsInv

variable {r : Run}

theorem dispatch (h : RoundsInv r) (hover : r.ssh.disconnected = false) (m : Message) (env : Env)
    {no : Nat} {answers : Option InfoRequest} (waited : Bool) (hno : no + 1 = r.next)
    (hi : (m.packet no answers).responding → m.submits env r.ssh →
      ∃ i, answers = some i ∧ Fresh r.ssh no i) :
    RoundsInv (r.dispatch m env no answers waited) := by
  have hs := Ssh.handle_settled ⟨h.failures hover, h.bound, h.pending⟩ m env no answers
  have hanswers : (m.packet no answers).responding →
      (m.handle env no answers r.ssh).1.calls ≠ r.ssh.calls →
      ∃ i, answers = some i ∧ Fresh r.ssh no i := by
    intro hp hne
    apply hi hp
    by_contra hsub
    exact hne (handle_calls hp (by simpa using hsub))
  have hpaired := hs.paired h.paired hanswers
  have hnumbered : ∀ c ∈ (m.handle env no answers r.ssh).1.calls, c.no < no + 1 := by
    obtain ⟨new, hnew, hnos⟩ := hs.new_calls
    intro c hmem
    rw [hnew] at hmem
    rcases List.mem_append.mp hmem with hin | hin
    · rw [hnos c hin]
      exact Nat.lt_succ_self no
    · rw [hno]
      exact h.numbered c hin
  obtain ⟨-, hmax, -, -, hwaits, hpending⟩ := hs.frame
  have hfresh : ∀ q, (m.handle env no answers r.ssh).1.outstanding = some q →
      Fresh (m.handle env no answers r.ssh).1 (no + 1) q := by
    intro q hq
    by_cases hclosing : (m.reading env r.ssh).closing = .none
    · have hkept := hs.kept hclosing
      rw [hkept] at hq ⊢
      have hf := h.fresh q hq
      rw [hno]
      exact ⟨hf.seen, hf.user, hf.count, hf.earlier, hf.unused⟩
    · exact hs.fresh hclosing h.seen hpaired hnumbered hq
  have hseen : (m.handle env no answers r.ssh).1.authId = .userauthKeyboard →
      (m.handle env no answers r.ssh).1.userAuthSeen := by
    obtain ⟨⟨t, hc, hh, -⟩, -, -⟩ := hs
    rw [hh.fixed.authId, hh.fixed.userAuthSeen]
    exact hc.seen h.seen
  have hwaiting : (m.handle env no answers r.ssh).2 = .error .authPending →
      (m.packet no answers).responding →
      ∃ i, answers = some i ∧ Fresh (m.handle env no answers r.ssh).1 no i := by
    intro hret hp
    obtain ⟨i, hans, hf⟩ := hi hp (submits_of_waits hp (hwaits.mp hret))
    exact ⟨i, hans, hs.waiting (hwaits.mp hret) hf⟩
  rw [Run.dispatch]
  by_cases hpend : (m.handle env no answers r.ssh).2 = .error .authPending
  · simp only [hpend, if_true]
    refine ⟨hs.failures h.failures, hmax ▸ h.bound, hpending, hseen, hno ▸ hfresh, ?_,
      hno ▸ hnumbered, hpaired⟩
    rintro w ⟨⟩
    exact ⟨hno, hwaiting hpend⟩
  · simp only [hpend, if_false]
    exact ⟨hs.failures h.failures, hmax ▸ h.bound, hpending, hseen, hno ▸ hfresh, by rintro _ ⟨⟩,
      hno ▸ hnumbered, hpaired⟩

theorem solicited (h : RoundsInv r) {m : Message} {env : Env}
    (hsol : m.submits env r.ssh → r.ssh.kbSetupPending) (hsub : m.submits env r.ssh) :
    ∃ i, r.ssh.outstanding = some i ∧ Fresh r.ssh r.next i := by
  have hsome := hsol hsub
  rw [h.pending] at hsome
  obtain ⟨i, hi⟩ := Option.isSome_iff_exists.mp hsome
  exact ⟨i, hi, h.fresh i hi⟩

theorem step (h : RoundsInv r) {e : Event} (hsol : Solicited r e) : RoundsInv (r.step e) := by
  cases e with
  | receive m env =>
    rw [Run.step, Run.receive]
    by_cases hover : r.ssh.disconnected
    · rw [if_pos hover]
      exact ⟨h.failures, h.bound, h.pending, h.seen, h.fresh, by rintro _ ⟨⟩, h.numbered, h.paired⟩
    rw [if_neg hover]
    have hlive : r.ssh.disconnected = false := by simpa using hover
    cases hq : r.pending with
    | some w =>
      obtain ⟨hno, hans⟩ := h.waiting w hq
      exact h.dispatch hlive w.message env true hno fun hp _ => hans hp
    | none =>
      have hnext : RoundsInv { r with next := r.next + 1 } :=
        ⟨h.failures, h.bound, h.pending, h.seen, fun q hq' => (h.fresh q hq').later h.numbered,
          fun w hw => absurd hw (by simp [hq]), fun c hc => Nat.lt_succ_of_lt (h.numbered c hc),
          h.paired⟩
      exact hnext.dispatch hlive m env false rfl fun _ => h.solicited (hsol hlive hq)
  | skip => exact ⟨h.failures, h.bound, h.pending, h.seen, h.fresh, by rintro _ ⟨⟩, h.numbered, h.paired⟩
  | disconnect =>
    have hkeep : ∀ {no q}, Fresh r.ssh no q → Fresh { r.ssh with disconnected := true } no q :=
      fun hf => ⟨hf.seen, hf.user, hf.count, hf.earlier, hf.unused⟩
    refine ⟨by rintro ⟨⟩, h.bound, h.pending, h.seen, fun q hq => hkeep (h.fresh q hq), fun w hw => ?_,
      h.numbered, h.paired⟩
    obtain ⟨hno, hans⟩ := h.waiting w hw
    refine ⟨hno, fun hp => ?_⟩
    obtain ⟨i, hi, hf⟩ := hans hp
    exact ⟨i, hi, hkeep hf⟩

theorem of_start (max : MaxAuthAttempts) (allowNone : Bool) (sessionId : Bytes) :
    RoundsInv (start max allowNone sessionId) where
  failures := fun _ => max.property.1
  bound := max.property.2
  pending := rfl
  seen := nofun
  fresh := nofun
  waiting := nofun
  numbered := nofun
  paired := ⟨nofun, nofun⟩

theorem step_unsolicited (h : RoundsInv r) {e : Event} (hsol : ¬ Solicited r e) :
    ¬ RoundsPaired (r.step e).ssh.calls := by
  cases e with
  | receive m env =>
    simp only [Solicited, Classical.not_imp] at hsol
    obtain ⟨hover, hq, hsub, hpend⟩ := hsol
    have hnone : r.ssh.outstanding = none := by
      rw [h.pending] at hpend
      simpa using hpend
    cases m with
    | request buf => cases hsub
    | infoResponse buf =>
      obtain ⟨c, hmem, hkey, hans⟩ := Ssh.doUserAuthInfoResponse_submits
        (p := (Message.infoResponse buf).packet r.next r.ssh.outstanding) hsub
      intro hpaired
      rw [Run.step, Run.receive, hover, hq] at hpaired
      simp only [Bool.false_eq_true, if_false, Run.dispatch_ssh] at hpaired
      obtain ⟨q, hq⟩ := hpaired.answered c hmem hkey
      have hsome : r.ssh.outstanding = some q := hans.symm.trans hq.answers
      rw [hnone] at hsome
      cases hsome
  | skip | disconnect => exact absurd trivial hsol

end RoundsInv

theorem rounds_paired_iff (max : MaxAuthAttempts) (allowNone : Bool) (sessionId : Bytes)
    (es : List Event) :
    (∀ r ∈ Runs.states Run.step (start max allowNone sessionId) es, RoundsPaired r.ssh.calls) ↔
      Runs.Meets Run.step Solicited (start max allowNone sessionId) es :=
  Runs.forall_states_iff (fun _ h => h.paired) (fun _ _ h hsol => h.step hsol)
    (fun _ _ h hsol => h.step_unsolicited hsol) (RoundsInv.of_start max allowNone sessionId) es

/-- The request for a round, without a language tag and submethods. -/
def keyboardRequest : Message :=
  .request (requestFor "keyboard-interactive" ++ (copyString [] ++ copyString []))

def infoResponse (answer : String) : Message :=
  .infoResponse (c32toa 1 ++ copyString (ascii answer))

/-- After a wrong answer a second one reaches the callback, although nothing was asked again. -/
theorem second_response_unasked :
    let env : Env :=
      { userAuthCb := some { setup := .success, promptCount := 1, promptLengths := some [4] }
        oracles := .refusing }
    let es := [Event.receive keyboardRequest env, .receive (infoResponse "a") env,
      .receive (infoResponse "b") env]
    ¬ ∀ r ∈ Runs.states Run.step (start ⟨6, by decide⟩ false []) es, RoundsPaired r.ssh.calls := by
  intro env es hall
  have hpaired := hall _ (Runs.foldl_mem_states _ es)
  have hcall : ∃ c ∈ (es.foldl Run.step (start ⟨6, by decide⟩ false [])).ssh.calls,
      c.type = .keyboard ∧ c.answers = none := by
    decide +kernel
  obtain ⟨c, hmem, hkey, hnone⟩ := hcall
  obtain ⟨q, hq⟩ := hpaired.answered c hmem hkey
  exact nomatch hnone.symm.trans hq.answers

end WolfSsh.UserAuth
