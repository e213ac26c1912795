import Mathlib.Data.List.Nodup
import WolfSsh.UserAuthRun

/-! Every packet that is refused is charged once, as is every exchange that is abandoned, and no
callback is called once the charges have reached the cap. -/

namespace WolfSsh.UserAuth

open Session (Ret)

/-- What a packet that is done with is to be charged. -/
def Entry.due (abandoned : List Nat) (e : Entry) : Nat :=
  if (e.verdict = .refused ∧ ¬ e.opening) ∨ e.no ∈ abandoned then 1 else 0

/-- The account of a session against its ledger. -/
structure Books (max : Nat) (a : Account) (ledger : List Entry) : Prop where
  counted : a.failures = a.charged.length
  capped : a.ended = false → a.failures < max
  known : ∀ no ∈ a.charged, ∃ e ∈ ledger, e.no = no
  abandoned : ∀ no ∈ a.abandoned, ∃ e ∈ ledger, e.no = no ∧ e.verdict = .round
  opener : ∀ no, a.opener = some no → no ∉ a.abandoned ∧ ∃ e ∈ ledger, e.no = no ∧ e.verdict = .round
  distinct : (ledger.map Entry.no).Nodup
  due : ∀ e ∈ ledger, (e.opening → e.waited = false) → a.charged.count e.no = e.due a.abandoned

namespace Books

variable {max no : Nat} {a : Account} {ledger : List Entry}

theorem entry_unique (h : Books max a ledger) {d e : Entry} (hd : d ∈ ledger) (he : e ∈ ledger)
    (hno : d.no = e.no) : d = e :=
  List.inj_on_of_nodup_map h.distinct hd he hno

theorem answer (h : Books max a ledger) : Books max a.answer ledger :=
  ⟨h.counted, h.capped, h.known, h.abandoned, nofun, h.distinct, h.due⟩

/-- The packet that opened the exchange had not been charged, for it was never refused. -/
theorem abandon (h : Books max a ledger) : Books max (a.abandon max) ledger := by
  rw [Account.abandon]
  cases hop : a.opener with
  | none => exact h
  | some no =>
    obtain ⟨hnot, d, hd, hdno, hdv⟩ := h.opener no hop
    refine ⟨?_, ?_, ?_, ?_, by rintro _ ⟨⟩, h.distinct, ?_⟩
    · simp [Account.charge, h.counted]
    · have hcapped := Account.abandon_capped max a h.capped
      rwa [Account.abandon, hop] at hcapped
    · intro n hn
      rcases List.mem_cons.mp hn with rfl | hn
      · exact ⟨d, hd, hdno⟩
      · exact h.known n hn
    · intro n hn
      rcases List.mem_cons.mp hn with rfl | hn
      · exact ⟨d, hd, hdno, hdv⟩
      · exact h.abandoned n hn
    · intro e he hwait
      have hdue := h.due e he hwait
      change (no :: a.charged).count e.no = e.due (no :: a.abandoned)
      by_cases hno : e.no = no
      · obtain rfl := h.entry_unique he hd (hno.trans hdno.symm)
        rw [hno, List.count_cons_self, ← hno, hdue]
        simp [Entry.due, hdv, hno, hnot]
      · rw [List.count_cons_of_ne (Ne.symm hno), hdue]
        simp [Entry.due, hno]

theorem close (h : Books max a ledger) (closing : Closing) :
    Books max (closing.apply max a) ledger := by
  cases closing with
  | none => exact h
  | answers => exact h.answer
  | abandons => exact h.abandon

theorem settle (h : Books max a ledger) {v : Verdict} {exempt opening waited : Bool}
    (hfresh : ∀ e ∈ ledger, e.no ≠ no)
    (hexempt : v = .refused → (opening → waited = false) → exempt = opening) :
    Books max (a.settle max v exempt no) (⟨no, v, opening, waited⟩ :: ledger) := by
  have hcharged : a.charged.count no = 0 := by
    refine List.count_eq_zero.mpr fun hin => ?_
    obtain ⟨e, he, hno⟩ := h.known no hin
    exact hfresh e he hno
  have habandoned : no ∉ a.abandoned := by
    intro hin
    obtain ⟨e, he, hno, -⟩ := h.abandoned no hin
    exact hfresh e he hno
  refine ⟨?_, ?_, ?_, ?_, ?_, ?_, ?_⟩
  · rw [Account.settle_failures, Account.settle_charged]
    split <;> simp [h.counted]
  · exact Account.settle_capped max v exempt no a h.capped
  · intro n hn
    rw [Account.settle_charged] at hn
    by_cases hno : n = no
    · exact ⟨_, List.mem_cons_self, hno.symm⟩
    · have hin : n ∈ a.charged := by
        split at hn
        · exact (List.mem_cons.mp hn).resolve_left hno
        · exact hn
      obtain ⟨e, he, heq⟩ := h.known n hin
      exact ⟨e, List.mem_cons_of_mem _ he, heq⟩
  · intro n hn
    rw [Account.settle_abandoned] at hn
    obtain ⟨e, he, hround⟩ := h.abandoned n hn
    exact ⟨e, List.mem_cons_of_mem _ he, hround⟩
  · intro n hn
    rw [Account.settle_opener] at hn
    rw [Account.settle_abandoned]
    split at hn
    · obtain rfl : no = n := by simpa using hn
      exact ⟨habandoned, _, List.mem_cons_self, rfl, by assumption⟩
    · obtain ⟨hnot, e, he, hround⟩ := h.opener n hn
      exact ⟨hnot, e, List.mem_cons_of_mem _ he, hround⟩
  · rw [List.map_cons, List.nodup_cons]
    refine ⟨fun hin => ?_, h.distinct⟩
    obtain ⟨e, he, hno⟩ := List.mem_map.mp hin
    exact hfresh e he hno
  · intro e he hwait
    rw [Account.settle_charged, Account.settle_abandoned]
    rcases List.mem_cons.mp he with rfl | he
    · have hex : v = .refused → exempt = opening := fun hv => hexempt hv hwait
      by_cases hv : v = .refused
      · obtain rfl := hex hv
        cases exempt with
        | false => simp [Account.charges, Entry.due, hv, hcharged]
        | true => simp [Account.charges, Entry.due, hcharged, habandoned]
      · simp [Account.charges, Entry.due, hv, hcharged, habandoned]
    · have hne := hfresh e he
      rw [← h.due e he hwait]
      split
      · exact List.count_cons_of_ne (Ne.symm hne)
      · rfl

end Books

/-- The exemption is for the first request to come to a method, if that is `none`. -/
theorem reading_exempt (m : Message) (env : Env) (s : Ssh) :
    (m.reading env s).exempt =
      ((m.reading env s).namesNone && (s.authRequests + 1) % 2 ^ 32 = 1) := by
  cases m with
  | request buf =>
    simp only [Message.reading, requestReading]
    repeat' split
    all_goals rfl
  | infoResponse buf =>
    simp only [Message.reading, infoResponseReading]
    split <;> rfl

/-- What holds of a session between two packets. -/
structure Inv (r : Run) : Prop where
  books : Books r.ssh.maxAuthAttempts r.ssh.account r.ledger
  bound : r.ssh.maxAuthAttempts < 2 ^ 32
  pending : r.ssh.kbSetupPending = r.ssh.outstanding.isSome
  numbered : ∀ e ∈ r.ledger, e.no < r.next
  waiting : ∀ q, r.pending = some q → q.no < r.next ∧ ∀ e ∈ r.ledger, e.no ≠ q.no
  methods : ∀ no ∈ r.ssh.methodNos, no < r.next
  requests : r.ssh.authRequests = r.ssh.methodNos.length % 2 ^ 32
  calls : ∀ c ∈ r.ssh.calls, c.failures < r.ssh.maxAuthAttempts

variable {r : Run}

theorem Inv.open (h : Inv r) (hover : r.ssh.disconnected = false) : Open r.ssh :=
  ⟨h.books.capped hover, h.bound, h.pending⟩

/-- A first dispatch is exempt exactly if it is the opening probe, and a later one only then. -/
theorem Inv.exempt (h : Inv r) (hfew : r.ssh.methodNos.length + 1 < 2 ^ 32) (m : Message) (env : Env)
    {no : Nat} {waited : Bool} (hno : waited = false → ∀ n ∈ r.ssh.methodNos, n ≠ no) :
    let opening := (m.reading env r.ssh).namesNone && r.ssh.methodNos.all fun n => n = no
    (opening → waited = false) → (m.reading env r.ssh).exempt = opening := by
  intro opening hwait
  have hmod : r.ssh.methodNos.length % 2 ^ 32 = r.ssh.methodNos.length := Nat.mod_eq_of_lt (by omega)
  rw [reading_exempt, h.requests, hmod]
  cases hnone : (m.reading env r.ssh).namesNone with
  | false => simp [opening, hnone]
  | true =>
    simp only [opening, hnone, Bool.true_and] at hwait ⊢
    cases hnos : r.ssh.methodNos with
    | nil => simp
    | cons n nos =>
      have hall : (n :: nos).all (fun n => n = no) = false := by
        by_contra htrue
        rw [Bool.not_eq_false, ← hnos] at htrue
        have hfirst := hno (hwait htrue) n (by simp [hnos])
        rw [hnos, List.all_cons] at htrue
        simp_all
      rw [hall, decide_eq_false_iff_not]
      rw [hnos] at hfew
      simp only [List.length_cons] at hfew ⊢
      rw [Nat.mod_eq_of_lt (by omega)]
      omega

/-- The session after a dispatch; whether the packet waits or is done with, its books are in order. -/
theorem Settled.frame {p : Packet} {rd : Reading} {s t : Ssh} {ret : Ret} (h : Settled p rd s t ret) :
    t.account = (rd.closing.apply s.maxAuthAttempts s.account).settle s.maxAuthAttempts rd.verdict
        rd.exempt p.no ∧
      t.maxAuthAttempts = s.maxAuthAttempts ∧
      t.methodNos = (if rd.method then p.no :: s.methodNos else s.methodNos) ∧
      t.authRequests = (if rd.method then (s.authRequests + 1) % 2 ^ 32 else s.authRequests) ∧
      (ret = .error .authPending ↔ rd.verdict = .waits) ∧
      t.kbSetupPending = t.outstanding.isSome := by
  obtain ⟨⟨m, hc, hh, -⟩, -, -⟩ := h
  refine ⟨?_, hh.fixed.maxAuthAttempts.trans hc.maxAuthAttempts,
    hh.fixed.methodNos.trans hc.methodNos, hh.fixed.authRequests.trans hc.authRequests, hh.waits,
    hh.pending⟩
  rw [hh.account, hc.account, hc.maxAuthAttempts]

theorem Settled.calls_lt {p : Packet} {rd : Reading} {s t : Ssh} {ret : Ret}
    (h : Settled p rd s t ret) (hs : ∀ c ∈ s.calls, c.failures < s.maxAuthAttempts) :
    ∀ c ∈ t.calls, c.failures < s.maxAuthAttempts := by
  obtain ⟨⟨m, hc, hh, hopen⟩, -, -⟩ := h
  intro c hmem
  rcases hopen with heq | hopen
  · rw [← heq, hc.calls] at hmem
    exact hs c hmem
  · obtain ⟨new, hnew, hmade⟩ := hh.calls
    rw [hnew, hc.calls] at hmem
    rcases List.mem_append.mp hmem with hmem | hmem
    · rw [(hmade c hmem).failures, ← hc.maxAuthAttempts]
      exact hopen.failures
    · exact hs c hmem

theorem Inv.dispatch (h : Inv r) (hfew : r.ssh.methodNos.length + 1 < 2 ^ 32)
    (hover : r.ssh.disconnected = false) (m : Message) (env : Env) {no : Nat}
    (answers : Option InfoRequest) {waited : Bool}
    (hno : waited = false → ∀ n ∈ r.ssh.methodNos, n ≠ no) (hlt : no < r.next)
    (hfresh : ∀ e ∈ r.ledger, e.no ≠ no) : Inv (r.dispatch m env no answers waited) := by
  have hsettled := Ssh.handle_settled (h.open hover) m env no answers
  have hcalls := hsettled.calls_lt h.calls
  obtain ⟨haccount, hmax, hnos, hreq, hwaits, hpending⟩ := hsettled.frame
  rw [show (m.packet no answers).no = no from rfl] at haccount
  have hmethods : ∀ n ∈ (m.handle env no answers r.ssh).1.methodNos, n < r.next := by
    rw [hnos]
    split
    · intro n hn
      rcases List.mem_cons.mp hn with rfl | hn
      · exact hlt
      · exact h.methods n hn
    · exact h.methods
  have hrequests : (m.handle env no answers r.ssh).1.authRequests =
      (m.handle env no answers r.ssh).1.methodNos.length % 2 ^ 32 := by
    rw [hreq, hnos]
    split
    · rw [h.requests, List.length_cons, Nat.mod_add_mod]
    · exact h.requests
  have hclosed := h.books.close (m.reading env r.ssh).closing
  rw [Run.dispatch]
  by_cases hpend : (m.handle env no answers r.ssh).2 = .error .authPending
  · simp only [hpend, if_true]
    have hbooks : Books r.ssh.maxAuthAttempts (m.handle env no answers r.ssh).1.account r.ledger := by
      rw [haccount, hwaits.mp hpend]
      exact hclosed
    refine ⟨hmax ▸ hbooks, hmax ▸ h.bound, hpending, h.numbered, ?_, hmethods, hrequests, hmax ▸ hcalls⟩
    rintro q ⟨⟩
    exact ⟨hlt, hfresh⟩
  · simp only [hpend, if_false]
    have hbooks := hclosed.settle (v := (m.reading env r.ssh).verdict) hfresh
      fun _ => h.exempt hfew m env hno
    rw [← haccount] at hbooks
    refine ⟨hmax ▸ hbooks, hmax ▸ h.bound, hpending, ?_, by rintro _ ⟨⟩, hmethods, hrequests, hmax ▸ hcalls⟩
    intro e he
    rcases List.mem_cons.mp he with rfl | he
    · exact hlt
    · exact h.numbered e he

theorem Inv.step (h : Inv r) (hfew : r.ssh.methodNos.length + 1 < 2 ^ 32) (e : Event) :
    Inv (r.step e) := by
  cases e with
  | receive m env =>
    rw [Run.step, Run.receive]
    by_cases hover : r.ssh.disconnected
    · rw [if_pos hover]
      exact ⟨h.books, h.bound, h.pending, h.numbered, nofun, h.methods, h.requests, h.calls⟩
    rw [if_neg hover]
    have hlive : r.ssh.disconnected = false := by simpa using hover
    cases hq : r.pending with
    | some q =>
      obtain ⟨hlt, hfresh⟩ := h.waiting q hq
      exact h.dispatch hfew hlive q.message env q.answers nofun hlt hfresh
    | none =>
      have hnext : Inv { r with next := r.next + 1 } :=
        ⟨h.books, h.bound, h.pending, fun e he => Nat.lt_succ_of_lt (h.numbered e he),
          fun q hq' => absurd hq' (by simp [hq]), fun n hn => Nat.lt_succ_of_lt (h.methods n hn),
          h.requests, h.calls⟩
      exact hnext.dispatch hfew hlive m env _ (fun _ n hn => Nat.ne_of_lt (h.methods n hn))
        (Nat.lt_succ_self _) fun e he => Nat.ne_of_lt (h.numbered e he)
  | skip =>
    exact ⟨h.books, h.bound, h.pending, h.numbered, nofun, h.methods, h.requests, h.calls⟩
  | disconnect =>
    obtain ⟨hcounted, -, hknown, habandoned, hopener, hdistinct, hdue⟩ := h.books
    exact ⟨⟨hcounted, nofun, hknown, habandoned, hopener, hdistinct, hdue⟩, h.bound, h.pending,
      h.numbered, h.waiting, h.methods, h.requests, h.calls⟩

theorem start_inv (max : MaxAuthAttempts) (allowNone : Bool) (sessionId : Bytes) :
    Inv (start max allowNone sessionId) where
  books := ⟨rfl, fun _ => max.property.1, nofun, nofun, nofun, List.nodup_nil, nofun⟩
  bound := max.property.2
  pending := rfl
  numbered := nofun
  waiting := nofun
  methods := nofun
  requests := rfl
  calls := nofun

theorem Inv.step_methodNos (h : Inv r) (e : Event) :
    (r.step e).ssh.methodNos.length ≤ r.ssh.methodNos.length + 1 := by
  have hdispatch : ∀ (r' : Run) m env no answers waited, r'.ssh = r.ssh → r.ssh.disconnected = false →
      (r'.dispatch m env no answers waited).ssh.methodNos.length ≤ r.ssh.methodNos.length + 1 := by
    intro r' m env no answers waited hssh hover
    have hframe := (Ssh.handle_settled (h.open hover) m env no answers).frame
    have hlen : (m.handle env no answers r'.ssh).1.methodNos.length ≤ r.ssh.methodNos.length + 1 := by
      rw [hssh, hframe.2.2.1]
      split <;> simp
    rw [Run.dispatch_ssh]
    exact hlen
  cases e with
  | receive m env =>
    rw [Run.step, Run.receive]
    by_cases hover : r.ssh.disconnected
    · rw [if_pos hover]
      exact Nat.le_succ _
    rw [if_neg hover]
    have hlive : r.ssh.disconnected = false := by simpa using hover
    cases r.pending with
    | some q => exact hdispatch r q.message env q.no q.answers true rfl hlive
    | none => exact hdispatch { r with next := r.next + 1 } m env _ _ false rfl hlive
  | skip | disconnect => exact Nat.le_succ _

theorem Inv.run (h : Inv r) (es : List Event) (hes : r.ssh.methodNos.length + es.length < 2 ^ 32) :
    Inv (es.foldl Run.step r) := by
  induction es generalizing r with
  | nil => exact h
  | cons e es ih =>
    rw [List.length_cons] at hes
    have hnos := h.step_methodNos e
    exact ih (h.step (by omega) e) (by omega)

theorem Run.step_calls (hover : r.ssh.disconnected) (e : Event) : (r.step e).ssh.calls = r.ssh.calls := by
  cases e with
  | receive m env => rw [Run.step, Run.receive, if_pos hover]
  | skip | disconnect => rfl

/-- Each packet done with is charged what it is due, which counts to the failures; these end the
session at the cap, before which every call of the callback was made. -/
structure AttemptsCounted (r : Run) : Prop where
  charged : ∀ e ∈ r.ledger, (e.opening → e.waited = false) →
    r.ssh.charged.count e.no = e.due r.ssh.abandoned
  known : ∀ no ∈ r.ssh.charged, ∃ e ∈ r.ledger, e.no = no
  counted : r.ssh.authFailures = r.ssh.charged.length
  capped : r.ssh.maxAuthAttempts ≤ r.ssh.authFailures → r.ssh.disconnected
  before : ∀ c ∈ r.ssh.calls, c.failures < r.ssh.maxAuthAttempts
  silent : r.ssh.maxAuthAttempts ≤ r.ssh.authFailures → ∀ e, (r.step e).ssh.calls = r.ssh.calls

theorem attempts_counted (max : MaxAuthAttempts) (allowNone : Bool) (sessionId : Bytes)
    (es : List Event) (hes : es.length < 2 ^ 32) :
    AttemptsCounted (es.foldl Run.step (start max allowNone sessionId)) := by
  have h := (start_inv max allowNone sessionId).run es (by simpa [start] using hes)
  have hcapped : ∀ {r : Run}, Inv r → r.ssh.maxAuthAttempts ≤ r.ssh.authFailures →
      r.ssh.disconnected := by
    intro r hr hle
    by_contra hover
    rw [Bool.not_eq_true] at hover
    have hlt := hr.books.capped hover
    exact absurd hle (Nat.not_le.mpr hlt)
  exact ⟨h.books.due, h.books.known, h.books.counted, hcapped h, h.calls,
    fun hle => Run.step_calls (hcapped h hle)⟩

/-- No certificate, key or signature is accepted. -/
def Oracles.refusing : Oracles where
  parseCertChainVerify _ := none
  parseLeafCert _ := none
  osshCert _ _ := none
  importKey _ _ := false
  importCertKey _ _ := false
  verify _ := false

/-- The head of a request of user `u`, up to its method's own fields. -/
def requestFor (method : String) : Bytes :=
  copyString (ascii "u") ++ (copyString (ascii "ssh-connection") ++ copyString (ascii method))

def passwordRequest (password : String) : Message :=
  .request (requestFor "password" ++ (0 :: copyString (ascii password)))

/-- Two wrong passwords where two are allowed. -/
theorem attempts_counted_passwords :
    let es := [Event.receive (passwordRequest "a") { oracles := .refusing },
      .receive (passwordRequest "b") { oracles := .refusing }]
    let r := es.foldl Run.step (start ⟨2, by decide⟩ false [])
    AttemptsCounted r ∧ r.ssh.charged = [1, 0] ∧ r.ssh.disconnected :=
  ⟨attempts_counted ⟨2, by decide⟩ false [] _ (by decide), by decide +kernel⟩

/-- A password request that is cut short ends in an error and is not charged. -/
theorem unparsed_request_uncharged :
    let es := [Event.receive (.request (requestFor "password" ++ [0])) { oracles := .refusing }]
    let r := es.foldl Run.step (start ⟨2, by decide⟩ false [])
    ∃ e ∈ r.ledger, e.verdict ≠ .authenticated ∧ e.opening = false ∧ e.verdict ≠ .probed ∧
      e.verdict ≠ .round ∧ r.ssh.charged.count e.no ≠ 1 := by
  decide +kernel

end WolfSsh.UserAuth
