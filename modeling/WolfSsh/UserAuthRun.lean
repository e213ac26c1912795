import WolfSsh.UserAuthVerdict
import WolfSsh.Lib.Runs

/-! The userauth packets of a session, in any order and with any answers. A packet whose callback
would block stays in the input buffer and is dispatched again. -/

namespace WolfSsh.UserAuth

structure Pending where
  no : Nat
  answers : Option InfoRequest
  message : Message
deriving DecidableEq, Repr

/-- A packet that is done with. It is `opening` if it names the method `none` and no other packet
has come to a method before, and it `waited` if it was dispatched more than once. -/
structure Entry where
  no : Nat
  verdict : Verdict
  opening : Bool
  waited : Bool
deriving DecidableEq, Repr

structure Run where
  ssh : Ssh
  pending : Option Pending := none
  next : Nat := 0
  ledger : List Entry := []
deriving DecidableEq, Repr

/-- A packet is received, or the one that waits is dispatched again; `wolfSSH_accept` steps over the
one that waits; or the session is ended by something else. -/
inductive Event where
  | receive (m : Message) (env : Env)
  | skip
  | disconnect

namespace Run

def dispatch (m : Message) (env : Env) (no : Nat) (answers : Option InfoRequest) (waited : Bool)
    (r : Run) : Run :=
  let (ssh, ret) := m.handle env no answers r.ssh
  if ret = .error .authPending then { r with ssh := ssh, pending := some ⟨no, answers, m⟩ }
  else
    let reading := m.reading env r.ssh
    let opening := reading.namesNone && r.ssh.methodNos.all fun n => n = no
    { r with
      ssh := ssh
      pending := none
      ledger := ⟨no, reading.verdict, opening, waited⟩ :: r.ledger }

theorem dispatch_ssh (m : Message) (env : Env) (no : Nat) (answers : Option InfoRequest)
    (waited : Bool) (r : Run) :
    (r.dispatch m env no answers waited).ssh = (m.handle env no answers r.ssh).1 := by
  rw [dispatch]
  dsimp only
  split <;> rfl

/-- After a disconnect `DoPacket` steps over what it gets. -/
def receive (m : Message) (env : Env) (r : Run) : Run :=
  if r.ssh.disconnected then { r with pending := none }
  else
    match r.pending with
    | some q => r.dispatch q.message env q.no q.answers true
    | none => { r with next := r.next + 1 }.dispatch m env r.next r.ssh.outstanding false

def step (r : Run) : Event → Run
  | .receive m env => r.receive m env
  | .skip => { r with pending := none }
  | .disconnect => { r with ssh := { r.ssh with disconnected := true } }

end Run

/-- `maxAuthAttempts` as its setters leave it. -/
abbrev MaxAuthAttempts := { n : Nat // 0 < n ∧ n < 2 ^ 32 }

/-- A session as `SshInit` leaves it, once there is a session id. -/
def start (max : MaxAuthAttempts) (allowNone : Bool) (sessionId : Bytes) : Run where
  ssh := { allowNone := allowNone, maxAuthAttempts := max, sessionId := sessionId }

end WolfSsh.UserAuth
