import WolfSsh.SftpRequests
import WolfSsh.Lib.Runs

/-! Confinement of an SFTP session: the paths that reach the file system lie under the confinement
root, and none of their components below it was found to be a symbolic link. -/

namespace WolfSsh

namespace Sftp

section Run

variable {b : Build} {env : Env}

theorem serve_hands {ssh : Session} {fds : FdEvent → Prop} {P : Session → Prop} (hssh : P ssh)
    (herror : P { ssh with error := .memoryE })
    (hdefault : ∀ p, Canonical p → P { ssh with sftpDefaultPath := some p })
    (hconfine : ∀ p, Canonical p → P { ssh with sftpConfinePath := some p }) (path : Bytes) :
    Hands [] fds P (serve b ssh (.setConfinePath path)) ∧
      Hands [] fds P (serve b ssh (.setDefaultPath path)) := by
  constructor
  · exact (sftpSetConfinePath_hands hssh herror hconfine path).bind fun _ h => Hands.pure h
  · exact (sftpSetDefaultPath_hands hssh herror hdefault path).bind fun _ h => Hands.pure h

theorem serve_tidy {ssh : Session} (hssh : PathsCanonical ssh) (i : Input) :
    Calls.Safe anyAnswer (fun _ => True) PathsCanonical (serve b ssh i) := by
  have hset := @serve_hands b ssh anyFds PathsCanonical hssh hssh (pathsCanonical_default hssh)
    (pathsCanonical_confine hssh)
  cases i with
  | setConfinePath path => exact Calls.Safe.mono (hset path).1 (fun _ _ => trivial) fun _ h => h
  | setDefaultPath path => exact Calls.Safe.mono (hset path).2 (fun _ _ => trivial) fun _ h => h
  | request type reqId data =>
    apply Calls.Safe.bind
    · exact (recvDo_program hssh type reqId data).descriptors.mono (fun _ _ => trivial)
        fun _ h => h
    · exact fun _ h => Calls.Safe.pure h

def Server.Canonical (s : Server) : Prop := PathsCanonical s.ssh

theorem Server.step_canonical {s : Server} (hs : s.Canonical) (i : Input) :
    (s.step b env i).Canonical := by
  obtain ⟨_, -, h, -⟩ := Calls.Does.run (serve_tidy hs i) (fun _ _ => trivial) s.trace
  exact h

theorem Server.run_canonical (inputs : List Input) :
    ∀ s ∈ Runs.states (Server.step b env) .start inputs, s.Canonical := by
  have hstart : Server.start.Canonical := ⟨nofun, nofun⟩
  have hall : Runs.Meets (Server.step b env) (fun _ _ => True) .start inputs := fun _ _ => trivial
  have hkeep : ∀ (s : Server) (i : Input), s.Canonical → True → (s.step b env i).Canonical :=
    fun s i hs _ => Server.step_canonical hs i
  exact @Runs.invariant _ _ _ _ Server.Canonical hkeep _ hstart _ hall

def Input.names : Input → List Bytes
  | .setConfinePath _ | .setDefaultPath _ => []
  | .request type _ data => requestNames type data

theorem serve_confined {ssh : Session} {root : CanonicalPath} (hssh : PathsCanonical ssh)
    (hroot : ssh.sftpConfinePath = some root.render) (hne : root.comps ≠ []) (i : Input) :
    Calls.Does anyAnswer (fun _ new => Confined b ssh root i.names new) (serve b ssh i) := by
  have hquiet : ∀ {m : Sys Session}, Hands [] anyFds PathsCanonical m →
      Calls.Does anyAnswer (fun _ new => Confined b ssh root [] new) m := fun hm =>
    (hm.confined Passed.nil).mono fun _ _ h => h.2
  have hset := @serve_hands b ssh anyFds PathsCanonical hssh hssh (pathsCanonical_default hssh)
    (pathsCanonical_confine hssh)
  cases i with
  | setConfinePath path => exact hquiet (hset path).1
  | setDefaultPath path => exact hquiet (hset path).2
  | request type reqId data =>
    apply ((recvDo_program hssh type reqId data).confined hssh hroot hne Passed.nil).bind
    rintro r new ⟨-, hnew⟩
    apply Calls.Does.pure
    rw [List.append_nil]
    exact hnew

/-- In every run, a request of a session confined below the root of the file system hands out only
paths in the tree of the confinement root, free of links that the probes could see, and a request
with a name that fails the check touches no file. -/
theorem requests_confined (b : Build) (env : Env) (inputs : List Input) {s : Server} {i : Input}
    (hstep : (s, i) ∈ Runs.steps (Server.step b env) .start inputs) {root : CanonicalPath}
    (hroot : s.ssh.sftpConfinePath = some root.render) (hne : root.comps ≠ []) :
    Confined b s.ssh root i.names (s.calls b env i) := by
  have hssh := Server.run_canonical (b := b) inputs s (Runs.mem_states_of_mem_steps hstep)
  obtain ⟨new, htrace, hnew⟩ :=
    (serve_confined (b := b) hssh hroot hne i).run
      (fun h c => (trivial : anyAnswer c (env h c))) s.trace
  have hcalls : s.calls b env i = new := by
    rw [Server.calls, Server.step]
    dsimp only
    rw [htrace, List.drop_left]
  rw [hcalls]
  exact hnew

/-- A file system of files where no path is a link and every call succeeds. -/
def plainEnv : Env := fun _ c =>
  match c with
  | .isSymlink _ => false
  | .getcwd | .longName _ _ => some (ascii "/home")
  | .stat _ | .lstat _ | .entryLstat _ | .fstat _ => .ok { per := perFile }
  | .openFile _ _ _ | .opendir _ => .ok 3
  | .unlink _ | .link _ _ | .rename _ _ => .ok ()
  | .readdir _ => .done
  | .closedir _ => ()
  | .pread _ _ _ _ => some []
  | .pwrite _ _ _ _ | .write _ _ => (0 : Int)
  | .malloc _ | .rmdir _ | .mkdir _ _ | .truncate _ _ | .chown _ _ _ | .chmod _ _ | .utimes _ _ _
  | .close _ | .ftruncate _ _ | .fchown _ _ _ | .fchmod _ _ | .futimes _ _ _ => true

/-- The root of the confined session below. -/
def jail : CanonicalPath := ⟨[ascii "srv", ascii "ftp"], by decide +kernel⟩

def jailedServer : Server := Server.start.step {} plainEnv (.setConfinePath (ascii "/srv/ftp/"))

/-- A request to remove `/srv/ftp/x/../y`. -/
def rmdirRequest : Input :=
  .request 15 7 (c32toa 15 ++ ascii "/srv/ftp/x/../y")

theorem requests_confined_rmdir :
    Confined {} jailedServer.ssh jail rmdirRequest.names
        (jailedServer.calls {} plainEnv rmdirRequest) ∧
      (jailedServer.calls {} plainEnv rmdirRequest).map (fun e => e.1) =
        [.isSymlink (ascii "/srv/ftp/y"), .rmdir (ascii "/srv/ftp/y"), .malloc 45] := by
  have hstep : (jailedServer, rmdirRequest) ∈ Runs.steps (Server.step {} plainEnv) .start
      [.setConfinePath (ascii "/srv/ftp/"), rmdirRequest] :=
    List.mem_cons_of_mem _ List.mem_cons_self
  have hroot : jailedServer.ssh.sftpConfinePath = some jail.render := by decide +kernel
  refine ⟨requests_confined {} plainEnv _ hstep hroot (by decide), ?_⟩
  decide +kernel

end Run

end Sftp

end WolfSsh
