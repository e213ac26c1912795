import WolfSsh.ScpRecvDirs
import WolfSsh.Lib.Runs

/-! Confinement of the SCP sink: the default receive callback works in the directories that the peer
entered below the base path, and nowhere else. -/

namespace WolfSsh.Scp

section Callback

variable {b : ScpBuild} {base name : Bytes} {stack after : List Bytes} {s : RecvState}
  {h : List ScpEvent} {c : CbCall}

/-- The callback went on in the directory of `after`, or stayed in that of `stack` and refused. -/
def Answered (b : ScpBuild) (base : Bytes) (stack after : List Bytes) (r : RecvState × Confirm)
    (h : List ScpEvent) : Prop :=
  (r.2 = .cont ∧ Standing b base after r.1 h) ∨ (r.2 = .abort ∧ Standing b base stack r.1 h)

theorem callback_newDir (hs : Standing b base stack s h) (hstate : c.state = .newDir)
    (hfile : c.fileName = some name) (hname : admittedName name = true) :
    Reaches base stack name (Answered b base stack (name :: stack)) (wsScpRecvCallback b s c) h := by
  have hlen : 0 < name.length := List.length_pos_iff.mpr (admittedName_iff.mp hname).1.1
  rw [wsScpRecvCallback, hstate]
  dsimp only
  rw [hfile, Option.getD_some, if_pos hlen]
  apply (scpRecvDirEnter_reaches hs hname c.fileMode).bind
  rintro ⟨s', r⟩ h' hpost
  cases r with
  | error e => exact Calls.Guards.pure (Or.inr ⟨rfl, hpost⟩)
  | ok => exact Calls.Guards.pure (Or.inl ⟨rfl, hpost⟩)

theorem callback_endDir (hs : Standing b base stack s h) (hstate : c.state = .endDir) :
    Reaches base stack name (fun r h' => Answered b base stack stack.tail r h' ∧
      (stack = [] → r.2 = .abort)) (wsScpRecvCallback b s c) h := by
  rw [wsScpRecvCallback, hstate]
  dsimp only
  by_cases hstack : stack = []
  · rw [if_pos (by rw [hs.depth, hstack]; rfl)]
    exact Calls.Guards.pure ⟨Or.inr ⟨rfl, hs⟩, fun _ => rfl⟩
  · rw [if_neg (by rw [hs.depth]; exact fun hzero => hstack (List.length_eq_zero_iff.mp hzero))]
    apply (scpRecvDirLeave_reaches hs hstack).bind
    rintro ⟨s', r⟩ h' hpost
    cases r with
    | error e => exact Calls.Guards.pure ⟨Or.inr ⟨rfl, hpost⟩, fun _ => rfl⟩
    | ok => exact Calls.Guards.pure ⟨Or.inl ⟨rfl, hpost⟩, fun hnil => absurd hnil hstack⟩

theorem callback_newFile (hs : Standing b base stack s h) (hstate : c.state = .newFile)
    (hfile : c.fileName = some name) (hname : admittedName name = true) :
    Reaches base stack name (Answered b base stack stack) (wsScpRecvCallback b s c) h := by
  rw [wsScpRecvCallback, hstate]
  dsimp only
  rw [hfile, Option.getD_some]
  apply (scpRecvFileOpen_reaches hs hname).bind
  rintro ⟨s', r⟩ h' hpost
  cases r with
  | error e => exact Calls.Guards.pure (Or.inr ⟨rfl, hpost⟩)
  | ok fp =>
    exact Calls.Guards.pure (Or.inl ⟨rfl, hpost.path, hpost.baseSz, hpost.depth, hpost.names,
      hpost.dirFd, hpost.records⟩)

theorem callback_filePart (hs : Standing b base stack s h) (hstate : c.state = .filePart) :
    Reaches base stack name (Answered b base stack stack) (wsScpRecvCallback b s c) h := by
  rw [wsScpRecvCallback, hstate]
  dsimp only
  cases s.scpRecvCtx with
  | none => exact Calls.Guards.pure (Or.inr ⟨rfl, hs⟩)
  | some fp =>
    have hwritten : ∀ (bytes : Nat) (h' : List ScpEvent), places h' = places h →
        Reaches base stack name (Answered b base stack stack)
          (if bytes ≠ c.buf.length then do
            wfclose fp
            return (s, .abort)
          else return (s, .cont)) h' := by
      intro bytes h' hplaces
      refine Calls.Guards.ite (fun _ => ?_) fun _ => ?_
      · refine Reaches.still (c := ScpCall.fclose fp) (fun _ => trivial) (fun _ _ => rfl) ?_
        intro _ h'' hplaces'
        exact Calls.Guards.pure (Or.inr ⟨rfl, hs.congr (hplaces'.trans hplaces)⟩)
      · exact Calls.Guards.pure (Or.inl ⟨rfl, hs.congr hplaces⟩)
    dsimp only
    by_cases hbuf : c.buf ≠ []
    · rw [writePart, if_pos hbuf]
      exact Reaches.still (c := ScpCall.fwrite fp c.buf) (fun _ => trivial) (fun _ _ => rfl)
        hwritten
    · rw [writePart, if_neg hbuf]
      exact hwritten 0 h rfl

theorem closeFile_reaches (fp : Option Nat) :
    Reaches base stack name (fun _ h' => places h' = places h) (closeFile b fp c) h := by
  cases fp with
  | none => exact Calls.Guards.pure rfl
  | some fp =>
    have hclosed : ∀ (set : Bool) (h' : List ScpEvent), places h' = places h →
        Reaches base stack name (fun _ h'' => places h'' = places h) (do
          wfclose fp
          return set) h' := by
      intro set h' hplaces
      refine Reaches.still (c := ScpCall.fclose fp) (fun _ => trivial) (fun _ _ => rfl) ?_
      intro _ h'' hplaces'
      exact Calls.Guards.pure (hplaces'.trans hplaces)
    rw [closeFile, timesByFd]
    by_cases hset : (b.fdUtimes && timed c) = true
    · rw [if_pos hset]
      exact Reaches.still (c := ScpCall.futimes fp c.mTime c.aTime) (fun _ => trivial)
        (fun _ _ => rfl) hclosed
    · rw [if_neg hset]
      exact hclosed true h rfl

theorem timesByPath_reaches (hs : Standing b base stack s h) (hfile : c.fileName = some name)
    (hname : admittedName name = true) :
    Reaches base stack name (fun r h' => Standing b base stack r.1 h') (timesByPath s c) h := by
  rw [timesByPath, hfile, Option.getD_some]
  rcases join_cases hs name with hjoin | hjoin
  · rw [hjoin]
    exact Calls.Guards.pure hs
  · rw [hjoin]
    refine Reaches.still (c := ScpCall.utimes _ _ _) (fun _ => ⟨rfl, hname⟩) (fun _ _ => rfl) ?_
    intro set h' hplaces
    rw [up_joined hs hname]
    exact Calls.Guards.pure (hs.congr hplaces)

theorem answered_verdict (ok : Bool) {r : RecvState} (hs : Standing b base stack r h) :
    Answered b base stack stack (r, verdict ok) h := by
  cases ok with
  | false => exact Or.inr ⟨rfl, hs⟩
  | true => exact Or.inl ⟨rfl, hs⟩

theorem callback_fileDone (hs : Standing b base stack s h) (hstate : c.state = .fileDone)
    (hfile : c.fileName = some name) (hname : admittedName name = true) :
    Reaches base stack name (Answered b base stack stack) (wsScpRecvCallback b s c) h := by
  rw [wsScpRecvCallback, hstate]
  apply (closeFile_reaches s.scpRecvCtx).bind
  intro ok h' hplaces
  have hs' := hs.congr hplaces
  refine Calls.Guards.ite (fun _ => ?_) fun _ => Calls.Guards.pure (Or.inl ⟨rfl, hs'⟩)
  refine Calls.Guards.ite (fun _ => Calls.Guards.pure (answered_verdict ok hs')) fun _ => ?_
  apply (timesByPath_reaches hs' hfile hname).bind
  rintro ⟨s', set⟩ h'' hs''
  exact Calls.Guards.pure (answered_verdict set hs'')

/-- What the callback of a new request leaves. -/
def Opened (b : ScpBuild) (base : Bytes) (r : RecvState × Confirm) (h : List ScpEvent) : Prop :=
  (r.2 = .cont ∧ Standing b base [] r.1 h) ∨ (r.2 = .abort ∧ r.1.scpRecvPath = none)

theorem scpRecvPathFree_reaches (s : RecvState) :
    Reaches base [] name (fun r _ => r.scpRecvPath = none ∧ r.scpRecvDirs = [])
      (scpRecvPathFree s) h := by
  rw [scpRecvPathFree, closeDirFd]
  cases s.scpRecvDirFd with
  | none => exact Calls.Guards.pure ⟨rfl, rfl⟩
  | some fd =>
    refine Calls.Guards.call (c := ScpCall.close fd) (fun _ _ => trivial) fun _ _ => ?_
    exact Calls.Guards.pure ⟨rfl, rfl⟩

theorem opened_abort (s : RecvState) :
    Reaches base [] name (Opened b base) (do
      let s ← scpRecvPathFree s
      return (s, .abort)) h := by
  apply (scpRecvPathFree_reaches s).bind
  intro s' h' hs'
  exact Calls.Guards.pure (Or.inr ⟨rfl, hs'.1⟩)

theorem scpRecvDirOpen_reaches (hpath : s.scpRecvPath = some base) (hsz : s.scpRecvBaseSz = base.length)
    (hdirs : s.scpRecvDirs = []) :
    Reaches base [] name (fun r h' => r.2 = .ok () →
      Standing b base [] { r.1 with scpDirDepth := 0 } h') (scpRecvDirOpen b s) h := by
  rw [scpRecvDirOpen, hpath, Option.getD_some]
  have hplain : ∀ h', b.haveDirFd = false →
      Standing b base [] { s with scpDirDepth := 0 } h' := by
    intro h' hdir
    refine ⟨hpath, hsz, rfl, by simp, ?_, ?_⟩
    · intro hdir'
      rw [hdir] at hdir'
      cases hdir'
    · intro hdir'
      rw [hdir] at hdir'
      cases hdir'
  refine Calls.Guards.ite (fun hdir => ?_) fun hdir => ?_
  · refine Calls.Guards.call (c := ScpCall.openDir base) (fun _ _ => ⟨rfl, rfl⟩) ?_
    intro r _
    cases r with
    | none => exact Calls.Guards.pure nofun
    | some fd =>
      have hput : places (h ++ [⟨ScpCall.openDir base, some fd⟩]) =
          (places h).put fd (some (.dir [])) := places_concat _ _
      refine Reaches.still (c := ScpCall.searchable fd) (fun _ => trivial) (fun _ _ => rfl) ?_
      intro (searchable : Bool) h' hplaces
      cases searchable with
      | true =>
        refine Calls.Guards.pure fun _ => ⟨rfl, hsz, rfl, by simp, ?_, ?_⟩
        · intro _
          refine ⟨fd, rfl, ?_⟩
          rw [hplaces, hput, Places.put_place]
        · intro _
          exact hdirs
      | false =>
        refine Calls.Guards.call (c := ScpCall.close fd) (fun _ _ => trivial) fun _ _ => ?_
        exact Calls.Guards.pure nofun
  · refine Calls.Guards.ite (fun _ => ?_) fun _ => ?_
    · refine Reaches.still (c := ScpCall.isDirNoFollow base) (fun _ => Or.inr ⟨rfl, rfl⟩)
        (fun _ _ => rfl) ?_
      intro (dir : Bool) h' _
      cases dir with
      | true => exact Calls.Guards.pure fun _ => hplain h' (by simpa using hdir)
      | false => exact Calls.Guards.pure nofun
    · exact Calls.Guards.pure fun _ => hplain h (by simpa using hdir)

theorem callback_newRequest (s : RecvState) (hstate : c.state = .newRequest)
    (hbase : c.basePath = base) :
    Reaches base [] name (Opened b base) (wsScpRecvCallback b s c) h := by
  rw [wsScpRecvCallback, hstate]
  dsimp only
  have hset : Reaches base [] name (fun r _ => r.2 = .ok () → r.1.scpRecvPath = some base ∧
      r.1.scpRecvBaseSz = base.length ∧ r.1.scpRecvDirs = []) (scpRecvPathSet s c.basePath) h := by
    rw [scpRecvPathSet, hbase]
    apply (scpRecvPathFree_reaches s).bind
    intro s' h' hs'
    refine Calls.Guards.ite (fun _ => Calls.Guards.pure nofun) fun _ => ?_
    refine Calls.Guards.call (c := ScpCall.malloc _) (fun _ _ => trivial) ?_
    intro (stored : Bool) _
    cases stored with
    | true => exact Calls.Guards.pure fun _ => ⟨rfl, rfl, hs'.2⟩
    | false => exact Calls.Guards.pure nofun
  apply hset.bind
  rintro ⟨s', r⟩ h' hpost
  cases r with
  | error e => exact opened_abort s'
  | ok =>
    obtain ⟨hpath, hsz, hdirs⟩ := hpost rfl
    apply (scpRecvDirOpen_reaches hpath hsz hdirs).bind
    rintro ⟨s'', r⟩ h'' hpost'
    cases r with
    | error e => exact opened_abort s''
    | ok => exact Calls.Guards.pure (Or.inl ⟨rfl, hpost' rfl⟩)

end Callback

/-- The calls of the sink, served by the default receive callback and a transport that answers the
confirmation by `tx`. -/
def serve (b : ScpBuild) (tx : Tx) (s : RecvState) : (c : SinkCall) → ScpSys (c.Ans × RecvState)
  | .callback c => do
    let (s, confirm) ← wsScpRecvCallback b s c
    return (confirm, s)
  | .confirm _ => return (tx, s)

/-- The line that a drive of the sink completes. -/
def lineOf (s : Sink) : SinkInput → Option Bytes
  | .arrive _ => none
  | .drive rx _ =>
    if s.failed = none ∧ s.scpState = .receiveMessage then
      let msg := s.scpRecvMsg.getD []
      match readChannel s (defaultScpMsgSz - msg.length) rx with
      | .got bs _ => if (msg ++ bs).getLast? = some newline then some (msg ++ bs) else none
      | _ => none
    else none

/-- The message of a line that was answered with a success. -/
def accepted (line : Option Bytes) (s : Sink) : List Ctl :=
  if s.failed = none ∧ s.scpConfirm ≠ .abort then (line.bind control).toList else []

/-- The session with all that its callback called and the messages that it accepted. -/
structure Receiver where
  sink : Sink
  recv : RecvState := {}
  trace : List ScpEvent := []
  log : List Ctl := []

def Receiver.step (b : ScpBuild) (env : ScpEnv) (r : Receiver) (i : SinkInput × Tx) : Receiver :=
  let out := Calls.run env (Calls.via (serve b i.2) (sinkStep r.sink i.1) r.recv) r.trace
  { sink := out.1.1, recv := out.1.2, trace := out.2
    log := r.log ++ accepted (lineOf r.sink i.1) out.1.1 }

def Receiver.calls (b : ScpBuild) (env : ScpEnv) (r : Receiver) (i : SinkInput × Tx) :
    List ScpEvent :=
  (r.step b env i).trace.drop r.trace.length

/-- What the messages so far entered: the name of the command that the next message takes, the
directories that are not left, the innermost first, and the name of the last message. -/
structure Entered where
  rename : Option Bytes
  stack : List Bytes := []
  current : Bytes := []

def Entered.after (e : Entered) : Ctl → Option Entered
  | .dir name => some ⟨none, e.rename.getD name :: e.stack, e.rename.getD name⟩
  | .file name => some ⟨none, e.stack, e.rename.getD name⟩
  | .endDir =>
    match e.stack with
    | [] => none
    | _ :: stack => some { e with stack := stack }
  | .time => some e

/-- The name that a message works on, and the one that a step does. -/
def Entered.named (e : Entered) : Ctl → Bytes
  | .dir name | .file name => e.rename.getD name
  | .endDir | .time => e.current

def Entered.nameAt (e : Entered) (line : Option Bytes) : Bytes :=
  ((line.bind control).map e.named).getD e.current

/-- The sink goes no further: it failed, or an abort is to be confirmed. -/
def Sink.Ended (s : Sink) : Prop :=
  s.failed ≠ none ∨ s.scpState = .sendConfirmation ∧ s.scpConfirm = .abort

/-- The name of the command is pending in the header. -/
def Pending (h : Header) (e : Entered) : Prop :=
  if h.scpFileReName then
    ∃ name, h.scpFileName = some name ∧ e.rename = some name ∧ admittedName name = true
  else e.rename = none

/-- The name of the file is at hand while it is received. -/
def InFile (s : Sink) (e : Entered) : Prop :=
  s.scpState = .receiveFile ∨ s.scpState = .sendConfirmation ∧ s.scpNextState = .receiveFile →
    s.scpFileName = some e.current ∧ admittedName e.current = true

inductive Phase (b : ScpBuild) (base : Bytes) (r : Receiver) (e : Entered) : Prop
  | before (hstate : r.sink.scpState = .sinkBegin) (hlog : r.log = [])
      (hpending : Pending r.sink.toHeader e) (hstack : e.stack = [])
  | closed (hended : r.sink.Ended) (hpath : r.recv.scpRecvPath = none) (hlog : r.log = [])
  | ended (hended : r.sink.Ended) (hs : Standing b base e.stack r.recv r.trace)
  | running (hstate : r.sink.scpState ≠ .sinkBegin) (hnext : r.sink.scpNextState ≠ .sinkBegin)
      (hconfirm : r.sink.scpConfirm ≠ .abort) (hpending : Pending r.sink.toHeader e)
      (hfile : InFile r.sink e)
      (hs : Standing b base e.stack r.recv r.trace)

structure Follows (b : ScpBuild) (base : Bytes) (start : Entered) (r : Receiver) (e : Entered) :
    Prop where
  entered : r.log.foldlM Entered.after start = some e
  basePath : r.sink.scpBasePath = base
  phase : Phase b base r e

/-- What a step that completes `line` leaves of a receiver with the messages `log`. -/
def Leaves (b : ScpBuild) (base : Bytes) (start : Entered) (log : List Ctl) (line : Option Bytes)
    (p : Sink × RecvState) (h : List ScpEvent) : Prop :=
  ∃ e, Follows b base start ⟨p.1, p.2, h, log ++ accepted line p.1⟩ e

section Step

variable {b : ScpBuild} {base name : Bytes} {start e : Entered} {stack : List Bytes} {s : Sink}
  {recv : RecvState} {h : List ScpEvent} {log : List Ctl} {line : Option Bytes} {tx : Tx}

theorem served_callback {c : CbCall} {f : Confirm → SinkSys Sink}
    {mid : RecvState × Confirm → List ScpEvent → Prop}
    {post : Sink × RecvState → List ScpEvent → Prop}
    (hc : Reaches base stack name mid (wsScpRecvCallback b recv c) h)
    (hf : ∀ recv' confirm h', mid (recv', confirm) h' →
      Reaches base stack name post (Calls.via (serve b tx) (f confirm) recv') h') :
    Reaches base stack name post
      (Calls.via (serve b tx) ((Calls.ask (SinkCall.callback c) : SinkSys Confirm) >>= f) recv)
      h := by
  change Reaches base stack name post
    (serve b tx recv (.callback c) >>= fun p => Calls.via (serve b tx) (f p.1) p.2) h
  apply Calls.Guards.bind
  · apply hc.bind
    rintro ⟨recv', confirm⟩ h' hmid
    exact @Calls.Guards.pure _ _ _ _ _ (fun p h' => mid (p.2, p.1) h') (confirm, recv') h' hmid
  · rintro ⟨confirm, recv'⟩ h' hmid
    exact hf recv' confirm h' hmid

theorem accepted_refused (hs : s.failed ≠ none ∨ s.scpConfirm = .abort) : accepted line s = [] := by
  rw [accepted, if_neg]
  rintro ⟨hfailed, hconfirm⟩
  rcases hs with hs | hs
  · exact hs hfailed
  · exact hconfirm hs

theorem Sink.Ended.accepted (hs : s.Ended) : accepted line s = [] :=
  accepted_refused (hs.imp_right And.right)

@[simp] theorem accepted_none : accepted none s = [] := by simp [accepted]

theorem Leaves.ended (he : log.foldlM Entered.after start = some e) (hbase : s.scpBasePath = base)
    (hended : s.Ended) (hs : Standing b base e.stack recv h) :
    Leaves b base start log line (s, recv) h := by
  refine ⟨e, ?_, hbase, .ended hended hs⟩
  rw [hended.accepted, List.append_nil]
  exact he

theorem Leaves.running (he : log.foldlM Entered.after start = some e) (hbase : s.scpBasePath = base)
    (hstate : s.scpState ≠ .sinkBegin) (hnext : s.scpNextState ≠ .sinkBegin)
    (hconfirm : s.scpConfirm ≠ .abort) (hpending : Pending s.toHeader e) (hfile : InFile s e)
    (hs : Standing b base e.stack recv h) : Leaves b base start log none (s, recv) h := by
  refine ⟨e, ?_, hbase, .running hstate hnext hconfirm hpending hfile hs⟩
  rw [accepted_none, List.append_nil]
  exact he

theorem Leaves.accept {ctl : Ctl} {e' : Entered} (he : log.foldlM Entered.after start = some e)
    (hline : line.bind control = some ctl) (hafter : e.after ctl = some e')
    (hbase : s.scpBasePath = base) (hfailed : s.failed = none) (hstate : s.scpState ≠ .sinkBegin)
    (hnext : s.scpNextState ≠ .sinkBegin) (hconfirm : s.scpConfirm ≠ .abort)
    (hpending : Pending s.toHeader e') (hfile : InFile s e') (hs : Standing b base e'.stack recv h) :
    Leaves b base start log line (s, recv) h := by
  refine ⟨e', ?_, hbase, .running hstate hnext hconfirm hpending hfile hs⟩
  rw [accepted, if_pos ⟨hfailed, hconfirm⟩, hline, Option.toList_some, List.foldlM_append, he]
  change (e.after ctl >>= fun e => pure e) = some e'
  rw [hafter]
  rfl

theorem Pending.given {hd hd' : Header} (hp : Pending hd e) (hn : Names hd name hd') :
    hd'.scpFileReName = false ∧ hd'.scpFileName = some (e.rename.getD name) ∧
      admittedName (e.rename.getD name) = true := by
  obtain ⟨hre, hname⟩ := hn
  rw [Pending] at hp
  by_cases hpend : hd.scpFileReName = true
  · rw [if_pos hpend] at hp hname
    obtain ⟨given, hgiven, hrename, hadm⟩ := hp
    rw [hname, hrename]
    exact ⟨hre, hgiven, hadm⟩
  · rw [if_neg hpend] at hp hname
    rw [hp]
    exact ⟨hre, hname⟩

theorem pending_none {hd : Header} {stack : List Bytes} {current : Bytes}
    (hre : hd.scpFileReName = false) : Pending hd ⟨none, stack, current⟩ := by
  rw [Pending, if_neg (by rw [hre]; exact nofun)]

theorem Pending.congr {hd hd' : Header} {e' : Entered} (hp : Pending hd e)
    (hname : hd'.scpFileName = hd.scpFileName) (hre : hd'.scpFileReName = hd.scpFileReName)
    (hrename : e'.rename = e.rename) : Pending hd' e' := by
  rw [Pending, hname, hre, hrename]
  exact hp

theorem messageReceived_leaves {ctl : Ctl} {hd : Header}
    (he : log.foldlM Entered.after start = some e) (hbase : s.scpBasePath = base)
    (hfailed : s.failed = none) (hconfirm : s.scpConfirm ≠ .abort)
    (hs : Standing b base e.stack recv h) (hline : line.bind control = some ctl)
    (hp : Pending hd e) (htakes : Takes hd s.toHeader ctl) :
    Reaches base e.stack (e.nameAt line) (Leaves b base start log line)
      (Calls.via (serve b tx) (messageReceived s) recv) h := by
  rw [Entered.nameAt, hline, Option.map_some, Option.getD_some, messageReceived]
  cases ctl with
  | dir name =>
    obtain ⟨htype, hnames⟩ := htakes
    obtain ⟨hre, hname, hadm⟩ := hp.given hnames
    rw [htype]
    apply served_callback (callback_newDir hs rfl hname hadm)
    rintro recv' confirm h' (⟨rfl, hs'⟩ | ⟨rfl, hs'⟩)
    · exact Leaves.accept he hline rfl hbase hfailed nofun nofun nofun (pending_none hre)
        (by rintro (hstate | ⟨-, hstate⟩) <;> cases hstate) hs'
    · exact Leaves.ended he hbase (Or.inr ⟨rfl, rfl⟩) hs'
  | endDir =>
    obtain ⟨htype, hstate, hname, hre⟩ := htakes
    rw [htype]
    apply served_callback (callback_endDir hs hstate)
    rintro recv' confirm h' ⟨⟨rfl, hs'⟩ | ⟨rfl, hs'⟩, hnil⟩
    · obtain ⟨d, rest, hstack⟩ := List.exists_cons_of_ne_nil fun hstack => by
        cases hnil hstack
      have hafter : e.after .endDir = some { e with stack := rest } := by
        rw [Entered.after, hstack]
      rw [hstack] at hs'
      exact Leaves.accept he hline hafter hbase hfailed nofun nofun nofun (hp.congr hname hre rfl)
        (by rintro (hstate | ⟨-, hstate⟩) <;> cases hstate) hs'
    · exact Leaves.ended he hbase (Or.inr ⟨rfl, rfl⟩) hs'
  | file name =>
    obtain ⟨htype, hnames⟩ := htakes
    obtain ⟨hre, hname, hadm⟩ := hp.given hnames
    rw [htype]
    apply served_callback (callback_newFile hs rfl hname hadm)
    rintro recv' confirm h' (⟨rfl, hs'⟩ | ⟨rfl, hs'⟩)
    · exact Leaves.accept he hline rfl hbase hfailed nofun nofun nofun (pending_none hre)
        (fun _ => ⟨hname, hadm⟩) hs'
    · exact Leaves.ended he hbase (Or.inr ⟨rfl, rfl⟩) hs'
  | time =>
    obtain ⟨htype, hname, hre⟩ := htakes
    rw [htype]
    exact Leaves.accept he hline rfl hbase hfailed nofun nofun hconfirm (hp.congr hname hre rfl)
      (by rintro (hstate | ⟨-, hstate⟩) <;> cases hstate) hs

theorem Follows.fail {s' : Sink} (hf : Follows b base start ⟨s, recv, h, log⟩ e)
    (hstate : s.scpState ≠ .sinkBegin) (hbase : s'.scpBasePath = s.scpBasePath)
    (hfailed : s'.failed ≠ none) : Leaves b base start log line (s', recv) h := by
  have hended : s'.Ended := Or.inl hfailed
  refine ⟨e, ?_, hbase.trans hf.basePath, ?_⟩
  · rw [hended.accepted, List.append_nil]
    exact hf.entered
  · cases hf.phase with
    | before hbegin => exact absurd hbegin hstate
    | closed _ hpath hlog =>
      refine .closed hended hpath ?_
      rw [hended.accepted, List.append_nil]
      exact hlog
    | ended _ hs => exact .ended hended hs
    | running _ _ _ _ _ hs => exact .ended hended hs

theorem Follows.quiet {s' : Sink} (hf : Follows b base start ⟨s, recv, h, log⟩ e)
    (hheader : s'.toHeader = s.toHeader) (hstate : s'.scpState = s.scpState)
    (hnext : s'.scpNextState = s.scpNextState) (hconfirm : s'.scpConfirm = s.scpConfirm)
    (hbase : s'.scpBasePath = s.scpBasePath) (hfailed : s'.failed = s.failed) :
    Leaves b base start log none (s', recv) h := by
  have hlog : log ++ accepted none s' = log := by rw [accepted_none, List.append_nil]
  have hended : s.Ended → s'.Ended := by
    rw [Sink.Ended, Sink.Ended, hfailed, hstate, hconfirm]
    exact id
  refine ⟨e, by rw [hlog]; exact hf.entered, hbase.trans hf.basePath, ?_⟩
  cases hf.phase with
  | before hbegin hnil hpending hstack =>
    exact .before (hstate.trans hbegin) (hlog.trans hnil) (by rw [hheader]; exact hpending) hstack
  | closed hend hpath hnil => exact .closed (hended hend) hpath (hlog.trans hnil)
  | ended hend hs => exact .ended (hended hend) hs
  | running hbegin hreturn habort hpending hfile hs =>
    refine .running (by rw [hstate]; exact hbegin) (by rw [hnext]; exact hreturn)
      (by rw [hconfirm]; exact habort) (by rw [hheader]; exact hpending) ?_ hs
    rw [InFile, hstate, hnext, hheader]
    exact hfile

theorem sinkBegin_leaves (hf : Follows b base start ⟨s, recv, h, log⟩ e)
    (hstate : s.scpState = .sinkBegin) (hfailed : s.failed = none) :
    Reaches base e.stack name (Leaves b base start log none)
      (Calls.via (serve b tx) (sinkBegin s) recv) h := by
  have hbase : s.scpBasePath = base := hf.basePath
  have hended : ¬ s.Ended := by
    rintro (hend | ⟨hend, -⟩)
    · exact hend hfailed
    · rw [hstate] at hend
      cases hend
  cases hf.phase with
  | closed hend => exact absurd hend hended
  | ended hend => exact absurd hend hended
  | running hbegin => exact absurd hstate hbegin
  | before _ hnil hpending hstack =>
    change log = [] at hnil
    rw [hstack]
    apply served_callback (callback_newRequest recv rfl hbase)
    rintro recv' confirm h' (⟨rfl, hs⟩ | ⟨rfl, hpath⟩)
    · rw [← hstack] at hs
      exact Leaves.running hf.entered hbase nofun nofun nofun hpending
        (by rintro (hstate | ⟨-, hstate⟩) <;> cases hstate) hs
    · refine ⟨e, ?_, hbase, .closed (Or.inr ⟨rfl, rfl⟩) hpath ?_⟩
      · rw [accepted_none, List.append_nil]
        exact hf.entered
      · rw [accepted_none, List.append_nil]
        exact hnil

theorem Follows.running (hf : Follows b base start ⟨s, recv, h, log⟩ e) (hfailed : s.failed = none)
    (hstate : s.scpState ≠ .sinkBegin) (hsend : s.scpState ≠ .sendConfirmation) :
    s.scpNextState ≠ .sinkBegin ∧ s.scpConfirm ≠ .abort ∧ Pending s.toHeader e ∧ InFile s e ∧
      Standing b base e.stack recv h := by
  have hended : ¬ s.Ended := by
    rintro (hend | ⟨hend, -⟩)
    · exact hend hfailed
    · exact hsend hend
  cases hf.phase with
  | before hbegin => exact absurd hbegin hstate
  | closed hend => exact absurd hend hended
  | ended hend => exact absurd hend hended
  | running _ hnext hconfirm hpending hfile hs =>
    exact ⟨hnext, hconfirm, hpending, hfile, hs⟩

theorem sendConfirmation_leaves (hf : Follows b base start ⟨s, recv, h, log⟩ e)
    (hstate : s.scpState = .sendConfirmation) (hfailed : s.failed = none) :
    Reaches base e.stack name (Leaves b base start log none)
      (Calls.via (serve b tx) (sendConfirmation s) recv) h := by
  have hbegin : s.scpState ≠ .sinkBegin := by
    rw [hstate]
    exact nofun
  cases tx with
  | want => exact Calls.Guards.pure (hf.quiet rfl rfl rfl rfl rfl rfl)
  | failed => exact Calls.Guards.pure (hf.fail hbegin rfl nofun)
  | sent =>
    change Reaches base e.stack name (Leaves b base start log none)
      (Calls.via (serve b .sent) (if s.scpConfirm = .abort then pure (s.fail .fatalError)
        else pure { s with scpState := s.scpNextState }) recv) h
    by_cases habort : s.scpConfirm = .abort
    · rw [if_pos habort]
      exact Calls.Guards.pure (hf.fail hbegin rfl nofun)
    · rw [if_neg habort]
      cases hf.phase with
      | before hbegin' => exact absurd hbegin' hbegin
      | closed hend => exact absurd (hend.resolve_left (fun hne => hne hfailed)).2 habort
      | ended hend => exact absurd (hend.resolve_left (fun hne => hne hfailed)).2 habort
      | running _ hnext _ hpending hfile hs =>
        refine Calls.Guards.pure
          (Leaves.running hf.entered hf.basePath hnext hnext habort hpending ?_ hs)
        rintro (hrecv | ⟨hsend, hrecv⟩)
        · exact hfile (Or.inr ⟨hstate, hrecv⟩)
        · exact hfile (Or.inr ⟨hstate, hrecv⟩)

theorem filePart_leaves {buf : Bytes} (hf : Follows b base start ⟨s, recv, h, log⟩ e)
    (hstate : s.scpState = .receiveFile) (hfailed : s.failed = none) :
    Reaches base e.stack e.current (Leaves b base start log none)
      (Calls.via (serve b tx) (filePart s buf) recv) h := by
  have hbegin : s.scpState ≠ .sinkBegin := by
    rw [hstate]
    exact nofun
  obtain ⟨hnext, -, hpending, hfile, hs⟩ := hf.running hfailed hbegin (by rw [hstate]; exact nofun)
  obtain ⟨hname, hadm⟩ := hfile (Or.inl hstate)
  have he := hf.entered
  have hbase : s.scpBasePath = base := hf.basePath
  apply served_callback (callback_filePart hs rfl)
  rintro recv' confirm h' (⟨rfl, hs'⟩ | ⟨rfl, hs'⟩)
  · by_cases hmore : s.scpFileOffset + buf.length < s.scpFileSz
    · dsimp only
      rw [if_neg (by decide), if_pos hmore]
      exact Calls.Guards.pure (Leaves.running he hbase hbegin nofun nofun hpending
        (fun _ => ⟨hname, hadm⟩) hs')
    · dsimp only
      rw [if_neg (by decide), if_neg hmore]
      apply served_callback (callback_fileDone hs' rfl hname hadm)
      rintro recv'' confirm h'' (⟨rfl, hs''⟩ | ⟨rfl, hs''⟩)
      · exact Leaves.running he hbase nofun nofun nofun hpending
          (by rintro (hrecv | ⟨-, hrecv⟩) <;> cases hrecv) hs''
      · exact Leaves.ended he hbase (Or.inr ⟨rfl, rfl⟩) hs''
  · exact Leaves.ended he hbase (Or.inr ⟨rfl, rfl⟩) hs'

theorem receiveFile_leaves {rx : Rx} {alloc : Bool}
    (hf : Follows b base start ⟨s, recv, h, log⟩ e) (hstate : s.scpState = .receiveFile)
    (hfailed : s.failed = none) :
    Reaches base e.stack e.current (Leaves b base start log none)
      (Calls.via (serve b tx) (receiveFile s rx alloc) recv) h := by
  have hbegin : s.scpState ≠ .sinkBegin := by
    rw [hstate]
    exact nofun
  rw [receiveFile]
  dsimp only
  by_cases hsize : min (s.scpFileSz - s.scpFileOffset) defaultScpBufferSz = 0
  · rw [if_pos hsize]
    exact filePart_leaves hf hstate hfailed
  rw [if_neg hsize]
  by_cases halloc : s.scpFileBuffer = false ∧ alloc = false
  · rw [if_pos halloc]
    exact Calls.Guards.pure (hf.fail hbegin rfl nofun)
  rw [if_neg halloc]
  cases readChannel { s with scpFileBuffer := true }
      (min (s.scpFileSz - s.scpFileOffset) defaultScpBufferSz) rx with
  | got bs rest =>
    have hf' : Follows b base start
        ⟨{ s with scpFileBuffer := true, inbuf := rest }, recv, h, log⟩ e := by
      refine ⟨hf.entered, hf.basePath, ?_⟩
      obtain ⟨hnext, hconfirm, hpending, hfile, hs⟩ :=
        hf.running hfailed hbegin (by rw [hstate]; exact nofun)
      exact .running hbegin hnext hconfirm hpending hfile hs
    exact filePart_leaves hf' hstate hfailed
  | empty => exact Calls.Guards.pure (hf.quiet rfl rfl rfl rfl rfl rfl)
  | eof => exact Calls.Guards.pure (hf.fail hbegin rfl nofun)
  | want => exact Calls.Guards.pure (hf.quiet rfl rfl rfl rfl rfl rfl)
  | failed => exact Calls.Guards.pure (hf.fail hbegin rfl nofun)

theorem receiveConfirmation_leaves {rx : Rx} (hf : Follows b base start ⟨s, recv, h, log⟩ e)
    (hstate : s.scpState = .receiveConfirmation) (hfailed : s.failed = none) :
    Reaches base e.stack name (Leaves b base start log none)
      (Calls.via (serve b tx) (receiveConfirmation s rx) recv) h := by
  have hbegin : s.scpState ≠ .sinkBegin := by
    rw [hstate]
    exact nofun
  rw [receiveConfirmation]
  cases readChannel s defaultScpMsgSz rx with
  | got bs rest =>
    dsimp only
    by_cases hzero : bs.getD 0 0 = 0
    · rw [if_pos hzero]
      obtain ⟨hnext, hconfirm, hpending, hfile, hs⟩ :=
        hf.running hfailed hbegin (by rw [hstate]; exact nofun)
      exact Calls.Guards.pure (Leaves.running hf.entered hf.basePath nofun hnext hconfirm hpending
        (by rintro (hrecv | ⟨hrecv, -⟩) <;> cases hrecv) hs)
    · rw [if_neg hzero]
      exact Calls.Guards.pure (hf.fail hbegin rfl nofun)
  | empty => exact Calls.Guards.pure (hf.quiet rfl rfl rfl rfl rfl rfl)
  | eof => exact Calls.Guards.pure (hf.fail hbegin rfl nofun)
  | want => exact Calls.Guards.pure (hf.quiet rfl rfl rfl rfl rfl rfl)
  | failed => exact Calls.Guards.pure (hf.fail hbegin rfl nofun)

theorem readChannel_empty {limit : Nat} {rx : Rx} (hread : readChannel s limit rx = .empty) :
    s.inbuf = [] ∧ rx = .data [] := by
  unfold readChannel at hread
  by_cases hbuf : s.inbuf ≠ []
  · rw [if_pos hbuf] at hread
    cases hread
  · rw [if_neg hbuf] at hread
    refine ⟨not_not.mp hbuf, ?_⟩
    cases rx with
    | data bs =>
      cases bs with
      | nil => rfl
      | cons c cs => cases hread
    | eof => cases hread
    | want => cases hread
    | failed => cases hread

/-- A packet without data is read as a control message: the last one is done again. -/
def Replays (s : Sink) : SinkInput → Prop
  | .drive (.data []) _ => s.scpState = .receiveMessage ∧ s.inbuf = []
  | _ => False

theorem receiveMessage_leaves {rx : Rx} {alloc : Bool}
    (hf : Follows b base start ⟨s, recv, h, log⟩ e) (hstate : s.scpState = .receiveMessage)
    (hfailed : s.failed = none) (hreplay : ¬ Replays s (.drive rx alloc)) :
    Reaches base e.stack (e.nameAt (lineOf s (.drive rx alloc)))
      (Leaves b base start log (lineOf s (.drive rx alloc)))
      (Calls.via (serve b tx) (receiveMessage s rx alloc) recv) h := by
  have hbegin : s.scpState ≠ .sinkBegin := by
    rw [hstate]
    exact nofun
  obtain ⟨hnext, hconfirm, hpending, hfile, hs⟩ :=
    hf.running hfailed hbegin (by rw [hstate]; exact nofun)
  have hfail : ∀ (line : Option Bytes) (s' : Sink), s'.scpBasePath = s.scpBasePath →
      s'.failed ≠ none → Reaches base e.stack (e.nameAt line) (Leaves b base start log line)
        (Calls.via (serve b tx) (Pure.pure s') recv) h :=
    fun _ _ hbase hne => Calls.Guards.pure (hf.fail hbegin hbase hne)
  have hline : lineOf s (.drive rx alloc) =
      match readChannel s (defaultScpMsgSz - (s.scpRecvMsg.getD []).length) rx with
      | .got bs _ =>
        if (s.scpRecvMsg.getD [] ++ bs).getLast? = some newline then
          some (s.scpRecvMsg.getD [] ++ bs)
        else none
      | _ => none := if_pos ⟨hfailed, hstate⟩
  rw [receiveMessage]
  by_cases halloc : s.scpRecvMsg = none ∧ alloc = false
  · rw [if_pos halloc]
    exact hfail _ _ rfl nofun
  rw [if_neg halloc]
  dsimp only
  by_cases hlen : defaultScpMsgSz - 1 ≤ (s.scpRecvMsg.getD []).length
  · rw [if_pos hlen]
    exact hfail _ _ rfl nofun
  rw [if_neg hlen, hline]
  cases hread : readChannel s (defaultScpMsgSz - (s.scpRecvMsg.getD []).length) rx with
  | got bs rest =>
    dsimp only
    rw [lineRead]
    by_cases hend : (s.scpRecvMsg.getD [] ++ bs).getLast? = some newline
    · rw [if_pos hend, if_pos hend]
      cases hparse : parseMessage s.toHeader (terminated (s.scpRecvMsg.getD [] ++ bs)) alloc with
      | mk hd ret =>
        cases ret with
        | error err => exact hfail _ _ rfl nofun
        | ok =>
          obtain ⟨ctl, hctl, htakes⟩ := parseMessage_ok hparse
          exact messageReceived_leaves hf.entered hf.basePath hfailed hconfirm hs hctl hpending
            htakes
    · rw [if_neg hend, if_neg hend]
      exact Calls.Guards.pure (hf.quiet rfl rfl rfl rfl rfl rfl)
  | empty =>
    obtain ⟨hbuf, rfl⟩ := readChannel_empty hread
    exact absurd ⟨hstate, hbuf⟩ hreplay
  | eof =>
    exact Calls.Guards.pure (Leaves.running hf.entered hf.basePath nofun hnext hconfirm hpending
      (by rintro (hrecv | ⟨hrecv, -⟩) <;> cases hrecv) hs)
  | want => exact Calls.Guards.pure (hf.quiet rfl rfl rfl rfl rfl rfl)
  | failed => exact hfail none _ rfl nofun

theorem lineOf_none {i : SinkInput} (h : s.failed ≠ none ∨ s.scpState ≠ .receiveMessage) :
    lineOf s i = none := by
  cases i with
  | arrive bs => rfl
  | drive rx alloc =>
    refine if_neg ?_
    rintro ⟨hfailed, hstate⟩
    rcases h with h | h
    · exact h hfailed
    · exact h hstate

theorem sinkStep_leaves {i : SinkInput} (hf : Follows b base start ⟨s, recv, h, log⟩ e)
    (hreplay : ¬ Replays s i) :
    Reaches base e.stack (e.nameAt (lineOf s i)) (Leaves b base start log (lineOf s i))
      (Calls.via (serve b tx) (sinkStep s i) recv) h := by
  cases i with
  | arrive bs => exact Calls.Guards.pure (hf.quiet rfl rfl rfl rfl rfl rfl)
  | drive rx alloc =>
    rw [sinkStep, doScpSink]
    by_cases hfailed : s.failed ≠ none
    · rw [if_pos hfailed, lineOf_none (Or.inl hfailed)]
      exact Calls.Guards.pure (hf.quiet rfl rfl rfl rfl rfl rfl)
    have hnone := not_not.mp hfailed
    have hline : s.scpState ≠ .receiveMessage → lineOf s (.drive rx alloc) = none :=
      fun hne => lineOf_none (Or.inr hne)
    rw [if_neg hfailed]
    cases hstate : s.scpState with
    | sinkBegin =>
      rw [hline (by rw [hstate]; exact nofun)]
      exact sinkBegin_leaves hf hstate hnone
    | receiveMessage => exact receiveMessage_leaves hf hstate hnone hreplay
    | sendConfirmation =>
      rw [hline (by rw [hstate]; exact nofun)]
      exact sendConfirmation_leaves hf hstate hnone
    | receiveFile =>
      rw [hline (by rw [hstate]; exact nofun)]
      exact receiveFile_leaves hf hstate hnone
    | receiveConfirmation =>
      rw [hline (by rw [hstate]; exact nofun)]
      exact receiveConfirmation_leaves hf hstate hnone
    | done =>
      rw [hline (by rw [hstate]; exact nofun)]
      exact Calls.Guards.pure (hf.quiet rfl rfl rfl rfl rfl rfl)

end Step

section Run

variable {b : ScpBuild} {env : ScpEnv} {base : Bytes} {rename : Option Bytes} {s : Sink}

/-- The state that a command leaves for the sink: the base path, and the name that the first message
takes, if the command gives one. -/
structure Ready (base : Bytes) (rename : Option Bytes) (s : Sink) : Prop where
  begins : s.scpState = .sinkBegin
  basePath : s.scpBasePath = base
  pending : Pending s.toHeader { rename := rename }

/-- The receive path is the base path with the directories entered, once it is set. -/
def OnPath (base : Bytes) (e : Entered) (r : Receiver) : Prop :=
  r.sink.scpState = .sinkBegin ∨ (r.sink.Ended ∧ r.log = [] ∧ r.recv.scpRecvPath = none) ∨
    r.recv.scpRecvPath = some (stackPath base e.stack) ∧ r.recv.scpDirDepth = e.stack.length ∧
      ∀ d ∈ e.stack, admittedName d = true

theorem Standing.onPath {r : Receiver} {e : Entered}
    (hs : Standing b base e.stack r.recv r.trace) : OnPath base e r :=
  Or.inr (Or.inr ⟨hs.path, hs.depth, hs.names⟩)

theorem Follows.onPath {start e : Entered} {r : Receiver} (hf : Follows b base start r e) :
    OnPath base e r := by
  cases hf.phase with
  | before hstate => exact Or.inl hstate
  | closed hended hpath hlog => exact Or.inr (Or.inl ⟨hended, hlog, hpath⟩)
  | ended _ hs => exact hs.onPath
  | running _ _ _ _ _ hs => exact hs.onPath

theorem Receiver.step_follows (henv : ∀ h c, Fresh h c (env h c)) {start e : Entered}
    {r : Receiver} (hf : Follows b base start r e) {i : SinkInput × Tx}
    (hreplay : ¬ Replays r.sink i.1) :
    Calls.Made (Placed base e.stack (e.nameAt (lineOf r.sink i.1))) r.trace (r.calls b env i) ∧
      ∃ e', Follows b base start (r.step b env i) e' := by
  have hstep := @sinkStep_leaves b base start e r.sink r.recv r.trace r.log i.2 i.1 hf hreplay
  obtain ⟨new, htrace, hmade, hleaves⟩ := hstep.run henv
  have hcalls : r.calls b env i = new := by
    rw [Receiver.calls, Receiver.step]
    dsimp only
    rw [htrace, List.drop_left]
  rw [hcalls]
  exact ⟨hmade, hleaves⟩

theorem Ready.follows (hready : Ready base rename s) (recv : RecvState) :
    Follows b base { rename := rename } ⟨s, recv, [], []⟩ { rename := rename } :=
  ⟨rfl, hready.basePath, .before hready.begins rfl hready.pending rfl⟩

theorem refused_of_endDir {start e e' : Entered} {log : List Ctl} {line : Option Bytes} {s : Sink}
    (he : log.foldlM Entered.after start = some e)
    (he' : (log ++ accepted line s).foldlM Entered.after start = some e')
    (hline : line.bind control = some .endDir) (hstack : e.stack = []) :
    s.failed ≠ none ∨ s.scpConfirm = .abort := by
  by_contra hno
  rw [not_or, not_not] at hno
  rw [accepted, if_pos hno, hline, List.foldlM_append, he] at he'
  have hafter : e.after .endDir = none := by rw [Entered.after, hstack]
  have hfold : (e.after .endDir >>= fun e => pure e) = some e' := he'
  rw [hafter] at hfold
  cases hfold

/-- In every run, the receive path is the base path with the directories that were entered and not
left, what a step creates or opens is in the directory it finds, under the name of its message, the
end of a directory is refused where none was entered, and the way up undoes a join. -/
theorem recv_confined (henv : ∀ h c, Fresh h c (env h c)) (hready : Ready base rename s)
    (recv : RecvState) {inputs : List (SinkInput × Tx)}
    (hreplay : Runs.Meets (Receiver.step b env) (fun r i => ¬ Replays r.sink i.1) ⟨s, recv, [], []⟩
      inputs) :
    (∀ p ∈ Runs.steps (Receiver.step b env) ⟨s, recv, [], []⟩ inputs, ∃ e e' : Entered,
      p.1.log.foldlM Entered.after { rename := rename } = some e ∧ OnPath base e p.1 ∧
      (p.1.step b env p.2).log.foldlM Entered.after { rename := rename } = some e' ∧
      OnPath base e' (p.1.step b env p.2) ∧
      Calls.Made (Placed base e.stack (e.nameAt (lineOf p.1.sink p.2.1))) p.1.trace
        (p.1.calls b env p.2) ∧
      ((lineOf p.1.sink p.2.1).bind control = some .endDir → e.stack = [] →
        (p.1.step b env p.2).sink.failed ≠ none ∨
          (p.1.step b env p.2).sink.scpConfirm = .abort)) ∧
    ∀ (r joined : RecvState) (stack : List Bytes) (name : Bytes),
      (∀ d ∈ stack, admittedName d = true) → admittedName name = true →
      r.scpRecvPath = some (stackPath base stack) → r.scpRecvBaseSz = base.length →
      scpRecvPathJoin r name = .ok joined → scpRecvPathUp joined = r := by
  constructor
  · intro p hp
    have hkeep : ∀ (r : Receiver) (i : SinkInput × Tx),
        (∃ e, Follows b base { rename := rename } r e) → ¬ Replays r.sink i.1 →
        ∃ e, Follows b base { rename := rename } (r.step b env i) e :=
      fun r i hf hi => (Receiver.step_follows henv hf.choose_spec hi).2
    obtain ⟨e, hf⟩ := @Runs.invariant _ _ _ _
      (fun r => ∃ e, Follows b base { rename := rename } r e) hkeep _ ⟨_, hready.follows recv⟩ _
      hreplay p.1 (Runs.mem_states_of_mem_steps hp)
    obtain ⟨hmade, e', hf'⟩ := Receiver.step_follows henv hf (hreplay p hp)
    exact ⟨e, e', hf.entered, hf.onPath, hf'.entered, hf'.onPath, hmade,
      refused_of_endDir hf.entered hf'.entered⟩
  · intro r joined stack name hstack hname hpath hsz hjoin
    have hup := upPath_joinPath (@ascends_stackPath base stack hstack) (admittedName_iff.mp hname).2
    rw [scpRecvPathJoin, hpath] at hjoin
    dsimp only at hjoin
    split at hjoin
    · cases hjoin
    · cases hjoin
      rw [scpRecvPathUp]
      dsimp only
      rw [Option.map_some, hsz, hup, ← hpath, ← hsz]

def freshFd (h : List ScpEvent) : Option Nat :=
  if (places h).place (3 + h.length) = none then some (3 + h.length) else none

/-- A file system where every call succeeds and all directories have one identity. -/
def mildEnv : ScpEnv := fun h c =>
  match c with
  | .openDir _ | .openDirAt _ _ | .openParent _ | .openFileAt _ _ | .fdopen _ | .fopen _ => freshFd h
  | .mkdirAt _ _ _ | .mkdir _ _ => .made
  | .fstat _ => some (0, 0)
  | .fwrite _ buf => buf.length
  | .close _ | .fclose _ => ()
  | .isSymlink _ => false
  | .malloc _ | .searchable _ | .isDirNoFollow _ | .futimes _ _ _ | .utimes _ _ _ => true

theorem freshFd_free {h : List ScpEvent} {fd : Nat} (hfd : freshFd h = some fd) :
    (places h).place fd = none := by
  rw [freshFd] at hfd
  split at hfd
  · rename_i hfree
    cases hfd
    exact hfree
  · cases hfd

theorem mildEnv_fresh (h : List ScpEvent) (c : ScpCall) : Fresh h c (mildEnv h c) := by
  intro fd hfd
  cases c with
  | openDir _ | openDirAt _ _ | openParent _ | openFileAt _ _ => exact freshFd_free hfd
  | malloc _ | mkdirAt _ _ _ | searchable _ | fstat _ | fdopen _ | close _ | mkdir _ _
  | isDirNoFollow _ | isSymlink _ | fopen _ | fwrite _ _ | fclose _ | futimes _ _ _
  | utimes _ _ _ => cases hfd

/-- A sink that is to receive below `/srv/`. -/
def srvSink : Sink := { scpBasePath := ascii "/srv/" }

/-- A sink for the command `scp -t /srv/new`, where `new` is no directory. -/
def renameSink : Sink :=
  { scpBasePath := ascii "/srv/", scpFileName := some (ascii "new"), scpFileNameCap := 4,
    scpFileReName := true }

/-- The directory `old` is entered. -/
def enterOld : List (SinkInput × Tx) :=
  [(.drive .want true, .sent), (.drive .want true, .sent),
    (.drive (.data (ascii "D0755 0 old\n")) true, .sent)]

theorem recv_confined_old :
    (∀ p ∈ Runs.steps (Receiver.step {} mildEnv) ⟨srvSink, {}, [], []⟩ enterOld,
      ∃ e e' : Entered, p.1.log.foldlM Entered.after { rename := none } = some e ∧
      OnPath (ascii "/srv/") e p.1 ∧
      (p.1.step {} mildEnv p.2).log.foldlM Entered.after { rename := none } = some e' ∧
      OnPath (ascii "/srv/") e' (p.1.step {} mildEnv p.2) ∧
      Calls.Made (Placed (ascii "/srv/") e.stack (e.nameAt (lineOf p.1.sink p.2.1))) p.1.trace
        (p.1.calls {} mildEnv p.2) ∧
      ((lineOf p.1.sink p.2.1).bind control = some .endDir → e.stack = [] →
        (p.1.step {} mildEnv p.2).sink.failed ≠ none ∨
          (p.1.step {} mildEnv p.2).sink.scpConfirm = .abort)) ∧
    (enterOld.foldl (Receiver.step {} mildEnv) ⟨srvSink, {}, [], []⟩).recv.scpRecvPath =
      some (ascii "/srv/old") := by
  have hready : Ready (ascii "/srv/") none srvSink := ⟨rfl, rfl, rfl⟩
  have hreplay : Runs.Meets (Receiver.step {} mildEnv) (fun r i => ¬ Replays r.sink i.1)
      ⟨srvSink, {}, [], []⟩ enterOld := by
    intro p hp
    simp only [enterOld, Runs.steps, List.mem_cons, List.not_mem_nil, or_false] at hp
    rcases hp with rfl | rfl | rfl
    · exact id
    · exact id
    · exact id
  exact ⟨(recv_confined mildEnv_fresh hready {} hreplay).1, by decide +kernel⟩

/-- The first directory is made under the name of the command, not under its own. -/
theorem recv_renamed :
    (enterOld.foldl (Receiver.step {} mildEnv) ⟨renameSink, {}, [], []⟩).log =
      [.dir (ascii "old")] ∧
    (enterOld.foldl (Receiver.step {} mildEnv) ⟨renameSink, {}, [], []⟩).recv.scpRecvPath =
      some (ascii "/srv/new") ∧
    ascii "/srv/new" ≠ stackPath (ascii "/srv/") [ascii "old"] := by
  decide +kernel

end Run

end WolfSsh.Scp
