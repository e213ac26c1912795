import WolfSsh.ScpStrict

/-! The sink of SCP against the strict reading of its stream: as long as it reads no further than the
line or the status octet that it is after, its calls are those of the strict reading. -/

namespace WolfSsh.Scp

namespace Strict.Reading

variable {start s s' : Strict} {bs got : Bytes} {read : Bytes} {t t' : List SinkEvent}

theorem silent (h : Reading start read t s) (hs : s.Awaits) (c : UInt8)
    (hstep : s.octet c = pure s') : Reading start (read ++ [c]) t s' := by
  have hread := h.octet hs c (by rw [hstep]; exact Calls.emits_pure)
  rw [List.append_nil] at hread
  exact hread

theorem awaits_line (hline : s.expect = .line got) : s.Awaits := by
  rw [Awaits, hline]
  trivial

theorem line (h : Reading start read t s) (hline : s.expect = .line got) (hno : newline ∉ bs)
    (hlen : got.length + bs.length < defaultScpMsgSz) :
    Reading start (read ++ bs) t { s with expect := .line (got ++ bs) } := by
  induction bs generalizing read got s with
  | nil =>
    rw [List.append_nil, List.append_nil, ← hline]
    exact h
  | cons c bs ih =>
    rw [List.mem_cons, not_or] at hno
    rw [List.length_cons] at hlen
    have hstep : s.octet c = pure { s with expect := .line (got ++ [c]) } := by
      rw [Strict.octet, hline]
      dsimp only
      rw [if_neg (fun heq => hno.1 heq.symm), if_pos (by omega)]
    have hrest := ih (h.silent (awaits_line hline) c hstep) rfl hno.2 (by simp; omega)
    rw [List.append_assoc, List.append_assoc] at hrest
    exact hrest

theorem overlong (h : Reading start read t s) (hline : s.expect = .line got) (hno : newline ∉ bs)
    (hne : bs ≠ []) (hlen : got.length + bs.length = defaultScpMsgSz) :
    Reading start (read ++ bs) t { s with expect := .refused } := by
  obtain ⟨front, c, rfl⟩ := List.eq_nil_or_concat bs |>.resolve_left hne
  rw [List.concat_eq_append] at *
  rw [List.mem_append, List.mem_singleton, not_or] at hno
  rw [List.length_append, List.length_singleton] at hlen
  have hfront := h.line hline hno.1 (by omega)
  have hstep : Strict.octet { s with expect := .line (got ++ front) } c =
      pure { s with expect := .refused } := by
    rw [Strict.octet]
    dsimp only
    rw [if_neg (fun heq => hno.2 heq.symm), if_neg (by simp; omega)]
  have hlast := hfront.silent (awaits_line rfl) c hstep
  rw [List.append_assoc] at hlast
  exact hlast

theorem message (h : Reading start read t s) (hline : s.expect = .line got) (hno : newline ∉ bs)
    (hlen : got.length + bs.length < defaultScpMsgSz)
    (hstep : (s.message (got ++ bs ++ [newline])).Emits t' s') :
    Reading start (read ++ (bs ++ [newline])) (t ++ t') s' := by
  have hmessage : ∀ x : Expect, Strict.message { s with expect := x } = s.message := by
    intro x
    funext line
    rw [Strict.message, Strict.message]
    rfl
  have hfront := h.line hline hno hlen
  rw [← List.append_assoc]
  refine hfront.octet (awaits_line rfl) newline ?_
  rw [Strict.octet]
  dsimp only
  rw [if_pos rfl, hmessage]
  exact hstep

theorem octetParts_congr (c : CbCall) (confirm : Confirm) (buf : Bytes) (n offset : Nat) :
    octetParts { c with buf := buf, fileOffset := n } confirm bs offset =
      octetParts c confirm bs offset := by
  induction bs generalizing offset with
  | nil => rfl
  | cons b bs ih =>
    cases bs with
    | nil => rfl
    | cons b' bs => rw [octetParts, octetParts, ih]

theorem part {confirm : Confirm} (h : Reading start read t s) (hdata : s.expect = .data)
    (hne : bs ≠ []) (hlen : s.offset + bs.length ≤ s.scpFileSz)
    (hstep : (parted { s with confirm := confirm, offset := s.offset + bs.length }).Emits t' s') :
    Reading start (read ++ bs) (t ++ (octetParts (s.partCall []) confirm bs s.offset ++ t')) s' := by
  induction bs generalizing read t s with
  | nil => exact absurd rfl hne
  | cons c bs ih =>
    rw [List.length_cons] at hlen hstep
    have hs : s.Awaits := by
      rw [Awaits, hdata]
      dsimp only
      omega
    have hoctet : s.octet c = s.part [c] := by rw [Strict.octet, hdata]
    cases bs with
    | nil =>
      refine h.octet hs c ?_
      rw [hoctet]
      exact Calls.emits_call hstep
    | cons c' bs =>
      have hmore : s.offset + 1 < s.scpFileSz := by
        rw [List.length_cons] at hlen
        omega
      have hfirst : (s.octet c).Emits [⟨.callback (s.partCall [c]), Confirm.cont⟩]
          { s with confirm := .cont, offset := s.offset + 1 } := by
        rw [hoctet]
        refine ⟨Confirm.cont, [], rfl, ?_⟩
        change (parted { s with confirm := .cont, offset := s.offset + 1 }).Emits [] _
        rw [parted, if_neg (by simp), if_pos hmore]
        exact Calls.emits_pure
      have hrest := ih (h.octet hs c hfirst) hdata (List.cons_ne_nil _ _)
        (by dsimp only; rw [List.length_cons] at *; omega)
        (by
          dsimp only
          rw [Nat.add_assoc, Nat.add_comm 1]
          exact hstep)
      rw [List.append_assoc, List.append_assoc] at hrest
      have hcall := @octetParts_congr (c' :: bs) (s.partCall []) confirm [] (s.offset + 1)
        (s.offset + 1)
      rw [octetParts, ← hcall]
      exact hrest

end Strict.Reading

section Parse

variable {h : Header} {buf : Bytes} {idx : Nat}

theorem getScpFileName_alloc :
    (getScpFileName h buf idx false).2 = .error .memoryE ∨
      getScpFileName h buf idx true = getScpFileName h buf idx false := by
  rw [getScpFileName, getScpFileName]
  by_cases hname : admittedName (cstr (buf.drop idx)) = true
  · rw [if_pos hname, if_pos hname]
    by_cases hcap : h.scpFileName = none ∨ h.scpFileNameCap ≤ (cstr (buf.drop idx)).length
    · rw [if_pos hcap]
      exact Or.inl rfl
    · rw [if_neg hcap, if_neg hcap]
      exact Or.inr rfl
  · rw [if_neg hname, if_neg hname]
    exact Or.inr rfl

theorem parseEntry_alloc :
    (parseEntry h buf false).2 = .error .memoryE ∨ parseEntry h buf true = parseEntry h buf false := by
  rw [parseEntry, parseEntry]
  cases getScpFileMode buf 0 with
  | error e => exact Or.inr rfl
  | ok r =>
    dsimp only
    cases getScpFileSize buf r.2 with
    | error e => exact Or.inr rfl
    | ok r' =>
      dsimp only
      by_cases hre : h.scpFileReName = true
      · rw [if_pos hre, if_pos hre]
        exact Or.inr rfl
      · rw [if_neg hre, if_neg hre]
        exact getScpFileName_alloc

theorem parseMessage_alloc (alloc : Bool) :
    (parseMessage h buf alloc).2 = .error .memoryE ∨
      parseMessage h buf true = parseMessage h buf alloc := by
  cases alloc with
  | true => exact Or.inr rfl
  | false =>
    rw [parseMessage, parseMessage]
    by_cases hfile : buf.getD 0 0 = 0x43
    · rw [if_pos hfile, if_pos hfile]
      exact parseEntry_alloc
    rw [if_neg hfile, if_neg hfile]
    by_cases hdir : buf.getD 0 0 = 0x44
    · rw [if_pos hdir, if_pos hdir]
      exact parseEntry_alloc
    · rw [if_neg hdir, if_neg hdir]
      exact Or.inr rfl

end Parse

/-- The read of the channel that a step does. -/
def readOf (s : Sink) : SinkInput → Read
  | .arrive _ => .want
  | .drive rx alloc =>
    if s.failed ≠ none then .want
    else
      match s.scpState with
      | .receiveMessage =>
        let msg := s.scpRecvMsg.getD []
        if s.scpRecvMsg = none ∧ alloc = false then .want
        else if defaultScpMsgSz - 1 ≤ msg.length then .want
        else readChannel s (defaultScpMsgSz - msg.length) rx
      | .receiveFile =>
        let partSz := min (s.scpFileSz - s.scpFileOffset) defaultScpBufferSz
        if partSz = 0 then .want
        else if s.scpFileBuffer = false ∧ alloc = false then .want
        else readChannel s partSz rx
      | .receiveConfirmation => readChannel s defaultScpMsgSz rx
      | _ => .want

def Read.taken : Read → Bytes
  | .got bs _ => bs
  | .empty | .eof | .want | .failed => []

/-- The read stops where the grammar does: that of a line does not go on behind a newline, and does
not end one octet short of the longest line; that of a status of success takes one octet. A packet
without data is not read in place of a line. -/
def Exact (s : Sink) (i : SinkInput) : Prop :=
  match s.scpState, readOf s i with
  | .receiveMessage, .got bs _ =>
    newline ∉ bs.dropLast ∧
      ((s.scpRecvMsg.getD [] ++ bs).length = defaultScpMsgSz - 1 → bs.getLast? = some newline)
  | .receiveMessage, .empty => False
  | .receiveConfirmation, .got bs _ => bs.getD 0 0 = 0 → bs.length = 1
  | _, _ => True

/-- The strict reading in the place of the sink, in a state of its own. -/
def Sink.strict (s : Sink) (expect : Expect) : Strict :=
  ⟨s.toHeader, expect, s.scpBasePath, s.scpConfirm, s.scpFileOffset⟩

def Next.state : Next → SinkState
  | .line => .receiveMessage
  | .data => .receiveFile
  | .status => .receiveConfirmation
  | .ended => .done

/-- What the strict reading expects while the sink is in its state. -/
def Expects (s : Sink) (expect : Expect) : Prop :=
  match s.scpState with
  | .sinkBegin => expect = .begin
  | .receiveMessage =>
    if (s.scpRecvMsg.getD []).length < defaultScpMsgSz - 1 then
      expect = .line (s.scpRecvMsg.getD [])
    else expect = .refused
  | .sendConfirmation => ∃ next : Next, expect = .answer next ∧ s.scpNextState = next.state
  | .receiveFile => expect = .data
  | .receiveConfirmation => expect = .status
  | .done => expect = .ended ∨ ∃ got, expect = .line got

def Idle (s : Sink) : Prop :=
  s.scpState ≠ .receiveMessage → s.scpState ≠ .done → s.scpRecvMsg.getD [] = []

/-- The calls `t` of a sink that took `read` from the stream are those of the strict reading. -/
inductive InStep (start : Strict) (read : Bytes) (t : List SinkEvent) (s : Sink) : Prop
  | running {expect : Expect} (hfailed : s.failed = none)
      (hread : start.Reading read t (s.strict expect)) (hexpect : Expects s expect)
      (hidle : Idle s)
  | failed {taken : Bytes} {r : Strict} {e : ScpErr} (hfailed : s.failed = some e)
      (hread : start.Reading taken t r) (htaken : taken <+: read)
      (he : e = .memoryE ∨ e = .transport ∨ r.expect = .refused)

/-- Any answers of the callback and the transport. -/
abbrev anyReply (c : SinkCall) (_ : c.Ans) : Prop := True

section Step

variable {start : Strict} {read bs : Bytes} {t : List SinkEvent} {s : Sink}

theorem byOctets_callback {c : CbCall} (hc : c.state ≠ .filePart) (confirm : Confirm)
    (t : List SinkEvent) :
    byOctets (⟨.callback c, confirm⟩ :: t) = ⟨.callback c, confirm⟩ :: byOctets t := by
  have hevent : octetEvents ⟨.callback c, confirm⟩ = [⟨.callback c, confirm⟩] :=
    if_neg fun h => hc h.1
  rw [byOctets, List.flatMap_cons, hevent]
  rfl

theorem byOctets_part {c : CbCall} (hc : c.state = .filePart) (hne : c.buf ≠ [])
    (confirm : Confirm) (t : List SinkEvent) :
    byOctets (⟨.callback c, confirm⟩ :: t) =
      octetParts c confirm c.buf c.fileOffset ++ byOctets t := by
  have hevent : octetEvents ⟨.callback c, confirm⟩ = octetParts c confirm c.buf c.fileOffset :=
    if_pos ⟨hc, hne⟩
  rw [byOctets, List.flatMap_cons, hevent]
  rfl

theorem append_byOctets_nil (t : List SinkEvent) : t ++ byOctets [] = t := List.append_nil t

theorem byOctets_append (t t' : List SinkEvent) :
    byOctets (t ++ t') = byOctets t ++ byOctets t' := List.flatMap_append

theorem byOctets_empty {c : CbCall} (hne : c.buf = []) (confirm : Confirm) (t : List SinkEvent) :
    byOctets (⟨.callback c, confirm⟩ :: t) = ⟨.callback c, confirm⟩ :: byOctets t := by
  have hevent : octetEvents ⟨.callback c, confirm⟩ = [⟨.callback c, confirm⟩] :=
    if_neg fun h => h.2 hne
  rw [byOctets, List.flatMap_cons, hevent]
  rfl

abbrev Comes (start : Strict) (read : Bytes) (t : List SinkEvent) (s : Sink)
    (new : List SinkEvent) : Prop :=
  InStep start read (t ++ byOctets new) s

theorem sinkBegin_inStep (hread : start.Reading read t (s.strict .begin)) (hfailed : s.failed = none)
    (hmsg : s.scpRecvMsg.getD [] = []) :
    Calls.Does anyReply (Comes start read t) (sinkBegin s) := by
  apply Calls.Does.call
  intro (confirm : Confirm) _
  apply Calls.Does.pure
  have hstep : Strict.Reading start read (t ++ [⟨.callback _, confirm⟩])
      (Strict.answered (s.strict .begin) confirm .line) :=
    hread.act id (Calls.emits_call Calls.emits_pure)
  rw [Comes, byOctets_callback]
  · exact .running hfailed hstep ⟨.line, rfl, rfl⟩ fun _ _ => hmsg
  · exact nofun

theorem sendConfirmation_inStep {next : Next}
    (hread : start.Reading read t (s.strict (.answer next))) (hfailed : s.failed = none)
    (hstate : s.scpState = .sendConfirmation) (hnext : s.scpNextState = next.state)
    (hmsg : s.scpRecvMsg.getD [] = []) :
    Calls.Does anyReply (Comes start read t) (sendConfirmation s) := by
  apply Calls.Does.call
  intro (tx : Tx) _
  cases tx with
  | want =>
    apply Calls.Does.pure
    have hsame : start.Reading read (t ++ byOctets [⟨.confirm s.scpConfirm, Tx.want⟩])
        (s.strict (.answer next)) := by
      simpa [byOctets, octetEvents] using hread
    refine .running hfailed hsame ?_ fun _ _ => hmsg
    rw [Expects, hstate]
    exact ⟨next, rfl, hnext⟩
  | failed =>
    apply Calls.Does.pure
    have hstep : Strict.Reading start read (t ++ [⟨.confirm s.scpConfirm, Tx.failed⟩])
        (s.strict .refused) := hread.act id ⟨Tx.failed, [], rfl, rfl, rfl⟩
    exact .failed rfl hstep (List.prefix_refl _) (Or.inr (Or.inr rfl))
  | sent =>
    by_cases habort : s.scpConfirm = .abort
    · have hsent : Strict.Reading start read (t ++ [⟨.confirm s.scpConfirm, Tx.sent⟩])
          (s.strict .refused) := by
        refine hread.act id ⟨Tx.sent, [], rfl, ?_⟩
        change Calls.Emits (if s.scpConfirm = .abort then _ else _) _ _
        rw [if_pos habort]
        exact Calls.emits_pure
      change Calls.Does anyReply _ (if s.scpConfirm = .abort then _ else _)
      rw [if_pos habort]
      exact Calls.Does.pure (.failed rfl hsent (List.prefix_refl _) (Or.inr (Or.inr rfl)))
    · have hsent : Strict.Reading start read (t ++ [⟨.confirm s.scpConfirm, Tx.sent⟩])
          (s.strict next.expect) := by
        refine hread.act id ⟨Tx.sent, [], rfl, ?_⟩
        change Calls.Emits (if s.scpConfirm = .abort then _ else _) _ _
        rw [if_neg habort]
        exact Calls.emits_pure
      change Calls.Does anyReply _ (if s.scpConfirm = .abort then _ else _)
      rw [if_neg habort]
      apply Calls.Does.pure
      refine .running hfailed hsent ?_ fun _ _ => hmsg
      rw [Expects]
      dsimp only
      rw [hnext]
      cases next with
      | line => exact if_pos (by rw [hmsg]; decide) |>.mpr (by rw [hmsg]; rfl)
      | data => rfl
      | status => rfl
      | ended => exact Or.inl rfl

section Parsed

variable {r : Strict}

theorem parsed_dir (htype : r.scpMsgType = .dir) (confirm : Confirm) :
    r.parsed.Emits [⟨.callback ⟨.newDir, r.basePath, r.scpFileName, r.scpFileMode, r.scpMTime,
        r.scpATime, r.scpFileSz, [], 0⟩, confirm⟩]
      (Strict.answered { r with scpFileState := .newDir } confirm .line) := by
  rw [Strict.parsed, htype]
  exact ⟨confirm, [], rfl, rfl, rfl⟩

theorem parsed_endDir (htype : r.scpMsgType = .endDir) (confirm : Confirm) :
    r.parsed.Emits [⟨.callback ⟨.endDir, r.basePath, r.scpFileName, r.scpFileMode, r.scpMTime,
        r.scpATime, r.scpFileSz, [], 0⟩, confirm⟩] (r.answered confirm .line) := by
  rw [Strict.parsed, htype]
  exact ⟨confirm, [], rfl, rfl, rfl⟩

theorem parsed_time (htype : r.scpMsgType = .time) :
    r.parsed.Emits [] (r.answered r.confirm .line) := by
  rw [Strict.parsed, htype]
  exact Calls.emits_pure

theorem parsed_file (htype : r.scpMsgType = .file) (confirm : Confirm) :
    r.parsed.Emits [⟨.callback ⟨.newFile, r.basePath, r.scpFileName, r.scpFileMode, r.scpMTime,
        r.scpATime, r.scpFileSz, [], 0⟩, confirm⟩]
      (Strict.answered { r with scpFileState := .newFile } confirm .data) := by
  rw [Strict.parsed, htype]
  exact ⟨confirm, [], rfl, rfl, rfl⟩

theorem message_error {line : Bytes} {hd : Header} {e : ScpErr}
    (hparse : parseMessage r.toHeader (terminated line) true = (hd, .error e)) :
    (r.message line).Emits [] { r with expect := .refused } := by
  rw [Strict.message, hparse]
  exact Calls.emits_pure

theorem message_ok {line : Bytes} {hd : Header}
    (hparse : parseMessage r.toHeader (terminated line) true = (hd, .ok ())) :
    r.message line = Strict.parsed { r with toHeader := hd } := by
  rw [Strict.message, hparse]

theorem parted_stop (hstop : r.confirm ≠ .cont) :
    r.parted.Emits [] { r with expect := .answer .ended } := by
  rw [Strict.parted, if_pos hstop]
  exact Calls.emits_pure

theorem parted_more (hcont : ¬ r.confirm ≠ .cont) (hmore : r.offset < r.scpFileSz) :
    r.parted.Emits [] r := by
  rw [Strict.parted, if_neg hcont, if_pos hmore]
  exact Calls.emits_pure

theorem parted_done (hcont : ¬ r.confirm ≠ .cont) (hdone : ¬ r.offset < r.scpFileSz)
    (confirm : Confirm) :
    r.parted.Emits [⟨.callback ⟨.fileDone, r.basePath, r.scpFileName, r.scpFileMode, r.scpMTime,
        r.scpATime, r.scpFileSz, [], 0⟩, confirm⟩]
      (Strict.answered { r with offset := 0, scpATime := 0, scpMTime := 0 } confirm .status) := by
  rw [Strict.parted, if_neg hcont, if_neg hdone]
  exact ⟨confirm, [], rfl, rfl, rfl⟩

end Parsed

theorem messageReceived_inStep {expect : Expect} (hfailed : s.failed = none)
    (hread : ∀ t' r, (Strict.parsed (s.strict expect)).Emits t' r → start.Reading read (t ++ t') r)
    (hend : s.scpMsgType = .endDir → s.scpFileState = .endDir)
    (hmsg : s.scpRecvMsg.getD [] = []) :
    Calls.Does anyReply (Comes start read t) (messageReceived s) := by
  rw [messageReceived]
  cases htype : s.scpMsgType with
  | dir =>
    apply Calls.Does.call
    intro (confirm : Confirm) _
    apply Calls.Does.pure
    rw [Comes, byOctets_callback]
    · rw [← htype]
      exact .running hfailed (hread _ _ (parsed_dir htype confirm)) ⟨.line, rfl, rfl⟩
        fun _ _ => hmsg
    · exact nofun
  | endDir =>
    have hstate := hend htype
    apply Calls.Does.call
    intro (confirm : Confirm) _
    apply Calls.Does.pure
    rw [hstate, Comes, byOctets_callback]
    · exact .running hfailed (hread _ _ (parsed_endDir htype confirm)) ⟨.line, rfl, rfl⟩
        fun _ _ => hmsg
    · exact nofun
  | time =>
    apply Calls.Does.pure
    exact .running hfailed (hread _ _ (parsed_time htype)) ⟨.line, rfl, rfl⟩ fun _ _ => hmsg
  | file =>
    apply Calls.Does.call
    intro (confirm : Confirm) _
    apply Calls.Does.pure
    rw [Comes, byOctets_callback]
    · rw [← htype]
      exact .running hfailed (hread _ _ (parsed_file htype confirm)) ⟨.data, rfl, rfl⟩
        fun _ _ => hmsg
    · exact nofun

theorem filePart_inStep {buf : Bytes} (hfailed : s.failed = none) (hstate : s.scpState = .receiveFile)
    (hmsg : s.scpRecvMsg.getD [] = [])
    (hread : ∀ confirm t' r, (Strict.parted { s.strict .data with
        confirm := confirm, offset := s.scpFileOffset + buf.length }).Emits t' r →
      start.Reading read (t ++ (byOctets [⟨.callback ((s.strict .data).partCall buf), confirm⟩] ++ t'))
        r) :
    Calls.Does anyReply (Comes start read t) (filePart s buf) := by
  apply Calls.Does.call
  intro (confirm : Confirm) _
  have hnew : ∀ t' : List SinkEvent,
      byOctets (⟨.callback ((s.strict .data).partCall buf), confirm⟩ :: t') =
        byOctets [⟨.callback ((s.strict .data).partCall buf), confirm⟩] ++ byOctets t' :=
    fun t' => byOctets_append [_] t'
  by_cases hcont : confirm ≠ .cont
  · dsimp only
    rw [if_pos hcont]
    apply Calls.Does.pure
    have hstop := hread confirm _ _ (parted_stop hcont)
    rw [List.append_nil] at hstop
    exact .running hfailed hstop ⟨.ended, rfl, rfl⟩ fun _ _ => hmsg
  dsimp only
  rw [if_neg hcont]
  by_cases hmore : s.scpFileOffset + buf.length < s.scpFileSz
  · rw [if_pos hmore]
    apply Calls.Does.pure
    have hstop := hread confirm _ _ (parted_more hcont hmore)
    rw [List.append_nil] at hstop
    refine .running hfailed hstop ?_ fun _ _ => hmsg
    rw [Expects, hstate]
    rfl
  · rw [if_neg hmore]
    apply Calls.Does.call
    intro (done : Confirm) _
    apply Calls.Does.pure
    have hdone := hread confirm _ _ (parted_done hcont hmore done)
    refine .running hfailed ?_ ⟨.status, rfl, rfl⟩ fun _ _ => hmsg
    refine (congrArg (start.Reading read · _) (congrArg (t ++ ·) ?_)).mpr hdone
    refine (hnew _).trans (congrArg _ (byOctets_callback ?_ done []))
    exact nofun

def Rx.packet : Rx → Bytes
  | .data packet => packet
  | .eof | .want | .failed => []

theorem readChannel_got {limit : Nat} {rx : Rx} {rest : Bytes} (hlimit : 0 < limit)
    (hgot : readChannel s limit rx = .got bs rest) :
    bs ≠ [] ∧ bs.length ≤ limit ∧ bs ++ rest = (if s.inbuf ≠ [] then s.inbuf else rx.packet) := by
  have htake : ∀ all : Bytes, all ≠ [] → all.take limit ≠ [] ∧ (all.take limit).length ≤ limit ∧
      all.take limit ++ all.drop limit = all := by
    intro all hall
    refine ⟨?_, List.length_take_le _ _, List.take_append_drop _ _⟩
    rw [Ne, List.take_eq_nil_iff, not_or]
    exact ⟨hlimit.ne', hall⟩
  unfold readChannel at hgot
  by_cases hbuf : s.inbuf ≠ []
  · rw [if_pos hbuf] at hgot ⊢
    cases hgot
    exact htake _ hbuf
  · rw [if_neg hbuf] at hgot ⊢
    cases rx with
    | data packet =>
      cases packet with
      | nil => cases hgot
      | cons c cs =>
        cases hgot
        exact htake _ (List.cons_ne_nil _ _)
    | eof => cases hgot
    | want => cases hgot
    | failed => cases hgot

theorem receiveFile_inStep {rx : Rx} {alloc : Bool} (hread : start.Reading read t (s.strict .data))
    (hfailed : s.failed = none) (hstate : s.scpState = .receiveFile)
    (hmsg : s.scpRecvMsg.getD [] = []) :
    Calls.Does anyReply (Comes start (read ++ (readOf s (.drive rx alloc)).taken) t)
      (receiveFile s rx alloc) := by
  have hreads : readOf s (.drive rx alloc) =
      if min (s.scpFileSz - s.scpFileOffset) defaultScpBufferSz = 0 then .want
      else if s.scpFileBuffer = false ∧ alloc = false then .want
      else readChannel s (min (s.scpFileSz - s.scpFileOffset) defaultScpBufferSz) rx := by
    rw [readOf, if_neg (not_not.mpr hfailed), hstate]
  have hsame : Expects s .data := by rw [Expects, hstate]
  rw [receiveFile, hreads]
  dsimp only
  by_cases hsize : min (s.scpFileSz - s.scpFileOffset) defaultScpBufferSz = 0
  · rw [if_pos hsize, if_pos hsize]
    have hnone : ¬ (s.strict .data).Awaits := by
      change ¬ s.scpFileOffset < s.scpFileSz
      have hbuffer : 0 < defaultScpBufferSz := by decide
      omega
    have hempty := @filePart_inStep start read t s [] hfailed hstate hmsg (by
      intro confirm t' r hem
      rw [byOctets_empty rfl]
      exact hread.act hnone (Calls.emits_call hem))
    rw [Read.taken, List.append_nil]
    exact hempty
  rw [if_neg hsize, if_neg hsize]
  by_cases halloc : s.scpFileBuffer = false ∧ alloc = false
  · rw [if_pos halloc, if_pos halloc, Read.taken, List.append_nil]
    rw [← append_byOctets_nil t] at hread
    exact Calls.Does.pure (.failed rfl hread (List.prefix_refl _) (Or.inl rfl))
  rw [if_neg halloc, if_neg halloc]
  have hchannel : readChannel { s with scpFileBuffer := true }
      (min (s.scpFileSz - s.scpFileOffset) defaultScpBufferSz) rx =
      readChannel s (min (s.scpFileSz - s.scpFileOffset) defaultScpBufferSz) rx := rfl
  have hstay : Comes start read t { s with scpFileBuffer := true } [] := by
    rw [Comes, append_byOctets_nil]
    refine .running hfailed hread ?_ fun _ _ => hmsg
    exact hsame
  have hbroken : Comes start read t ({ s with scpFileBuffer := true }.fail .transport) [] := by
    rw [Comes, append_byOctets_nil]
    exact .failed rfl hread (List.prefix_refl _) (Or.inr (Or.inl rfl))
  rw [hchannel]
  cases hgot : readChannel s (min (s.scpFileSz - s.scpFileOffset) defaultScpBufferSz) rx with
  | got bs rest =>
    obtain ⟨hne, hlen, -⟩ := readChannel_got (Nat.pos_of_ne_zero hsize) hgot
    refine filePart_inStep hfailed hstate hmsg ?_
    intro confirm t' r hem
    have hlen' : (s.strict .data).offset + bs.length ≤ (s.strict .data).scpFileSz := by
      change s.scpFileOffset + bs.length ≤ s.scpFileSz
      omega
    have hparts := hread.part rfl hne hlen' hem
    have hcall := @Strict.Reading.octetParts_congr bs ((s.strict .data).partCall []) confirm bs
      s.scpFileOffset s.scpFileOffset
    have hnew : byOctets [⟨.callback ((s.strict .data).partCall bs), confirm⟩] =
        octetParts ((s.strict .data).partCall []) confirm bs s.scpFileOffset := by
      rw [byOctets_part rfl hne, ← hcall]
      exact List.append_nil _
    refine (congrArg (start.Reading _ · _) (congrArg (t ++ ·) ?_)).mpr hparts
    exact congrArg (· ++ t') hnew
  | empty =>
    rw [Read.taken, List.append_nil]
    exact Calls.Does.pure hstay
  | want =>
    rw [Read.taken, List.append_nil]
    exact Calls.Does.pure hstay
  | eof =>
    rw [Read.taken, List.append_nil]
    exact Calls.Does.pure hbroken
  | failed =>
    rw [Read.taken, List.append_nil]
    exact Calls.Does.pure hbroken

theorem not_mem_of_dropLast (hno : newline ∉ bs.dropLast) (hlast : bs.getLast? ≠ some newline) :
    newline ∉ bs := by
  intro hmem
  have hne : bs ≠ [] := List.ne_nil_of_mem hmem
  rw [← List.dropLast_append_getLast hne, List.mem_append, List.mem_singleton] at hmem
  rcases hmem with hmem | hmem
  · exact hno hmem
  · rw [List.getLast?_eq_some_getLast hne, ← hmem] at hlast
    exact hlast rfl

theorem lineRead_inStep {msg rest : Bytes} {alloc : Bool}
    (hread : start.Reading read t (s.strict (.line msg))) (hfailed : s.failed = none)
    (hstate : s.scpState = .receiveMessage) (hne : bs ≠ [])
    (hlen : bs.length ≤ defaultScpMsgSz - msg.length) (hmsg : msg.length < defaultScpMsgSz - 1)
    (hexact : newline ∉ bs.dropLast ∧
      ((msg ++ bs).length = defaultScpMsgSz - 1 → bs.getLast? = some newline)) :
    Calls.Does anyReply (Comes start (read ++ bs) t)
      (lineRead { s with inbuf := rest } (msg ++ bs) alloc) := by
  obtain ⟨hno, hshort⟩ := hexact
  have hlast : (msg ++ bs).getLast? = bs.getLast? := List.getLast?_append_of_ne_nil _ hne
  have hsz : defaultScpMsgSz = 1024 := rfl
  rw [List.length_append] at hshort
  rw [lineRead, hlast]
  by_cases hend : bs.getLast? = some newline
  · rw [if_pos hend]
    obtain ⟨front, hfront⟩ : ∃ front, bs = front ++ [newline] := by
      rw [List.getLast?_eq_some_iff] at hend
      exact hend
    subst hfront
    rw [List.dropLast_concat] at hno
    rw [List.length_append, List.length_singleton] at hlen
    have hmessage : ∀ t' r, ((s.strict (.line msg)).message (msg ++ (front ++ [newline]))).Emits t' r →
        start.Reading (read ++ (front ++ [newline])) (t ++ t') r := by
      intro t' r hem
      rw [← List.append_assoc] at hem
      exact hread.message rfl hno (by omega) hem
    cases hparse : parseMessage s.toHeader (terminated (msg ++ (front ++ [newline]))) alloc with
    | mk hd ret =>
      cases ret with
      | error e =>
        apply Calls.Does.pure
        have halloc := @parseMessage_alloc s.toHeader (terminated (msg ++ (front ++ [newline]))) alloc
        rw [hparse] at halloc
        rcases halloc with hmem | hsame
        · cases hmem
          rw [← append_byOctets_nil t] at hread
          exact .failed rfl hread (List.prefix_append read _) (Or.inl rfl)
        · have hrefused := hmessage [] _ (message_error hsame)
          exact .failed rfl hrefused (List.prefix_refl _) (Or.inr (Or.inr rfl))
      | ok =>
        obtain ⟨ctl, -, htakes⟩ := parseMessage_ok hparse
        have halloc := @parseMessage_alloc s.toHeader (terminated (msg ++ (front ++ [newline]))) alloc
        rw [hparse] at halloc
        have hsame := halloc.resolve_left nofun
        refine messageReceived_inStep hfailed (?_ : ∀ t' r, (Strict.parsed
          (Strict.mk hd (.line msg) s.scpBasePath s.scpConfirm s.scpFileOffset)).Emits t' r → _) ?_ rfl
        · intro t' r hem
          apply hmessage
          rw [message_ok hsame]
          exact hem
        · intro htype
          cases ctl with
          | endDir => exact htakes.2.1
          | dir name => cases htakes.1.symm.trans htype
          | file name => cases htakes.1.symm.trans htype
          | time => cases htakes.1.symm.trans htype
  · rw [if_neg hend]
    apply Calls.Does.pure
    have hno' := not_mem_of_dropLast hno hend
    have hidle : Idle { s with inbuf := rest, scpRecvMsg := some (msg ++ bs) } :=
      fun hline => absurd hstate hline
    rw [Comes, append_byOctets_nil]
    by_cases hfits : msg.length + bs.length < defaultScpMsgSz
    · have hline := hread.line rfl hno' hfits
      refine .running hfailed hline ?_ hidle
      rw [Expects]
      dsimp only
      rw [hstate]
      dsimp only
      rw [Option.getD_some, List.length_append, if_pos]
      have hne' : msg.length + bs.length ≠ defaultScpMsgSz - 1 := fun heq => hend (hshort heq)
      omega
    · have hline := hread.overlong rfl hno' hne (by omega)
      refine .running hfailed hline ?_ hidle
      rw [Expects]
      dsimp only
      rw [hstate]
      dsimp only
      rw [Option.getD_some, List.length_append, if_neg]
      omega

theorem receiveMessage_inStep {rx : Rx} {alloc : Bool} {expect : Expect}
    (hread : start.Reading read t (s.strict expect)) (hfailed : s.failed = none)
    (hstate : s.scpState = .receiveMessage) (hexpect : Expects s expect)
    (hexact : Exact s (.drive rx alloc)) :
    Calls.Does anyReply (Comes start (read ++ (readOf s (.drive rx alloc)).taken) t)
      (receiveMessage s rx alloc) := by
  have hreads : readOf s (.drive rx alloc) =
      if s.scpRecvMsg = none ∧ alloc = false then .want
      else if defaultScpMsgSz - 1 ≤ (s.scpRecvMsg.getD []).length then .want
      else readChannel s (defaultScpMsgSz - (s.scpRecvMsg.getD []).length) rx := by
    rw [readOf, if_neg (not_not.mpr hfailed), hstate]
  rw [Exact, hstate, hreads] at hexact
  rw [Expects, hstate] at hexpect
  dsimp only at hexpect
  rw [receiveMessage, hreads]
  dsimp only
  have hsame := append_byOctets_nil t
  by_cases halloc : s.scpRecvMsg = none ∧ alloc = false
  · rw [if_pos halloc, if_pos halloc, Read.taken, List.append_nil]
    rw [← hsame] at hread
    exact Calls.Does.pure (.failed rfl hread (List.prefix_refl _) (Or.inl rfl))
  rw [if_neg halloc] at hexact
  rw [if_neg halloc, if_neg halloc]
  by_cases hlong : defaultScpMsgSz - 1 ≤ (s.scpRecvMsg.getD []).length
  · rw [if_neg (by omega)] at hexpect
    rw [if_pos hlong, if_pos hlong, Read.taken, List.append_nil]
    rw [← hsame] at hread
    exact Calls.Does.pure (.failed rfl hread (List.prefix_refl _) (Or.inr (Or.inr hexpect)))
  rw [if_neg hlong] at hexact
  rw [if_pos (by omega)] at hexpect
  rw [if_neg hlong, if_neg hlong]
  subst hexpect
  have hidle : ∀ msg : Option Bytes, Idle { s with scpRecvMsg := msg } :=
    fun _ hline => absurd hstate hline
  cases hgot : readChannel s (defaultScpMsgSz - (s.scpRecvMsg.getD []).length) rx with
  | got bs rest =>
    have hsz : defaultScpMsgSz = 1024 := rfl
    obtain ⟨hne, hlen, -⟩ := readChannel_got (by omega) hgot
    rw [hgot] at hexact
    exact lineRead_inStep hread hfailed hstate hne hlen (by omega) hexact
  | empty =>
    rw [hgot] at hexact
    exact hexact.elim
  | eof =>
    rw [Read.taken, List.append_nil]
    apply Calls.Does.pure
    rw [Comes, hsame]
    exact .running hfailed hread (Or.inr ⟨_, rfl⟩) fun _ hdone => absurd rfl hdone
  | want =>
    rw [Read.taken, List.append_nil]
    apply Calls.Does.pure
    rw [Comes, hsame]
    refine .running hfailed hread ?_ (hidle _)
    rw [Expects]
    dsimp only
    rw [hstate]
    dsimp only
    rw [Option.getD_some, if_pos (by omega)]
  | failed =>
    rw [Read.taken, List.append_nil]
    rw [← hsame] at hread
    exact Calls.Does.pure (.failed rfl hread (List.prefix_refl _) (Or.inr (Or.inl rfl)))

theorem receiveConfirmation_inStep {rx : Rx} {alloc : Bool}
    (hread : start.Reading read t (s.strict .status)) (hfailed : s.failed = none)
    (hstate : s.scpState = .receiveConfirmation) (hmsg : s.scpRecvMsg.getD [] = [])
    (hexact : Exact s (.drive rx alloc)) :
    Calls.Does anyReply (Comes start (read ++ (readOf s (.drive rx alloc)).taken) t)
      (receiveConfirmation s rx) := by
  have hreads : readOf s (.drive rx alloc) = readChannel s defaultScpMsgSz rx := by
    rw [readOf, if_neg (not_not.mpr hfailed), hstate]
  rw [Exact, hstate, hreads] at hexact
  rw [receiveConfirmation, hreads]
  have hsame := append_byOctets_nil t
  have hstay : Comes start read t s [] := by
    rw [Comes, hsame]
    refine .running hfailed hread ?_ fun _ _ => hmsg
    rw [Expects, hstate]
  have hbroken : Comes start read t (s.fail .transport) [] := by
    rw [Comes, hsame]
    exact .failed rfl hread (List.prefix_refl _) (Or.inr (Or.inl rfl))
  have hoctet : ∀ c : UInt8, start.Reading (read ++ [c]) (t ++ byOctets [])
      (s.strict (if c = 0 then .line [] else .refused)) := by
    intro c
    rw [hsame]
    exact hread.silent trivial c rfl
  cases hgot : readChannel s defaultScpMsgSz rx with
  | got bs rest =>
    rw [hgot] at hexact
    obtain ⟨hne, -, -⟩ := readChannel_got (by decide) hgot
    obtain ⟨c, cs, rfl⟩ := List.exists_cons_of_ne_nil hne
    dsimp only
    by_cases hzero : c = 0
    · have hlen : (c :: cs).length = 1 := hexact hzero
      have hnil : cs = [] := by simpa using hlen
      have hstatus := hoctet c
      rw [if_pos hzero] at hstatus
      rw [List.getD_cons_zero, if_pos hzero, hnil]
      refine Calls.Does.pure (.running hfailed hstatus ?_ fun hline _ => absurd rfl hline)
      rw [Expects]
      dsimp only
      rw [hmsg]
      exact if_pos (by decide) |>.mpr rfl
    · have hstatus := hoctet c
      rw [if_neg hzero] at hstatus
      rw [List.getD_cons_zero, if_neg hzero]
      refine Calls.Does.pure (.failed rfl hstatus ?_ (Or.inr (Or.inr rfl)))
      rw [List.prefix_append_right_inj]
      exact List.prefix_append [c] cs
  | empty =>
    rw [Read.taken, List.append_nil]
    exact Calls.Does.pure hstay
  | want =>
    rw [Read.taken, List.append_nil]
    exact Calls.Does.pure hstay
  | eof =>
    rw [Read.taken, List.append_nil]
    exact Calls.Does.pure hbroken
  | failed =>
    rw [Read.taken, List.append_nil]
    exact Calls.Does.pure hbroken

theorem readOf_want {i : SinkInput} (h : s.failed ≠ none ∨ s.scpState = .sinkBegin ∨
    s.scpState = .sendConfirmation ∨ s.scpState = .done) : readOf s i = .want := by
  cases i with
  | arrive packet => rfl
  | drive rx alloc =>
    rw [readOf]
    by_cases hfailed : s.failed ≠ none
    · rw [if_pos hfailed]
    · rw [if_neg hfailed]
      rcases h.resolve_left hfailed with hstate | hstate | hstate
      · rw [hstate]
      · rw [hstate]
      · rw [hstate]

/-- A step that reads no further than the grammar keeps step with the strict reading. -/
theorem sinkStep_inStep {i : SinkInput} (h : InStep start read t s) (hexact : Exact s i) :
    Calls.Does anyReply (Comes start (read ++ (readOf s i).taken) t) (sinkStep s i) := by
  have hquiet : ∀ s' : Sink, InStep start read t s' → readOf s i = .want →
      Comes start (read ++ (readOf s i).taken) t s' [] := by
    intro s' hs' hwant
    rw [Comes, hwant, append_byOctets_nil, Read.taken, List.append_nil]
    exact hs'
  cases h with
  | failed hfailed hread htaken he =>
    have hne : s.failed ≠ none := by
      rw [hfailed]
      exact nofun
    have hwant : readOf s i = .want := readOf_want (Or.inl hne)
    cases i with
    | arrive packet => exact Calls.Does.pure (hquiet _ (.failed hfailed hread htaken he) hwant)
    | drive rx alloc =>
      rw [sinkStep, doScpSink, if_pos hne]
      exact Calls.Does.pure (hquiet _ (.failed hfailed hread htaken he) hwant)
  | running hfailed hread hexpect hidle =>
    cases i with
    | arrive packet => exact Calls.Does.pure (hquiet _ (.running hfailed hread hexpect hidle) rfl)
    | drive rx alloc =>
      have hwant : ∀ {r : Read}, r = .want → read ++ r.taken = read := by
        rintro _ rfl
        exact List.append_nil read
      rw [sinkStep, doScpSink, if_neg (not_not.mpr hfailed)]
      have hexp := hexpect
      rw [Expects] at hexp
      cases hstate : s.scpState with
      | sinkBegin =>
        rw [hstate] at hexp
        cases hexp
        rw [hwant (readOf_want (Or.inr (Or.inl hstate)))]
        exact sinkBegin_inStep hread hfailed
          (hidle (by rw [hstate]; exact nofun) (by rw [hstate]; exact nofun))
      | receiveMessage => exact receiveMessage_inStep hread hfailed hstate hexpect hexact
      | sendConfirmation =>
        rw [hstate] at hexp
        obtain ⟨next, rfl, hnext⟩ := hexp
        rw [hwant (readOf_want (Or.inr (Or.inr (Or.inl hstate))))]
        exact sendConfirmation_inStep hread hfailed hstate hnext
          (hidle (by rw [hstate]; exact nofun) (by rw [hstate]; exact nofun))
      | receiveFile =>
        rw [hstate] at hexp
        cases hexp
        exact receiveFile_inStep hread hfailed hstate
          (hidle (by rw [hstate]; exact nofun) (by rw [hstate]; exact nofun))
      | receiveConfirmation =>
        rw [hstate] at hexp
        cases hexp
        exact receiveConfirmation_inStep hread hfailed hstate
          (hidle (by rw [hstate]; exact nofun) (by rw [hstate]; exact nofun)) hexact
      | done =>
        exact Calls.Does.pure (hquiet _ (.running hfailed hread hexpect hidle)
          (readOf_want (Or.inr (Or.inr (Or.inr hstate)))))

end Step

section Buffer

variable {s : Sink}

def leftover (s : Sink) : SinkInput → Bytes
  | .arrive packet => s.inbuf ++ packet
  | .drive rx alloc =>
    match readOf s (.drive rx alloc) with
    | .got _ rest => rest
    | .empty | .eof | .want | .failed => s.inbuf

/-- The program leaves `bs` unread. -/
abbrev Unread (bs : Bytes) (m : SinkSys Sink) : Prop :=
  Calls.Does anyReply (fun s _ => s.inbuf = bs) m

theorem messageReceived_unread (s : Sink) : Unread s.inbuf (messageReceived s) := by
  rw [messageReceived]
  cases s.scpMsgType with
  | time => exact Calls.Does.pure rfl
  | dir | endDir | file => exact Calls.Does.call fun _ _ => Calls.Does.pure rfl

theorem lineRead_unread (s : Sink) (msg : Bytes) (alloc : Bool) :
    Unread s.inbuf (lineRead s msg alloc) := by
  rw [lineRead]
  by_cases hend : msg.getLast? = some newline
  · rw [if_pos hend]
    dsimp only
    cases (parseMessage s.toHeader (terminated msg) alloc).2 with
    | error e => exact Calls.Does.pure rfl
    | ok =>
      exact messageReceived_unread { s with
        toHeader := (parseMessage s.toHeader (terminated msg) alloc).1, scpRecvMsg := some [] }
  · rw [if_neg hend]
    exact Calls.Does.pure rfl

theorem filePart_unread (s : Sink) (buf : Bytes) : Unread s.inbuf (filePart s buf) := by
  apply Calls.Does.call
  intro (confirm : Confirm) _
  dsimp only
  by_cases hcont : confirm ≠ .cont
  · rw [if_pos hcont]
    exact Calls.Does.pure rfl
  rw [if_neg hcont]
  by_cases hmore : s.scpFileOffset + buf.length < s.scpFileSz
  · rw [if_pos hmore]
    exact Calls.Does.pure rfl
  · rw [if_neg hmore]
    exact Calls.Does.call fun _ _ => Calls.Does.pure rfl

theorem sendConfirmation_unread (s : Sink) : Unread s.inbuf (sendConfirmation s) := by
  apply Calls.Does.call
  intro (tx : Tx) _
  cases tx with
  | want => exact Calls.Does.pure rfl
  | failed => exact Calls.Does.pure rfl
  | sent =>
    change Calls.Does anyReply _ (if s.scpConfirm = .abort then _ else _)
    by_cases habort : s.scpConfirm = .abort
    · rw [if_pos habort]
      exact Calls.Does.pure rfl
    · rw [if_neg habort]
      exact Calls.Does.pure rfl

theorem sinkStep_unread (s : Sink) (i : SinkInput) : Unread (leftover s i) (sinkStep s i) := by
  cases i with
  | arrive packet => exact Calls.Does.pure rfl
  | drive rx alloc =>
    rw [sinkStep, doScpSink, leftover]
    by_cases hfailed : s.failed ≠ none
    · rw [if_pos hfailed, readOf_want (Or.inl hfailed)]
      exact Calls.Does.pure rfl
    rw [if_neg hfailed]
    cases hstate : s.scpState with
    | sinkBegin =>
      rw [readOf_want (Or.inr (Or.inl hstate))]
      exact Calls.Does.call fun _ _ => Calls.Does.pure rfl
    | sendConfirmation =>
      rw [readOf_want (Or.inr (Or.inr (Or.inl hstate)))]
      exact sendConfirmation_unread s
    | done =>
      rw [readOf_want (Or.inr (Or.inr (Or.inr hstate)))]
      exact Calls.Does.pure rfl
    | receiveMessage =>
      rw [readOf, if_neg hfailed, hstate, receiveMessage]
      dsimp only
      by_cases halloc : s.scpRecvMsg = none ∧ alloc = false
      · rw [if_pos halloc, if_pos halloc]
        exact Calls.Does.pure rfl
      rw [if_neg halloc, if_neg halloc]
      by_cases hlong : defaultScpMsgSz - 1 ≤ (s.scpRecvMsg.getD []).length
      · rw [if_pos hlong, if_pos hlong]
        exact Calls.Does.pure rfl
      rw [if_neg hlong, if_neg hlong]
      cases readChannel s (defaultScpMsgSz - (s.scpRecvMsg.getD []).length) rx with
      | got bs rest => exact lineRead_unread { s with inbuf := rest } _ alloc
      | empty => exact messageReceived_unread { s with scpRecvMsg := some (s.scpRecvMsg.getD []) }
      | eof | want | failed => exact Calls.Does.pure rfl
    | receiveFile =>
      rw [readOf, if_neg hfailed, hstate, receiveFile]
      dsimp only
      by_cases hsize : min (s.scpFileSz - s.scpFileOffset) defaultScpBufferSz = 0
      · rw [if_pos hsize, if_pos hsize]
        exact filePart_unread s []
      rw [if_neg hsize, if_neg hsize]
      by_cases halloc : s.scpFileBuffer = false ∧ alloc = false
      · rw [if_pos halloc, if_pos halloc]
        exact Calls.Does.pure rfl
      rw [if_neg halloc, if_neg halloc]
      have hchannel : readChannel { s with scpFileBuffer := true }
          (min (s.scpFileSz - s.scpFileOffset) defaultScpBufferSz) rx =
          readChannel s (min (s.scpFileSz - s.scpFileOffset) defaultScpBufferSz) rx := rfl
      rw [hchannel]
      cases readChannel s (min (s.scpFileSz - s.scpFileOffset) defaultScpBufferSz) rx with
      | got bs rest => exact filePart_unread _ bs
      | empty | eof | want | failed => exact Calls.Does.pure rfl
    | receiveConfirmation =>
      rw [readOf, if_neg hfailed, hstate, receiveConfirmation]
      dsimp only
      cases readChannel s defaultScpMsgSz rx with
      | got bs rest =>
        dsimp only
        by_cases hzero : bs.getD 0 0 = 0
        · rw [if_pos hzero]
          exact Calls.Does.pure rfl
        · rw [if_neg hzero]
          exact Calls.Does.pure rfl
      | empty | eof | want | failed => exact Calls.Does.pure rfl

end Buffer

section Run

/-- The sink with its calls, what it took from the stream and what came in. -/
structure Feed where
  sink : Sink
  trace : List SinkEvent := []
  read : Bytes := []
  arrived : Bytes := []

/-- The packets that come in by a step: one that is buffered, or one that is read at once. -/
def incoming (s : Sink) : SinkInput → Bytes
  | .arrive packet => packet
  | .drive rx alloc =>
    match readOf s (.drive rx alloc) with
    | .got _ _ => if s.inbuf ≠ [] then [] else rx.packet
    | .empty | .eof | .want | .failed => []

abbrev SinkEnv := Calls.Env SinkCall SinkCall.Ans

def Feed.step (env : SinkEnv) (f : Feed) (i : SinkInput) : Feed :=
  let out := Calls.run env (sinkStep f.sink i) f.trace
  { sink := out.1, trace := out.2, read := f.read ++ (readOf f.sink i).taken
    arrived := f.arrived ++ incoming f.sink i }

structure Sink.Begins (s : Sink) : Prop where
  state : s.scpState = .sinkBegin
  failed : s.failed = none
  msg : s.scpRecvMsg.getD [] = []
  offset : s.scpFileOffset = 0

def Feed.start (s : Sink) : Feed := { sink := s, arrived := s.inbuf }

theorem readOf_got {s : Sink} {rx : Rx} {alloc : Bool} {bs rest : Bytes}
    (hgot : readOf s (.drive rx alloc) = .got bs rest) :
    ∃ limit, 0 < limit ∧ readChannel s limit rx = .got bs rest := by
  rw [readOf] at hgot
  by_cases hfailed : s.failed ≠ none
  · rw [if_pos hfailed] at hgot
    cases hgot
  rw [if_neg hfailed] at hgot
  cases hstate : s.scpState with
  | sinkBegin | sendConfirmation | done =>
    rw [hstate] at hgot
    cases hgot
  | receiveMessage =>
    rw [hstate] at hgot
    dsimp only at hgot
    split at hgot
    · cases hgot
    · split at hgot
      · cases hgot
      · have hsz : defaultScpMsgSz = 1024 := rfl
        exact ⟨_, by omega, hgot⟩
  | receiveFile =>
    rw [hstate] at hgot
    dsimp only at hgot
    split at hgot
    · cases hgot
    · rename_i hsize
      split at hgot
      · cases hgot
      · exact ⟨_, Nat.pos_of_ne_zero hsize, hgot⟩
  | receiveConfirmation =>
    rw [hstate] at hgot
    exact ⟨_, by decide, hgot⟩

theorem taken_leftover (s : Sink) (i : SinkInput) :
    (readOf s i).taken ++ leftover s i = s.inbuf ++ incoming s i := by
  cases i with
  | arrive packet => rfl
  | drive rx alloc =>
    rw [leftover, incoming]
    cases hread : readOf s (.drive rx alloc) with
    | got bs rest =>
      obtain ⟨limit, hlimit, hgot⟩ := readOf_got hread
      obtain ⟨-, -, hall⟩ := readChannel_got hlimit hgot
      rw [Read.taken]
      dsimp only
      rw [hall]
      by_cases hbuf : s.inbuf ≠ []
      · rw [if_pos hbuf, if_pos hbuf, List.append_nil]
      · rw [if_neg hbuf, if_neg hbuf, not_not.mp hbuf, List.nil_append]
    | empty | eof | want | failed => exact (List.append_nil _).symm

variable {env : SinkEnv} {s : Sink}

structure Feed.Sound (start : Strict) (f : Feed) : Prop where
  arrived : f.read ++ f.sink.inbuf = f.arrived
  inStep : InStep start f.read (byOctets f.trace) f.sink

theorem Feed.step_sound {start : Strict} {f : Feed} {i : SinkInput} (hf : f.Sound start)
    (hexact : Exact f.sink i) : (f.step env i).Sound start := by
  have hany : ∀ (h : List SinkEvent) (c : SinkCall), anyReply c (env h c) := fun _ _ => trivial
  obtain ⟨new, htrace, hnew⟩ :=
    (sinkStep_inStep hf.inStep hexact).run hany f.trace
  obtain ⟨_, -, hunread⟩ := (sinkStep_unread f.sink i).run hany f.trace
  constructor
  · change f.read ++ (readOf f.sink i).taken ++ (Calls.run env (sinkStep f.sink i) f.trace).1.inbuf =
      f.arrived ++ incoming f.sink i
    rw [hunread, List.append_assoc, taken_leftover, ← List.append_assoc, hf.arrived]
  · change InStep start _ (byOctets (Calls.run env (sinkStep f.sink i) f.trace).2) _
    rw [htrace, byOctets_append]
    exact hnew

theorem Sink.Begins.sound (hs : s.Begins) : (Feed.start s).Sound (s.strict .begin) := by
  refine ⟨rfl, .running hs.failed .start ?_ fun _ _ => hs.msg⟩
  rw [Feed.start, Expects, hs.state]

/-- In every run in which each read stops where the grammar does, the calls of the sink are those of
the strict reading of the octets that it took, which are the stream up to what is unread. -/
theorem sink_reads_strictly (env : SinkEnv) (hs : s.Begins) {inputs : List SinkInput}
    (hexact : Runs.Meets (Feed.step env) (fun f i => Exact f.sink i) (Feed.start s) inputs) :
    ∀ f ∈ Runs.states (Feed.step env) (Feed.start s) inputs,
      f.read ++ f.sink.inbuf = f.arrived ∧
        InStep (s.strict .begin) f.read (byOctets f.trace) f.sink := by
  have hkeep : ∀ (f : Feed) (i : SinkInput), f.Sound (s.strict .begin) → Exact f.sink i →
      (f.step env i).Sound (s.strict .begin) := fun f i hf hi => Feed.step_sound hf hi
  intro f hf
  have hsound := @Runs.invariant _ _ _ _ (fun f => f.Sound (s.strict .begin)) hkeep _ hs.sound _
    hexact f hf
  exact ⟨hsound.arrived, hsound.inStep⟩

/-- A callback that goes on and a transport that sends. -/
def willingEnv : SinkEnv := fun _ c =>
  match c with
  | .callback _ => Confirm.cont
  | .confirm _ => Tx.sent

/-- A file of one octet, up to the confirmation of its end. -/
def oneFile : List SinkInput :=
  [.drive .want true, .drive .want true, .drive (.data (ascii "C0644 1 a\n")) true, .drive .want true,
    .drive (.data (ascii "x")) true, .drive .want true]

/-- The status of the file and the next file, in packets of their own and in one. -/
def nextApart : List SinkInput :=
  oneFile ++ [.drive (.data [0]) true, .drive (.data (ascii "C0644 1 b\n")) true]

def nextTogether : List SinkInput :=
  oneFile ++ [.drive (.data ([0] ++ ascii "C0644 1 b\n")) true, .drive .want true]

def runOf (inputs : List SinkInput) : Feed := inputs.foldl (Feed.step willingEnv) (Feed.start {})

instance (s : Sink) (i : SinkInput) : Decidable (Exact s i) := by
  unfold Exact
  split <;> infer_instance

theorem sink_reads_strictly_apart :
    ((runOf nextApart).read ++ (runOf nextApart).sink.inbuf = (runOf nextApart).arrived ∧
      InStep (({} : Sink).strict .begin) (runOf nextApart).read (byOctets (runOf nextApart).trace)
        (runOf nextApart).sink) ∧
    (runOf nextApart).sink.scpFileName = some (ascii "b") := by
  have hexact : Runs.Meets (Feed.step willingEnv) (fun f i => Exact f.sink i) (Feed.start {})
      nextApart := by
    unfold Runs.Meets
    decide +kernel
  exact ⟨sink_reads_strictly willingEnv ⟨rfl, rfl, rfl, rfl⟩ hexact _ (Runs.foldl_mem_states _ _),
    by decide +kernel⟩

/-- The same octets in other packets: the second file is never begun. -/
theorem sink_swallows :
    (runOf nextTogether).read = (runOf nextApart).read ∧
    (byOctets (runOf nextTogether).trace).length < (byOctets (runOf nextApart).trace).length ∧
    (runOf nextTogether).sink.scpState = .receiveMessage ∧
    (runOf nextTogether).sink.scpFileName = some (ascii "a") ∧
    (runOf nextApart).sink.scpFileName = some (ascii "b") := by
  decide +kernel

end Run

end WolfSsh.Scp
