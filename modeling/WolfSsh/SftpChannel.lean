import WolfSsh.SftpRead

/-! What wolfSSH_SFTP_buffer_read and wolfSSH_SFTP_buffer_send do to the octets of the channel, on a
channel that may hold the caller up at any point but does not fail. -/

namespace WolfSsh.Sftp

/-- The statuses for which wolfSSH_SFTP_LS keeps its state: nothing to read, no room to write, a key
exchange. -/
def isWant (error : Code) : Bool :=
  decide (error = .wantRead ∨ error = .wantWrite ∨ error = .rekeying)

/-- wolfSSH_SFTP_read keeps its state for a full window of the peer as well. -/
def isBusy (error : Code) : Bool := isWant error || decide (error = .windowFull)

/-- Where a round with room in the buffer stops, it stops at a status that is `held`. -/
def Poll.Waits (held : Code → Bool) (p : Poll) : Prop :=
  ∀ room c ret c', 0 < room → p.round room c = (.stop ret, c') → held c'.error = true

/-- Where a send stops, it stops at a status that is `held`. -/
def Sends.Waits (held : Code → Bool) (x : Sends) : Prop :=
  ∀ rest error ret error', bufferSend x rest error = (.error ret, error') → held error' = true

theorem isBusy_of_isWant {error : Code} (h : isWant error = true) : isBusy error = true := by
  rw [isBusy, h, Bool.true_or]

theorem noticeError_of_isBusy {error : Code} (h : isBusy error = true) : noticeError error = true := by
  cases error <;> simp_all [isBusy, isWant, noticeError]

theorem noticeError_of_isWant {error : Code} (h : isWant error = true) : noticeError error = true :=
  noticeError_of_isBusy (isBusy_of_isWant h)

theorem Poll.Waits.busy {p : Poll} (h : p.Waits isWant) : p.Waits isBusy :=
  fun room c ret c' hroom hr => isBusy_of_isWant (h room c ret c' hroom hr)

theorem Sends.Waits.busy {x : Sends} (h : x.Waits isWant) : x.Waits isBusy :=
  fun rest error ret error' hs => isBusy_of_isWant (h rest error ret error' hs)

def Round.bytes : Round → Bytes
  | .stop _ => []
  | .got bs => bs

/-- A round takes what it gives from the front of the channel, and no more than there is room for. -/
def Conserves (room : Nat) (c : Chan) (r : Round × Chan) : Prop :=
  r.1.bytes ++ r.2.stream = c.stream ∧ r.1.bytes.length ≤ room

section Rounds

variable {p : Poll} {room : Nat} {c : Chan}

theorem Conserves.of_stream {c' : Chan} {r : Round × Chan} (h : Conserves room c' r)
    (hc : c'.stream = c.stream) : Conserves room c r := by
  rw [Conserves, ← hc]
  exact h

theorem conserves_stay (ret : Code) : Conserves room c (.stop ret, c) :=
  ⟨rfl, Nat.zero_le _⟩

theorem conserves_nothing : Conserves room c (.got [], c) :=
  ⟨rfl, Nat.zero_le _⟩

theorem failed_conserves (polled : Bool) : Conserves room c (p.failed polled c) := by
  rw [Poll.failed]
  split
  · split
    · exact conserves_nothing
    · split
      · exact conserves_nothing.of_stream rfl
      · split
        · exact (conserves_stay _).of_stream rfl
        · exact conserves_nothing.of_stream rfl
  · exact conserves_stay _

theorem take_conserves (polled : Bool) : Conserves room c (p.take room polled c) := by
  have hsplit : ∀ n, c.stream.take (min n room) ++ c.stream.drop (min n room) = c.stream :=
    fun n => List.take_append_drop _ _
  rw [Poll.take, streamRead]
  by_cases hroom : room = 0
  · rw [if_pos hroom]
    exact failed_conserves polled
  · rw [if_neg hroom]
    cases p.read.result with
    | error e => exact (failed_conserves polled).of_stream rfl
    | ok n =>
      refine ⟨hsplit n, ?_⟩
      rw [Round.bytes, List.length_take]
      omega

theorem poll_conserves : Conserves room c (p.poll room c) := by
  rw [Poll.poll]
  split
  · exact conserves_nothing.of_stream rfl
  · split
    · exact (take_conserves true).of_stream rfl
    · exact (failed_conserves true).of_stream rfl

theorem look_conserves : Conserves room c (p.look room c) := by
  rw [Poll.look]
  split
  · split
    · exact poll_conserves.of_stream rfl
    · exact (take_conserves false).of_stream rfl
  · split
    · exact poll_conserves.of_stream rfl
    · exact (conserves_stay _).of_stream rfl

theorem round_conserves : Conserves room c (p.round room c) := by
  rw [Poll.round]
  split
  · split
    · exact look_conserves.of_stream rfl
    · exact (conserves_stay _).of_stream rfl
  · exact look_conserves

end Rounds

/-- What a read into a buffer of `sz` octets comes to: the buffer is full, or the channel has to be
waited for. No octet is lost or read twice. -/
inductive ReadOut (held : Code → Bool) (sz : Nat) (buf : Bytes) (c : Chan) :
    Option Code × Bytes × Chan → Prop
  | full {buf' : Bytes} {c' : Chan} (hlen : buf'.length = sz)
    (hkept : buf' ++ c'.stream = buf ++ c.stream) : ReadOut held sz buf c (none, buf', c')
  | waits {ret : Code} {buf' : Bytes} {c' : Chan} (hlen : buf'.length < sz)
    (hkept : buf' ++ c'.stream = buf ++ c.stream) (hheld : held c'.error = true) :
    ReadOut held sz buf c (some ret, buf', c')

theorem bufferRead_out {held : Code → Bool} (hread : held .wantRead = true) {sz : Nat}
    {ps : List Poll} (hps : ∀ p ∈ ps, p.Waits held) {buf : Bytes} (hbuf : buf.length < sz)
    (c : Chan) : ReadOut held sz buf c (bufferRead sz ps buf c) := by
  induction ps generalizing buf c with
  | nil => exact .waits hbuf rfl hread
  | cons p ps ih =>
    obtain ⟨hkept, hroom⟩ := @round_conserves p (sz - buf.length) c
    have hwaits := hps p List.mem_cons_self (sz - buf.length) c
    rw [bufferRead]
    rcases hround : p.round (sz - buf.length) c with ⟨ret | bs, c'⟩
    · rw [hround] at hkept
      exact .waits hbuf (by rw [← hkept]; rfl) (hwaits ret c' (by omega) hround)
    · rw [hround] at hkept hroom
      have hall : buf ++ bs ++ c'.stream = buf ++ c.stream := by
        rw [← hkept, List.append_assoc, Round.bytes]
      have hlen : (buf ++ bs).length ≤ sz := by
        rw [List.length_append]
        rw [Round.bytes] at hroom
        omega
      dsimp only
      by_cases hmore : (buf ++ bs).length < sz
      · rw [if_pos hmore]
        have hrest := ih (fun q hq => hps q (List.mem_cons_of_mem p hq)) hmore c'
        cases hread : bufferRead sz ps (buf ++ bs) c' with
        | mk res out =>
          obtain ⟨buf', c''⟩ := out
          rw [hread] at hrest
          cases hrest with
          | full hlen hkept => exact .full hlen (hkept.trans hall)
          | waits hlen hkept hheld => exact .waits hlen (hkept.trans hall) hheld
      · rw [if_neg hmore]
        exact .full (by omega) hall

theorem bufferSend_le {x : Sends} {rest : Bytes} {error error' : Code} {n : Nat}
    (h : bufferSend x rest error = (.ok n, error')) : n ≤ rest.length := by
  have hstream (e : Code) (hs : streamSend x rest e = (.ok n, error')) : n ≤ rest.length := by
    rw [streamSend] at hs
    by_cases hrest : rest = []
    · rw [if_pos hrest] at hs
      cases hs
      exact Nat.zero_le _
    · rw [if_neg hrest] at hs
      cases hsend : x.send.result with
      | error e => simp [hsend] at hs
      | ok m =>
        simp only [hsend, Prod.mk.injEq, Except.ok.injEq] at hs
        omega
  have hrest (e : Code) (hs : sendRest x rest e = (.ok n, error')) : n ≤ rest.length := by
    rw [sendRest] at hs
    rcases hdrive : driveWorker x.drives x.keying e with ⟨_ | ret, e'⟩
    · rw [hdrive] at hs
      exact hstream e' hs
    · simp [hdrive] at hs
  rw [bufferSend] at h
  split at h
  · rcases hflush : x.flush.result with _ | u
    · simp [hflush] at h
    · rw [hflush] at h
      exact hrest _ h
  · exact hrest _ h

end WolfSsh.Sftp
