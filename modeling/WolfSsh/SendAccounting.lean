import WolfSsh.Lib.Runs
import WolfSsh.SendWindow

/-! What a call that sends channel data says about itself: the window is charged exactly for what it
framed, and its answer is right unless its packet meets an error once it is framed. -/

namespace WolfSsh.SendWindow

/-! What the answers of the send callback do to `n` octets of output. -/

/-- Some number of octets is left when a general error discards them. -/
inductive Fate where
  | drained | blocked | failed
  | discarded (left : Nat)
deriving DecidableEq, Repr

def fate : List IoSend → Nat → Fate
  | _, 0 => .drained
  | [], _ + 1 => .blocked
  | .sent m :: io, n + 1 => fate io (n + 1 - m)
  | .beyond :: _, _ + 1 => .failed
  | .isr :: io, n + 1 => fate io (n + 1)
  | .wantWrite :: _, _ + 1 => .blocked
  | .connRst :: _, _ + 1 => .failed
  | .connClose :: _, _ + 1 => .failed
  | .timeout :: _, _ + 1 => .failed
  | .general :: _, n + 1 => .discarded (n + 1)

/-- What the flush of these octets comes to. -/
def Meets (out : List Octet) (r : Flush) : Fate → Prop
  | .drained => r = ⟨.ok (), out, []⟩
  | .blocked => ∃ m, r = ⟨.error .wantWrite, out.take m, out.drop m⟩
  | .failed => ∃ m e, e ≠ .wantWrite ∧ r = ⟨.error e, out.take m, out.drop m⟩
  | .discarded left =>
    left ≤ out.length ∧ r = ⟨.error .socketErrorE, out.take (out.length - left), []⟩

theorem Meets.sent {out : List Octet} {r : Flush} {f : Fate} (m : Nat) (h : Meets (out.drop m) r f) :
    Meets out { r with went := out.take m ++ r.went } f := by
  have htake : ∀ j, out.take m ++ (out.drop m).take j = out.take (m + j) :=
    fun j => (List.take_add ..).symm
  cases f with
  | drained =>
    obtain rfl : r = _ := h
    simp [Meets]
  | blocked =>
    obtain ⟨j, rfl⟩ := h
    exact ⟨m + j, by simp [htake, List.drop_drop]⟩
  | failed =>
    obtain ⟨j, e, he, rfl⟩ := h
    exact ⟨m + j, e, he, by simp [htake, List.drop_drop]⟩
  | discarded left =>
    obtain ⟨hle, rfl⟩ := h
    rw [List.length_drop] at hle
    refine ⟨by omega, ?_⟩
    rw [List.length_drop, htake]
    rcases Nat.lt_or_ge m out.length with hm | hm
    · rw [show m + (out.length - m - left) = out.length - left by omega]
    · obtain rfl : left = 0 := by omega
      have hwhole : ∀ j, out.length ≤ j → out.take j = out := fun j hj => List.take_of_length_le hj
      rw [hwhole _ (by omega), hwhole _ (by omega)]

theorem sendPacketFlush_meets (io : List IoSend) (out : List Octet) :
    Meets out (sendPacketFlush io out) (fate io out.length) := by
  induction io generalizing out with
  | nil =>
    cases out with
    | nil => rfl
    | cons b out => exact ⟨0, rfl⟩
  | cons a io ih =>
    cases out with
    | nil => cases a <;> rfl
    | cons b out =>
      cases a with
      | sent m =>
        have hrest := ih ((b :: out).drop m)
        rw [List.length_drop] at hrest
        exact hrest.sent m
      | isr => exact ih (b :: out)
      | wantWrite => exact ⟨0, rfl⟩
      | beyond => exact ⟨0, .sendOobReadE, nofun, rfl⟩
      | connRst => exact ⟨0, .socketErrorE, nofun, rfl⟩
      | connClose => exact ⟨0, .socketErrorE, nofun, rfl⟩
      | timeout => exact ⟨0, .socketErrorE, nofun, rfl⟩
      | general => exact ⟨Nat.le_refl _, by simp [sendPacketFlush]⟩

/-! The octets of one call. -/

/-- The data of a call among these octets. -/
def own (call : Nat) (octets : List Octet) : Bytes :=
  octets.filterMap fun o => o.bind fun d => if d.1 = call then some d.2 else none

section Own

variable {call : Nat}

@[simp] theorem own_nil : own call [] = [] := rfl

@[simp] theorem own_append (xs ys : List Octet) : own call (xs ++ ys) = own call xs ++ own call ys :=
  List.filterMap_append ..

@[simp] theorem own_replicate_none (n : Nat) : own call (List.replicate n none) = [] := by
  rw [own, List.filterMap_eq_nil_iff]
  intro o ho
  rw [List.eq_of_mem_replicate ho]
  rfl

@[simp] theorem own_data (data : Bytes) : own call (data.map fun b => some (call, b)) = data := by
  simp [own, List.filterMap_map]

theorem own_eq_nil {octets : List Octet} (h : ∀ b, some (call, b) ∉ octets) : own call octets = [] := by
  rw [own, List.filterMap_eq_nil_iff]
  intro o ho
  rcases o with _ | ⟨c, b⟩
  · rfl
  · have hc : c ≠ call := by
      rintro rfl
      exact h b ho
    simp [hc]

/-- Of a frame cut anywhere, the first part has none of the data if it ends in the header. -/
theorem own_take_frame {headSz tailSz m : Nat} {data : Bytes} :
    own call ((frame call headSz tailSz data).take m) = data.take (m - headSz) := by
  rw [frame, List.take_append, own_append, List.length_replicate, List.take_replicate,
    own_replicate_none, List.nil_append, List.take_append, own_append, List.take_replicate,
    own_replicate_none, List.append_nil, ← List.map_take, own_data]

theorem own_frame {headSz tailSz : Nat} {data : Bytes} :
    own call (frame call headSz tailSz data) = data := by
  simp [frame]

end Own

/-! What a send leaves, by the fate of the output. -/

namespace Session

variable {ssh : Session} {env : SendEnv}

/-- The call of the highwater callback that a complete flush makes. -/
def called (ssh : Session) (call : Option HighwaterCall) : Option HighwaterCall :=
  if ssh.disconnected then none else call

def answer (call : Option HighwaterCall) : Except SendErr Nat :=
  match call with
  | none => .ok 0
  | some call => call.ret

/-- The callback starts a key exchange: its KEXINIT is out or queued. -/
def Rekeys (call : Option HighwaterCall) : Prop :=
  ∃ c sz io, call = some c ∧ c.kexInit = some (sz, io) ∧ (fate io sz = .drained ∨ fate io sz = .blocked)

/-- The session with other output, none of it channel data, behind what is on the wire. -/
def Adds (ssh ssh' : Session) (n m : Nat) : Prop :=
  ssh' = { ssh with
    wire := ssh.wire ++ List.replicate n none
    outputBuffer := List.replicate m none
    isKeying := ssh'.isKeying }

theorem sendKexInit_adds (hout : ssh.outputBuffer = []) (sz : Nat) (io : List IoSend) :
    ∃ n m, Adds ssh (ssh.sendKexInit sz io) n m ∧
      if fate io sz = .drained ∨ fate io sz = .blocked then (ssh.sendKexInit sz io).isKeying = true
      else m = 0 ∧ (ssh.sendKexInit sz io).isKeying = ssh.isKeying := by
  have hmeets := sendPacketFlush_meets io (List.replicate sz none)
  rw [List.length_replicate] at hmeets
  have hqueue : ssh.queue (List.replicate sz none) = { ssh with outputBuffer := List.replicate sz none } := by
    rw [queue, hout, List.nil_append]
  rw [sendKexInit, hqueue]
  cases hfate : fate io sz with
  | drained =>
    rw [hfate] at hmeets
    have hflush : sendPacketFlush io (List.replicate sz none) = _ := hmeets
    simp only [hflush, flushed]
    exact ⟨sz, 0, rfl, by simp⟩
  | blocked =>
    rw [hfate] at hmeets
    obtain ⟨j, hflush⟩ := hmeets
    rw [List.take_replicate, List.drop_replicate] at hflush
    simp only [hflush, flushed]
    exact ⟨_, _, rfl, by simp⟩
  | failed =>
    rw [hfate] at hmeets
    obtain ⟨j, e, he, hflush⟩ := hmeets
    rw [List.take_replicate, List.drop_replicate] at hflush
    simp only [hflush, flushed]
    cases e with
    | wantWrite => exact absurd rfl he
    | _ => exact ⟨_, 0, rfl, by simp⟩
  | discarded left =>
    rw [hfate] at hmeets
    obtain ⟨-, hflush⟩ := hmeets
    rw [List.take_replicate] at hflush
    simp only [hflush, flushed]
    exact ⟨_, 0, rfl, by simp⟩

theorem highwaterCheck_adds (hout : ssh.outputBuffer = []) (call : Option HighwaterCall) :
    (ssh.highwaterCheck call).1 = answer (ssh.called call) ∧
      ∃ n m, Adds ssh (ssh.highwaterCheck call).2 n m ∧
        ((Rekeys (ssh.called call) ∧ (ssh.highwaterCheck call).2.isKeying = true) ∨
          (¬ Rekeys (ssh.called call) ∧ m = 0 ∧ (ssh.highwaterCheck call).2.isKeying = ssh.isKeying)) := by
  have hquiet : Adds ssh ssh 0 0 := by
    rw [Adds, List.replicate_zero, List.append_nil, ← hout]
  cases call with
  | none =>
    have hnone : ssh.called none = none := by simp [called]
    rw [hnone]
    exact ⟨rfl, 0, 0, hquiet, .inr ⟨by simp [Rekeys], rfl, rfl⟩⟩
  | some c =>
    by_cases hdead : ssh.disconnected = true
    · have hnone : ssh.called (some c) = none := by simp [called, hdead]
      rw [hnone, highwaterCheck, if_pos hdead]
      exact ⟨rfl, 0, 0, hquiet, .inr ⟨by simp [Rekeys], rfl, rfl⟩⟩
    · have hsome : ssh.called (some c) = some c := by simp [called, hdead]
      rw [hsome, highwaterCheck, if_neg hdead]
      cases hkex : c.kexInit with
      | none => exact ⟨rfl, 0, 0, hquiet, .inr ⟨by simp [Rekeys, hkex], rfl, rfl⟩⟩
      | some k =>
        obtain ⟨sz, io⟩ := k
        obtain ⟨n, m, hadds, hkeying⟩ := sendKexInit_adds hout sz io
        refine ⟨rfl, n, m, hadds, ?_⟩
        have hrekeys : Rekeys (some c) ↔ fate io sz = .drained ∨ fate io sz = .blocked := by
          constructor
          · rintro ⟨c', sz', io', hc, hkex', hfate⟩
            obtain rfl := Option.some.inj hc
            obtain ⟨rfl, rfl⟩ := Prod.mk.inj (Option.some.inj (hkex.symm.trans hkex'))
            exact hfate
          · exact fun hfate => ⟨c, sz, io, rfl, hkex, hfate⟩
        rw [hrekeys]
        split at hkeying
        · rename_i hfate
          exact .inl ⟨hfate, hkeying⟩
        · rename_i hfate
          exact .inr ⟨hfate, hkeying.1, hkeying.2⟩

theorem sendPacket_drained (hfate : fate env.io ssh.outputBuffer.length = .drained) :
    ssh.sendPacket env =
      ({ ssh with wire := ssh.wire ++ ssh.outputBuffer, outputBuffer := [] } : Session).highwaterCheck
        env.highwater := by
  have hmeets := sendPacketFlush_meets env.io ssh.outputBuffer
  rw [hfate] at hmeets
  have hflush : sendPacketFlush env.io ssh.outputBuffer = _ := hmeets
  simp only [sendPacket, hflush, flushed]

/-- A flush that is not complete takes some octets to the wire, and keeps the others or none. -/
theorem sendPacket_stopped (hfate : fate env.io ssh.outputBuffer.length ≠ .drained) :
    ∃ m kept e, ssh.sendPacket env =
        (.error e, { ssh with wire := ssh.wire ++ ssh.outputBuffer.take m, outputBuffer := kept }) ∧
      (e = .wantWrite ↔ fate env.io ssh.outputBuffer.length = .blocked) ∧
      ((∃ left, fate env.io ssh.outputBuffer.length = .discarded left ∧
          m = ssh.outputBuffer.length - left ∧ kept = []) ∨
        ((∀ left, fate env.io ssh.outputBuffer.length ≠ .discarded left) ∧
          kept = ssh.outputBuffer.drop m)) := by
  have hmeets := sendPacketFlush_meets env.io ssh.outputBuffer
  cases hf : fate env.io ssh.outputBuffer.length with
  | drained => exact absurd hf hfate
  | blocked =>
    rw [hf] at hmeets
    obtain ⟨m, hflush⟩ := hmeets
    refine ⟨m, ssh.outputBuffer.drop m, .wantWrite, ?_, by simp, .inr ⟨nofun, rfl⟩⟩
    simp only [sendPacket, hflush, flushed]
  | failed =>
    rw [hf] at hmeets
    obtain ⟨m, e, he, hflush⟩ := hmeets
    refine ⟨m, ssh.outputBuffer.drop m, e, ?_, by simp [he], .inr ⟨nofun, rfl⟩⟩
    simp only [sendPacket, hflush, flushed]
  | discarded left =>
    rw [hf] at hmeets
    obtain ⟨-, hflush⟩ := hmeets
    refine ⟨ssh.outputBuffer.length - left, [], .socketErrorE, ?_, by simp, .inl ⟨left, rfl, rfl, rfl⟩⟩
    simp only [sendPacket, hflush, flushed]

end Session

/-! The two halves of what a call promises. -/

/-- The window of the channel is charged for the first `k` octets of the data, which are within all
its bounds, and for nothing else. -/
def Charged (ssh : Session) (id : Nat) (data : Bytes) (k : Nat) (ssh' : Session) : Prop :=
  (k = 0 ∧ ssh'.channelList = ssh.channelList) ∨
    ∃ ch, ssh.channelFind id = some ch ∧ k ≤ data.length ∧ k ≤ ch.bound ∧
      ssh'.channelList = (ssh.put { ch with
        peerWindowSz := ch.peerWindowSz - k, framed := ch.framed ++ data.take k }).channelList

/-- The octets in the output buffer and on the wire. -/
def Session.octets (ssh : Session) : List Octet := ssh.wire ++ ssh.outputBuffer

/-- A count is that of the octets charged, all of them in the output; after an error there is none. -/
def Truthful (ssh : Session) (id : Nat) (data : Bytes) (r : Except SendErr Nat × Session) : Prop :=
  match r.1 with
  | .ok n => Charged ssh id data n r.2 ∧ n ≤ data.length ∧ own (ssh.calls + 1) r.2.octets = data.take n
  | .error _ => own (ssh.calls + 1) r.2.octets = []

/-- The call gets a packet with data of this channel framed. -/
def Frames (ssh : Session) (env : CallEnv) (id : Nat) (data : Bytes) (ch : Channel) : Prop :=
  ssh.channelFind id = some ch ∧ ch.eofTxd = false ∧ ch.peerWindowSz ≠ 0 ∧
    ¬ (ch.bound = 0 ∧ data.length ≠ 0) ∧ env.bundles = true

/-- What happens to the packet of `k` octets of data leaves the answer right. -/
def LateFine (ssh : Session) (headSz : Nat) (env : CallEnv) (k : Nat) : Prop :=
  match fate env.late.io (headSz + k + env.tailSz) with
  | .drained =>
    match Session.answer (ssh.called env.late.highwater) with
    | .ok n => n = 0 ∨ n = k
    | .error e => e = .wantWrite ∨ k = 0
  | .blocked => True
  | .failed => k = 0
  | .discarded left => headSz + k + env.tailSz - left ≤ headSz ∨ k = 0

section Late

variable {ssh now : Session} {headSz id : Nat} {env : CallEnv} {data : Bytes} {ch : Channel}

theorem length_frame (call headSz tailSz : Nat) (data : Bytes) :
    (frame call headSz tailSz data).length = headSz + data.length + tailSz := by
  simp [frame, Nat.add_assoc]

theorem eq_of_mem_frame {call headSz tailSz c : Nat} {data : Bytes} {b : UInt8}
    (h : some (c, b) ∈ frame call headSz tailSz data) : c = call := by
  rw [frame, List.mem_append, List.mem_append, List.mem_map] at h
  rcases h with h | ⟨_, -, h⟩ | h
  · simp at h
  · exact (Prod.mk.inj (Option.some.inj h)).1.symm
  · simp at h

theorem take_bound (data : Bytes) (bound : Nat) :
    data.take (min bound data.length) = data.take bound := by
  rcases Nat.le_total bound data.length with h | h
  · rw [Nat.min_eq_left h]
  · rw [Nat.min_eq_right h, List.take_length, List.take_of_length_le h]

theorem charged_put (hfind : ssh.channelFind id = some ch) (hlist : now.channelList = ssh.channelList)
    {ssh' : Session} {headSz tailSz : Nat}
    (hsame : ssh'.channelList = (now.charged headSz tailSz ch (data.take ch.bound)).channelList) :
    Charged ssh id data (min ch.bound data.length) ssh' := by
  refine .inr ⟨ch, hfind, Nat.min_le_right _ _, Nat.min_le_left _ _, hsame.trans ?_⟩
  rw [take_bound]
  simp [Session.charged, Session.put, Session.queue, hlist, List.length_take]

theorem whole_truthful {ret : Except SendErr Nat} {ssh' : Session}
    (hcharged : Charged ssh id data (min ch.bound data.length) ssh')
    (hown : own (ssh.calls + 1) ssh'.octets = data.take ch.bound) :
    Truthful ssh id data (ret, ssh') ↔
      match ret with
      | .ok n => n = min ch.bound data.length
      | .error _ => min ch.bound data.length = 0 := by
  have hlen : (data.take ch.bound).length = min ch.bound data.length := List.length_take
  cases ret with
  | error e =>
    show own (ssh.calls + 1) ssh'.octets = [] ↔ _
    rw [hown, ← hlen, List.length_eq_zero_iff]
  | ok n =>
    constructor
    · rintro ⟨-, hn, hmine⟩
      rw [hown] at hmine
      have hsame := congrArg List.length hmine
      rw [hlen, List.length_take, Nat.min_eq_left hn] at hsame
      exact hsame.symm
    · rintro rfl
      exact ⟨hcharged, Nat.min_le_right _ _, by rw [hown, take_bound]⟩

theorem taken_truthful {ret : Except SendErr Nat} {ssh' : Session}
    (hcharged : Charged ssh id data (min ch.bound data.length) ssh')
    (hown : own (ssh.calls + 1) ssh'.octets = data.take ch.bound) :
    Truthful ssh id data (taken (min ch.bound data.length) ret, ssh') ↔
      match ret with
      | .ok n => n = 0 ∨ n = min ch.bound data.length
      | .error e => e = .wantWrite ∨ min ch.bound data.length = 0 := by
  rw [whole_truthful hcharged hown]
  cases ret with
  | ok n =>
    cases n with
    | zero => simp [taken]
    | succ n => simp [taken]
  | error e =>
    by_cases he : e = .wantWrite
    · subst he
      simp [taken]
    · have hkept : taken (min ch.bound data.length) (.error e) = .error e := by
        cases e <;> first | rfl | exact absurd rfl he
      rw [hkept]
      simp [he]

/-- With no output before it, the packet's fate decides whether the answer is right. -/
theorem late_truthful (hout : now.outputBuffer = []) (hcalls : now.calls = ssh.calls + 1)
    (hclean : own (ssh.calls + 1) now.wire = []) (hlive : now.disconnected = ssh.disconnected)
    (hlist : now.channelList = ssh.channelList) (hframes : Frames ssh env id data ch) :
    let r := (now.charged headSz env.tailSz ch (data.take ch.bound)).sendPacket env.late
    Truthful ssh id data (taken (data.take ch.bound).length r.1, r.2) ↔
      LateFine ssh headSz env (min ch.bound data.length) := by
  have hk : (data.take ch.bound).length = min ch.bound data.length := List.length_take
  generalize hpacket : now.charged headSz env.tailSz ch (data.take ch.bound) = framed
  have hbuffer : framed.outputBuffer =
      frame (ssh.calls + 1) headSz env.tailSz (data.take ch.bound) := by
    rw [← hpacket, ← hcalls]
    simp [Session.charged, Session.put, Session.queue, hout]
  have hwire : framed.wire = now.wire := by
    rw [← hpacket]
    rfl
  have hlength : framed.outputBuffer.length = headSz + min ch.bound data.length + env.tailSz := by
    rw [hbuffer, length_frame, hk]
  have hcalled : ∀ call, framed.called call = ssh.called call := by
    intro call
    rw [← hpacket]
    simp only [Session.called, Session.charged, Session.put, Session.queue, hlive]
  have hcharged : ∀ ssh' : Session, ssh'.channelList = framed.channelList →
      Charged ssh id data (min ch.bound data.length) ssh' := by
    intro ssh' hsame
    rw [← hpacket] at hsame
    exact charged_put hframes.1 hlist hsame
  rw [hk, LateFine, ← hlength]
  intro r
  by_cases hdrained : fate env.late.io framed.outputBuffer.length = .drained
  · obtain ⟨hanswer, n, m, hadds, -⟩ := @Session.highwaterCheck_adds
      { framed with wire := framed.wire ++ framed.outputBuffer, outputBuffer := [] } rfl
      env.late.highwater
    rw [← Session.sendPacket_drained hdrained] at hanswer hadds
    have hsame : r.2.channelList = framed.channelList := by
      rw [show r.2 = _ from hadds]
    have hown : own (ssh.calls + 1) r.2.octets = data.take ch.bound := by
      rw [show r.2 = _ from hadds]
      simp [Session.octets, hwire, hclean, hbuffer, own_frame]
    have hret : r.1 = Session.answer (ssh.called env.late.highwater) := by
      rw [← hcalled]
      exact hanswer
    rw [taken_truthful (hcharged _ hsame) hown, hdrained, hret]
  · obtain ⟨m, kept, e, hr, he, hcases⟩ := Session.sendPacket_stopped hdrained
    have hr : r = _ := hr
    rcases hcases with ⟨left, hfate, hm, hkept⟩ | ⟨hnot, hkept⟩
    · rw [hfate] at he
      have hkeeps : ∀ n, taken n (.error e) = .error e := by
        intro n
        cases e <;> first | rfl | simp at he
      rw [hr, hfate, hkeeps]
      show own (ssh.calls + 1) _ = [] ↔ _
      rw [hm, hkept, ← hk]
      simp only [Session.octets, List.append_nil, own_append, hwire, hclean, List.nil_append]
      rw [hbuffer, own_take_frame, length_frame, List.take_eq_nil_iff, List.length_eq_zero_iff]
      exact or_congr_left Nat.sub_eq_zero_iff_le
    · have hown : own (ssh.calls + 1) r.2.octets = data.take ch.bound := by
        rw [hr, hkept]
        simp only [Session.octets, List.append_assoc, List.take_append_drop, own_append, hwire, hclean,
          hbuffer, own_frame, List.nil_append]
      have hsame : r.2.channelList = framed.channelList := by rw [hr]
      rw [taken_truthful (hcharged _ hsame) hown, hr]
      cases hfate : fate env.late.io framed.outputBuffer.length with
      | drained => exact absurd hfate hdrained
      | blocked => simp [he.mpr hfate]
      | failed =>
        have hne : e ≠ .wantWrite := fun h => by simp [he.mp h] at hfate
        simp [hne]
      | discarded left => exact absurd hfate (hnot left)

end Late

/-! A whole call. -/

section Call

variable {ssh now : Session} {headSz id : Nat} {env : CallEnv} {data : Bytes}

/-- The call gets past the flush of earlier output. -/
def EarlyPasses (ssh : Session) (env : CallEnv) : Prop :=
  ssh.isKeying = false ∧
    (ssh.outputBuffer = [] ∨
      (fate env.early.io ssh.outputBuffer.length = .drained ∧
        Session.answer (ssh.called env.early.highwater) = .ok 0 ∧
        ¬ Session.Rekeys (ssh.called env.early.highwater)))

/-- The highwater callback answers the flush of earlier output with a count of its own. -/
def EarlyCounts (ssh : Session) (env : CallEnv) : Prop :=
  ssh.isKeying = false ∧ ssh.outputBuffer ≠ [] ∧
    fate env.early.io ssh.outputBuffer.length = .drained ∧
    ∃ n, Session.answer (ssh.called env.early.highwater) = .ok (n + 1)

/-- The conditions of a truthful answer. -/
def CallFine (ssh : Session) (headSz : Nat) (env : CallEnv) (id : Nat) (data : Bytes) : Prop :=
  ¬ EarlyCounts ssh env ∧
    (EarlyPasses ssh env → ∀ ch, Frames ssh env id data ch →
      LateFine ssh headSz env (min ch.bound data.length))

/-- No octet is marked with a call to come. -/
def Numbered (ssh : Session) : Prop := ∀ c b, some (c, b) ∈ ssh.octets → c ≤ ssh.calls

theorem error_truthful {e : SendErr} (hclean : own (ssh.calls + 1) now.octets = []) :
    Truthful ssh id data (.error e, now) := hclean

theorem frameData_truthful (hkeying : now.isKeying = false) (hout : now.outputBuffer = [])
    (hcalls : now.calls = ssh.calls + 1) (hclean : own (ssh.calls + 1) now.wire = [])
    (hlive : now.disconnected = ssh.disconnected) (hlist : now.channelList = ssh.channelList) :
    Truthful ssh id data (now.frameData headSz env id data) ↔
      ∀ ch, Frames ssh env id data ch → LateFine ssh headSz env (min ch.bound data.length) := by
  have hoctets : own (ssh.calls + 1) now.octets = [] := by
    rw [Session.octets, hout, List.append_nil, hclean]
  have hrefused : ∀ e, (∀ ch, ¬ Frames ssh env id data ch) →
      (Truthful ssh id data (.error e, now) ↔
        ∀ ch, Frames ssh env id data ch → LateFine ssh headSz env (min ch.bound data.length)) :=
    fun e hno => iff_of_true (error_truthful hoctets) fun ch hframes => (hno ch hframes).elim
  have hfind : now.channelFind id = ssh.channelFind id := by
    rw [Session.channelFind, hlist]
    rfl
  rw [Session.frameData, if_neg (by simp [hkeying]), hfind]
  cases hch : ssh.channelFind id with
  | none => exact hrefused _ fun ch h => by simp [Frames, hch] at h
  | some ch =>
    have hsame : ∀ ch', Frames ssh env id data ch' → ch' = ch :=
      fun ch' h => Option.some.inj (h.1.symm.trans hch)
    dsimp only
    split
    · rename_i heof
      exact hrefused _ fun ch' h => by simp [hsame ch' h, Frames, heof] at h
    · split
      · rename_i hzero
        exact hrefused _ fun ch' h => by simp [hsame ch' h, Frames, hzero] at h
      · split
        · rename_i hbound
          exact hrefused _ fun ch' h => by simp [hsame ch' h, Frames, hbound] at h
        · split
          · rename_i heof hzero hbound hbundles
            have hframes : Frames ssh env id data ch := ⟨hch, by simpa using heof, hzero, hbound, hbundles⟩
            refine (late_truthful hout hcalls hclean hlive hlist hframes).trans ?_
            exact ⟨fun h ch' h' => hsame ch' h' ▸ h, fun h => h ch hframes⟩
          · rename_i hbundles
            exact hrefused _ fun ch' h => hbundles h.2.2.2.2

theorem own_next {octets : List Octet} (hnumbered : ∀ c b, some (c, b) ∈ octets → c ≤ ssh.calls) :
    own (ssh.calls + 1) octets = [] :=
  own_eq_nil fun b hb => Nat.not_succ_le_self _ (hnumbered _ b hb)

theorem sendData_truthful_iff (hnumbered : Numbered ssh) :
    Truthful ssh id data (ssh.sendData headSz env id data) ↔ CallFine ssh headSz env id data := by
  have hclean : own (ssh.calls + 1) ssh.octets = [] := own_next hnumbered
  have hwire : own (ssh.calls + 1) ssh.wire = [] := by
    rw [Session.octets, own_append] at hclean
    exact (List.append_eq_nil_iff.mp hclean).1
  rw [Session.sendData]
  dsimp only
  split
  · rename_i hkeying
    exact iff_of_true hclean
      ⟨fun h => by simp [h.1] at hkeying, fun h => by simp [h.1] at hkeying⟩
  · rename_i hkeying
    have hkeying : ssh.isKeying = false := by simpa using hkeying
    split
    · rename_i hout
      refine (@frameData_truthful ssh { ssh with calls := ssh.calls + 1 } headSz id env data hkeying
        hout rfl hwire rfl rfl).trans ?_
      have hpasses : EarlyPasses ssh env := ⟨hkeying, .inl hout⟩
      exact ⟨fun h => ⟨fun hcounts => hcounts.2.1 hout, fun _ => h⟩, fun h => h.2 hpasses⟩
    · rename_i hout
      by_cases hdrained : fate env.early.io ssh.outputBuffer.length = .drained
      · obtain ⟨hanswer, n, m, hadds, hkex⟩ := @Session.highwaterCheck_adds
          { ssh with calls := ssh.calls + 1, wire := ssh.wire ++ ssh.outputBuffer, outputBuffer := [] }
          rfl env.early.highwater
        have hpacket := @Session.sendPacket_drained { ssh with calls := ssh.calls + 1 } env.early hdrained
        rw [← hpacket] at hanswer hadds hkex
        generalize Session.sendPacket env.early { ssh with calls := ssh.calls + 1 } = r at *
        obtain ⟨ret, now⟩ := r
        have hnow : now = _ := hadds
        have hret : ret = Session.answer (ssh.called env.early.highwater) := hanswer
        have hwire' : own (ssh.calls + 1) now.wire = [] := by
          rw [hnow]
          simpa [Session.octets] using hclean
        have hoctets : own (ssh.calls + 1) now.octets = [] := by
          rw [Session.octets, own_append, hwire', hnow]
          simp
        have hcounts : EarlyCounts ssh env ↔ ∃ n, ret = .ok (n + 1) := by
          rw [EarlyCounts, ← hret]
          exact ⟨fun h => h.2.2.2, fun h => ⟨hkeying, hout, hdrained, h⟩⟩
        have hpasses : EarlyPasses ssh env ↔
            ret = .ok 0 ∧ ¬ Session.Rekeys (ssh.called env.early.highwater) := by
          rw [EarlyPasses, ← hret]
          exact ⟨fun h => (h.2.resolve_left hout).2, fun h => ⟨hkeying, .inr ⟨hdrained, h⟩⟩⟩
        rw [CallFine, hcounts, hpasses]
        cases ret with
        | error e => exact iff_of_true hoctets ⟨by simp, by simp⟩
        | ok count =>
          cases count with
          | succ count =>
            refine iff_of_false ?_ fun h => h.1 ⟨count, rfl⟩
            rintro ⟨-, hle, hown⟩
            have hle : count + 1 ≤ data.length := hle
            have hown : own (ssh.calls + 1) now.octets = data.take (count + 1) := hown
            rw [hoctets] at hown
            have hzero := congrArg List.length hown
            rw [List.length_take, List.length_nil] at hzero
            omega
          | zero =>
            rcases hkex with ⟨hrekeys, hnewKeying⟩ | ⟨hrekeys, hm, hsameKeying⟩
            · have hrekeying : now.frameData headSz env id data = (.error .rekeying, now) := by
                rw [Session.frameData, if_pos hnewKeying]
              show Truthful ssh id data (now.frameData headSz env id data) ↔ _
              rw [hrekeying]
              exact iff_of_true hoctets ⟨by simp, fun h => absurd hrekeys h.2⟩
            · refine (frameData_truthful (hsameKeying.trans hkeying) (by rw [hnow, hm]; rfl)
                (by rw [hnow]) hwire' (by rw [hnow]) (by rw [hnow])).trans ?_
              exact ⟨fun h => ⟨by simp, fun _ => h⟩, fun h => h.2 ⟨rfl, hrekeys⟩⟩
      · obtain ⟨m, kept, e, hr, -, hcases⟩ :=
          @Session.sendPacket_stopped { ssh with calls := ssh.calls + 1 } env.early hdrained
        rw [hr]
        refine iff_of_true ?_
          ⟨fun h => hdrained h.2.2.1, fun h => absurd (h.2.resolve_left hout).1 hdrained⟩
        have hkept : ∀ o ∈ kept, o ∈ ssh.outputBuffer := by
          rcases hcases with ⟨-, -, -, rfl⟩ | ⟨-, rfl⟩
          · simp
          · exact fun o ho => List.mem_of_mem_drop ho
        have hsub : ∀ o ∈ (ssh.wire ++ ssh.outputBuffer.take m) ++ kept, o ∈ ssh.octets := by
          intro o ho
          rw [List.mem_append, List.mem_append] at ho
          rw [Session.octets, List.mem_append]
          exact ho.elim (Or.imp_right List.mem_of_mem_take) (fun h => .inr (hkept o h))
        exact own_next fun c b hb => hnumbered c b (hsub _ hb)

end Call

/-! What every call does, whatever it answers. -/

section Framed

variable {ssh now : Session} {headSz id k : Nat} {data : Bytes}

/-- A send cuts the output off somewhere, or adds output that is not channel data. -/
theorem sendPacket_octets (env : SendEnv) (ssh : Session) :
    ∃ m n, (ssh.sendPacket env).2.octets = ssh.octets.take m ++ List.replicate n none := by
  by_cases hdrained : fate env.io ssh.outputBuffer.length = .drained
  · obtain ⟨-, n, m, hadds, -⟩ := @Session.highwaterCheck_adds
      { ssh with wire := ssh.wire ++ ssh.outputBuffer, outputBuffer := [] } rfl env.highwater
    rw [← Session.sendPacket_drained hdrained] at hadds
    refine ⟨ssh.octets.length, n + m, ?_⟩
    rw [List.take_length, show (ssh.sendPacket env).2 = _ from hadds, ← List.replicate_append_replicate,
      ← List.append_assoc]
    rfl
  · obtain ⟨m, kept, e, hr, -, hcases⟩ := Session.sendPacket_stopped hdrained
    rw [hr]
    rcases hcases with ⟨-, -, -, rfl⟩ | ⟨-, rfl⟩
    · refine ⟨ssh.wire.length + m, 0, ?_⟩
      rw [List.replicate_zero, List.append_nil, Session.octets, Session.octets,
        List.take_length_add_append, List.append_nil]
    · refine ⟨ssh.octets.length, 0, ?_⟩
      rw [List.replicate_zero, List.append_nil, List.take_length, Session.octets, Session.octets,
        List.append_assoc, List.take_append_drop]

theorem sendPacket_same (env : SendEnv) (ssh : Session) :
    (ssh.sendPacket env).2.channelList = ssh.channelList ∧
      (ssh.sendPacket env).2.calls = ssh.calls := by
  by_cases hdrained : fate env.io ssh.outputBuffer.length = .drained
  · obtain ⟨-, n, m, hadds, -⟩ := @Session.highwaterCheck_adds
      { ssh with wire := ssh.wire ++ ssh.outputBuffer, outputBuffer := [] } rfl env.highwater
    rw [← Session.sendPacket_drained hdrained] at hadds
    rw [show (ssh.sendPacket env).2 = _ from hadds]
    exact ⟨rfl, rfl⟩
  · obtain ⟨m, kept, e, hr, -, -⟩ := Session.sendPacket_stopped hdrained
    rw [hr]
    exact ⟨rfl, rfl⟩

/-- What a call makes of the session when it charges `k` octets: of these, some first part is in the
output, and it has no other octet of the call. -/
structure Framed (ssh : Session) (id : Nat) (data : Bytes) (k : Nat) (ssh' : Session) : Prop where
  charged : Charged ssh id data k ssh'
  calls : ssh'.calls = ssh.calls + 1
  octets : ∀ c b, some (c, b) ∈ ssh'.octets → some (c, b) ∈ ssh.octets ∨ c = ssh.calls + 1
  output : ∃ j, j ≤ k ∧ own (ssh.calls + 1) ssh'.octets = data.take j

theorem Framed.untouched (hnumbered : Numbered ssh) (hcalls : now.calls = ssh.calls + 1)
    (hlist : now.channelList = ssh.channelList)
    (hsub : ∀ c b, some (c, b) ∈ now.octets → some (c, b) ∈ ssh.octets) :
    Framed ssh id data 0 now where
  charged := .inl ⟨rfl, hlist⟩
  calls := hcalls
  octets := fun c b hb => .inl (hsub c b hb)
  output := ⟨0, Nat.le_refl 0, own_next fun c b hb => hnumbered c b (hsub c b hb)⟩

theorem frameData_framed (hnumbered : Numbered ssh) (hcalls : now.calls = ssh.calls + 1)
    (hlist : now.channelList = ssh.channelList)
    (hsub : ∀ c b, some (c, b) ∈ now.octets → some (c, b) ∈ ssh.octets) (env : CallEnv) :
    ∃ k, Framed ssh id data k (now.frameData headSz env id data).2 := by
  have hrefused : ∃ k, Framed ssh id data k now := ⟨0, .untouched hnumbered hcalls hlist hsub⟩
  have hfind : now.channelFind id = ssh.channelFind id := by
    rw [Session.channelFind, hlist]
    rfl
  rw [Session.frameData, hfind]
  split
  · exact hrefused
  · cases hch : ssh.channelFind id with
    | none => exact hrefused
    | some ch =>
      dsimp only
      split
      · exact hrefused
      · split
        · exact hrefused
        · split
          · exact hrefused
          · split
            · refine ⟨min ch.bound data.length, ?_⟩
              generalize hpacket : now.charged headSz env.tailSz ch (data.take ch.bound) = framed
              obtain ⟨hsame, hcount⟩ := sendPacket_same env.late framed
              obtain ⟨m, n, hoctets⟩ := sendPacket_octets env.late framed
              have hall : framed.octets =
                  now.octets ++ frame (ssh.calls + 1) headSz env.tailSz (data.take ch.bound) := by
                rw [← hpacket, ← hcalls]
                simp [Session.octets, Session.charged, Session.put, Session.queue]
              have hbefore : ∀ j, own (ssh.calls + 1) (now.octets.take j) = [] := fun j =>
                own_next fun c b hb => hnumbered c b (hsub c b (List.mem_of_mem_take hb))
              constructor
              · exact @charged_put ssh now id data ch hch hlist _ headSz env.tailSz (hpacket ▸ hsame)
              · rw [show _ = framed.calls from hcount, ← hpacket]
                exact hcalls
              · intro c b hb
                rw [show Session.octets _ = _ from hoctets, hall, List.mem_append] at hb
                rcases hb with hb | hb
                · have hb := List.mem_of_mem_take hb
                  rw [List.mem_append] at hb
                  rcases hb with hb | hb
                  · exact .inl (hsub c b hb)
                  · exact .inr (eq_of_mem_frame hb)
                · simp at hb
              · refine ⟨min (min (m - now.octets.length - headSz) ch.bound) data.length, ?_, ?_⟩
                · exact min_le_min_right _ (Nat.min_le_right _ _)
                · rw [take_bound, show Session.octets _ = _ from hoctets, hall, own_append, own_replicate_none,
                    List.append_nil, List.take_append, own_append, hbefore, own_take_frame,
                    List.take_take, List.nil_append]
            · exact hrefused

theorem sendData_framed (hnumbered : Numbered ssh) (env : CallEnv) :
    ∃ k, Framed ssh id data k (ssh.sendData headSz env id data).2 := by
  have hnow : ∃ k, Framed ssh id data k { ssh with calls := ssh.calls + 1 } :=
    ⟨0, .untouched hnumbered rfl rfl fun _ _ hb => hb⟩
  rw [Session.sendData]
  dsimp only
  split
  · exact hnow
  · split
    · exact @frameData_framed ssh { ssh with calls := ssh.calls + 1 } headSz id data hnumbered rfl rfl
        (fun _ _ hb => hb) env
    · obtain ⟨hlist, hcalls⟩ := sendPacket_same env.early { ssh with calls := ssh.calls + 1 }
      obtain ⟨m, n, hoctets⟩ := sendPacket_octets env.early { ssh with calls := ssh.calls + 1 }
      generalize Session.sendPacket env.early { ssh with calls := ssh.calls + 1 } = r at *
      obtain ⟨ret, now⟩ := r
      have hsub : ∀ c b, some (c, b) ∈ now.octets → some (c, b) ∈ ssh.octets := by
        intro c b hb
        rw [show now.octets = _ from hoctets, List.mem_append] at hb
        rcases hb with hb | hb
        · exact List.mem_of_mem_take hb
        · simp at hb
      split
      · rename_i now' hr
        obtain ⟨-, rfl⟩ := Prod.mk.inj hr
        exact frameData_framed hnumbered hcalls hlist hsub env
      · rename_i ret' now' hno hr
        obtain ⟨-, rfl⟩ := Prod.mk.inj hr
        exact ⟨0, .untouched hnumbered hcalls hlist hsub⟩

end Framed

/-! Runs. -/

/-- The accounts of a channel balance: its window is the first one with all credit taken and all
data framed. -/
def Balanced (ch : Channel) : Prop :=
  ch.peerWindowSz + ch.framed.length = ch.initialWindowSz + ch.adjusts.sum ∧
    ch.peerWindowSz ≤ uint32Max

structure Accounted (ssh : Session) : Prop where
  balanced : ∀ ch ∈ ssh.channelList, Balanced ch
  numbered : Numbered ssh

section Runs

variable {ssh : Session}

theorem mem_put {ch c : Channel} (hc : c ∈ (ssh.put ch).channelList) :
    c = ch ∨ c ∈ ssh.channelList := by
  rw [Session.put, List.mem_map] at hc
  obtain ⟨c', hc', rfl⟩ := hc
  split
  · exact .inl rfl
  · exact .inr hc'

theorem channelFind_mem {id : Nat} {ch : Channel} (h : ssh.channelFind id = some ch) :
    ch ∈ ssh.channelList :=
  List.mem_of_find?_eq_some h

theorem Accounted.framed {ssh' : Session} {id k : Nat} {data : Bytes} (h : Accounted ssh)
    (hframed : Framed ssh id data k ssh') : Accounted ssh' where
  balanced := by
    rcases hframed.charged with ⟨-, hlist⟩ | ⟨ch, hfind, hk, hbound, hlist⟩
    · rw [hlist]
      exact h.balanced
    · intro c hc
      rw [hlist] at hc
      rcases mem_put hc with rfl | hc
      · obtain ⟨hsum, hmax⟩ := h.balanced ch (channelFind_mem hfind)
        have hwindow : ch.bound ≤ ch.peerWindowSz :=
          (Nat.min_le_left _ _).trans (Nat.min_le_left _ _)
        rw [Balanced, List.length_append, List.length_take, Nat.min_eq_left hk]
        dsimp only
        omega
      · exact h.balanced c hc
  numbered := by
    intro c b hb
    rw [hframed.calls]
    rcases hframed.octets c b hb with hold | rfl
    · exact (h.numbered c b hold).trans (Nat.le_succ _)
    · exact Nat.le_refl _

theorem doChannelWindowAdjust_accounted (h : Accounted ssh) (buf : Bytes) :
    Accounted (ssh.doChannelWindowAdjust buf).2 := by
  rw [Session.doChannelWindowAdjust]
  dsimp only
  split
  · exact h
  · cases hfind : ssh.channelFind (ato32 buf) with
    | none => exact h
    | some ch =>
      dsimp only
      split
      · exact h
      · rename_i hroom
        refine ⟨fun c hc => ?_, h.numbered⟩
        rcases mem_put hc with rfl | hc
        · obtain ⟨hsum, hmax⟩ := h.balanced ch (channelFind_mem hfind)
          rw [Balanced, List.sum_append, List.sum_singleton]
          dsimp only
          omega
        · exact h.balanced c hc

theorem Accounted.kept {ssh' : Session} (h : Accounted ssh)
    (hlist : ∀ ch ∈ ssh'.channelList, Balanced ch) (hcalls : ssh'.calls = ssh.calls)
    (hsub : ∀ c b, some (c, b) ∈ ssh'.octets → some (c, b) ∈ ssh.octets) : Accounted ssh' :=
  ⟨hlist, fun c b hb => hcalls ▸ h.numbered c b (hsub c b hb)⟩

theorem sendPacket_accounted (h : Accounted ssh) (env : SendEnv) :
    Accounted (ssh.sendPacket env).2 := by
  obtain ⟨hlist, hcalls⟩ := sendPacket_same env ssh
  obtain ⟨m, n, hoctets⟩ := sendPacket_octets env ssh
  refine h.kept (hlist ▸ h.balanced) hcalls fun c b hb => ?_
  rw [hoctets, List.mem_append] at hb
  rcases hb with hb | hb
  · exact List.mem_of_mem_take hb
  · simp at hb

theorem step_accounted (h : Accounted ssh) (e : Event) : Accounted (ssh.step e) := by
  cases e with
  | data env id data =>
    obtain ⟨k, hframed⟩ := sendData_framed h.numbered env
    exact h.framed hframed
  | extendedData env id data =>
    obtain ⟨k, hframed⟩ := sendData_framed h.numbered env
    exact h.framed hframed
  | windowAdjust buf => exact doChannelWindowAdjust_accounted h buf
  | opened id peerWindowSz peerMaxPacketSz maxPacketSz =>
    rw [Session.step]
    split
    · exact h
    · refine h.kept (fun ch hch => ?_) rfl fun c b hb => hb
      rcases List.mem_append.mp hch with hch | hch
      · exact h.balanced ch hch
      · rw [List.mem_singleton.mp hch, Balanced]
        have hword := peerWindowSz.toNat_lt
        exact ⟨rfl, Nat.le_sub_one_of_lt hword⟩
  | closed id => exact h.kept (fun ch hch => h.balanced ch (List.mem_of_mem_filter hch)) rfl fun c b hb => hb
  | eof id =>
    rw [Session.step]
    cases hfind : ssh.channelFind id with
    | none => exact h
    | some ch =>
      refine h.kept (fun c hc => ?_) rfl fun c b hb => hb
      rcases mem_put hc with rfl | hc
      · exact h.balanced ch (channelFind_mem hfind)
      · exact h.balanced c hc
  | keying isKeying => exact h.kept h.balanced rfl fun c b hb => hb
  | disconnected => exact h.kept h.balanced rfl fun c b hb => hb
  | queued size =>
    refine h.kept h.balanced rfl fun c b hb => ?_
    rw [Session.step, Session.octets, Session.queue, ← List.append_assoc, List.mem_append] at hb
    rcases hb with hb | hb
    · exact hb
    · simp at hb
  | flushed env => exact sendPacket_accounted h env

theorem run_accounted (events : List Event) : Accounted (events.foldl Session.step {}) := by
  suffices hrun : ∀ s, Accounted s → Accounted (events.foldl Session.step s) by
    exact hrun {} ⟨by simp, by simp [Numbered, Session.octets]⟩
  induction events with
  | nil => exact fun s hs => hs
  | cons e events ih => exact fun s hs => ih _ (step_accounted hs e)

end Runs

/-- In every run the accounts of the channels balance, and a call charges its channel for just the
octets that it framed, within every bound. What it answers is right under the conditions of
`CallFine`, and only under them. -/
theorem send_window_accounting (events : List Event) (env : CallEnv) (id : Nat) (data : Bytes) :
    let ssh := events.foldl Session.step {}
    let sent := ssh.sendChannelData env id data
    let sentExtended := ssh.sendChannelExtendedData env id data
    (∀ ch ∈ ssh.channelList, Balanced ch) ∧
      (∃ k, Framed ssh id data k sent.2) ∧
      (∃ k, Framed ssh id data k sentExtended.2) ∧
      (Truthful ssh id data sent ↔
        CallFine ssh (packetHeadSz + msgIdSz + uint32Sz + lengthSz) env id data) ∧
      (Truthful ssh id data sentExtended ↔
        CallFine ssh (packetHeadSz + msgIdSz + uint32Sz + uint32Sz + lengthSz) env id data) := by
  intro ssh sent sentExtended
  have h : Accounted ssh := run_accounted events
  have hiff : ∀ headSz, Truthful ssh id data (ssh.sendData headSz env id data) ↔
      CallFine ssh headSz env id data := fun _ => sendData_truthful_iff h.numbered
  exact ⟨h.balanced, sendData_framed h.numbered env, sendData_framed h.numbered env,
    hiff (packetHeadSz + msgIdSz + uint32Sz + lengthSz),
    hiff (packetHeadSz + msgIdSz + uint32Sz + uint32Sz + lengthSz)⟩

/-- The send callback reports a timeout for the framed packet, and the call an error. The data is
in the output buffer all the same. -/
theorem send_timeout_untruthful :
    ¬ ∀ (events : List Event) (env : CallEnv) (id : Nat) (data : Bytes),
      let ssh := events.foldl Session.step {}
      Truthful ssh id data (ssh.sendChannelData env id data) := by
  intro h
  have hmine : own 1 _ = [] := h [.opened 0 8 8 8] { late := { io := [.timeout] } } 0 [1, 2, 3]
  exact absurd hmine (by decide)

end WolfSsh.SendWindow
