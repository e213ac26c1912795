import WolfSsh.Lib.Meter
import Mathlib.Algebra.BigOperators.Ring.List
import Mathlib.Data.UInt

/-! The highwater marks: how much goes out and comes in under one set of keys before the application
is called to rekey. -/

namespace WolfSsh

inductive HwSide where
  | transmit | receive
deriving DecidableEq, Repr

/-- The part of a session that counts octets and packets. -/
structure Highwater where
  highwaterMark : UInt32
  msgHighwaterMark : UInt32
  txCount : UInt32
  rxCount : UInt32
  txMsgCount : UInt32
  rxMsgCount : UInt32
  highwaterFlag : Bool
  msgHighwaterFlag : Bool
  highwaterCb : Bool
  disconnected : Bool

namespace Highwater

def overHighwater (s : Highwater) : Bool :=
  !s.highwaterFlag && s.highwaterMark != 0 &&
    (decide (s.txCount ≥ s.highwaterMark) || decide (s.rxCount ≥ s.highwaterMark))

def overMsgHighwater (s : Highwater) : Bool :=
  !s.msgHighwaterFlag && s.msgHighwaterMark != 0 &&
    (decide (s.txMsgCount ≥ s.msgHighwaterMark) || decide (s.rxMsgCount ≥ s.msgHighwaterMark))

/-- The call of the callback, if there is one. A dead session makes none. -/
def highwaterCheck (side : HwSide) (s : Highwater) : Option HwSide × Highwater :=
  let fire := s.overHighwater || s.overMsgHighwater
  (if fire && !s.disconnected && s.highwaterCb then some side else none,
    { s with
      highwaterFlag := s.highwaterFlag || s.overHighwater
      msgHighwaterFlag := s.msgHighwaterFlag || s.overMsgHighwater })

/-- An inbound packet failed a check of its framing or its integrity: no rekey may start. -/
def rejectPacket (s : Highwater) : Highwater :=
  { s with highwaterFlag := true, msgHighwaterFlag := true }

/-- The end of `SendNewKeys`, before its packet is flushed. -/
def sendNewKeys (s : Highwater) : Highwater := { s with txCount := 0, txMsgCount := 0 }

/-- `DoNewKeys`, before its own packet is counted. -/
def doNewKeys (s : Highwater) : Highwater :=
  { s with rxCount := 0, rxMsgCount := 0, highwaterFlag := false, msgHighwaterFlag := false }

/-- What the packet layer does between two rekeys. -/
inductive Traffic where
  /-- `Encrypt` or `EncryptAead`. -/
  | encrypt (sz : UInt32)
  /-- The end of `BundlePacket`. -/
  | bundled
  /-- The output buffer was drained. -/
  | flushed
  /-- `Decrypt` or `DecryptAead`. -/
  | decrypt (sz : UInt32)
  /-- The end of `DoPacket`. -/
  | received
deriving DecidableEq, Repr

def step (s : Highwater) : Traffic → Option HwSide × Highwater
  | .encrypt sz => (none, { s with txCount := s.txCount + sz })
  | .bundled => (none, { s with txMsgCount := s.txMsgCount + 1 })
  | .flushed => s.highwaterCheck .transmit
  | .decrypt sz => (none, { s with rxCount := s.rxCount + sz })
  | .received => { s with rxMsgCount := s.rxMsgCount + 1 }.highwaterCheck .receive

def run (s : Highwater) (es : List Traffic) : Highwater := es.foldl (fun s e => (s.step e).2) s

end Highwater

/-! The octets and the packets, each as one meter. -/

inductive Count where
  | octets | packets
deriving DecidableEq, Repr

namespace Count

def tick : Count → Highwater.Traffic → Tick
  | .octets, .encrypt sz => ⟨sz.toNat, 0, false⟩
  | .octets, .decrypt sz => ⟨0, sz.toNat, false⟩
  | .packets, .bundled => ⟨1, 0, false⟩
  | .packets, .received => ⟨0, 1, true⟩
  | _, .flushed => ⟨0, 0, true⟩
  | .octets, .received => ⟨0, 0, true⟩
  | .octets, .bundled => ⟨0, 0, false⟩
  | .packets, .encrypt _ => ⟨0, 0, false⟩
  | .packets, .decrypt _ => ⟨0, 0, false⟩

def mark (s : Highwater) : Count → UInt32
  | .octets => s.highwaterMark
  | .packets => s.msgHighwaterMark

def tx (s : Highwater) : Count → UInt32
  | .octets => s.txCount
  | .packets => s.txMsgCount

def rx (s : Highwater) : Count → UInt32
  | .octets => s.rxCount
  | .packets => s.rxMsgCount

def flag (s : Highwater) : Count → Bool
  | .octets => s.highwaterFlag
  | .packets => s.msgHighwaterFlag

def meter (s : Highwater) (c : Count) : Meter :=
  ⟨(c.mark s).toNat, (c.tx s).toNat, (c.rx s).toNat, c.flag s⟩

end Count

namespace Highwater

variable {s : Highwater} {es : List Traffic} {e : Traffic}

theorem over_eq (mark tx rx : UInt32) (flag : Bool) :
    (mark != 0 && (decide (tx ≥ mark) || decide (rx ≥ mark))) =
      decide (Meter.AtMark ⟨mark.toNat, tx.toNat, rx.toNat, flag⟩) := by
  have hzero : (mark != 0) = decide (mark.toNat ≠ 0) := by
    rw [bne, beq_eq_decide, ← decide_not, decide_eq_decide, not_iff_not, ← UInt32.toNat_inj]
    rfl
  rw [hzero, ← Bool.decide_or, ← Bool.decide_and]
  rfl

theorem overHighwater_eq (s : Highwater) :
    s.overHighwater = (!s.highwaterFlag && decide (Count.octets.meter s).AtMark) := by
  rw [overHighwater, Bool.and_assoc, over_eq _ _ _ s.highwaterFlag]
  rfl

theorem overMsgHighwater_eq (s : Highwater) :
    s.overMsgHighwater = (!s.msgHighwaterFlag && decide (Count.packets.meter s).AtMark) := by
  rw [overMsgHighwater, Bool.and_assoc, over_eq _ _ _ s.msgHighwaterFlag]
  rfl

theorem meter_check (s : Highwater) (side : HwSide) (c : Count) :
    c.meter (s.highwaterCheck side).2 = (c.meter s).checked := by
  have hor : ∀ x y : Bool, (x || (!x && y)) = (x || y) := by decide
  cases c with
  | octets =>
    simp only [highwaterCheck, overHighwater_eq, Count.meter, Count.flag, hor]
    rfl
  | packets =>
    simp only [highwaterCheck, overMsgHighwater_eq, Count.meter, Count.flag, hor]
    rfl

/-- What an event counts, before a check. -/
def counted (s : Highwater) : Traffic → Highwater
  | .encrypt sz => { s with txCount := s.txCount + sz }
  | .bundled => { s with txMsgCount := s.txMsgCount + 1 }
  | .flushed => s
  | .decrypt sz => { s with rxCount := s.rxCount + sz }
  | .received => { s with rxMsgCount := s.rxMsgCount + 1 }

theorem meter_counted (s : Highwater) (e : Traffic) (c : Count) :
    c.meter (s.counted e) = (c.meter s).add (2 ^ 32) (c.tick e) := by
  have hmod : ∀ n : UInt32, n.toNat % 4294967296 = n.toNat := fun n => Nat.mod_eq_of_lt n.toNat_lt
  cases c <;> cases e <;>
    simp [counted, Count.meter, Meter.add, Count.mark, Count.tx, Count.rx, Count.flag, Count.tick, hmod]

theorem meter_step (s : Highwater) (e : Traffic) (c : Count) :
    c.meter (s.step e).2 = (c.meter s).next (2 ^ 32) (c.tick e) := by
  rw [Meter.next, ← meter_counted]
  cases e with
  | flushed =>
    rw [if_pos (by cases c <;> rfl)]
    exact meter_check _ _ _
  | received =>
    rw [if_pos (by cases c <;> rfl)]
    exact meter_check _ _ _
  | encrypt sz => cases c <;> rfl
  | decrypt sz => cases c <;> rfl
  | bundled => cases c <;> rfl

theorem meter_run (s : Highwater) (es : List Traffic) (c : Count) :
    c.meter (s.run es) = (c.meter s).run (2 ^ 32) c.tick es := by
  induction es using List.reverseRecOn with
  | nil => rfl
  | append_singleton es e ih =>
    rw [Meter.run_concat, ← ih, ← meter_step, run, List.foldl_concat]
    rfl

/-- A check after `p` and `e` finds a mark passed that was not reported before. -/
def Raised (start : Highwater) (p : List Traffic) (e : Traffic) (c : Count) : Prop :=
  c.flag (start.run p) = false ∧ c.flag (start.run (p ++ [e])) = true

instance (start : Highwater) (p : List Traffic) (e : Traffic) (c : Count) :
    Decidable (Raised start p e c) := inferInstanceAs (Decidable (_ ∧ _))

theorem run_concat : s.run (es ++ [e]) = ((s.run es).step e).2 := List.foldl_concat ..

theorem raised_iff {start : Highwater} {p : List Traffic} {c : Count} :
    Raised start p e c ↔ Meter.Reports (2 ^ 32) c.tick (c.meter start) p e := by
  rw [Meter.Reports, ← meter_run, ← meter_run]
  exact Iff.rfl

/-- A session that is not torn down and has a callback. -/
def Live (s : Highwater) : Prop := s.disconnected = false ∧ s.highwaterCb = true

theorem live_run (hlive : Live s) : Live (s.run es) := by
  induction es using List.reverseRecOn with
  | nil => exact hlive
  | append_singleton es e ih =>
    rw [run_concat]
    cases e <;> exact ih

theorem highwaterCheck_call (hlive : Live s) (side : HwSide) :
    (s.highwaterCheck side).1.isSome ↔
      ∃ c, c.flag s = false ∧ Count.flag (s.highwaterCheck side).2 c = true := by
  have hcall : (s.highwaterCheck side).1.isSome = (s.overHighwater || s.overMsgHighwater) := by
    simp only [highwaterCheck, hlive.1, hlive.2, Bool.not_false, Bool.and_true]
    cases s.overHighwater || s.overMsgHighwater <;> rfl
  have hflag : s.overHighwater = true → s.highwaterFlag = false := by
    intro h
    simp only [overHighwater, Bool.and_eq_true, Bool.not_eq_true'] at h
    exact h.1.1
  have hmsgFlag : s.overMsgHighwater = true → s.msgHighwaterFlag = false := by
    intro h
    simp only [overMsgHighwater, Bool.and_eq_true, Bool.not_eq_true'] at h
    exact h.1.1
  rw [hcall, Bool.or_eq_true]
  constructor
  · rintro (h | h)
    · exact ⟨.octets, hflag h, by simp [highwaterCheck, Count.flag, h]⟩
    · exact ⟨.packets, hmsgFlag h, by simp [highwaterCheck, Count.flag, h]⟩
  · rintro ⟨c, hbefore, hafter⟩
    cases c with
    | octets =>
      have hdown : s.highwaterFlag = false := hbefore
      exact .inl (by simpa [highwaterCheck, Count.flag, hdown] using hafter)
    | packets =>
      have hdown : s.msgHighwaterFlag = false := hbefore
      exact .inr (by simpa [highwaterCheck, Count.flag, hdown] using hafter)

/-- The callback is called at a check that finds a mark passed, and once if it finds both. -/
theorem step_call (hlive : Live s) (e : Traffic) :
    (s.step e).1.isSome ↔ ∃ c, c.flag s = false ∧ Count.flag (s.step e).2 c = true := by
  have hquiet : (∀ c, Count.flag (s.step e).2 c = Count.flag s c) →
      ¬ ∃ c, c.flag s = false ∧ Count.flag (s.step e).2 c = true := by
    rintro hsame ⟨c, hbefore, hafter⟩
    rw [hsame, hbefore] at hafter
    cases hafter
  cases e with
  | flushed => exact highwaterCheck_call hlive _
  | received => exact @highwaterCheck_call { s with rxMsgCount := s.rxMsgCount + 1 } hlive _
  | encrypt sz => exact iff_of_false (by simp [step]) (hquiet fun c => by cases c <;> rfl)
  | decrypt sz => exact iff_of_false (by simp [step]) (hquiet fun c => by cases c <;> rfl)
  | bundled => exact iff_of_false (by simp [step]) (hquiet fun c => by cases c <;> rfl)

/-- The session when a rekey is through, with what it sent under the new keys before that. -/
def rekeyed (s : Highwater) (window : List Traffic) : Highwater := doNewKeys ((sendNewKeys s).run window)

theorem meter_rekeyed (s : Highwater) (window : List Traffic) (c : Count) :
    c.meter (s.rekeyed window) =
      ⟨(c.mark s).toNat, Meter.sent c.tick window % 2 ^ 32, 0, false⟩ := by
  have hrun := meter_run (sendNewKeys s) window c
  have hmark := @Meter.run_mark _ (2 ^ 32) c.tick (c.meter (sendNewKeys s)) window
  have htx : (c.meter (sendNewKeys s)).tx = 0 % 2 ^ 32 := by cases c <;> rfl
  have hrx : (c.meter (sendNewKeys s)).rx = (c.meter (sendNewKeys s)).rx % 2 ^ 32 :=
    (Nat.mod_eq_of_lt (UInt32.toNat_lt _)).symm
  have hcounts := (@Meter.run_counts _ (2 ^ 32) c.tick _ 0 _ window htx hrx).1
  rw [← hrun] at hmark hcounts
  rw [Nat.zero_add] at hcounts
  cases c with
  | octets => exact congrArg₂ (fun m t => (⟨m, t, 0, false⟩ : Meter)) hmark hcounts
  | packets => exact congrArg₂ (fun m t => (⟨m, t, 0, false⟩ : Meter)) hmark hcounts

/-- The first check, after `p` and `e`, at which a total of a direction under its keys has reached the
mark. `window` is what was sent under the new keys before the peer's came. -/
def Passes (s : Highwater) (window p : List Traffic) (e : Traffic) (c : Count) : Prop :=
  Meter.First c.tick (Meter.Reached c.tick (c.mark s).toNat (Meter.sent c.tick window) 0) p e

end Highwater

open Highwater in
/-- Between two rekeys the callback is called at a check exactly if it reports a mark there. A mark is
reported at the check that first finds it passed, and at no other, exactly if one of the totals is at
the mark there modulo 2^32 as well. -/
theorem highwater_on_time {s : Highwater} (hlive : s.Live) (window traffic : List Traffic) :
    (∀ p e, p ++ [e] <+: traffic →
      ((((s.rekeyed window).run p).step e).1.isSome ↔ ∃ c, Raised (s.rekeyed window) p e c)) ∧
    ∀ c : Count,
      (∀ p e, p ++ [e] <+: traffic → (Raised (s.rekeyed window) p e c ↔ Passes s window p e c)) ↔
        ∀ p e, p ++ [e] <+: traffic → Passes s window p e c →
          (c.mark s).toNat ≤ Meter.sent c.tick (window ++ (p ++ [e])) % 2 ^ 32 ∨
            (c.mark s).toNat ≤ Meter.got c.tick (p ++ [e]) % 2 ^ 32 := by
  have hstart : Live (s.rekeyed window) := @live_run (sendNewKeys s) window hlive
  refine ⟨fun p e _ => ?_, fun c => ?_⟩
  · rw [step_call (live_run hstart)]
    simp only [Raised, run_concat]
  · have hmeter := meter_rekeyed s window c
    have hiff := @Meter.reports_first_iff _ (2 ^ 32) c.tick (c.meter (s.rekeyed window))
      (c.mark s).toNat (Meter.sent c.tick window) 0 traffic (by rw [hmeter]) (by rw [hmeter])
      (by rw [hmeter]) (by rw [hmeter, Nat.zero_mod])
    simp only [raised_iff, Passes, Meter.sent_append window]
    rw [hiff]
    refine forall₄_congr fun p e _ hfirst => ?_
    rw [Meter.Shown, Nat.zero_add]
    exact and_iff_right hfirst.2.1.1

/-- A session with these marks that has sent and received nothing yet. -/
def markedSession (highwaterMark msgHighwaterMark : UInt32) : Highwater where
  highwaterMark := highwaterMark
  msgHighwaterMark := msgHighwaterMark
  txCount := 0
  rxCount := 0
  txMsgCount := 0
  rxMsgCount := 0
  highwaterFlag := false
  msgHighwaterFlag := false
  highwaterCb := true
  disconnected := false

theorem highwater_on_time_small :
    (((((markedSession 16 0).rekeyed []).run [.encrypt 32, .bundled]).step .flushed).1).isSome :=
  ((@highwater_on_time (markedSession 16 0) ⟨rfl, rfl⟩ [] [.encrypt 32, .bundled, .flushed]).1
    [.encrypt 32, .bundled] .flushed List.prefix_rfl).mpr ⟨.octets, by decide +kernel⟩

/-! Packets of 32768 octets pass a mark of `2 ^ 32 - 1` only where the counter is back at zero. -/

section Wrap

open Highwater

def sentPacket : List Traffic := [.encrypt 32768, .bundled, .flushed]

def longTraffic : List Traffic := (List.replicate 131072 sentPacket).flatten

theorem sent_flatten_replicate (c : Count) (n : Nat) (es : List Traffic) :
    Meter.sent c.tick (List.replicate n es).flatten = n * Meter.sent c.tick es := by
  induction n with
  | zero => simp [Meter.sent]
  | succ n ih =>
    rw [List.replicate_succ, List.flatten_cons, Meter.sent_append, ih, Nat.add_one_mul, Nat.add_comm]

theorem flatten_replicate_succ (n : Nat) (es : List Traffic) :
    (List.replicate (n + 1) es).flatten = (List.replicate n es).flatten ++ es := by
  rw [List.replicate_succ', List.flatten_append, List.flatten_singleton]

theorem longTraffic_counts {p : List Traffic} (hp : p <+: longTraffic) :
    32768 ∣ Meter.sent Count.octets.tick p ∧ Meter.got Count.octets.tick p = 0 := by
  have hall : ∀ e ∈ longTraffic,
      32768 ∣ (Count.octets.tick e).sent ∧ (Count.octets.tick e).got = 0 := by
    intro e he
    obtain ⟨packet, hpacket, he⟩ := List.mem_flatten.mp he
    rw [List.eq_of_mem_replicate hpacket] at he
    simp only [sentPacket, List.mem_cons, List.not_mem_nil, or_false] at he
    rcases he with rfl | rfl | rfl <;> decide
  constructor
  · refine List.dvd_sum fun n hn => ?_
    obtain ⟨e, he, rfl⟩ := List.mem_map.mp hn
    exact (hall e (hp.subset he)).1
  · refine List.sum_eq_zero fun n hn => ?_
    obtain ⟨e, he, rfl⟩ := List.mem_map.mp hn
    exact (hall e (hp.subset he)).2

/-- The last packet takes the octets sent to `2 ^ 32`, and no check of the run calls the callback. -/
theorem highwater_never_called :
    (∃ p, longTraffic = p ++ [.flushed] ∧
      ((markedSession 0xFFFFFFFF 0).highwaterMark).toNat ≤ Meter.sent Count.octets.tick longTraffic) ∧
    ∀ p e, p ++ [e] <+: longTraffic →
      ((((markedSession 0xFFFFFFFF 0).rekeyed []).run p).step e).1 = none := by
  have htotal : Meter.sent Count.octets.tick longTraffic = 2 ^ 32 := by
    rw [longTraffic, sent_flatten_replicate]
    rfl
  have hlast : longTraffic = (List.replicate 131071 sentPacket).flatten ++ sentPacket :=
    flatten_replicate_succ 131071 sentPacket
  have hflush : sentPacket = [.encrypt 32768, .bundled] ++ [.flushed] := rfl
  rw [hflush, ← List.append_assoc] at hlast
  refine ⟨⟨_, hlast, ?_⟩, ?_⟩
  · rw [htotal]
    decide
  · intro p e hp
    have hlive : Live ((markedSession 0xFFFFFFFF 0).rekeyed []) := ⟨rfl, rfl⟩
    rw [← Option.not_isSome_iff_eq_none, step_call (live_run hlive)]
    rintro ⟨c, hraised⟩
    rw [← run_concat] at hraised
    have hmeter := meter_rekeyed (markedSession 0xFFFFFFFF 0) [] c
    have hiff := @Meter.reports_iff Traffic (2 ^ 32) c.tick
      (c.meter ((markedSession 0xFFFFFFFF 0).rekeyed [])) (c.mark (markedSession 0xFFFFFFFF 0)).toNat
      (Meter.sent c.tick []) 0 p e (by rw [hmeter]) (by rw [hmeter]) (by rw [hmeter])
      (by rw [hmeter, Nat.zero_mod])
    obtain ⟨-, ⟨hne, hshown⟩, -⟩ := hiff.mp (raised_iff.mp hraised)
    cases c with
    | octets =>
      obtain ⟨⟨n, hn⟩, hgot⟩ := longTraffic_counts hp
      have hmark : (Count.mark (markedSession 0xFFFFFFFF 0) .octets).toNat = 2 ^ 32 - 1 := rfl
      have hnone : Meter.sent Count.octets.tick [] = 0 := rfl
      rw [hmark, hn, hgot, hnone] at hshown
      omega
    | packets => exact hne rfl

end Wrap

end WolfSsh
