import Mathlib.Data.List.Induction
import Mathlib.Algebra.GroupWithZero.Nat
import Mathlib.Algebra.BigOperators.Group.List.Basic

/-! Two counters kept modulo a power of the machine, with a mark that is to be reported once, at the
first check that finds one of them at it. -/

/-- What an event adds to the counters, and whether they are checked after it. -/
structure Tick where
  sent : Nat
  got : Nat
  check : Bool

structure Meter where
  mark : Nat
  tx : Nat
  rx : Nat
  flag : Bool

namespace Meter

variable {ε : Type} (w : Nat) (tick : ε → Tick)

def AtMark (m : Meter) : Prop := m.mark ≠ 0 ∧ (m.mark ≤ m.tx ∨ m.mark ≤ m.rx)

instance (m : Meter) : Decidable m.AtMark := inferInstanceAs (Decidable (_ ∧ _))

def add (m : Meter) (t : Tick) : Meter :=
  { m with tx := (m.tx + t.sent) % w, rx := (m.rx + t.got) % w }

def checked (m : Meter) : Meter := { m with flag := m.flag || decide m.AtMark }

def next (m : Meter) (t : Tick) : Meter :=
  if t.check then (m.add w t).checked else m.add w t

def run (m : Meter) (es : List ε) : Meter := es.foldl (fun m e => m.next w (tick e)) m

def sent (es : List ε) : Nat := (es.map fun e => (tick e).sent).sum

def got (es : List ε) : Nat := (es.map fun e => (tick e).got).sum

/-- After `a` and `b` at the start, one of the totals is at the mark. -/
def Reached (mark a b : Nat) (es : List ε) : Prop :=
  mark ≠ 0 ∧ (mark ≤ a + sent tick es ∨ mark ≤ b + got tick es)

def Shown (mark a b : Nat) (es : List ε) : Prop :=
  mark ≠ 0 ∧ (mark ≤ (a + sent tick es) % w ∨ mark ≤ (b + got tick es) % w)

/-- `P` held at a check. -/
def Checked (P : List ε → Prop) (es : List ε) : Prop :=
  ∃ p e, p ++ [e] <+: es ∧ (tick e).check = true ∧ P (p ++ [e])

/-- The check at which `P` holds first. -/
def First (P : List ε → Prop) (p : List ε) (e : ε) : Prop :=
  (tick e).check = true ∧ P (p ++ [e]) ∧ ¬ Checked tick P p

def Reports (m : Meter) (p : List ε) (e : ε) : Prop :=
  (m.run w tick p).flag = false ∧ (m.run w tick (p ++ [e])).flag = true

variable {w} {tick} {m : Meter} {mark a b : Nat} {P Q : List ε → Prop} {p es : List ε} {e : ε}

theorem run_concat : m.run w tick (es ++ [e]) = (m.run w tick es).next w (tick e) :=
  List.foldl_concat ..

theorem sent_append (es fs : List ε) : sent tick (es ++ fs) = sent tick es + sent tick fs := by
  simp [sent]

theorem got_append (es fs : List ε) : got tick (es ++ fs) = got tick es + got tick fs := by
  simp [got]

theorem next_eq (m : Meter) (t : Tick) :
    m.next w t =
      { m.add w t with flag := m.flag || (t.check && decide (m.add w t).AtMark) } := by
  unfold next
  cases t.check <;> simp [checked, add]

theorem run_mark : (m.run w tick es).mark = m.mark := by
  induction es using List.reverseRecOn with
  | nil => rfl
  | append_singleton es e ih => rw [run_concat, next_eq, ← ih, add]

theorem run_counts (htx : m.tx = a % w) (hrx : m.rx = b % w) :
    (m.run w tick es).tx = (a + sent tick es) % w ∧ (m.run w tick es).rx = (b + got tick es) % w := by
  induction es using List.reverseRecOn with
  | nil => simp [run, sent, got, htx, hrx]
  | append_singleton es e ih =>
    rw [run_concat, next_eq, sent_append, got_append]
    simp [add, ih.1, ih.2, sent, got, Nat.add_assoc]

theorem Checked.mono (h : ∀ es, P es → Q es) (hchecked : Checked tick P es) : Checked tick Q es := by
  obtain ⟨p, e, hp, hcheck, hP⟩ := hchecked
  exact ⟨p, e, hp, hcheck, h _ hP⟩

theorem not_checked_nil : ¬ Checked tick P [] := by
  rintro ⟨p, e, hp, -⟩
  simp at hp

theorem checked_concat :
    Checked tick P (es ++ [e]) ↔ Checked tick P es ∨ ((tick e).check = true ∧ P (es ++ [e])) := by
  constructor
  · rintro ⟨p, c, hp, hcheck, hP⟩
    rcases List.prefix_concat_iff.mp hp with heq | hp
    · obtain ⟨rfl, hc⟩ := List.append_inj' heq rfl
      obtain rfl := List.head_eq_of_cons_eq hc
      exact .inr ⟨hcheck, hP⟩
    · exact .inl ⟨p, c, hp, hcheck, hP⟩
  · rintro (⟨p, c, hp, hcheck, hP⟩ | ⟨hcheck, hP⟩)
    · exact ⟨p, c, hp.trans (List.prefix_append _ _), hcheck, hP⟩
    · exact ⟨es, e, List.prefix_rfl, hcheck, hP⟩

theorem Checked.first (h : Checked tick P es) :
    ∃ p e, p ++ [e] <+: es ∧ First tick P p e := by
  induction es using List.reverseRecOn with
  | nil => exact (not_checked_nil h).elim
  | append_singleton es e ih =>
    by_cases hearlier : Checked tick P es
    · obtain ⟨p, c, hp, hfirst⟩ := ih hearlier
      exact ⟨p, c, hp.trans (List.prefix_append _ _), hfirst⟩
    · rcases checked_concat.mp h with h | ⟨hcheck, hP⟩
      · exact (hearlier h).elim
      · exact ⟨es, e, List.prefix_rfl, hcheck, hP, hearlier⟩

theorem flag_iff (hflag : m.flag = false) (hmark : m.mark = mark) (htx : m.tx = a % w)
    (hrx : m.rx = b % w) :
    (m.run w tick es).flag = true ↔ Checked tick (Shown w tick mark a b) es := by
  induction es using List.reverseRecOn with
  | nil =>
    simp only [run, List.foldl_nil, hflag, Bool.false_eq_true, false_iff]
    exact not_checked_nil
  | append_singleton es e ih =>
    have hcounts := @run_counts ε w tick m a b (es ++ [e]) htx hrx
    rw [run_concat] at hcounts ⊢
    rw [checked_concat, ← ih]
    rw [next_eq] at hcounts ⊢
    have hat : ((m.run w tick es).add w (tick e)).AtMark ↔ Shown w tick mark a b (es ++ [e]) := by
      rw [AtMark, Shown, ← hcounts.1, ← hcounts.2, ← hmark, ← @run_mark ε w tick m es]
      rfl
    simp only [Bool.or_eq_true, Bool.and_eq_true, decide_eq_true_eq, hat]

theorem reports_iff (hflag : m.flag = false) (hmark : m.mark = mark) (htx : m.tx = a % w)
    (hrx : m.rx = b % w) :
    Reports w tick m p e ↔ First tick (Shown w tick mark a b) p e := by
  have hbefore := @flag_iff ε w tick m mark a b p hflag hmark htx hrx
  rw [Reports, flag_iff hflag hmark htx hrx, checked_concat, ← Bool.not_eq_true, hbefore, First]
  constructor
  · rintro ⟨hnot, h | ⟨hcheck, hP⟩⟩
    · exact (hnot h).elim
    · exact ⟨hcheck, hP, hnot⟩
  · rintro ⟨hcheck, hP, hnot⟩
    exact ⟨hnot, .inr ⟨hcheck, hP⟩⟩

theorem Shown.reached (h : Shown w tick mark a b es) : Reached tick mark a b es :=
  ⟨h.1, h.2.imp (fun h => Nat.le_trans h (Nat.mod_le _ _)) fun h => Nat.le_trans h (Nat.mod_le _ _)⟩

/-- The mark is reported at the check that first finds a total at it, and at no other, exactly if a
counter is at it there. -/
theorem reports_first_iff (hflag : m.flag = false) (hmark : m.mark = mark) (htx : m.tx = a % w)
    (hrx : m.rx = b % w) :
    (∀ p e, p ++ [e] <+: es → (Reports w tick m p e ↔ First tick (Reached tick mark a b) p e)) ↔
      ∀ p e, p ++ [e] <+: es → First tick (Reached tick mark a b) p e →
        Shown w tick mark a b (p ++ [e]) := by
  simp only [reports_iff hflag hmark htx hrx]
  constructor
  · intro h p e hp hfirst
    exact ((h p e hp).mpr hfirst).2.1
  · intro h p e hp
    constructor
    · rintro ⟨hcheck, hshown, hnot⟩
      refine ⟨hcheck, hshown.reached, fun hearlier => hnot ?_⟩
      obtain ⟨p', e', hp', hfirst⟩ := hearlier.first
      have hin : p' ++ [e'] <+: es := hp'.trans ((List.prefix_append _ _).trans hp)
      exact ⟨p', e', hp', hfirst.1, h p' e' hin hfirst⟩
    · intro hfirst
      exact ⟨hfirst.1, h p e hp hfirst, fun hshown => hfirst.2.2 (hshown.mono fun _ => Shown.reached)⟩

end Meter
