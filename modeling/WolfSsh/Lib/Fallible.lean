import Mathlib.Data.List.Basic

/-! Computations that may fail and keep the state they reached when they do. A run gives a
result and the last state. -/

abbrev Fallible (ε σ : Type) := ExceptT ε (StateM σ)

namespace Fallible

variable {ε σ τ α β : Type}

def runAt (m : Fallible ε σ α) (s : σ) : Except ε α × σ :=
  m.run.run s

/-- `m` started at `s` returns `a` and leaves the state `t`. -/
def Yields (m : Fallible ε σ α) (s : σ) (a : α) (t : σ) : Prop :=
  m.runAt s = (.ok a, t)

/-- Run `m` on a component of a larger state. -/
def zoom (get : τ → σ) (put : σ → τ → τ) (m : Fallible ε σ α) : Fallible ε τ α :=
  ExceptT.mk (fun t => ((m.runAt (get t)).1, put (m.runAt (get t)).2 t))

def ofExcept (r : Except ε α) : Fallible ε σ α :=
  ExceptT.mk (pure r)

/-- Fail with `e` unless `p`. -/
def require (p : Prop) [Decidable p] (e : ε) : Fallible ε σ Unit :=
  if p then pure () else throw e

/-- `require` where there is no state. -/
def ensure (p : Prop) [Decidable p] (e : ε) : Except ε Unit :=
  if p then .ok () else .error e

theorem ok_bind_iff {x : Except ε α} {f : α → Except ε β} {b : β} :
    (x >>= f) = .ok b ↔ ∃ a, x = .ok a ∧ f a = .ok b := by
  cases x <;> simp [bind, Except.bind]

theorem ok_ensure_iff {p : Prop} [Decidable p] {e : ε} {u : Unit} :
    ensure p e = .ok u ↔ p := by
  by_cases hp : p <;> simp [ensure, hp]

theorem ok_pure_iff {a b : α} : (pure a : Except ε α) = .ok b ↔ a = b := by
  simp [pure, Except.pure]

@[simp] theorem runAt_ofExcept (r : Except ε α) (s : σ) :
    (ofExcept r : Fallible ε σ α).runAt s = (r, s) := rfl

@[simp] theorem runAt_pure (a : α) (s : σ) : (pure a : Fallible ε σ α).runAt s = (.ok a, s) := rfl

@[simp] theorem runAt_throw (e : ε) (s : σ) :
    (throw e : Fallible ε σ α).runAt s = (.error e, s) := rfl

@[simp] theorem runAt_get (s : σ) : (get : Fallible ε σ σ).runAt s = (.ok s, s) := rfl

@[simp] theorem runAt_set (s t : σ) : (set t : Fallible ε σ PUnit).runAt s = (.ok ⟨⟩, t) := rfl

@[simp] theorem runAt_modify (f : σ → σ) (s : σ) :
    (modify f : Fallible ε σ PUnit).runAt s = (.ok ⟨⟩, f s) := rfl

@[simp] theorem runAt_zoom (get : τ → σ) (put : σ → τ → τ) (m : Fallible ε σ α) (t : τ) :
    (zoom get put m).runAt t = ((m.runAt (get t)).1, put (m.runAt (get t)).2 t) := rfl

theorem runAt_bind (m : Fallible ε σ α) (f : α → Fallible ε σ β) (s : σ) :
    (m >>= f).runAt s =
      match m.runAt s with
      | (.ok a, t) => (f a).runAt t
      | (.error e, t) => (.error e, t) := by
  change ((m.run >>= ExceptT.bindCont f).run s) = _
  simp only [runAt, StateT.run_bind]
  rcases h : m.run.run s with ⟨_ | a, t⟩ <;> rfl

theorem Yields.runAt_bind {m : Fallible ε σ α} {f : α → Fallible ε σ β} {s t : σ} {a : α}
    (hm : Yields m s a t) : (m >>= f).runAt s = (f a).runAt t := by
  rw [Fallible.runAt_bind, hm]

theorem Yields.bind {m : Fallible ε σ α} {f : α → Fallible ε σ β} {s t u : σ} {a : α} {b : β}
    (hm : Yields m s a t) (hf : Yields (f a) t b u) : Yields (m >>= f) s b u :=
  hm.runAt_bind.trans hf

theorem yields_bind_iff {m : Fallible ε σ α} {f : α → Fallible ε σ β} {s u : σ} {b : β} :
    Yields (m >>= f) s b u ↔ ∃ a t, Yields m s a t ∧ Yields (f a) t b u := by
  constructor
  · intro h
    rw [Yields, Fallible.runAt_bind] at h
    rcases hm : m.runAt s with ⟨_ | a, t⟩
    · simp [hm] at h
    · exact ⟨a, t, hm, by rwa [hm] at h⟩
  · rintro ⟨a, t, hm, hf⟩
    exact hm.bind hf

theorem yields_require_iff {p : Prop} [Decidable p] {e : ε} {s t : σ} {u : Unit} :
    Yields (require p e) s u t ↔ p ∧ s = t := by
  by_cases hp : p <;> simp [Yields, require, hp]

theorem yields_modify_iff {f : σ → σ} {s t : σ} {u : PUnit} :
    Yields (modify f : Fallible ε σ PUnit) s u t ↔ f s = t := by
  simp [Yields]

theorem yields_get_iff {s t u : σ} :
    Yields (get : Fallible ε σ σ) s u t ↔ s = u ∧ s = t := by
  simp [Yields]

theorem yields_pure_iff {a b : α} {s t : σ} :
    Yields (pure a : Fallible ε σ α) s b t ↔ a = b ∧ s = t := by
  simp [Yields]

theorem yields_ofExcept_iff {r : Except ε α} {a : α} {s t : σ} :
    Yields (ofExcept r : Fallible ε σ α) s a t ↔ r = .ok a ∧ s = t := by
  simp [Yields]

theorem yields_zoom_iff {get : τ → σ} {put : σ → τ → τ} {m : Fallible ε σ α} {t u : τ} {a : α} :
    Yields (zoom get put m) t a u ↔ ∃ s, Yields m (get t) a s ∧ put s t = u := by
  rcases hm : m.runAt (get t) with ⟨_ | b, s⟩ <;> simp [Yields, hm]

/-- `m` leaves `g` of the state as it was, whether it fails or not. -/
def Keeps {γ : Type} (g : σ → γ) (m : Fallible ε σ α) : Prop :=
  ∀ s, g (m.runAt s).2 = g s

section Keeps

variable {γ : Type} {g : σ → γ}

theorem Keeps.bind {m : Fallible ε σ α} {f : α → Fallible ε σ β} (hm : Keeps g m)
    (hf : ∀ a, Keeps g (f a)) : Keeps g (m >>= f) := by
  intro s
  have hs := hm s
  rw [Fallible.runAt_bind]
  rcases h : m.runAt s with ⟨_ | a, t⟩
  · simpa [h] using hs
  · rw [h] at hs
    exact (hf a t).trans hs

theorem Keeps.pure (a : α) : Keeps g (pure a : Fallible ε σ α) := fun _ => rfl

theorem Keeps.get : Keeps g (get : Fallible ε σ σ) := fun _ => rfl

theorem Keeps.ofExcept (r : Except ε α) : Keeps g (ofExcept r : Fallible ε σ α) := fun _ => rfl

theorem Keeps.modify {f : σ → σ} (hf : ∀ s, g (f s) = g s) :
    Keeps g (modify f : Fallible ε σ PUnit) := hf

theorem Keeps.require (p : Prop) [Decidable p] (e : ε) :
    Keeps g (require p e : Fallible ε σ Unit) := by
  intro s
  by_cases hp : p <;> simp [Fallible.require, hp]

theorem Keeps.zoom {get : τ → σ} {put : σ → τ → τ} {δ : Type} {g : τ → δ} (m : Fallible ε σ α)
    (hg : ∀ s t, g (put s t) = g t) : Keeps g (zoom get put m) := fun t => hg _ t

end Keeps

end Fallible
