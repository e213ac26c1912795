import Mathlib.Data.List.Basic

/-! Runs of a deterministic step function over a list of events, and the rules that lift what one
step does to every state and every step of a run. -/

namespace Runs

variable {σ ε : Type} (step : σ → ε → σ)

/-- The states of a run, the first one included. -/
def states : σ → List ε → List σ
  | s, [] => [s]
  | s, e :: es => s :: states (step s e) es

/-- The steps of a run: each event with the state it finds. -/
def steps : σ → List ε → List (σ × ε)
  | _, [] => []
  | s, e :: es => (s, e) :: steps (step s e) es

/-- Every step of the run meets `cond`. -/
def Meets (cond : σ → ε → Prop) (s : σ) (es : List ε) : Prop :=
  ∀ p ∈ steps step s es, cond p.1 p.2

variable {step} {cond : σ → ε → Prop} {inv : σ → Prop}

theorem meets_cons {s : σ} {e : ε} {es : List ε} :
    Meets step cond s (e :: es) ↔ cond s e ∧ Meets step cond (step s e) es := by
  simp [Meets, steps]

theorem Meets.cons {s : σ} {e : ε} {es : List ε} (h : Meets step cond s (e :: es)) :
    cond s e ∧ Meets step cond (step s e) es :=
  meets_cons.mp h

/-- What the first state satisfies and every step that meets the condition keeps holds in every
state of such a run. -/
theorem invariant (hstep : ∀ s e, inv s → cond s e → inv (step s e)) {s : σ} (hs : inv s)
    {es : List ε} (hes : Meets step cond s es) : ∀ t ∈ states step s es, inv t := by
  induction es generalizing s with
  | nil =>
    intro t ht
    rw [states, List.mem_singleton] at ht
    exact ht ▸ hs
  | cons e es ih =>
    intro t ht
    obtain ⟨hc, hrest⟩ := hes.cons
    rw [states, List.mem_cons] at ht
    rcases ht with rfl | ht
    · exact hs
    · exact ih (hstep s e hs hc) hrest t ht

theorem mem_states (s : σ) (es : List ε) : s ∈ states step s es := by
  cases es <;> simp [states]

/-- Where a step that misses the condition breaks the property at once, the property holds all along
the runs that meet the condition, and no others. -/
theorem forall_states_iff {good : σ → Prop} (hgood : ∀ s, inv s → good s)
    (hstep : ∀ s e, inv s → cond s e → inv (step s e))
    (hbreak : ∀ s e, inv s → ¬ cond s e → ¬ good (step s e)) {s : σ} (hs : inv s) (es : List ε) :
    (∀ t ∈ states step s es, good t) ↔ Meets step cond s es := by
  constructor
  · intro hall
    induction es generalizing s with
    | nil => exact nofun
    | cons e es ih =>
      have hrest : ∀ t ∈ states step (step s e) es, good t :=
        fun t ht => hall t (List.mem_cons_of_mem _ ht)
      have hc : cond s e := by
        by_contra hmiss
        exact hbreak s e hs hmiss (hrest _ (mem_states _ es))
      intro p hp
      rw [steps, List.mem_cons] at hp
      rcases hp with rfl | hp
      · exact hc
      · exact ih (hstep s e hs hc) hrest p hp
  · intro hes t ht
    exact hgood t (invariant hstep hs hes t ht)

theorem foldl_mem_states (s : σ) (es : List ε) : es.foldl step s ∈ states step s es := by
  induction es generalizing s with
  | nil => simp [states]
  | cons e es ih => exact List.mem_cons_of_mem _ (ih (step s e))

theorem mem_states_of_mem_steps {s : σ} {es : List ε} {p : σ × ε} (hp : p ∈ steps step s es) :
    p.1 ∈ states step s es := by
  induction es generalizing s with
  | nil => simp [steps] at hp
  | cons e es ih =>
    rw [steps, List.mem_cons] at hp
    rcases hp with rfl | hp
    · simp [states]
    · exact List.mem_cons_of_mem _ (ih hp)

theorem snd_mem_of_mem_steps {s : σ} {es : List ε} {p : σ × ε} (hp : p ∈ steps step s es) :
    p.2 ∈ es := by
  induction es generalizing s with
  | nil => simp [steps] at hp
  | cons e es ih =>
    rw [steps, List.mem_cons] at hp
    rcases hp with rfl | hp
    · simp
    · exact List.mem_cons_of_mem _ (ih hp)

theorem states_concat (s : σ) (es : List ε) (e : ε) :
    states step s (es ++ [e]) = states step s es ++ [step (es.foldl step s) e] := by
  induction es generalizing s with
  | nil => rfl
  | cons d es ih =>
    rw [List.cons_append, states, ih, states]
    rfl

theorem steps_concat (s : σ) (es : List ε) (e : ε) :
    steps step s (es ++ [e]) = steps step s es ++ [(es.foldl step s, e)] := by
  induction es generalizing s with
  | nil => rfl
  | cons d es ih =>
    rw [List.cons_append, steps, ih, steps]
    rfl

theorem meets_concat {cond : σ → ε → Prop} {s : σ} {es : List ε} {e : ε} :
    Meets step cond s (es ++ [e]) ↔ Meets step cond s es ∧ cond (es.foldl step s) e := by
  simp only [Meets, steps_concat, List.mem_append, List.mem_singleton, or_imp, forall_and, forall_eq]

end Runs
