import Mathlib.Data.List.Basic

/-! Programs that call into an environment. A program is a finite tree: it returns, or makes a call
and goes on with the answer. `Ensures` is what holds whatever the environment answers. -/

/-- A program over the calls `C`, where a call `c` is answered by an `R c`. -/
inductive Calls (C : Type) (R : C → Type) (α : Type) : Type
  | ret (a : α)
  | call (c : C) (k : R c → Calls C R α)

namespace Calls

variable {C : Type} {R : C → Type} {α β : Type}

abbrev Event (C : Type) (R : C → Type) : Type := Σ c : C, R c

/-- An environment answers a call in view of all that was called before. -/
abbrev Env (C : Type) (R : C → Type) : Type := List (Event C R) → (c : C) → R c

def bind : Calls C R α → (α → Calls C R β) → Calls C R β
  | .ret a, f => f a
  | .call c k, f => .call c (fun r => bind (k r) f)

instance : Monad (Calls C R) where
  pure := .ret
  bind := bind

def ask (c : C) : Calls C R (R c) := .call c .ret

/-- The result of a program and the history it leaves behind it. -/
def run (env : Env C R) : Calls C R α → List (Event C R) → α × List (Event C R)
  | .ret a, h => (a, h)
  | .call c k, h => run env (k (env h c)) (h ++ [⟨c, env h c⟩])

theorem run_bind (env : Env C R) (m : Calls C R α) (f : α → Calls C R β) (h : List (Event C R)) :
    run env (m >>= f) h = run env (f (run env m h).1) (run env m h).2 := by
  induction m generalizing h with
  | ret a => rfl
  | call c k ih => exact ih (env h c) (h ++ [⟨c, env h c⟩])

theorem run_history (env : Env C R) (m : Calls C R α) (h : List (Event C R)) :
    ∃ new, (run env m h).2 = h ++ new := by
  induction m generalizing h with
  | ret a => exact ⟨[], (List.append_nil h).symm⟩
  | call c k ih =>
    obtain ⟨new, hnew⟩ := ih (env h c) (h ++ [⟨c, env h c⟩])
    exact ⟨[⟨c, env h c⟩] ++ new, by rw [run, hnew, List.append_assoc]⟩

/-- Whatever the environment answers within `allow`, the program started after `h` ends with a result
and a history that meet `post`. -/
def Ensures (allow : List (Event C R) → (c : C) → R c → Prop)
    (post : α → List (Event C R) → Prop) : Calls C R α → List (Event C R) → Prop
  | .ret a, h => post a h
  | .call c k, h => ∀ r, allow h c r → Ensures allow post (k r) (h ++ [⟨c, r⟩])

variable {allow : List (Event C R) → (c : C) → R c → Prop} {post : α → List (Event C R) → Prop}

@[simp] theorem ensures_pure {a : α} {h : List (Event C R)} :
    Ensures allow post (pure a) h ↔ post a h := Iff.rfl

@[simp] theorem ensures_ask {c : C} {post : R c → List (Event C R) → Prop}
    {h : List (Event C R)} :
    Ensures allow post (ask c) h ↔ ∀ r, allow h c r → post r (h ++ [⟨c, r⟩]) := Iff.rfl

theorem ensures_bind {m : Calls C R α} {f : α → Calls C R β} {post : β → List (Event C R) → Prop}
    {h : List (Event C R)} :
    Ensures allow post (m >>= f) h ↔ Ensures allow (fun a => Ensures allow post (f a)) m h := by
  induction m generalizing h with
  | ret a => exact Iff.rfl
  | call c k ih =>
    constructor
    · intro hm r hr
      exact (ih r).mp (hm r hr)
    · intro hm r hr
      exact (ih r).mpr (hm r hr)

theorem Ensures.mono {post' : α → List (Event C R) → Prop} (himp : ∀ a h, post a h → post' a h)
    {m : Calls C R α} {h : List (Event C R)} (hm : Ensures allow post m h) :
    Ensures allow post' m h := by
  induction m generalizing h with
  | ret a => exact himp a h hm
  | call c k ih => exact fun r hr => ih r (hm r hr)

theorem Ensures.bind {m : Calls C R α} {f : α → Calls C R β} {mid : α → List (Event C R) → Prop}
    {post : β → List (Event C R) → Prop} {h : List (Event C R)} (hm : Ensures allow mid m h)
    (hf : ∀ a h, mid a h → Ensures allow post (f a) h) : Ensures allow post (m >>= f) h :=
  ensures_bind.mpr (hm.mono hf)

theorem Ensures.and {post' : α → List (Event C R) → Prop} {m : Calls C R α}
    {h : List (Event C R)} (hm : Ensures allow post m h) (hm' : Ensures allow post' m h) :
    Ensures allow (fun a h => post a h ∧ post' a h) m h := by
  induction m generalizing h with
  | ret a => exact ⟨hm, hm'⟩
  | call c k ih => exact fun r hr => ih r (hm r hr) (hm' r hr)

theorem Ensures.run {env : Env C R} (henv : ∀ h c, allow h c (env h c)) {m : Calls C R α}
    {h : List (Event C R)} (hm : Ensures allow post m h) :
    post (Calls.run env m h).1 (Calls.run env m h).2 := by
  induction m generalizing h with
  | ret a => exact hm
  | call c k ih => exact ih (env h c) (hm (env h c) (henv h c))

/-- What `m` returns, with the calls it makes, meets `post`, after any history. -/
def Does (allow : (c : C) → R c → Prop) (post : α → List (Event C R) → Prop)
    (m : Calls C R α) : Prop :=
  ∀ h, Ensures (fun _ => allow) (fun a h' => ∃ new, h' = h ++ new ∧ post a new) m h

section Does

variable {allow : (c : C) → R c → Prop}

theorem Does.pure {post : α → List (Event C R) → Prop} {a : α} (ha : post a []) :
    Does allow post (Pure.pure a) :=
  fun _ => ⟨[], by simp, ha⟩

theorem Does.ask {c : C} {post : R c → List (Event C R) → Prop}
    (hpost : ∀ r, allow c r → post r [⟨c, r⟩]) : Does allow post (ask c) :=
  fun _ r hr => ⟨[⟨c, r⟩], rfl, hpost r hr⟩

theorem Does.bind {m : Calls C R α} {f : α → Calls C R β} {mid : α → List (Event C R) → Prop}
    {post : β → List (Event C R) → Prop} (hm : Does allow mid m)
    (hf : ∀ a new, mid a new → Does allow (fun b rest => post b (new ++ rest)) (f a)) :
    Does allow post (m >>= f) := by
  intro h
  apply (hm h).bind
  rintro a h' ⟨new, rfl, hmid⟩
  apply (hf a new hmid (h ++ new)).mono
  rintro b h' ⟨rest, rfl, hpost⟩
  exact ⟨new ++ rest, by simp, hpost⟩

theorem Does.call {c : C} {f : R c → Calls C R β} {post : β → List (Event C R) → Prop}
    (hf : ∀ r, allow c r → Does allow (fun b rest => post b (⟨c, r⟩ :: rest)) (f r)) :
    Does allow post (Calls.ask c >>= f) := by
  intro h r hr
  have hr' := hf r hr (h ++ [⟨c, r⟩])
  refine Ensures.mono ?_ hr'
  rintro b h' ⟨rest, rfl, hpost⟩
  exact ⟨⟨c, r⟩ :: rest, by simp, hpost⟩

theorem Does.mono {post post' : α → List (Event C R) → Prop} {m : Calls C R α}
    (hm : Does allow post m) (himp : ∀ a new, post a new → post' a new) : Does allow post' m := by
  intro h
  apply (hm h).mono
  rintro a h' ⟨new, rfl, hpost⟩
  exact ⟨new, rfl, himp a new hpost⟩

theorem Does.and {post post' : α → List (Event C R) → Prop} {m : Calls C R α}
    (hm : Does allow post m) (hm' : Does allow post' m) :
    Does allow (fun a new => post a new ∧ post' a new) m := by
  intro h
  apply ((hm h).and (hm' h)).mono
  rintro a h' ⟨⟨new, rfl, hpost⟩, new', heq, hpost'⟩
  obtain rfl := List.append_cancel_left heq
  exact ⟨new, rfl, hpost, hpost'⟩

theorem Does.run {post : α → List (Event C R) → Prop} {m : Calls C R α} (hm : Does allow post m)
    {env : Env C R} (henv : ∀ h c, allow c (env h c)) (h : List (Event C R)) :
    ∃ new, (Calls.run env m h).2 = h ++ new ∧ post (Calls.run env m h).1 new :=
  (hm h).run henv

end Does

/-- Every call that `m` makes meets `made` and its result meets `post`, after any history. -/
def Safe (allow : (c : C) → R c → Prop) (made : Event C R → Prop) (post : α → Prop)
    (m : Calls C R α) : Prop :=
  Does allow (fun a new => post a ∧ ∀ e ∈ new, made e) m

section Safe

variable {allow : (c : C) → R c → Prop} {made : Event C R → Prop}

theorem Safe.pure {post : α → Prop} {a : α} (ha : post a) :
    Safe allow made post (Pure.pure a) :=
  Does.pure ⟨ha, by simp⟩

theorem Safe.ask {c : C} {post : R c → Prop} (hmade : ∀ r, allow c r → made ⟨c, r⟩)
    (hpost : ∀ r, allow c r → post r) : Safe allow made post (ask c) := by
  apply Does.ask
  intro r hr
  refine ⟨hpost r hr, ?_⟩
  simpa using hmade r hr

theorem Safe.bind {m : Calls C R α} {f : α → Calls C R β} {mid : α → Prop} {post : β → Prop}
    (hm : Safe allow made mid m) (hf : ∀ a, mid a → Safe allow made post (f a)) :
    Safe allow made post (m >>= f) := by
  apply Does.bind hm
  rintro a new ⟨ha, hnew⟩
  apply (hf a ha).mono
  rintro b rest ⟨hb, hrest⟩
  refine ⟨hb, ?_⟩
  intro e he
  rcases List.mem_append.mp he with he | he
  · exact hnew e he
  · exact hrest e he

theorem Safe.call {c : C} {f : R c → Calls C R β} {post : β → Prop}
    (hmade : ∀ r, allow c r → made ⟨c, r⟩) (hf : ∀ r, allow c r → Safe allow made post (f r)) :
    Safe allow made post (Calls.ask c >>= f) := by
  apply Does.call
  intro r hr
  apply (hf r hr).mono
  rintro b rest ⟨hb, hrest⟩
  refine ⟨hb, ?_⟩
  intro e he
  rcases List.mem_cons.mp he with rfl | he
  · exact hmade r hr
  · exact hrest e he

theorem Safe.trivial (m : Calls C R α) : Safe allow (fun _ => True) (fun _ => True) m := by
  intro h
  induction m generalizing h with
  | ret a => exact ⟨[], by simp, True.intro, fun _ _ => True.intro⟩
  | call c k ih =>
    intro r _
    refine Ensures.mono ?_ (ih r (h ++ [⟨c, r⟩]))
    rintro a h' ⟨rest, rfl, -⟩
    exact ⟨⟨c, r⟩ :: rest, by simp, True.intro, fun _ _ => True.intro⟩

theorem Safe.mono {made' : Event C R → Prop} {post post' : α → Prop} {m : Calls C R α}
    (hm : Safe allow made post m) (hmade : ∀ e, made e → made' e) (hpost : ∀ a, post a → post' a) :
    Safe allow made' post' m :=
  Does.mono hm fun a _ h => ⟨hpost a h.1, fun e he => hmade e (h.2 e he)⟩

end Safe

/-- Every event meets `made` in view of the history it finds. -/
def Made (made : List (Event C R) → Event C R → Prop) :
    List (Event C R) → List (Event C R) → Prop
  | _, [] => True
  | h, e :: es => made h e ∧ Made made (h ++ [e]) es

/-- Where the environment answers within `allow`, every call that the program makes after `h` meets
`made`, and it ends with a result and a history that meet `post`. -/
def Guards (allow : List (Event C R) → (c : C) → R c → Prop)
    (made : List (Event C R) → Event C R → Prop) (post : α → List (Event C R) → Prop) :
    Calls C R α → List (Event C R) → Prop
  | .ret a, h => post a h
  | .call c k, h => ∀ r, allow h c r → made h ⟨c, r⟩ ∧ Guards allow made post (k r) (h ++ [⟨c, r⟩])

section Guards

variable {allow : List (Event C R) → (c : C) → R c → Prop}
  {made : List (Event C R) → Event C R → Prop}

theorem Guards.pure {post : α → List (Event C R) → Prop} {a : α} {h : List (Event C R)}
    (ha : post a h) : Guards allow made post (Pure.pure a) h := ha

theorem Guards.call {c : C} {f : R c → Calls C R β} {post : β → List (Event C R) → Prop}
    {h : List (Event C R)} (hmade : ∀ r, allow h c r → made h ⟨c, r⟩)
    (hf : ∀ r, allow h c r → Guards allow made post (f r) (h ++ [⟨c, r⟩])) :
    Guards allow made post (Calls.ask c >>= f) h :=
  fun r hr => ⟨hmade r hr, hf r hr⟩

theorem Guards.bind {m : Calls C R α} {f : α → Calls C R β} {mid : α → List (Event C R) → Prop}
    {post : β → List (Event C R) → Prop} {h : List (Event C R)}
    (hm : Guards allow made mid m h)
    (hf : ∀ a h', mid a h' → Guards allow made post (f a) h') :
    Guards allow made post (m >>= f) h := by
  induction m generalizing h with
  | ret a => exact hf a h hm
  | call c k ih => exact fun r hr => ⟨(hm r hr).1, ih r (hm r hr).2⟩

theorem Guards.mono {post post' : α → List (Event C R) → Prop} {m : Calls C R α}
    {h : List (Event C R)} (hm : Guards allow made post m h)
    (himp : ∀ a h', post a h' → post' a h') : Guards allow made post' m h := by
  induction m generalizing h with
  | ret a => exact himp a h hm
  | call c k ih => exact fun r hr => ⟨(hm r hr).1, ih r (hm r hr).2⟩

theorem Guards.ite {p : Prop} [Decidable p] {m n : Calls C R α}
    {post : α → List (Event C R) → Prop} {h : List (Event C R)}
    (hm : p → Guards allow made post m h) (hn : ¬p → Guards allow made post n h) :
    Guards allow made post (if p then m else n) h := by
  by_cases hp : p
  · rw [if_pos hp]
    exact hm hp
  · rw [if_neg hp]
    exact hn hp

theorem Guards.run {env : Env C R} (henv : ∀ h c, allow h c (env h c))
    {post : α → List (Event C R) → Prop} {m : Calls C R α} {h : List (Event C R)}
    (hm : Guards allow made post m h) :
    ∃ new, (Calls.run env m h).2 = h ++ new ∧ Made made h new ∧
      post (Calls.run env m h).1 (Calls.run env m h).2 := by
  induction m generalizing h with
  | ret a => exact ⟨[], by simp [Calls.run], trivial, hm⟩
  | call c k ih =>
    obtain ⟨hmade, hrest⟩ := hm (env h c) (henv h c)
    obtain ⟨new, hnew, hall, hpost⟩ := ih (env h c) hrest
    refine ⟨⟨c, env h c⟩ :: new, ?_, ⟨hmade, hall⟩, hpost⟩
    rw [Calls.run, hnew]
    simp

end Guards

/-- The program returns `a` after the calls `t`, answered as they are there. -/
def Emits : Calls C R α → List (Event C R) → α → Prop
  | .ret a, t, a' => t = [] ∧ a' = a
  | .call c k, t, a' => ∃ r rest, t = ⟨c, r⟩ :: rest ∧ Emits (k r) rest a'

section Emits

theorem emits_pure {a : α} : Emits (pure a : Calls C R α) [] a := ⟨rfl, rfl⟩

theorem emits_call {c : C} {f : R c → Calls C R β} {r : R c} {t : List (Event C R)} {b : β}
    (h : Emits (f r) t b) : Emits (ask c >>= f) (⟨c, r⟩ :: t) b := ⟨r, t, rfl, h⟩

end Emits

theorem bind_bind {γ : Type} (m : Calls C R α) (f : α → Calls C R β) (g : β → Calls C R γ) :
    m >>= f >>= g = m >>= fun a => f a >>= g := by
  induction m with
  | ret a => rfl
  | call c k ih => exact congrArg (Calls.call c) (funext ih)

/-- The calls of a program are served by other calls, over a state. -/
def via {σ C' : Type} {R' : C' → Type} (serve : σ → (c : C) → Calls C' R' (R c × σ)) :
    Calls C R α → σ → Calls C' R' (α × σ)
  | .ret a, s => .ret (a, s)
  | .call c k, s => serve s c >>= fun p => via serve (k p.1) p.2

section Via

variable {σ C' : Type} {R' : C' → Type} {serve : σ → (c : C) → Calls C' R' (R c × σ)}

theorem via_bind (m : Calls C R α) (f : α → Calls C R β) (s : σ) :
    via serve (m >>= f) s = via serve m s >>= fun p => via serve (f p.1) p.2 := by
  induction m generalizing s with
  | ret a => rfl
  | call c k ih =>
    change (serve s c >>= fun p => via serve (k p.1 >>= f) p.2)
      = (serve s c >>= fun p => via serve (k p.1) p.2) >>= fun p => via serve (f p.1) p.2
    rw [bind_bind]
    congr 1
    funext p
    exact ih p.1 p.2

end Via

end Calls
