import Mathlib

/-! # Routines over data behind a read-write lock

    A routine takes and drops guards of one lock, looks at the data behind it,
    changes it, and asks the outside world. It has two meanings:

    * `run`: by itself, from given data and answers. The lock plays no part.
    * The steps of a routine among others are the subject of `RwLock`.

    `Bracketed` says that the guards of a routine nest, and that it asks for
    none which it could only wait for in vain. `guarded` is a guard that
    lives until the end of a block, with every early return inside it.
-/

/-- How a guard is taken. -/
inductive Mode where
  | read
  | write
  deriving DecidableEq, Repr

/-- A routine that ends in an `α`. `A q` are the possible answers to `q`. -/
inductive Routine (σ Q : Type) (A : Q → Type) (α : Type) : Type where
  | done (a : α)
  | acquire (m : Mode) (k : Routine σ Q A α)
  /-- Drop the guard taken last. -/
  | release (k : Routine σ Q A α)
  | look (k : σ → Routine σ Q A α)
  | update (f : σ → σ) (k : Routine σ Q A α)
  | ask (q : Q) (k : A q → Routine σ Q A α)

namespace Routine

variable {σ Q : Type} {A : Q → Type} {α β : Type}

/-! ## Sequencing -/

def bind : Routine σ Q A α → (α → Routine σ Q A β) → Routine σ Q A β
  | .done a, f => f a
  | .acquire m k, f => .acquire m (k.bind f)
  | .release k, f => .release (k.bind f)
  | .look k, f => .look fun s => (k s).bind f
  | .update g k, f => .update g (k.bind f)
  | .ask q k, f => .ask q fun a => (k a).bind f

instance : Monad (Routine σ Q A) where
  pure := .done
  bind := bind

/-- The data behind the lock. -/
def get : Routine σ Q A σ := .look .done

def modify (f : σ → σ) : Routine σ Q A Unit := .update f (.done ())

/-- The answer to a question. -/
def query (q : Q) : Routine σ Q A (A q) := .ask q .done

/-- A block that holds a guard from its first step to its last. -/
def guarded (m : Mode) (body : Routine σ Q A α) : Routine σ Q A α :=
  .acquire m (body >>= fun a => .release (.done a))

/-! ## A routine by itself -/

/-- What a routine returns and leaves, when nothing else runs. -/
def run (answer : ∀ q, A q) : Routine σ Q A α → σ → α × σ
  | .done a, s => (a, s)
  | .acquire _ k, s => k.run answer s
  | .release k, s => k.run answer s
  | .look k, s => (k s).run answer s
  | .update f k, s => k.run answer (f s)
  | .ask q k, s => (k (answer q)).run answer s

section run
variable (answer : ∀ q, A q) (s : σ)

@[simp] theorem run_pure (a : α) : (pure a : Routine σ Q A α).run answer s = (a, s) := rfl

@[simp] theorem run_get : (get : Routine σ Q A σ).run answer s = (s, s) := rfl

@[simp] theorem run_modify (f : σ → σ) :
    (modify f : Routine σ Q A Unit).run answer s = ((), f s) := rfl

@[simp] theorem run_query (q : Q) :
    (query q : Routine σ Q A (A q)).run answer s = (answer q, s) := rfl

/-- One routine after the other. -/
@[simp] theorem run_bind (t : Routine σ Q A α) (f : α → Routine σ Q A β) :
    (t >>= f).run answer s = (f (t.run answer s).1).run answer (t.run answer s).2 := by
  show (t.bind f).run answer s = _
  induction t generalizing s with
  | done a => rfl
  | acquire m k ih => exact ih s
  | release k ih => exact ih s
  | look k ih => exact ih s s
  | update g k ih => exact ih (g s)
  | ask q k ih => exact ih (answer q) s

/-- By itself, a routine does not notice the lock. -/
@[simp] theorem run_guarded (m : Mode) (body : Routine σ Q A α) :
    (guarded m body).run answer s = body.run answer s := by
  show (body >>= fun a => (.release (.done a) : Routine σ Q A α)).run answer s = _
  rw [run_bind]
  rfl

end run

/-! ## Guards that nest -/

/-- `t.Bracketed g g'`: holding the guards `g`, the routine `t` ends holding
    `g'`, whatever it sees and is answered. It never asks for a guard while
    it holds a write guard, nor for a write guard while it holds any. -/
def Bracketed : Routine σ Q A α → List Mode → List Mode → Prop
  | .done _, g, g' => g = g'
  | .acquire m k, g, g' => .write ∉ g ∧ (m = .write → g = []) ∧ k.Bracketed (m :: g) g'
  | .release k, g, g' => ∃ m rest, g = m :: rest ∧ k.Bracketed rest g'
  | .look k, g, g' => ∀ s, (k s).Bracketed g g'
  | .update _ k, g, g' => k.Bracketed g g'
  | .ask _ k, g, g' => ∀ a, (k a).Bracketed g g'

section bracketed
variable {g g' g'' : List Mode}

theorem bracketed_pure (a : α) : (pure a : Routine σ Q A α).Bracketed g g := rfl

theorem bracketed_get : (get : Routine σ Q A σ).Bracketed g g := fun _ => rfl

theorem bracketed_modify (f : σ → σ) : (modify f : Routine σ Q A Unit).Bracketed g g := rfl

theorem bracketed_query (q : Q) : (query q : Routine σ Q A (A q)).Bracketed g g := fun _ => rfl

/-- **Guards nest in a sequence** if they nest in its parts. -/
theorem Bracketed.bind {t : Routine σ Q A α} {f : α → Routine σ Q A β} (h : t.Bracketed g g')
    (hf : ∀ a, (f a).Bracketed g' g'') : (t >>= f).Bracketed g g'' := by
  show (t.bind f).Bracketed g g''
  -- by the recursion of `bind`; the guards held change from step to step
  induction t generalizing g with
  | done a =>
    have hg : g = g' := h
    subst hg
    exact hf a
  | acquire m k ih => exact ⟨h.1, h.2.1, ih h.2.2⟩
  | release k ih =>
    obtain ⟨m, rest, heq, hk⟩ := h
    exact ⟨m, rest, heq, ih hk⟩
  | look k ih => exact fun s => ih s (h s)
  | update f' k ih => exact ih h
  | ask q k ih => exact fun a => ih a (h a)

/-- A guarded block ends with the guards it began with. -/
theorem Bracketed.guarded {m : Mode} {body : Routine σ Q A α} (hread : .write ∉ g)
    (hwrite : m = .write → g = []) (h : body.Bracketed (m :: g) (m :: g)) :
    (guarded m body).Bracketed g g :=
  ⟨hread, hwrite, h.bind fun _ => ⟨m, g, rfl, rfl⟩⟩

/-- A routine that is done holds no guard it has not handed on. -/
theorem Bracketed.ne_done {t : Routine σ Q A α} (h : t.Bracketed g []) (hg : g ≠ []) (a : α) :
    t ≠ .done a := by
  intro ht
  subst ht
  exact hg h

end bracketed

end Routine
