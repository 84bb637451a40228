import Mathlib

/-! # Computations with a trace

    A computation that may fail, changes a state, and makes calls to the
    outside. Every call is recorded, so that "it calls out only if" and
    "it makes the same calls" are statements about the trace.
-/

/-- What one run of a computation leaves behind. -/
structure Run (σ ι ε α : Type) where
  result : Except ε α
  state : σ
  trace : List ι

/-- A computation over states `σ` with calls `ι` and errors `ε`. -/
def Traced (σ ι ε α : Type) := σ → Run σ ι ε α

namespace Traced

variable {σ ι ε α β : Type}

/-- Sequencing: an error ends the computation, with the calls made so far. -/
def bind (m : Traced σ ι ε α) (f : α → Traced σ ι ε β) : Traced σ ι ε β := fun s =>
  match (m s).result with
  | .error e => ⟨.error e, (m s).state, (m s).trace⟩
  | .ok a =>
    let r := f a (m s).state
    ⟨r.result, r.state, (m s).trace ++ r.trace⟩

instance : Monad (Traced σ ι ε) where
  pure a := fun s => ⟨.ok a, s, []⟩
  bind := bind

/-- Fail or go on, without a call. -/
def lift (x : Except ε α) : Traced σ ι ε α := fun s => ⟨x, s, []⟩

/-- Read the state. -/
def read (f : σ → α) : Traced σ ι ε α := fun s => ⟨.ok (f s), s, []⟩

/-- Call out. -/
def call (i : ι) (act : σ → α × σ) : Traced σ ι ε α := fun s => ⟨.ok (act s).1, (act s).2, [i]⟩

@[simp] theorem pure_apply (a : α) (s : σ) :
    (pure a : Traced σ ι ε α) s = ⟨.ok a, s, []⟩ := rfl

@[simp] theorem lift_ok (a : α) : (lift (.ok a) : Traced σ ι ε α) = pure a := rfl

@[simp] theorem lift_error_apply (e : ε) (s : σ) :
    (lift (.error e) : Traced σ ι ε α) s = ⟨.error e, s, []⟩ := rfl

@[simp] theorem pure_bind_apply (a : α) (f : α → Traced σ ι ε β) (s : σ) :
    ((pure a : Traced σ ι ε α) >>= f) s = f a s := rfl

@[simp] theorem lift_error_bind_apply (e : ε) (f : α → Traced σ ι ε β) (s : σ) :
    ((lift (.error e) : Traced σ ι ε α) >>= f) s = ⟨.error e, s, []⟩ := rfl

@[simp] theorem read_bind_apply (g : σ → α) (f : α → Traced σ ι ε β) (s : σ) :
    ((read g : Traced σ ι ε α) >>= f) s = f (g s) s := rfl

@[simp] theorem call_bind_apply (i : ι) (act : σ → α × σ) (f : α → Traced σ ι ε β) (s : σ) :
    ((call i act : Traced σ ι ε α) >>= f) s =
      ⟨(f (act s).1 (act s).2).result, (f (act s).1 (act s).2).state,
        i :: (f (act s).1 (act s).2).trace⟩ := rfl

end Traced
