import Mathlib

/-! # Outcomes of Rust computations

    A Rust function that returns a `Result` ends in one of three ways: a
    value, an error its caller handles, or a panic nobody handles. `Outcome`
    keeps the three apart, so that "never panics" is a statement about the
    model and not a convention.

    Fixed-width arithmetic depends on how the crate is compiled: with
    overflow checks an overflow panics, without them it wraps. `Profile`
    is that compile-time switch.
-/

/-- How a Rust computation ends. -/
inductive Outcome (ε α : Type) where
  | ok (a : α)
  | err (e : ε)
  | panic
  deriving DecidableEq, Repr

namespace Outcome

variable {ε δ α β : Type}

/-- The `?` operator: go on with a value, stop at an error or a panic. -/
def bind (x : Outcome ε α) (f : α → Outcome ε β) : Outcome ε β :=
  match x with
  | .ok a => f a
  | .err e => .err e
  | .panic => .panic

instance : Monad (Outcome ε) where
  pure := .ok
  bind := bind

@[simp] theorem pure_eq (a : α) : (pure a : Outcome ε α) = .ok a := rfl

@[simp] theorem ok_bind (a : α) (f : α → Outcome ε β) : (Outcome.ok a >>= f) = f a := rfl

@[simp] theorem err_bind (e : ε) (f : α → Outcome ε β) :
    ((Outcome.err e : Outcome ε α) >>= f) = .err e := rfl

@[simp] theorem panic_bind (f : α → Outcome ε β) :
    ((Outcome.panic : Outcome ε α) >>= f) = .panic := rfl

/-- **Inversion**: a chain ends in a value only if its first part does. -/
theorem bind_eq_ok {x : Outcome ε α} {f : α → Outcome ε β} {b : β} :
    (x >>= f) = .ok b ↔ ∃ a, x = .ok a ∧ f a = .ok b := by
  cases x with
  | ok a => simp
  | err e => simp
  | panic => simp

/-- A chain ends in an error if a part of it does, and the parts before it
    end in values. -/
theorem bind_eq_err {x : Outcome ε α} {f : α → Outcome ε β} {e : ε} :
    (x >>= f) = .err e ↔ x = .err e ∨ ∃ a, x = .ok a ∧ f a = .err e := by
  cases x with
  | ok a => simp
  | err e' => simp
  | panic => simp

/-- A chain panics if a part of it does, and the parts before it end in values. -/
theorem bind_eq_panic {x : Outcome ε α} {f : α → Outcome ε β} :
    (x >>= f) = .panic ↔ x = .panic ∨ ∃ a, x = .ok a ∧ f a = .panic := by
  cases x with
  | ok a => simp
  | err e => simp
  | panic => simp

/-- `Result::is_ok`. -/
def is_ok : Outcome ε α → Bool
  | .ok _ => true
  | _ => false

/-- `Option::ok_or`. -/
def ok_or (e : ε) : Option α → Outcome ε α
  | some a => .ok a
  | none => .err e

@[simp] theorem ok_or_some (e : ε) (a : α) : ok_or e (some a) = .ok a := rfl

@[simp] theorem ok_or_none (e : ε) : ok_or e (none : Option α) = .err e := rfl

theorem ok_or_eq_ok {e : ε} {x : Option α} {a : α} : ok_or e x = .ok a ↔ x = some a := by
  cases x with
  | none => simp
  | some b => simp

theorem ok_or_ne_panic (e : ε) (x : Option α) : ok_or e x ≠ .panic := by
  cases x with
  | none => simp
  | some a => simp

/-- `Result::map_err`. -/
def map_err (f : ε → δ) : Outcome ε α → Outcome δ α
  | .ok a => .ok a
  | .err e => .err (f e)
  | .panic => .panic

theorem map_err_eq_ok {f : ε → δ} {x : Outcome ε α} {a : α} :
    map_err f x = .ok a ↔ x = .ok a := by
  cases x with
  | ok b => simp [map_err]
  | err e => simp [map_err]
  | panic => simp [map_err]

/-- A `Result` whose computation cannot panic. -/
def of_except : Except ε α → Outcome ε α
  | .ok a => .ok a
  | .error e => .err e

@[simp] theorem of_except_ok (a : α) : of_except (.ok a : Except ε α) = .ok a := rfl

@[simp] theorem of_except_error (e : ε) : of_except (.error e : Except ε α) = .err e := rfl

theorem of_except_ne_panic (x : Except ε α) : of_except x ≠ .panic := by
  cases x with
  | ok a => simp
  | error e => simp

theorem of_except_eq_ok {x : Except ε α} {a : α} : of_except x = .ok a ↔ x = .ok a := by
  cases x with
  | ok b => simp
  | error e => simp

end Outcome

/-! ## Fixed-width arithmetic -/

/-- The compile-time switch `overflow-checks`. -/
inductive Profile where
  /-- `overflow-checks = on`: an overflow panics. -/
  | checked
  /-- `overflow-checks = off`: an overflow wraps. -/
  | wrapping
  deriving DecidableEq, Repr

namespace Profile

variable {ε : Type} {w : Nat}

/-- An operation on unsigned words of `w` bits: `wrapped` is its result
    modulo `2 ^ w`, and `fits` says that nothing is lost there. -/
def arith (p : Profile) (fits : Prop) [Decidable fits] (wrapped : BitVec w) :
    Outcome ε (BitVec w) :=
  if fits then .ok wrapped
  else match p with
    | .checked => .panic
    | .wrapping => .ok wrapped

/-- `a + b`. -/
def add (p : Profile) (a b : BitVec w) : Outcome ε (BitVec w) :=
  p.arith (a.toNat + b.toNat < 2 ^ w) (a + b)

/-- `a * b`. -/
def mul (p : Profile) (a b : BitVec w) : Outcome ε (BitVec w) :=
  p.arith (a.toNat * b.toNat < 2 ^ w) (a * b)

/-- `a - b`. -/
def sub (p : Profile) (a b : BitVec w) : Outcome ε (BitVec w) :=
  p.arith (b.toNat ≤ a.toNat) (a - b)

theorem arith_of_fits {p : Profile} {fits : Prop} [Decidable fits] {wrapped : BitVec w}
    (h : fits) : p.arith fits wrapped = (.ok wrapped : Outcome ε _) := if_pos h

/-- An overflow is no error a caller could handle. -/
theorem arith_ne_err (p : Profile) (fits : Prop) [Decidable fits] (wrapped : BitVec w) (e : ε) :
    p.arith fits wrapped ≠ .err e := by
  unfold arith
  by_cases hfits : fits
  · simp [hfits]
  · cases p with
    | checked => simp [hfits]
    | wrapping => simp [hfits]

theorem add_of_lt {p : Profile} {a b : BitVec w} (h : a.toNat + b.toNat < 2 ^ w) :
    p.add a b = (.ok (a + b) : Outcome ε _) := arith_of_fits h

theorem mul_of_lt {p : Profile} {a b : BitVec w} (h : a.toNat * b.toNat < 2 ^ w) :
    p.mul a b = (.ok (a * b) : Outcome ε _) := arith_of_fits h

theorem add_ne_err (p : Profile) (a b : BitVec w) (e : ε) : p.add a b ≠ .err e :=
  p.arith_ne_err _ _ e

theorem mul_ne_err (p : Profile) (a b : BitVec w) (e : ε) : p.mul a b ≠ .err e :=
  p.arith_ne_err _ _ e

end Profile
