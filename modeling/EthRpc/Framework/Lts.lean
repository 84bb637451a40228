import Mathlib

/-! # Labelled transition systems

    Runs of a system that takes one labelled step after another:

    * `System`: initial states and a step relation.
    * `Steps`: finite sequences of steps with their labels.
    * `Reachable`, `invariant`: the induction over runs, stated once.
    * `restrict`: the same system with only the steps a guard admits. A
      property that holds "in every run whose steps all meet a condition"
      is an invariant of the restricted system.
    * `Reachable.map`: refinement. What is reachable is mapped to what is
      reachable if each step is mapped to a step, or to nothing.
-/

namespace Lts

variable {State Label State' Label' : Type}

/-- A labelled transition system. -/
structure System (State Label : Type) where
  init : State → Prop
  step : State → Label → State → Prop

/-- `Steps sys s ls s'`: taking the steps `ls` in order leads from `s` to `s'`. -/
inductive Steps (sys : System State Label) : State → List Label → State → Prop where
  | nil (s : State) : Steps sys s [] s
  | cons {s s' s'' : State} (l : Label) (ls : List Label) :
      sys.step s l s' → Steps sys s' ls s'' → Steps sys s (l :: ls) s''

/-- States some run from an initial state leads to. -/
inductive Reachable (sys : System State Label) : State → Prop where
  | init {s : State} : sys.init s → Reachable sys s
  | step {s s' : State} (l : Label) : Reachable sys s → sys.step s l s' → Reachable sys s'

theorem Steps.append {sys : System State Label} {s s' s'' : State} {ls ls' : List Label}
    (h : Steps sys s ls s') (h' : Steps sys s' ls' s'') : Steps sys s (ls ++ ls') s'' := by
  induction h with
  | nil s => exact h'
  | cons l ls hl _ ih => exact .cons l _ hl (ih h')

/-- What finitely many steps from a reachable state lead to is reachable. -/
theorem Steps.reachable {sys : System State Label} {s s' : State} {ls : List Label}
    (h : Steps sys s ls s') (hs : Reachable sys s) : Reachable sys s' := by
  induction h with
  | nil s => exact hs
  | cons l ls hstep _ ih => exact ih (Reachable.step l hs hstep)

/-- **Invariance**: what holds initially and is preserved by every step from
    a reachable state holds in every reachable state. -/
theorem invariant {sys : System State Label} (I : State → Prop)
    (hinit : ∀ s, sys.init s → I s)
    (hstep : ∀ s l s', Reachable sys s → I s → sys.step s l s' → I s')
    {s : State} (h : Reachable sys s) : I s := by
  induction h with
  | init hs => exact hinit _ hs
  | step l hs hl ih => exact hstep _ l _ hs ih hl

/-- The system whose steps all meet `guard`, a condition on the state
    before the step and on the step's label. -/
def System.restrict (sys : System State Label) (guard : State → Label → Prop) :
    System State Label where
  init := sys.init
  step s l s' := guard s l ∧ sys.step s l s'

/-- A run of the restricted system is a run of the system: what holds in
    every state of that one can be used here. -/
theorem Reachable.of_restrict {sys : System State Label} {guard : State → Label → Prop}
    {s : State} (h : Reachable (sys.restrict guard) s) : Reachable sys s := by
  induction h with
  | init hs => exact Reachable.init hs
  | step l _ hl ih => exact Reachable.step l ih hl.2

/-- **Refinement mapping.** Each step is one of the abstract system, or is
    not visible there. -/
theorem Reachable.map {sys : System State Label} {abs : System State' Label'} (f : State → State')
    (hinit : ∀ s, sys.init s → abs.init (f s))
    (hstep : ∀ s l s', Reachable sys s → sys.step s l s' →
      f s' = f s ∨ ∃ l', abs.step (f s) l' (f s'))
    {s : State} (h : Reachable sys s) : Reachable abs (f s) := by
  induction h with
  | init hs => exact Reachable.init (hinit _ hs)
  | step l hs hl ih =>
    rcases hstep _ l _ hs hl with heq | ⟨l', hl'⟩
    · rw [heq]
      exact ih
    · exact Reachable.step l' ih hl'

end Lts
