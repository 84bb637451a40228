import Mathlib

/-! # Tasks under a scheduler

    Tasks share a state. At each point of time the schedule gives one of them
    a turn; a task that waits for something is given its turn in vain, and its
    step then changes nothing.

    * **Runs**: `run` follows a schedule from an initial state.
    * **Fairness**: `Fair` schedules give every task infinitely many turns;
      there are such (`exists_fair`).
    * **Safety**: `invariant` and `stable`.
    * **Liveness**: `leads_to`, from a rank that a turn of a helpful task
      decreases.
-/

namespace Schedule

variable {State Task : Type}

/-! ## Runs -/

/-- The states of the run that follows the schedule `σ`. -/
def run (step : Task → State → State) (init : State) (σ : Nat → Task) : Nat → State
  | 0 => init
  | n + 1 => step (σ n) (run step init σ n)

section run
variable {step : Task → State → State} {init : State} {σ : Nat → Task}

theorem run_succ (n : Nat) : run step init σ (n + 1) = step (σ n) (run step init σ n) := rfl

/-- **Stability**: what every step preserves holds from the first time on
    that it holds. -/
theorem stable {I : State → Prop} (hstep : ∀ t s, I s → I (step t s)) {n m : Nat}
    (h : I (run step init σ n)) (hle : n ≤ m) : I (run step init σ m) := by
  induction m, hle using Nat.le_induction with
  | base => exact h
  | succ m _ ih => exact hstep _ _ ih

/-- **Invariance**: what holds initially and is preserved by every step
    holds all along. -/
theorem invariant {I : State → Prop} (hinit : I init) (hstep : ∀ t s, I s → I (step t s))
    (n : Nat) : I (run step init σ n) :=
  stable (n := 0) hstep hinit (Nat.zero_le n)

end run

/-! ## Fairness -/

/-- Every task has a turn after any point of time. -/
def Fair (σ : Nat → Task) : Prop := ∀ t n, ∃ m, n ≤ m ∧ σ m = t

/-- Countably many tasks can be scheduled fairly. -/
theorem exists_fair (Task : Type) [Countable Task] [Nonempty Task] :
    ∃ σ : Nat → Task, Fair σ := by
  obtain ⟨f, hf⟩ := exists_surjective_nat Task
  -- at `pair k n` it is the turn of the task with number `k`, for every `n`
  refine ⟨fun m => f m.unpair.1, fun t n => ?_⟩
  obtain ⟨k, hk⟩ := hf t
  refine ⟨Nat.pair k n, Nat.right_le_pair _ _, ?_⟩
  simp only [Nat.unpair_pair, hk]

/-- **Progress.** In each state where `p` holds and the goal is not reached,
    one task is helpful: its turn decreases the rank. Turns of other tasks
    keep the rank and the helpful task, or decrease the rank as well. Then
    every fair run reaches the goal. -/
theorem leads_to {step : Task → State → State} {init : State} {σ : Nat → Task} (hfair : Fair σ)
    (p goal : State → Prop) (rank : State → Nat) (helpful : State → Task)
    (hstep : ∀ t s, p s → goal (step t s) ∨ p (step t s) ∧
      (rank (step t s) < rank s ∨
        t ≠ helpful s ∧ rank (step t s) = rank s ∧ helpful (step t s) = helpful s))
    {n : Nat} (h : p (run step init σ n)) : ∃ m, n ≤ m ∧ goal (run step init σ m) := by
  -- on the rank: until the helpful task has its turn, nothing gets worse
  induction hrank : rank (run step init σ n) using Nat.strongRecOn generalizing n with
  | _ r ih =>
    obtain ⟨m, hm, hturn⟩ := hfair (helpful (run step init σ n)) n
    have hdone : ∀ k, n ≤ k → p (run step init σ k) → rank (run step init σ k) < r →
        ∃ m, n ≤ m ∧ goal (run step init σ m) := by
      intro k hk hp hlt
      obtain ⟨l, hl, hgoal⟩ := ih _ hlt hp rfl
      exact ⟨l, hk.trans hl, hgoal⟩
    -- the claim holds, or all is as it was at the time `k`, up to the helpful turn `m`
    have hwait : ∀ k, n ≤ k → k ≤ m → (∃ m, n ≤ m ∧ goal (run step init σ m)) ∨
        p (run step init σ k) ∧ rank (run step init σ k) = r ∧
          helpful (run step init σ k) = helpful (run step init σ n) := by
      intro k hk
      induction k, hk using Nat.le_induction with
      | base => exact fun _ => Or.inr ⟨h, hrank, rfl⟩
      | succ k hk ihk =>
        intro hkm
        rcases ihk (by omega) with hgoal | ⟨hp, hr, hhelp⟩
        · exact Or.inl hgoal
        rcases hstep (σ k) _ hp with hgoal | ⟨hp', hlt | ⟨-, heq, hsame⟩⟩
        · exact Or.inl ⟨k + 1, by omega, hgoal⟩
        · exact Or.inl (hdone (k + 1) (by omega) hp' (by rw [run_succ]; omega))
        · exact Or.inr ⟨hp', heq.trans hr, hsame.trans hhelp⟩
    rcases hwait m hm (Nat.le_refl m) with hgoal | ⟨hp, hr, hhelp⟩
    · exact hgoal
    rcases hstep (σ m) _ hp with hgoal | ⟨hp', hlt | ⟨hne, -⟩⟩
    · exact ⟨m + 1, by omega, hgoal⟩
    · exact hdone (m + 1) (by omega) hp' (by rw [run_succ]; omega)
    · exact absurd (hturn.trans hhelp.symm) hne

/-- With one turn of one task the goal is reached, and the others leave things
    as they are. -/
theorem leads_to_of_turn {step : Task → State → State} {init : State} {σ : Nat → Task}
    (hfair : Fair σ) (p goal : State → Prop) (helpful : Task)
    (hturn : ∀ s, p s → goal (step helpful s))
    (hstay : ∀ t s, p s → t ≠ helpful → p (step t s)) {n : Nat} (h : p (run step init σ n)) :
    ∃ m, n ≤ m ∧ goal (run step init σ m) := by
  refine leads_to hfair p goal (fun _ => 0) (fun _ => helpful) ?_ h
  intro t s hp
  by_cases ht : t = helpful
  · subst ht
    exact Or.inl (hturn s hp)
  · exact Or.inr ⟨hstay t s hp ht, Or.inr ⟨ht, rfl, rfl⟩⟩

end Schedule
