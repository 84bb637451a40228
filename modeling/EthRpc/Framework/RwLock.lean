import EthRpc.Framework.Lts
import EthRpc.Framework.Routine

/-! # A fair read-write lock

    Any number of routines share one lock. Requests wait in a queue and are
    granted from its front only: a read request does not overtake a write
    request that came before it, even while only readers hold the lock.

    * **Steps**: `request` joins the queue, `grant` serves its front, `run`
      is any other step of a routine, `start` hands a finished routine
      something new to do.
    * **Circular wait**: a routine that holds a guard waits behind a write
      request, which waits for that guard. `CircularWait.persists`: this is
      for ever.
    * `circular_wait_iff`: a step makes the first circular wait exactly if
      it asks for a guard, while holding one, behind a write request.
    * `exists_step`: without circular wait some unfinished routine has a
      step to take.
-/

namespace RwLock

/-! ## Configurations -/

/-- Routines that end in nothing, the guards they hold (the last one taken
    first), and the requests that are waiting. -/
structure Config (ι σ Q : Type) (A : Q → Type) where
  data : σ
  routine : ι → Routine σ Q A Unit
  guards : ι → List Mode
  queue : List (ι × Mode)

inductive Label (ι σ Q : Type) (A : Q → Type) where
  | request (i : ι)
  | grant
  | run (i : ι)
  | start (i : ι) (t : Routine σ Q A Unit)

section defs
variable {ι σ Q : Type} {A : Q → Type}

/-- A step of a routine that does not wait for the lock: from the data, its
    guards and the rest of it to the same three. -/
inductive Local : σ → List Mode → Routine σ Q A Unit → σ → List Mode → Routine σ Q A Unit → Prop
  where
  | release (s : σ) (m : Mode) (g : List Mode) (k : Routine σ Q A Unit) :
      Local s (m :: g) (.release k) s g k
  | look (s : σ) (g : List Mode) (k : σ → Routine σ Q A Unit) : Local s g (.look k) s g (k s)
  | update (s : σ) (g : List Mode) (f : σ → σ) (k : Routine σ Q A Unit) :
      Local s g (.update f k) (f s) g k
  | ask (s : σ) (g : List Mode) (q : Q) (k : A q → Routine σ Q A Unit) (a : A q) :
      Local s g (.ask q k) s g (k a)

namespace Config

/-- A guard of the given kind can be handed out. -/
def Free (c : Config ι σ Q A) : Mode → Prop
  | .read => ∀ i, .write ∉ c.guards i
  | .write => ∀ i, c.guards i = []

/-- The routine waits in the queue. -/
def Waiting (c : Config ι σ Q A) (i : ι) : Prop := ∃ m, (i, m) ∈ c.queue

def Unfinished (c : Config ι σ Q A) (i : ι) : Prop := c.routine i ≠ .done ()

/-- `w` waits for a write guard, and behind it waits `r`, which holds a read
    guard that `w` waits for. -/
def CircularWait (c : Config ι σ Q A) (w r : ι) : Prop :=
  (∃ m, [(w, .write), (r, m)].Sublist c.queue) ∧ .read ∈ c.guards r

/-- A write request is waiting. -/
def WriteWaiting (c : Config ι σ Q A) : Prop := ∃ w, (w, Mode.write) ∈ c.queue

/-- The condition under which no circular wait arises: a routine that still
    holds a guard asks for another only while no write request is waiting. -/
def Unqueued (c : Config ι σ Q A) : Label ι σ Q A → Prop
  | .request i => c.guards i = [] ∨ ¬ c.WriteWaiting
  | _ => True

end Config

variable [DecidableEq ι]

/-- One step. `ops` are the routines that may be started. -/
def step (ops : ι → Routine σ Q A Unit → Prop) (c : Config ι σ Q A) :
    Label ι σ Q A → Config ι σ Q A → Prop
  | .request i, c' => ∃ m k, c.routine i = .acquire m k ∧ ¬ c.Waiting i ∧
      c' = { c with queue := c.queue ++ [(i, m)] }
  | .grant, c' => ∃ i m k rest, c.queue = (i, m) :: rest ∧ c.Free m ∧
      c.routine i = .acquire m k ∧
      c' = { c with
        queue := rest
        guards := Function.update c.guards i (m :: c.guards i)
        routine := Function.update c.routine i k }
  | .run i, c' => ∃ s' g' t', Local c.data (c.guards i) (c.routine i) s' g' t' ∧
      c' = { c with
        data := s'
        guards := Function.update c.guards i g'
        routine := Function.update c.routine i t' }
  | .start i t, c' => c.routine i = .done () ∧ ops i t ∧
      c' = { c with routine := Function.update c.routine i t }

/-- The routines that take turns, from given data and routines. -/
def system (ops : ι → Routine σ Q A Unit → Prop) (data : σ) (routine : ι → Routine σ Q A Unit) :
    Lts.System (Config ι σ Q A) (Label ι σ Q A) where
  init c := c = { data := data, routine := routine, guards := fun _ => [], queue := [] }
  step := step ops

end defs

/-! ## The invariant of all runs -/

section invariant
variable {ι σ Q : Type} {A : Q → Type}

/-- Guards nest, only routines that ask for a guard wait, and none waits
    twice. -/
structure WellLocked (c : Config ι σ Q A) : Prop where
  bracketed : ∀ i, (c.routine i).Bracketed (c.guards i) []
  waiting : ∀ i m, (i, m) ∈ c.queue → ∃ k, c.routine i = .acquire m k
  nodup : (c.queue.map Prod.fst).Nodup

/-- A step that is not about the lock keeps the guards nested. -/
theorem Local.bracketed {s s' : σ} {g g' : List Mode} {t t' : Routine σ Q A Unit}
    (h : Local s g t s' g' t') (hb : t.Bracketed g []) : t'.Bracketed g' [] := by
  cases h with
  | release m g k =>
    obtain ⟨m', rest, heq, hk⟩ := hb
    cases heq
    exact hk
  | look g k => exact hb s
  | update g f k => exact hb
  | ask g q k a => exact hb a

/-- It is no step of a routine that asks for a guard. -/
theorem Local.ne_acquire {s s' : σ} {g g' : List Mode} {t t' : Routine σ Q A Unit}
    (h : Local s g t s' g' t') (m : Mode) (k : Routine σ Q A Unit) : t ≠ .acquire m k := by
  cases h <;> simp

theorem Local.ne_done {s s' : σ} {g g' : List Mode} {t t' : Routine σ Q A Unit}
    (h : Local s g t s' g' t') : t ≠ .done () := by
  cases h <;> simp

variable {c c' : Config ι σ Q A}

/-- Who holds a guard is not done. -/
theorem WellLocked.unfinished (h : WellLocked c) {i : ι} (hg : c.guards i ≠ []) : c.Unfinished i :=
  (h.bracketed i).ne_done hg ()

/-- Who waits holds no write guard; and no guard at all, if it waits for a
    write guard. -/
theorem WellLocked.guards_of_waiting (h : WellLocked c) {i : ι} {m : Mode}
    (hi : (i, m) ∈ c.queue) : .write ∉ c.guards i ∧ (m = .write → c.guards i = []) := by
  obtain ⟨k, hk⟩ := h.waiting i m hi
  have hb := h.bracketed i
  rw [hk] at hb
  exact ⟨hb.1, hb.2.1⟩

variable [DecidableEq ι] {ops : ι → Routine σ Q A Unit → Prop} {l : Label ι σ Q A}

/-- **Every step keeps the invariant**, if what is started is bracketed. -/
theorem WellLocked.of_step (h : WellLocked c)
    (hops : ∀ i t, ops i t → t.Bracketed [] []) (hl : step ops c l c') : WellLocked c' := by
  cases l with
  | request i =>
    obtain ⟨m, k, hk, hfree, rfl⟩ := hl
    refine ⟨h.bracketed, ?_, ?_⟩
    · intro j m' hj
      rcases List.mem_append.mp hj with hj | hj
      · exact h.waiting j m' hj
      · cases List.mem_singleton.mp hj
        exact ⟨k, hk⟩
    · show ((c.queue ++ [(i, m)]).map Prod.fst).Nodup
      rw [List.map_append, List.map_cons, List.map_nil]
      refine h.nodup.append (List.nodup_singleton i) ?_
      rw [List.disjoint_singleton]
      intro hi
      obtain ⟨⟨i', m'⟩, hmem, rfl⟩ := List.mem_map.mp hi
      exact hfree ⟨m', hmem⟩
  | grant =>
    obtain ⟨i, m, k, rest, hq, -, hk, rfl⟩ := hl
    have hnodup := h.nodup
    rw [hq, List.map_cons, List.nodup_cons] at hnodup
    refine ⟨?_, ?_, hnodup.2⟩
    · intro j
      by_cases hj : j = i
      · subst hj
        have hb := h.bracketed j
        rw [hk] at hb
        simpa using hb.2.2
      · simpa [hj] using h.bracketed j
    · -- whoever is still in the queue is not the one that was served
      intro j m' hj
      have hne : j ≠ i := by
        intro heq
        subst heq
        exact hnodup.1 (List.mem_map.mpr ⟨(j, m'), hj, rfl⟩)
      obtain ⟨k', hk'⟩ := h.waiting j m' (by rw [hq]; exact List.mem_cons_of_mem _ hj)
      exact ⟨k', by simpa [hne] using hk'⟩
  | run i =>
    obtain ⟨s', g', t', hloc, rfl⟩ := hl
    refine ⟨?_, ?_, h.nodup⟩
    · intro j
      by_cases hj : j = i
      · subst hj
        simpa using hloc.bracketed (h.bracketed j)
      · simpa [hj] using h.bracketed j
    · intro j m' hj
      obtain ⟨k', hk'⟩ := h.waiting j m' hj
      have hne : j ≠ i := by
        intro heq
        subst heq
        exact hloc.ne_acquire m' k' hk'
      exact ⟨k', by simpa [hne] using hk'⟩
  | start i t =>
    obtain ⟨hdone, ht, rfl⟩ := hl
    refine ⟨?_, ?_, h.nodup⟩
    · intro j
      by_cases hj : j = i
      · subst hj
        -- a finished routine holds nothing
        have hb := h.bracketed j
        rw [hdone] at hb
        have hg : c.guards j = [] := hb
        simpa [hg] using hops j t ht
      · simpa [hj] using h.bracketed j
    · intro j m' hj
      obtain ⟨k', hk'⟩ := h.waiting j m' hj
      have hne : j ≠ i := by
        intro heq
        subst heq
        rw [hdone] at hk'
        cases hk'
      exact ⟨k', by simpa [hne] using hk'⟩

theorem wellLocked_of_reachable {data : σ} {routine : ι → Routine σ Q A Unit}
    (hroutine : ∀ i, (routine i).Bracketed [] []) (hops : ∀ i t, ops i t → t.Bracketed [] [])
    (h : Lts.Reachable (system ops data routine) c) : WellLocked c := by
  apply Lts.invariant WellLocked _ _ h
  · intro c hc
    rw [hc]
    exact ⟨hroutine, by simp, by simp⟩
  · intro c l c' _ hwell hl
    exact hwell.of_step hops hl

end invariant

/-! ## Runs, step by step -/

section runs
variable {ι σ Q : Type} {A : Q → Type} [DecidableEq ι] {ops : ι → Routine σ Q A Unit → Prop}
  {data : σ} {routine : ι → Routine σ Q A Unit} {c : Config ι σ Q A} {i : ι} {m : Mode}
  {k : Routine σ Q A Unit}

theorem reachable_request (h : Lts.Reachable (system ops data routine) c)
    (hk : c.routine i = .acquire m k) (hfree : ¬ c.Waiting i) :
    Lts.Reachable (system ops data routine) { c with queue := c.queue ++ [(i, m)] } :=
  h.step (.request i) ⟨m, k, hk, hfree, rfl⟩

theorem reachable_grant (h : Lts.Reachable (system ops data routine) c)
    {rest : List (ι × Mode)} (hq : c.queue = (i, m) :: rest) (hfree : c.Free m)
    (hk : c.routine i = .acquire m k) :
    Lts.Reachable (system ops data routine)
      { c with
        queue := rest
        guards := Function.update c.guards i (m :: c.guards i)
        routine := Function.update c.routine i k } :=
  h.step .grant ⟨i, m, k, rest, hq, hfree, hk, rfl⟩

theorem reachable_run (h : Lts.Reachable (system ops data routine) c) {s' : σ} {g' : List Mode}
    {t' : Routine σ Q A Unit} (hl : Local c.data (c.guards i) (c.routine i) s' g' t') :
    Lts.Reachable (system ops data routine)
      { c with
        data := s'
        guards := Function.update c.guards i g'
        routine := Function.update c.routine i t' } :=
  h.step (.run i) ⟨s', g', t', hl, rfl⟩

theorem reachable_start (h : Lts.Reachable (system ops data routine) c)
    (hdone : c.routine i = .done ()) {t : Routine σ Q A Unit} (ht : ops i t) :
    Lts.Reachable (system ops data routine)
      { c with routine := Function.update c.routine i t } :=
  h.step (.start i t) ⟨hdone, ht, rfl⟩

end runs

/-! ## Circular waits -/

section circular
variable {ι σ Q : Type} {A : Q → Type} {c c' : Config ι σ Q A} {w r : ι}

theorem Config.CircularWait.waiting (h : c.CircularWait w r) :
    (w, Mode.write) ∈ c.queue ∧ c.Waiting r := by
  obtain ⟨⟨m, hsub⟩, -⟩ := h
  exact ⟨hsub.subset (by simp), m, hsub.subset (by simp)⟩

/-- A circular wait is about the queue and the guards of the waiting. -/
theorem Config.CircularWait.congr (h : c.CircularWait w r)
    (hqueue : ∀ m, [(w, .write), (r, m)].Sublist c.queue → [(w, .write), (r, m)].Sublist c'.queue)
    (hguards : c'.guards r = c.guards r) : c'.CircularWait w r := by
  obtain ⟨⟨m, hsub⟩, hread⟩ := h
  refine ⟨⟨m, hqueue m hsub⟩, ?_⟩
  rw [hguards]
  exact hread

/-- Two elements in order at the end of a list. -/
private theorem pair_sublist_concat {α : Type} {a b x : α} {l : List α} :
    [a, b].Sublist (l ++ [x]) ↔ [a, b].Sublist l ∨ a ∈ l ∧ b = x := by
  constructor
  · intro h
    obtain ⟨l₁, l₂, heq, h₁, h₂⟩ := List.sublist_append_iff.mp h
    rcases List.sublist_singleton.mp h₂ with rfl | rfl
    · rw [List.append_nil] at heq
      rw [heq]
      exact Or.inl h₁
    · obtain ⟨rfl, rfl⟩ : l₁ = [a] ∧ b = x := by
        have hsplit : l₁ ++ [x] = [a] ++ [b] := heq.symm
        obtain ⟨h₁, hx⟩ := List.append_inj' hsplit rfl
        exact ⟨h₁, (List.cons_eq_cons.mp hx).1.symm⟩
      exact Or.inr ⟨List.singleton_sublist.mp h₁, rfl⟩
  · intro h
    rcases h with h | ⟨ha, rfl⟩
    · exact h.trans (List.sublist_append_left l [x])
    · exact (List.singleton_sublist.mpr ha).append (List.Sublist.refl [b])

variable [DecidableEq ι] {ops : ι → Routine σ Q A Unit → Prop} {l : Label ι σ Q A}

/-- No step changes the guards of a waiting routine that goes on waiting. -/
theorem WellLocked.guards_of_step (h : WellLocked c) (hl : step ops c l c') (hr : c.Waiting r)
    (hr' : c'.Waiting r) : c'.guards r = c.guards r := by
  obtain ⟨m, hm⟩ := hr
  cases l with
  | request i =>
    obtain ⟨m', k, -, -, rfl⟩ := hl
    rfl
  | grant =>
    obtain ⟨i, m', k, rest, hq, -, -, rfl⟩ := hl
    obtain ⟨m'', hm''⟩ := hr'
    have hnodup := h.nodup
    rw [hq, List.map_cons, List.nodup_cons] at hnodup
    have hne : r ≠ i := by
      intro heq
      subst heq
      exact hnodup.1 (List.mem_map.mpr ⟨(r, m''), hm'', rfl⟩)
    exact Function.update_of_ne hne _ _
  | run i =>
    obtain ⟨s', g', t', hloc, rfl⟩ := hl
    obtain ⟨k, hk⟩ := h.waiting r m hm
    have hne : r ≠ i := by
      intro heq
      subst heq
      exact hloc.ne_acquire m k hk
    exact Function.update_of_ne hne _ _
  | start i t =>
    obtain ⟨-, -, rfl⟩ := hl
    rfl

/-- **A circular wait is for ever**: no step of any routine ends it. -/
theorem Config.CircularWait.persists (h : c.CircularWait w r) (hwell : WellLocked c)
    (hl : step ops c l c') : c'.CircularWait w r := by
  have hqueue : ∀ m, [(w, .write), (r, m)].Sublist c.queue →
      [(w, .write), (r, m)].Sublist c'.queue := by
    intro m hsub
    cases l with
    | request i =>
      obtain ⟨m', k, -, -, rfl⟩ := hl
      exact hsub.trans (List.sublist_append_left _ _)
    | grant =>
      obtain ⟨i, m', k, rest, hq, hfree, -, rfl⟩ := hl
      rw [hq] at hsub
      cases hsub with
      | cons _ hsub => exact hsub
      | cons_cons _ _ =>
        -- the write request at the front waits for the guard of `r`
        have hread := h.2
        rw [hfree r] at hread
        cases hread
    | run i =>
      obtain ⟨s', g', t', -, rfl⟩ := hl
      exact hsub
    | start i t =>
      obtain ⟨-, -, rfl⟩ := hl
      exact hsub
  refine h.congr hqueue (hwell.guards_of_step hl h.waiting.2 ?_)
  obtain ⟨m, hsub⟩ := h.1
  exact ⟨m, (hqueue m hsub).subset (by simp)⟩

/-- **One step.** It makes a circular wait exactly if a routine that holds a
    guard asks for another behind a write request. -/
theorem circular_wait_iff (hwell : WellLocked c) (hwell' : WellLocked c')
    (hnone : ∀ w r, ¬ c.CircularWait w r) (hl : step ops c l c') :
    (∃ w r, c'.CircularWait w r) ↔ ¬ c.Unqueued l := by
  constructor
  · intro hex hun
    obtain ⟨w, r, hcirc⟩ := hex
    have hr' := hcirc.waiting.2
    cases l with
    | request i =>
      obtain ⟨m, k, -, -, rfl⟩ := hl
      obtain ⟨⟨m', hsub⟩, hread⟩ := hcirc
      rcases pair_sublist_concat.mp hsub with hsub | ⟨hw, heq⟩
      · exact hnone w r ⟨⟨m', hsub⟩, hread⟩
      · -- the new request is behind a write request, so it holds no guard
        cases heq
        have hempty : c.guards r = [] := hun.resolve_right fun h => h ⟨w, hw⟩
        have hread : Mode.read ∈ c.guards r := hread
        rw [hempty] at hread
        cases hread
    | grant =>
      have hl' := hl
      obtain ⟨i, m, k, rest, hq, -, -, rfl⟩ := hl'
      have hsub : rest.Sublist c.queue := by
        rw [hq]
        exact List.sublist_cons_self _ _
      obtain ⟨m', hr⟩ := hr'
      exact hnone w r (hcirc.congr (fun m h => h.trans hsub)
        (hwell.guards_of_step hl ⟨m', hsub.subset hr⟩ ⟨m', hr⟩).symm)
    | run i =>
      have hl' := hl
      obtain ⟨s', g', t', -, rfl⟩ := hl'
      exact hnone w r (hcirc.congr (fun m h => h) (hwell.guards_of_step hl hr' hr').symm)
    | start i t =>
      obtain ⟨-, -, rfl⟩ := hl
      exact hnone w r (hcirc.congr (fun m h => h) rfl)
  · intro hun
    cases l with
    | request i =>
      obtain ⟨m, k, -, -, rfl⟩ := hl
      simp only [Config.Unqueued, not_or, not_not] at hun
      obtain ⟨hguards, w, hw⟩ := hun
      refine ⟨w, i, ⟨m, pair_sublist_concat.mpr (Or.inr ⟨hw, rfl⟩)⟩, ?_⟩
      -- a routine that asks for a guard holds read guards only
      have hnw := (hwell'.guards_of_waiting (List.mem_append_right _ (List.mem_singleton_self _))).1
      show Mode.read ∈ c.guards i
      obtain ⟨m', hm'⟩ := List.exists_mem_of_ne_nil _ hguards
      cases m' with
      | read => exact hm'
      | write => exact absurd hm' hnw
    | grant => exact absurd trivial hun
    | run i => exact absurd trivial hun
    | start i t => exact absurd trivial hun

/-- **No circular wait** in any run whose requests are all unqueued. -/
theorem no_circular_wait_of_unqueued {data : σ} {routine : ι → Routine σ Q A Unit}
    (hroutine : ∀ i, (routine i).Bracketed [] []) (hops : ∀ i t, ops i t → t.Bracketed [] [])
    (h : Lts.Reachable ((system ops data routine).restrict Config.Unqueued) c) :
    ∀ w r, ¬ c.CircularWait w r := by
  apply Lts.invariant (fun c => ∀ w r, ¬ Config.CircularWait c w r) _ _ h
  · intro c hc w r hcirc
    have hw := hcirc.waiting.1
    rw [hc] at hw
    cases hw
  · intro c l c' hreach hnone hstep w r hcirc
    obtain ⟨hun, hl⟩ := hstep
    have hwell := wellLocked_of_reachable hroutine hops hreach.of_restrict
    exact (circular_wait_iff hwell (hwell.of_step hops hl) hnone hl).mp ⟨w, r, hcirc⟩ hun

/-- After a circular wait every run has it to its end. -/
theorem Config.CircularWait.steps (h : c.CircularWait w r) (hwell : WellLocked c)
    (hops : ∀ i t, ops i t → t.Bracketed [] []) {data : σ} {routine : ι → Routine σ Q A Unit}
    {ls : List (Label ι σ Q A)} (hsteps : Lts.Steps (system ops data routine) c ls c') :
    c'.CircularWait w r := by
  induction hsteps with
  | nil c => exact h
  | cons l ls hl _ ih => exact ih (h.persists hwell hl) (hwell.of_step hops hl)

/-! ## Progress -/

/-- A routine that has something to do and does not wait for the lock has a
    step to take. -/
theorem exists_step_of_not_waiting [∀ q, Nonempty (A q)] (hwell : WellLocked c) {i : ι}
    (hi : c.Unfinished i) (hfree : ¬ c.Waiting i) :
    ∃ c', step ops c (.request i) c' ∨ step ops c (.run i) c' := by
  have hb := hwell.bracketed i
  unfold Config.Unfinished at hi
  cases ht : c.routine i with
  | done a => exact absurd ht hi
  | acquire m k => exact ⟨_, Or.inl ⟨m, k, ht, hfree, rfl⟩⟩
  | release k =>
    rw [ht] at hb
    obtain ⟨m, rest, hg, -⟩ := hb
    refine ⟨_, Or.inr ⟨c.data, rest, k, ?_, rfl⟩⟩
    rw [ht, hg]
    exact .release _ m rest k
  | look k =>
    refine ⟨_, Or.inr ⟨c.data, c.guards i, k c.data, ?_, rfl⟩⟩
    rw [ht]
    exact .look _ _ k
  | update f k =>
    refine ⟨_, Or.inr ⟨f c.data, c.guards i, k, ?_, rfl⟩⟩
    rw [ht]
    exact .update _ _ f k
  | ask q k =>
    obtain ⟨a⟩ := (inferInstance : Nonempty (A q))
    refine ⟨_, Or.inr ⟨c.data, c.guards i, k a, ?_, rfl⟩⟩
    rw [ht]
    exact .ask _ _ q k a

omit [DecidableEq ι] in
/-- Where nobody waits in a circle, the front of the queue can be served, if
    all that is unfinished waits. -/
theorem free_of_front (hwell : WellLocked c) (hnone : ∀ w r, ¬ c.CircularWait w r)
    (hall : ∀ i, c.Unfinished i → c.Waiting i) {i : ι} {m : Mode} {rest : List (ι × Mode)}
    (hq : c.queue = (i, m) :: rest) : c.Free m := by
  cases m with
  | read =>
    -- the holder of a write guard would be unfinished and would not wait
    intro j hj
    obtain ⟨m', hm'⟩ := hall j (hwell.unfinished (List.ne_nil_of_mem hj))
    exact (hwell.guards_of_waiting hm').1 hj
  | write =>
    intro j
    by_contra hguards
    obtain ⟨m', hm'⟩ := hall j (hwell.unfinished hguards)
    have hj := hwell.guards_of_waiting hm'
    rw [hq, List.mem_cons] at hm'
    rcases hm' with heq | hm'
    · cases heq
      exact hguards (hj.2 rfl)
    · -- behind the write request at the front, and with a guard
      refine hnone i j ⟨⟨m', ?_⟩, ?_⟩
      · rw [hq]
        exact (List.singleton_sublist.mpr hm').cons_cons _
      · obtain ⟨m'', hm''⟩ := List.exists_mem_of_ne_nil _ hguards
        cases m'' with
        | read => exact hm''
        | write => exact absurd hm'' hj.1

/-- **Progress**: without a circular wait, some unfinished routine has a step
    to take. -/
theorem exists_step [∀ q, Nonempty (A q)] (hwell : WellLocked c)
    (hnone : ∀ w r, ¬ c.CircularWait w r) {i : ι} (hi : c.Unfinished i) :
    ∃ j, c.Unfinished j ∧ ∃ l c', (l = .request j ∨ l = .run j ∨ l = .grant ∧
      ∃ m rest, c.queue = (j, m) :: rest) ∧ step ops c l c' := by
  by_cases hall : ∀ j, c.Unfinished j → c.Waiting j
  · obtain ⟨m, hm⟩ := hall i hi
    cases hq : c.queue with
    | nil =>
      rw [hq] at hm
      cases hm
    | cons e rest =>
      obtain ⟨j, mj⟩ := e
      obtain ⟨k, hk⟩ := hwell.waiting j mj (by rw [hq]; exact List.mem_cons_self)
      have hfree := free_of_front hwell hnone hall hq
      refine ⟨j, ?_, .grant, _, Or.inr (Or.inr ⟨rfl, mj, rest, rfl⟩), j, mj, k, rest, hq, hfree,
        hk, rfl⟩
      unfold Config.Unfinished
      rw [hk]
      simp
  · push Not at hall
    obtain ⟨j, hj, hfree⟩ := hall
    have hsome : ∃ c', step ops c (.request j) c' ∨ step ops c (.run j) c' :=
      exists_step_of_not_waiting hwell hj hfree
    obtain ⟨c', hstep | hstep⟩ := hsome
    · exact ⟨j, hj, .request j, c', Or.inl rfl, hstep⟩
    · exact ⟨j, hj, .run j, c', Or.inr (Or.inl rfl), hstep⟩

/-- Where all that is unfinished waits and the front cannot be served, only
    new routines can be started. -/
theorem start_of_stuck (hwell : WellLocked c) (hall : ∀ i, c.Unfinished i → c.Waiting i)
    (hfront : ∀ i m rest, c.queue = (i, m) :: rest → ¬ c.Free m) (hl : step ops c l c') :
    ∃ i t, l = .start i t := by
  cases l with
  | request i =>
    obtain ⟨m, k, hk, hfree, -⟩ := hl
    refine absurd (hall i ?_) hfree
    unfold Config.Unfinished
    rw [hk]
    simp
  | grant =>
    obtain ⟨i, m, k, rest, hq, hfree, -, -⟩ := hl
    exact absurd hfree (hfront i m rest hq)
  | run i =>
    obtain ⟨s', g', t', hloc, -⟩ := hl
    obtain ⟨m, hm⟩ := hall i hloc.ne_done
    obtain ⟨k, hk⟩ := hwell.waiting i m hm
    exact absurd hk (hloc.ne_acquire m k)
  | start i t => exact ⟨i, t, rfl⟩

end circular

end RwLock
