import EthRpc.Framework.RwLock
import EthRpc.Framework.Sections

/-! # A routine among others

    * `Exclusive`: who holds a write guard is alone with it.
    * `asked_between`, `asked_of_reachable`: every routine that runs among
      others asks what `Ensures` says that it asks.
    * `passes_of_reachable`: with a single routine that writes, the data pass
      through what this routine makes of them by itself.
    * `goes_alone`, `goes_quiet`: a routine that runs alone, or until another
      one takes its turn.
-/

namespace RwLock

variable {ι σ Q : Type} {A : Q → Type} {c c' : Config ι σ Q A}

/-! ## Guards exclude each other -/

/-- Who holds a write guard is the only one that holds a guard. -/
def Exclusive (c : Config ι σ Q A) : Prop :=
  ∀ i j, i ≠ j → .write ∈ c.guards i → c.guards j = []

/-- The data are changed under a write guard only, and by one at a time. -/
structure Disciplined (c : Config ι σ Q A) : Prop where
  exclusive : Exclusive c
  writes_guarded : ∀ i, (c.routine i).WritesGuarded (c.guards i)

/-- A step that is not about the lock takes no guard. -/
theorem Local.guards_subset {s s' : σ} {g g' : List Mode} {t t' : Routine σ Q A Unit}
    (h : Local s g t s' g' t') : g' ⊆ g := by
  cases h with
  | release m g k => exact List.subset_cons_self _ _
  | look g k => exact List.Subset.refl _
  | update g f k => exact List.Subset.refl _
  | ask g q k a => exact List.Subset.refl _

theorem Local.writesGuarded {s s' : σ} {g g' : List Mode} {t t' : Routine σ Q A Unit}
    (h : Local s g t s' g' t') (ht : t.WritesGuarded g) : t'.WritesGuarded g' := by
  cases h with
  | release m g k => exact ht
  | look g k => exact ht s
  | update g f k => exact ht.2
  | ask g q k a => exact ht a

/-- Without a write guard a step leaves the data as they are. -/
theorem Local.data_eq {s s' : σ} {g g' : List Mode} {t t' : Routine σ Q A Unit}
    (h : Local s g t s' g' t') (ht : t.WritesGuarded g) (hg : .write ∉ g) : s' = s := by
  cases h with
  | release m g k => rfl
  | look g k => rfl
  | update g f k => exact absurd ht.1 hg
  | ask g q k a => rfl

variable [DecidableEq ι] {ops : ι → Routine σ Q A Unit → Prop} {l : Label ι σ Q A}

theorem Exclusive.of_step (h : Exclusive c) (hl : step ops c l c') : Exclusive c' := by
  cases l with
  | request i =>
    obtain ⟨m, k, -, -, rfl⟩ := hl
    exact h
  | grant =>
    obtain ⟨i, m, k, rest, -, hfree, -, rfl⟩ := hl
    intro a b hab ha
    cases m with
    | read =>
      -- nobody has a write guard, and nobody gets one
      have hnone : ∀ j, .write ∉ c.guards j := hfree
      by_cases hai : a = i
      · subst hai
        exact absurd (by simpa using ha) (hnone a)
      · exact absurd (by simpa [hai] using ha) (hnone a)
    | write =>
      have hnone : ∀ j, c.guards j = [] := hfree
      by_cases hbi : b = i
      · subst hbi
        simp [hab, hnone a] at ha
      · simpa [hbi] using hnone b
  | run i =>
    obtain ⟨s', g', t', hloc, rfl⟩ := hl
    have hsub : ∀ j, Function.update c.guards i g' j ⊆ c.guards j := by
      intro j
      by_cases hj : j = i
      · subst hj
        simpa using hloc.guards_subset
      · simp [hj]
    intro a b hab ha
    have hb := h a b hab (hsub a ha)
    exact List.subset_nil.mp (hb ▸ hsub b)
  | start i t =>
    obtain ⟨-, -, rfl⟩ := hl
    exact h

/-- **Every step keeps the discipline**, if what is started has it. -/
theorem Disciplined.of_step (h : Disciplined c) (hwell : WellLocked c)
    (hops : ∀ i t, ops i t → t.WritesGuarded []) (hl : step ops c l c') : Disciplined c' := by
  refine ⟨h.exclusive.of_step hl, ?_⟩
  cases l with
  | request i =>
    obtain ⟨m, k, -, -, rfl⟩ := hl
    exact h.writes_guarded
  | grant =>
    obtain ⟨i, m, k, rest, -, -, hk, rfl⟩ := hl
    intro j
    by_cases hj : j = i
    · subst hj
      have hw := h.writes_guarded j
      rw [hk] at hw
      have hw : k.WritesGuarded (m :: c.guards j) := hw
      simpa using hw
    · simpa [hj] using h.writes_guarded j
  | run i =>
    obtain ⟨s', g', t', hloc, rfl⟩ := hl
    intro j
    by_cases hj : j = i
    · subst hj
      simpa using hloc.writesGuarded (h.writes_guarded j)
    · simpa [hj] using h.writes_guarded j
  | start i t =>
    obtain ⟨hdone, ht, rfl⟩ := hl
    intro j
    by_cases hj : j = i
    · subst hj
      have hb := hwell.bracketed j
      rw [hdone] at hb
      have hg : c.guards j = [] := hb
      simpa [hg] using hops j t ht
    · simpa [hj] using h.writes_guarded j

/-- **No step changes the data while somebody else holds a guard.** -/
theorem Disciplined.data_of_step (h : Disciplined c) (hl : step ops c l c') {i : ι}
    (hi : c.guards i ≠ []) (hother : l ≠ .run i) : c'.data = c.data := by
  cases l with
  | request j =>
    obtain ⟨m, k, -, -, rfl⟩ := hl
    rfl
  | grant =>
    obtain ⟨j, m, k, rest, -, -, -, rfl⟩ := hl
    rfl
  | run j =>
    obtain ⟨s', g', t', hloc, rfl⟩ := hl
    have hji : j ≠ i := fun heq => hother (congrArg Label.run heq)
    exact hloc.data_eq (h.writes_guarded j) fun hw => hi (h.exclusive j i hji hw)
  | start j t =>
    obtain ⟨-, -, rfl⟩ := hl
    rfl

/-! ## One routine among others -/

section among
variable {S : Set σ} {P : Q → Prop} {i : ι}

theorem Local.ensures {s s' : σ} {g g' : List Mode} {t t' : Routine σ Q A Unit}
    (h : Local s g t s' g' t') (hs : s ∈ S) (ht : t.Ensures S P (fun _ => True) g s) :
    t'.Ensures S P (fun _ => True) g' s' := by
  cases h with
  | release m g k => exact ht
  | look g k => exact ht s (Routine.sees_self hs)
  | update g f k => exact ht.elim
  | ask g q k a => exact ht.2 a

/-- A step of anyone leaves what a routine ensures as it is, while the data
    stay in `S`. -/
theorem ensures_of_step (h : Disciplined c) (hl : step ops c l c') (hstart : ∀ t, l ≠ .start i t)
    (hs : c.data ∈ S) (hs' : c'.data ∈ S)
    (hi : (c.routine i).Ensures S P (fun _ => True) (c.guards i) c.data) :
    (c'.routine i).Ensures S P (fun _ => True) (c'.guards i) c'.data := by
  -- a step of others: the routine and its guards are the same
  have hother (hr : c'.routine i = c.routine i) (hg : c'.guards i = c.guards i)
      (hne : l ≠ .run i) : (c'.routine i).Ensures S P (fun _ => True) (c'.guards i) c'.data := by
    rw [hr, hg]
    by_cases hempty : c.guards i = []
    · rw [hempty] at hi ⊢
      exact hi.stable
    · rw [h.data_of_step hl hempty hne]
      exact hi
  cases l with
  | request j =>
    obtain ⟨m, k, -, -, rfl⟩ := hl
    exact hi
  | grant =>
    have hl' := hl
    obtain ⟨j, m, k, rest, -, -, hk, rfl⟩ := hl'
    by_cases hj : i = j
    · subst hj
      rw [hk] at hi
      simpa using hi c.data (Routine.sees_self hs)
    · exact hother (by simp [hj]) (by simp [hj]) (by simp)
  | run j =>
    have hl' := hl
    obtain ⟨s', g', t', hloc, rfl⟩ := hl'
    by_cases hj : i = j
    · subst hj
      simpa using hloc.ensures hs hi
    · refine hother (by simp [hj]) (by simp [hj]) ?_
      intro heq
      injection heq with heq
      exact hj heq.symm
  | start j t =>
    have hl' := hl
    obtain ⟨-, -, rfl⟩ := hl'
    have hj : i ≠ j := by
      rintro rfl
      exact hstart t rfl
    exact hother (by simp [hj]) rfl (by simp)

variable {data : σ} {routine : ι → Routine σ Q A Unit} {ls : List (Label ι σ Q A)}

theorem disciplined_of_reachable (hroutine : ∀ i, (routine i).Bracketed [] [])
    (hwrites : ∀ i, (routine i).WritesGuarded []) (hops : ∀ i t, ops i t → t.Bracketed [] [])
    (hopsw : ∀ i t, ops i t → t.WritesGuarded [])
    (h : Lts.Reachable (system ops data routine) c) : Disciplined c := by
  apply Lts.invariant Disciplined _ _ h
  · intro c hc
    rw [hc]
    refine ⟨?_, hwrites⟩
    intro i j _ hi
    cases hi
  · intro c l c' hreach hc hl
    exact hc.of_step (wellLocked_of_reachable hroutine hops hreach) hopsw hl

/-- The configurations that steps pass through. -/
def Between (ops : ι → Routine σ Q A Unit → Prop) (data : σ) (routine : ι → Routine σ Q A Unit)
    (c : Config ι σ Q A) (ls : List (Label ι σ Q A)) (c' x : Config ι σ Q A) : Prop :=
  ∃ ls₁ ls₂, ls = ls₁ ++ ls₂ ∧ Lts.Steps (system ops data routine) c ls₁ x ∧
    Lts.Steps (system ops data routine) x ls₂ c'

/-- What a routine ensures, it ensures all along. -/
theorem ensures_of_steps (hroutine : ∀ i, (routine i).Bracketed [] [])
    (hwrites : ∀ i, (routine i).WritesGuarded []) (hops : ∀ i t, ops i t → t.Bracketed [] [])
    (hopsw : ∀ i t, ops i t → t.WritesGuarded [])
    (hreach : Lts.Reachable (system ops data routine) c)
    (hsteps : Lts.Steps (system ops data routine) c ls c') (hstart : ∀ t, .start i t ∉ ls)
    (hS : ∀ x, Between ops data routine c ls c' x → x.data ∈ S)
    (hi : (c.routine i).Ensures S P (fun _ => True) (c.guards i) c.data) :
    (c'.routine i).Ensures S P (fun _ => True) (c'.guards i) c'.data := by
  induction hsteps with
  | nil c => exact hi
  | @cons c c₁ c' l ls hl hrest ih =>
    have hdisc := disciplined_of_reachable hroutine hwrites hops hopsw hreach
    have hfirst : c.data ∈ S := hS c ⟨[], l :: ls, rfl, .nil c, .cons l ls hl hrest⟩
    have hnext : c₁.data ∈ S :=
      hS c₁ ⟨[l], ls, rfl, .cons l [] hl (.nil c₁), hrest⟩
    have hone : ∀ t, l ≠ .start i t := fun t heq => hstart t (heq ▸ List.mem_cons_self)
    apply ih (hreach.step l hl) (fun t ht => hstart t (List.mem_cons_of_mem _ ht))
    · rintro x ⟨ls₁, ls₂, rfl, h₁, h₂⟩
      exact hS x ⟨l :: ls₁, ls₂, rfl, .cons l ls₁ hl h₁, h₂⟩
    · exact ensures_of_step hdisc hl hone hfirst hnext hi

/-- **Among others.** If a routine asks only what satisfies `P` when it sees
    the data of the configurations in between, then it does so in the run. -/
theorem asked_between (hroutine : ∀ i, (routine i).Bracketed [] [])
    (hwrites : ∀ i, (routine i).WritesGuarded []) (hops : ∀ i t, ops i t → t.Bracketed [] [])
    (hopsw : ∀ i t, ops i t → t.WritesGuarded [])
    (hreach : Lts.Reachable (system ops data routine) c)
    (hsteps : Lts.Steps (system ops data routine) c ls c') (hstart : ∀ t, .start i t ∉ ls)
    (hi : (c.routine i).Ensures {s | ∃ x, Between ops data routine c ls c' x ∧ x.data = s} P
      (fun _ => True) (c.guards i) c.data)
    {q : Q} {k : A q → Routine σ Q A Unit} (hask : c'.routine i = .ask q k) : P q := by
  have hS : ∀ x, Between ops data routine c ls c' x →
      x.data ∈ {s | ∃ x, Between ops data routine c ls c' x ∧ x.data = s} :=
    fun x hx => ⟨x, hx, rfl⟩
  have h := ensures_of_steps hroutine hwrites hops hopsw hreach hsteps hstart hS hi
  rw [hask] at h
  exact h.1

/-- **In all runs.** If a routine asks only what satisfies `P` whenever it is
    started, on data that are never left, then it does so in every run. -/
theorem asked_of_reachable (hroutine : ∀ i, (routine i).Bracketed [] [])
    (hwrites : ∀ i, (routine i).WritesGuarded []) (hops : ∀ i t, ops i t → t.Bracketed [] [])
    (hopsw : ∀ i t, ops i t → t.WritesGuarded [])
    (hS : ∀ c, Lts.Reachable (system ops data routine) c → c.data ∈ S)
    (hi : (routine i).Ensures S P (fun _ => True) [] data)
    (hstart : ∀ t, ops i t → ∀ s ∈ S, t.Ensures S P (fun _ => True) [] s)
    (hreach : Lts.Reachable (system ops data routine) c) {q : Q} {k : A q → Routine σ Q A Unit}
    (hask : c.routine i = .ask q k) : P q := by
  have h : (c.routine i).Ensures S P (fun _ => True) (c.guards i) c.data := by
    apply Lts.invariant (fun c => (c.routine i).Ensures S P (fun _ => True) (c.guards i) c.data)
      _ _ hreach
    · intro c hc
      rw [hc]
      exact hi
    · intro c l c' hreach hc hl
      have hdisc := disciplined_of_reachable hroutine hwrites hops hopsw hreach
      by_cases hl' : ∃ t, l = .start i t
      · -- something new is handed to the routine, which holds no guard
        obtain ⟨t, rfl⟩ := hl'
        obtain ⟨hdone, ht, rfl⟩ := hl
        have hb := (wellLocked_of_reachable hroutine hops hreach).bracketed i
        rw [hdone] at hb
        have hg : c.guards i = [] := hb
        simpa [hg] using hstart t ht c.data (hS c hreach)
      · exact ensures_of_step hdisc hl (fun t ht => hl' ⟨t, ht⟩) (hS c hreach)
          (hS c' (hreach.step l hl)) hc
  rw [hask] at h
  exact h.1

end among

/-! ## One routine alone -/

section alone
variable {data : σ} {routine : ι → Routine σ Q A Unit} {i : ι} {α : Type}
  {f : α → Routine σ Q A Unit} {g : List Mode}

/-- What a routine leaves that goes on alone from `c`: its guards are `g`. -/
def Config.after (c : Config ι σ Q A) (i : ι) (s : σ) (g : List Mode) (t : Routine σ Q A Unit) :
    Config ι σ Q A where
  data := s
  routine := Function.update c.routine i t
  guards := Function.update c.guards i g
  queue := []

/-- Nobody else holds a guard, and nobody waits. -/
structure Config.Alone (c : Config ι σ Q A) (i : ι) : Prop where
  queue : c.queue = []
  others : ∀ j, j ≠ i → c.guards j = []

theorem Config.Alone.after (h : c.Alone i) (s : σ) (t : Routine σ Q A Unit) :
    (c.after i s g t).Alone i where
  queue := rfl
  others := by
    intro j hj
    simpa [Config.after, hj] using h.others j hj

theorem Config.after_after (c : Config ι σ Q A) (s s' : σ) (g' : List Mode)
    (t t' : Routine σ Q A Unit) : (c.after i s g t).after i s' g' t' = c.after i s' g' t' := by
  simp [Config.after]

theorem Config.Alone.after_self (h : c.Alone i) :
    c.after i c.data (c.guards i) (c.routine i) = c := by
  obtain ⟨data, routine, guards, queue⟩ := c
  obtain rfl : queue = [] := h.queue
  simp [Config.after]

theorem Config.Alone.free (h : c.Alone i) {m : Mode} (hread : .write ∉ c.guards i)
    (hwrite : m = .write → c.guards i = []) : c.Free m := by
  cases m with
  | read =>
    intro j
    by_cases hj : j = i
    · exact hj ▸ hread
    · simp [h.others j hj]
  | write =>
    intro j
    by_cases hj : j = i
    · exact hj ▸ hwrite rfl
    · exact h.others j hj

/-- Steps from `c` to `c'`, with nothing new for anybody to do. -/
def Goes (ops : ι → Routine σ Q A Unit → Prop) (data : σ) (routine : ι → Routine σ Q A Unit)
    (c c' : Config ι σ Q A) : Prop :=
  ∃ ls, (∀ i t, .start i t ∉ ls) ∧ Lts.Steps (system ops data routine) c ls c'

theorem Goes.refl (c : Config ι σ Q A) : Goes ops data routine c c := ⟨[], by simp, .nil c⟩

theorem Goes.cons {c'' : Config ι σ Q A} (hl : step ops c l c') (hne : ∀ i t, l ≠ .start i t)
    (h : Goes ops data routine c' c'') : Goes ops data routine c c'' := by
  obtain ⟨ls, hls, hsteps⟩ := h
  refine ⟨l :: ls, ?_, .cons l ls hl hsteps⟩
  intro i t ht
  rcases List.mem_cons.mp ht with heq | ht
  · exact hne i t heq.symm
  · exact hls i t ht

theorem Goes.trans {c'' : Config ι σ Q A} (h : Goes ops data routine c c')
    (h' : Goes ops data routine c' c'') : Goes ops data routine c c'' := by
  obtain ⟨ls, hls, hsteps⟩ := h
  obtain ⟨ls', hls', hsteps'⟩ := h'
  refine ⟨ls ++ ls', ?_, hsteps.append hsteps'⟩
  intro i t ht
  rcases List.mem_append.mp ht with ht | ht
  · exact hls i t ht
  · exact hls' i t ht

theorem Goes.reachable (h : Goes ops data routine c c')
    (hc : Lts.Reachable (system ops data routine) c) :
    Lts.Reachable (system ops data routine) c' := by
  obtain ⟨ls, -, hsteps⟩ := h
  exact hsteps.reachable hc

/-- A step that is not about the lock. -/
theorem Config.Alone.run (h : c.Alone i) {s' : σ} {g' : List Mode} {t' : Routine σ Q A Unit}
    (hl : Local c.data (c.guards i) (c.routine i) s' g' t')
    (hrest : Goes ops data routine (c.after i s' g' t') c') : Goes ops data routine c c' := by
  refine .cons (l := .run i) ⟨s', g', t', hl, ?_⟩ (by simp) hrest
  rw [h.queue]
  rfl

/-- The lock is free, and a guard is handed out at once. -/
theorem Config.Alone.acquire (h : c.Alone i) {m : Mode} {k : Routine σ Q A Unit}
    (hr : c.routine i = .acquire m k) (hfree : c.Free m)
    (hrest : Goes ops data routine (c.after i c.data (m :: c.guards i) k) c') :
    Goes ops data routine c c' := by
  have hnone : ¬ c.Waiting i := by
    rintro ⟨m', hm'⟩
    rw [h.queue] at hm'
    cases hm'
  have hqueue : c.queue ++ [(i, m)] = [(i, m)] := by rw [h.queue, List.nil_append]
  exact .cons (l := .request i) ⟨m, k, hr, hnone, rfl⟩ (by simp)
    (.cons (l := .grant) ⟨i, m, k, [], hqueue, hfree, hr, rfl⟩ (by simp) hrest)

/-- **Alone**, a routine goes on as it does by itself. -/
theorem goes_alone (answer : ∀ q, A q) (t : Routine σ Q A α) (h : c.Alone i)
    (hb : t.Bracketed (c.guards i) g) (hr : c.routine i = t >>= f) :
    Goes ops data routine c
      (c.after i (t.run answer c.data).2 g (f (t.run answer c.data).1)) := by
  -- the rest, after a step to the data `s'`, the guards `g'` and the routine `k`
  have hrest {c : Config ι σ Q A} (h : c.Alone i) (s' : σ) (g' : List Mode) (k : Routine σ Q A α)
      (ih : ∀ {c : Config ι σ Q A}, c.Alone i → k.Bracketed (c.guards i) g →
        c.routine i = k >>= f → Goes ops data routine c
          (c.after i (k.run answer c.data).2 g (f (k.run answer c.data).1)))
      (hb : k.Bracketed g' g) : Goes ops data routine (c.after i s' g' (k >>= f))
        (c.after i (k.run answer s').2 g (f (k.run answer s').1)) := by
    have hnext := ih (h.after (g := g') s' (k >>= f)) (by simpa [Config.after] using hb)
      (Function.update_self ..)
    rwa [Config.after_after] at hnext
  induction t generalizing c with
  | done a =>
    obtain rfl : c.guards i = g := hb
    have hself : c.after i c.data (c.guards i) (f a) = c := by
      have heq : f a = c.routine i := hr.symm
      rw [heq]
      exact h.after_self
    show Goes ops data routine c (c.after i c.data (c.guards i) (f a))
    rw [hself]
    exact .refl c
  | acquire m k ih =>
    obtain ⟨hread, hwrite, hk⟩ := hb
    exact h.acquire hr (h.free hread hwrite) (hrest h _ _ k ih hk)
  | release k ih =>
    obtain ⟨m, rest, hg, hk⟩ := hb
    refine h.run ?_ (hrest h c.data rest k ih hk)
    rw [hg, hr]
    exact .release _ _ _ _
  | look k ih =>
    refine h.run ?_ (hrest h c.data (c.guards i) (k c.data) (ih c.data) (hb c.data))
    rw [hr]
    exact .look _ _ _
  | update h' k ih =>
    refine h.run ?_ (hrest h (h' c.data) (c.guards i) k ih hb)
    rw [hr]
    exact .update _ _ _ _
  | ask q k ih =>
    refine h.run ?_ (hrest h c.data (c.guards i) (k (answer q)) (ih (answer q)) (hb (answer q)))
    rw [hr]
    exact .ask _ _ _ _ _

/-- Nobody holds a guard, and nobody waits. -/
structure Config.Quiet (c : Config ι σ Q A) : Prop where
  queue : c.queue = []
  guards : ∀ j, c.guards j = []

omit [DecidableEq ι] in
theorem Config.Quiet.alone (h : c.Quiet) (i : ι) : c.Alone i := ⟨h.queue, fun j _ => h.guards j⟩

theorem Config.Quiet.after (h : c.Quiet) (i : ι) (s : σ) (t : Routine σ Q A Unit) :
    (c.after i s [] t).Quiet where
  queue := rfl
  guards := by
    intro j
    by_cases hj : j = i
    · simp [Config.after, hj]
    · simpa [Config.after, hj] using h.guards j

/-- **Taking turns.** While nobody holds a guard, anybody may run a section,
    and then nobody holds one again. -/
theorem goes_quiet {a : α} {s : σ} (answer : ∀ q, A q) (t : Routine σ Q A α) (h : c.Quiet)
    (hb : t.Bracketed [] []) (hr : c.routine i = t >>= f) (hrun : t.run answer c.data = (a, s)) :
    Goes ops data routine c (c.after i s [] (f a)) := by
  have hgoes : Goes ops data routine c
      (c.after i (t.run answer c.data).2 [] (f (t.run answer c.data).1)) :=
    goes_alone answer t (h.alone i) (by rwa [h.guards i]) hr
  rwa [hrun] at hgoes

end alone

/-! ## A single writer -/

section passes
variable {I : σ → Prop}

/-- All data that a routine makes by itself satisfy `I`, and it ends with
    data that satisfy `post`. -/
def Passes {α : Type} (I : σ → Prop) (post : α → σ → Prop) : Routine σ Q A α → σ → Prop
  | .done a, s => I s ∧ post a s
  | .acquire _ k, s => Passes I post k s
  | .release k, s => Passes I post k s
  | .look k, s => Passes I post (k s) s
  | .update f k, s => I s ∧ Passes I post k (f s)
  | .ask _ k, s => I s ∧ ∀ a, Passes I post (k a) s

theorem Passes.data {α : Type} {post : α → σ → Prop} {t : Routine σ Q A α} {s : σ}
    (h : Passes I post t s) : I s := by
  induction t with
  | done a => exact h.1
  | acquire m k ih => exact ih h
  | release k ih => exact ih h
  | look k ih => exact ih s h
  | update f k => exact h.1
  | ask q k => exact h.1

theorem Passes.bind {α β : Type} {post : β → σ → Prop} {t : Routine σ Q A α}
    {f : α → Routine σ Q A β} {s : σ}
    (h : Passes I (fun a s => Passes I post (f a) s) t s) : Passes I post (t >>= f) s := by
  show Passes I post (t.bind f) s
  induction t generalizing s with
  | done a => exact h.2
  | acquire m k ih => exact ih h
  | release k ih => exact ih h
  | look k ih => exact ih s h
  | update f' k ih => exact ⟨h.1, ih h.2⟩
  | ask q k ih => exact ⟨h.1, fun a => ih a (h.2 a)⟩

theorem Passes.mono {α : Type} {post post' : α → σ → Prop} {t : Routine σ Q A α} {s : σ}
    (h : Passes I post t s) (hpost : ∀ a s, post a s → post' a s) : Passes I post' t s := by
  induction t generalizing s with
  | done a => exact ⟨h.1, hpost a s h.2⟩
  | acquire m k ih => exact ih h
  | release k ih => exact ih h
  | look k ih => exact ih s h
  | update f k ih => exact ⟨h.1, ih h.2⟩
  | ask q k ih => exact ⟨h.1, fun a => ih a (h.2 a)⟩

theorem Passes.rename {α Q' : Type} {A' : Q' → Type} {f : Q → Q'} {g : ∀ q, A' (f q) → A q}
    {post : α → σ → Prop} {t : Routine σ Q A α} {s : σ} (h : Passes I post t s) :
    Passes I post (t.rename f g) s := by
  induction t generalizing s with
  | done a => exact h
  | acquire m k ih => exact ih h
  | release k ih => exact ih h
  | look k ih => exact ih s h
  | update h' k ih => exact ⟨h.1, ih h.2⟩
  | ask q k ih => exact ⟨h.1, fun a => ih (g q a) (h.2 (g q a))⟩

theorem Local.passes {s s' : σ} {g g' : List Mode} {t t' : Routine σ Q A Unit}
    {post : Unit → σ → Prop} (h : Local s g t s' g' t') (ht : Passes I post t s) :
    Passes I post t' s' := by
  cases h with
  | release m g k => exact ht
  | look g k => exact ht
  | update g f k => exact ht.2
  | ask g q k a => exact ht.2 a

theorem Local.readOnly {s s' : σ} {g g' : List Mode} {t t' : Routine σ Q A Unit}
    (h : Local s g t s' g' t') (ht : t.ReadOnly) : s' = s ∧ t'.ReadOnly := by
  cases h with
  | release m g k => exact ⟨rfl, ht⟩
  | look g k => exact ⟨rfl, ht s⟩
  | update g f k => exact ht.elim
  | ask g q k a => exact ⟨rfl, ht a⟩

/-- One routine writes, and what is left of it passes through `I`. -/
structure SingleWriter (I : σ → Prop) (w : ι) (c : Config ι σ Q A) : Prop where
  passes : Passes I (fun _ _ => True) (c.routine w) c.data
  read_only : ∀ i, i ≠ w → (c.routine i).ReadOnly

variable {w : ι}

theorem SingleWriter.of_step (h : SingleWriter I w c) (hw : ∀ t, ¬ ops w t)
    (hops : ∀ i t, ops i t → t.ReadOnly) (hl : step ops c l c') : SingleWriter I w c' := by
  cases l with
  | request i =>
    obtain ⟨m, k, -, -, rfl⟩ := hl
    exact ⟨h.passes, h.read_only⟩
  | grant =>
    obtain ⟨i, m, k, rest, -, -, hk, rfl⟩ := hl
    refine ⟨?_, ?_⟩
    · by_cases hi : w = i
      · subst hi
        have hp := h.passes
        rw [hk] at hp
        have hp : Passes I (fun _ _ => True) k c.data := hp
        simpa using hp
      · simpa [hi] using h.passes
    · intro j hj
      by_cases hji : j = i
      · subst hji
        have hr := h.read_only j hj
        rw [hk] at hr
        have hr : k.ReadOnly := hr
        simpa using hr
      · simpa [hji] using h.read_only j hj
  | run i =>
    obtain ⟨s', g', t', hloc, rfl⟩ := hl
    by_cases hi : w = i
    · subst hi
      refine ⟨by simpa using hloc.passes h.passes, ?_⟩
      intro j hj
      simpa [hj] using h.read_only j hj
    · obtain ⟨rfl, ht'⟩ := hloc.readOnly (h.read_only i (Ne.symm hi))
      refine ⟨by simpa [hi] using h.passes, ?_⟩
      intro j hj
      by_cases hji : j = i
      · subst hji
        simpa using ht'
      · simpa [hji] using h.read_only j hj
  | start i t =>
    obtain ⟨-, ht, rfl⟩ := hl
    have hi : w ≠ i := by
      rintro rfl
      exact hw t ht
    refine ⟨by simpa [hi] using h.passes, ?_⟩
    intro j hj
    by_cases hji : j = i
    · subst hji
      simpa using hops j t ht
    · simpa [hji] using h.read_only j hj

/-- **A single writer.** Among readers, the data pass through what the writer
    makes of them by itself. -/
theorem passes_of_reachable {data : σ} {routine : ι → Routine σ Q A Unit}
    (hpasses : Passes I (fun _ _ => True) (routine w) data)
    (hread : ∀ i, i ≠ w → (routine i).ReadOnly) (hw : ∀ t, ¬ ops w t)
    (hops : ∀ i t, ops i t → t.ReadOnly)
    (h : Lts.Reachable (system ops data routine) c) : I c.data := by
  have hsingle : SingleWriter I w c := by
    apply Lts.invariant (SingleWriter I w) _ _ h
    · intro c hc
      rw [hc]
      exact ⟨hpasses, hread⟩
    · intro c l c' _ hc hl
      exact hc.of_step hw hops hl
  exact hsingle.passes.data

end passes

end RwLock
