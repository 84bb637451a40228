import EthRpc.Framework.Routine

/-! # What a routine sees

    While a routine holds a guard, nobody changes the data. Between the
    sections it guards, the data may become anything.

    * `Ensures`: what a routine asks and returns, if the data are as above.
      `Ensures.bind` is the rule for sequences, `Atomic.ensures` the one for
      a single section, which sees the data of one moment.
    * `rename`: the same routine among questions of others.
-/

namespace Routine

variable {σ Q : Type} {A : Q → Type} {α β : Type}

/-! ## Routines that change the data -/

/-- The data are changed under a write guard only. -/
def WritesGuarded : Routine σ Q A α → List Mode → Prop
  | .done _, _ => True
  | .acquire m k, g => k.WritesGuarded (m :: g)
  | .release k, g => k.WritesGuarded g.tail
  | .look k, g => ∀ s, (k s).WritesGuarded g
  | .update _ k, g => .write ∈ g ∧ k.WritesGuarded g
  | .ask _ k, g => ∀ a, (k a).WritesGuarded g

/-- The data are not changed. -/
def ReadOnly : Routine σ Q A α → Prop
  | .done _ => True
  | .acquire _ k => k.ReadOnly
  | .release k => k.ReadOnly
  | .look k => ∀ s, (k s).ReadOnly
  | .update _ _ => False
  | .ask _ k => ∀ a, (k a).ReadOnly

theorem ReadOnly.writesGuarded {t : Routine σ Q A α} (h : t.ReadOnly) (g : List Mode) :
    t.WritesGuarded g := by
  induction t generalizing g with
  | done a => trivial
  | acquire m k ih => exact ih h _
  | release k ih => exact ih h _
  | look k ih => exact fun s => ih s (h s) g
  | update f k ih => exact h.elim
  | ask q k ih => exact fun a => ih a (h a) g

theorem ReadOnly.bind {t : Routine σ Q A α} {f : α → Routine σ Q A β} (h : t.ReadOnly)
    (hf : ∀ a, (f a).ReadOnly) : (t >>= f).ReadOnly := by
  show (t.bind f).ReadOnly
  induction t with
  | done a => exact hf a
  | acquire m k ih => exact ih h
  | release k ih => exact ih h
  | look k ih => exact fun s => ih s (h s)
  | update f' k ih => exact h
  | ask q k ih => exact fun a => ih a (h a)

/-- A sequence, whose first part ends holding `g'`. -/
theorem WritesGuarded.bind {t : Routine σ Q A α} {f : α → Routine σ Q A β} {g g' : List Mode}
    (h : t.WritesGuarded g) (hb : t.Bracketed g g') (hf : ∀ a, (f a).WritesGuarded g') :
    (t >>= f).WritesGuarded g := by
  show (t.bind f).WritesGuarded g
  induction t generalizing g with
  | done a =>
    have hg : g = g' := hb
    subst hg
    exact hf a
  | acquire m k ih => exact ih h hb.2.2
  | release k ih =>
    obtain ⟨m, rest, rfl, hk⟩ := hb
    exact ih h hk
  | look k ih => exact fun s => ih s (h s) (hb s)
  | update f' k ih => exact ⟨h.1, ih h.2 hb⟩
  | ask q k ih => exact fun a => ih a (h a) (hb a)

/-- Guards nest, and the data are not changed. -/
structure Reader (t : Routine σ Q A α) : Prop where
  bracketed : t.Bracketed [] []
  read_only : t.ReadOnly

theorem reader_pure (a : α) : Reader (pure a : Routine σ Q A α) := ⟨bracketed_pure a, trivial⟩

theorem reader_query (q : Q) : Reader (query q : Routine σ Q A (A q)) :=
  ⟨bracketed_query q, fun _ => trivial⟩

theorem Reader.bind {t : Routine σ Q A α} {f : α → Routine σ Q A β} (h : t.Reader)
    (hf : ∀ a, (f a).Reader) : (t >>= f).Reader :=
  ⟨h.bracketed.bind fun a => (hf a).bracketed, h.read_only.bind fun a => (hf a).read_only⟩

/-! ## What is seen between the steps -/

/-- The data that the next step may find: what they were, under a guard, and
    otherwise anything in `S`. -/
def Sees (S : Set σ) (g : List Mode) (s s' : σ) : Prop := if g = [] then s' ∈ S else s' = s

/-- `t.Ensures S P post g s`: holding `g`, with the data `s` at first, `t`
    changes nothing, asks only what satisfies `P`, and returns only what
    satisfies `post`. -/
def Ensures (S : Set σ) (P : Q → Prop) (post : α → Prop) :
    Routine σ Q A α → List Mode → σ → Prop
  | .done a, _, _ => post a
  | .acquire m k, g, s => ∀ s', Sees S g s s' → k.Ensures S P post (m :: g) s'
  | .release k, g, s => k.Ensures S P post g.tail s
  | .look k, g, s => ∀ s', Sees S g s s' → (k s').Ensures S P post g s'
  | .update _ _, _, _ => False
  | .ask q k, g, s => P q ∧ ∀ a, (k a).Ensures S P post g s

section ensures
variable {S : Set σ} {P : Q → Prop} {post : α → Prop} {g g' : List Mode} {s s' : σ}

theorem sees_self (hs : s ∈ S) : Sees S g s s := by
  unfold Sees
  split
  · exact hs
  · rfl

theorem Sees.mem (h : Sees S g s s') (hs : s ∈ S) : s' ∈ S := by
  unfold Sees at h
  split at h
  · exact h
  · exact h ▸ hs

/-- Who holds no guard is ready for any data. -/
theorem Ensures.stable {t : Routine σ Q A α} (h : t.Ensures S P post [] s) :
    t.Ensures S P post [] s' := by
  induction t with
  | done a => exact h
  | acquire m k ih => exact h
  | release k ih => exact ih h
  | look k ih => exact h
  | update f k ih => exact h
  | ask q k ih => exact ⟨h.1, fun a => ih a (h.2 a)⟩

/-- **Sequences.** The second part may find the data in any state. -/
theorem Ensures.bind {t : Routine σ Q A α} {f : α → Routine σ Q A β} {post : β → Prop}
    (h : t.Ensures S P (fun a => ∀ s ∈ S, (f a).Ensures S P post g' s) g s)
    (hb : t.Bracketed g g') (hs : s ∈ S) : (t >>= f).Ensures S P post g s := by
  show (t.bind f).Ensures S P post g s
  induction t generalizing g s with
  | done a =>
    have hg : g = g' := hb
    subst hg
    exact h s hs
  | acquire m k ih => exact fun s' hs' => ih (h s' hs') hb.2.2 (hs'.mem hs)
  | release k ih =>
    obtain ⟨m, rest, rfl, hk⟩ := hb
    exact ih h hk hs
  | look k ih => exact fun s' hs' => ih s' (h s' hs') (hb s') (hs'.mem hs)
  | update f' k ih => exact h.elim
  | ask q k ih => exact ⟨h.1, fun a => ih a (h.2 a) (hb a) hs⟩

theorem Ensures.mono {t : Routine σ Q A α} {post' : α → Prop} (h : t.Ensures S P post g s)
    (hpost : ∀ a, post a → post' a) : t.Ensures S P post' g s := by
  induction t generalizing g s with
  | done a => exact hpost a h
  | acquire m k ih => exact fun s' hs' => ih (h s' hs')
  | release k ih => exact ih h
  | look k ih => exact fun s' hs' => ih s' (h s' hs')
  | update f k ih => exact h
  | ask q k ih => exact ⟨h.1, fun a => ih a (h.2 a)⟩

end ensures

/-! ## Single sections -/

/-- With `n` guards of its own to drop, a routine drops these and no more,
    and changes nothing. -/
def Nested : Routine σ Q A α → Nat → Prop
  | .done _, n => n = 0
  | .acquire _ k, n => k.Nested (n + 1)
  | .release k, n => ∃ m, n = m + 1 ∧ k.Nested m
  | .look k, n => ∀ s, (k s).Nested n
  | .update _ _, _ => False
  | .ask _ k, n => ∀ a, (k a).Nested n

/-- What a routine may return while the data stay as they are. -/
def Returns (s : σ) : Routine σ Q A α → α → Prop
  | .done a, b => b = a
  | .acquire _ k, b => k.Returns s b
  | .release k, b => k.Returns s b
  | .look k, b => (k s).Returns s b
  | .update _ _, _ => False
  | .ask _ k, b => ∃ a, (k a).Returns s b

/-- All questions satisfy `P`. -/
def Asks (P : Q → Prop) : Routine σ Q A α → Prop
  | .done _ => True
  | .acquire _ k => k.Asks P
  | .release k => k.Asks P
  | .look k => ∀ s, (k s).Asks P
  | .update _ k => k.Asks P
  | .ask q k => P q ∧ ∀ a, (k a).Asks P

/-- One guarded section, or none. -/
inductive Atomic : Routine σ Q A α → Prop
  | done (a : α) : Atomic (.done a)
  | guarded (m : Mode) (body : Routine σ Q A α) : body.Nested 0 → Atomic (guarded m body)

section sections
variable {S : Set σ} {P : Q → Prop} {post : α → Prop} {s : σ}

theorem Nested.readOnly {t : Routine σ Q A α} {n : Nat} (h : t.Nested n) : t.ReadOnly := by
  induction t generalizing n with
  | done a => trivial
  | acquire m k ih => exact ih h
  | release k ih =>
    obtain ⟨m, -, hk⟩ := h
    exact ih hk
  | look k ih => exact fun s => ih s (h s)
  | update f k ih => exact h
  | ask q k ih => exact fun a => ih a (h a)

theorem nested_pure (a : α) : (pure a : Routine σ Q A α).Nested 0 := rfl

theorem nested_query (q : Q) : (query q : Routine σ Q A (A q)).Nested 0 := fun _ => rfl

theorem Nested.bind {t : Routine σ Q A α} {f : α → Routine σ Q A β} {n : Nat} (h : t.Nested n)
    (hf : ∀ a, (f a).Nested 0) : (t >>= f).Nested n := by
  show (t.bind f).Nested n
  induction t generalizing n with
  | done a =>
    have hn : n = 0 := h
    rw [hn]
    exact hf a
  | acquire m k ih => exact ih h
  | release k ih =>
    obtain ⟨m, rfl, hk⟩ := h
    exact ⟨m, rfl, ih hk⟩
  | look k ih => exact fun s => ih s (h s)
  | update f' k ih => exact h
  | ask q k ih => exact fun a => ih a (h a)

/-- A section after `n` more guards is nested, too. -/
theorem Nested.shift {t : Routine σ Q A α} {f : α → Routine σ Q A β} {n m : Nat} (h : t.Nested n)
    (hf : ∀ a, (f a).Nested m) : (t >>= f).Nested (n + m) := by
  show (t.bind f).Nested (n + m)
  induction t generalizing n with
  | done a =>
    have hn : n = 0 := h
    rw [hn, Nat.zero_add]
    exact hf a
  | acquire m' k ih =>
    have hk := ih h
    rwa [Nat.add_right_comm] at hk
  | release k ih =>
    obtain ⟨n', rfl, hk⟩ := h
    exact ⟨n' + m, Nat.add_right_comm .., ih hk⟩
  | look k ih => exact fun s => ih s (h s)
  | update f' k ih => exact h
  | ask q k ih => exact fun a => ih a (h a)

theorem Nested.guarded {m : Mode} {body : Routine σ Q A α} (h : body.Nested 0) :
    (Routine.guarded m body).Nested 0 :=
  h.shift fun _ => ⟨0, rfl, rfl⟩

theorem returns_bind {t : Routine σ Q A α} {f : α → Routine σ Q A β} {b : β} :
    (t >>= f).Returns s b ↔ ∃ a, t.Returns s a ∧ (f a).Returns s b := by
  show (t.bind f).Returns s b ↔ _
  induction t with
  | done a =>
    constructor
    · intro h
      exact ⟨a, rfl, h⟩
    · rintro ⟨a', rfl, h⟩
      exact h
  | acquire m k ih => exact ih
  | release k ih => exact ih
  | look k ih => exact ih s
  | update f' k ih =>
    constructor
    · intro h
      exact h.elim
    · rintro ⟨a, h, -⟩
      exact h.elim
  | ask q k ih =>
    constructor
    · rintro ⟨x, h⟩
      obtain ⟨a, ha, hb⟩ := (ih x).mp h
      exact ⟨a, ⟨x, ha⟩, hb⟩
    · rintro ⟨a, ⟨x, ha⟩, hb⟩
      exact ⟨x, (ih x).mpr ⟨a, ha, hb⟩⟩

@[simp] theorem returns_pure {a b : α} : (pure a : Routine σ Q A α).Returns s b ↔ b = a := Iff.rfl

@[simp] theorem returns_get {s' : σ} : (get : Routine σ Q A σ).Returns s s' ↔ s' = s := Iff.rfl

@[simp] theorem returns_query {q : Q} {a : A q} : (query q : Routine σ Q A (A q)).Returns s a := by
  exact ⟨a, rfl⟩

@[simp] theorem returns_guarded {m : Mode} {body : Routine σ Q A α} {a : α} :
    (guarded m body).Returns s a ↔ body.Returns s a := by
  show (body >>= fun a => (.release (.done a) : Routine σ Q A α)).Returns s a ↔ _
  rw [returns_bind]
  constructor
  · rintro ⟨a', ha', rfl⟩
    exact ha'
  · intro h
    exact ⟨a, h, rfl⟩

theorem Atomic.nested {t : Routine σ Q A α} (h : t.Atomic) : t.Nested 0 := by
  cases h with
  | done a => rfl
  | guarded m body hbody => exact hbody.guarded

theorem Atomic.readOnly {t : Routine σ Q A α} (h : t.Atomic) : t.ReadOnly := h.nested.readOnly

/-- What is nested in a guard sees the data as they were when the guard was
    taken. -/
theorem ensures_of_nested {m : Mode} {t : Routine σ Q A α} (inner : List Mode)
    (hnested : t.Nested inner.length) (hP : t.Asks P) (h : ∀ a, t.Returns s a → post a) :
    (t.bind fun a => .release (.done a)).Ensures S P post (inner ++ [m]) s := by
  have hsees {inner : List Mode} {s' : σ} (hs' : Sees S (inner ++ [m]) s s') : s' = s := by
    unfold Sees at hs'
    rwa [if_neg (by simp)] at hs'
  induction t generalizing inner with
  | done a => exact h a rfl
  | acquire m' k ih =>
    intro s' hs'
    rw [hsees hs']
    exact ih (m' :: inner) hnested hP h
  | release k ih =>
    obtain ⟨n, hn, hk⟩ := hnested
    cases inner with
    | nil => cases hn
    | cons x inner =>
      obtain rfl : inner.length = n := by simpa using hn
      exact ih inner hk hP h
  | look k ih =>
    intro s' hs'
    rw [hsees hs']
    exact ih s inner (hnested s) (hP s) h
  | update f k ih => exact hnested.elim
  | ask q k ih => exact ⟨hP.1, fun a => ih a inner (hnested a) (hP.2 a) fun b hb => h b ⟨a, hb⟩⟩

theorem Asks.of_bind {t : Routine σ Q A α} {f : α → Routine σ Q A β} (h : (t >>= f).Asks P) :
    t.Asks P := by
  replace h : (t.bind f).Asks P := h
  induction t with
  | done a => trivial
  | acquire m k ih => exact ih h
  | release k ih => exact ih h
  | look k ih => exact fun s => ih s (h s)
  | update f' k ih => exact ih h
  | ask q k ih => exact ⟨h.1, fun a => ih a (h.2 a)⟩

/-- Whatever it sees, a routine that changes nothing asks its questions. -/
theorem ReadOnly.ensures {t : Routine σ Q A α} {g : List Mode} (h : t.ReadOnly) (hP : t.Asks P) :
    t.Ensures S P (fun _ => True) g s := by
  induction t generalizing g s with
  | done a => trivial
  | acquire m k ih => exact fun _ _ => ih h hP
  | release k ih => exact ih h hP
  | look k ih => exact fun s' _ => ih s' (h s') (hP s')
  | update f k ih => exact h
  | ask q k ih => exact ⟨hP.1, fun a => ih a (h a) (hP.2 a)⟩

/-- **A single section** sees the data of one moment. -/
theorem Atomic.ensures {t : Routine σ Q A α} (hatomic : t.Atomic) (hP : t.Asks P) (hs : s ∈ S)
    (h : ∀ s ∈ S, ∀ a, t.Returns s a → post a) : t.Ensures S P post [] s := by
  cases hatomic with
  | done a => exact h s hs a rfl
  | guarded m body hnested =>
    intro s' hs'
    have hbody : body.Asks P := Asks.of_bind (f := fun a => .release (.done a)) hP
    exact ensures_of_nested [] hnested hbody fun a ha =>
      h s' hs' a (returns_guarded.mpr ha)

end sections

/-! ## Other questions -/

section rename
variable {Q' : Type} {A' : Q' → Type} (f : Q → Q') (g : ∀ q, A' (f q) → A q)

/-- The same routine, which puts its questions differently. -/
def rename : Routine σ Q A α → Routine σ Q' A' α
  | .done a => .done a
  | .acquire m k => .acquire m k.rename
  | .release k => .release k.rename
  | .look k => .look fun s => (k s).rename
  | .update h k => .update h k.rename
  | .ask q k => .ask (f q) fun a => (k (g q a)).rename

variable {f g} {t : Routine σ Q A α}

theorem Bracketed.rename {gs gs' : List Mode} (h : t.Bracketed gs gs') :
    (t.rename f g).Bracketed gs gs' := by
  induction t generalizing gs with
  | done a => exact h
  | acquire m k ih => exact ⟨h.1, h.2.1, ih h.2.2⟩
  | release k ih =>
    obtain ⟨m, rest, hgs, hk⟩ := h
    exact ⟨m, rest, hgs, ih hk⟩
  | look k ih => exact fun s => ih s (h s)
  | update h' k ih => exact ih h
  | ask q k ih => exact fun a => ih (g q a) (h (g q a))

theorem ReadOnly.rename (h : t.ReadOnly) : (t.rename f g).ReadOnly := by
  induction t with
  | done a => trivial
  | acquire m k ih => exact ih h
  | release k ih => exact ih h
  | look k ih => exact fun s => ih s (h s)
  | update h' k ih => exact h
  | ask q k ih => exact fun a => ih (g q a) (h (g q a))

theorem WritesGuarded.rename {gs : List Mode} (h : t.WritesGuarded gs) :
    (t.rename f g).WritesGuarded gs := by
  induction t generalizing gs with
  | done a => trivial
  | acquire m k ih => exact ih h
  | release k ih => exact ih h
  | look k ih => exact fun s => ih s (h s)
  | update h' k ih => exact ⟨h.1, ih h.2⟩
  | ask q k ih => exact fun a => ih (g q a) (h (g q a))

theorem Reader.rename (h : t.Reader) : (t.rename f g).Reader :=
  ⟨h.bracketed.rename, h.read_only.rename⟩

theorem Nested.rename {n : Nat} (h : t.Nested n) : (t.rename f g).Nested n := by
  induction t generalizing n with
  | done a => exact h
  | acquire m k ih => exact ih h
  | release k ih =>
    obtain ⟨m, hm, hk⟩ := h
    exact ⟨m, hm, ih hk⟩
  | look k ih => exact fun s => ih s (h s)
  | update h' k ih => exact h
  | ask q k ih => exact fun a => ih (g q a) (h (g q a))

theorem asks_rename {P : Q' → Prop} (hP : ∀ q, P (f q)) (t : Routine σ Q A α) :
    (t.rename f g).Asks P := by
  induction t with
  | done a => trivial
  | acquire m k ih => exact ih
  | release k ih => exact ih
  | look k ih => exact ih
  | update h' k ih => exact ih
  | ask q k ih => exact ⟨hP q, fun a => ih (g q a)⟩

theorem rename_bind (t : Routine σ Q A α) (k : α → Routine σ Q A β) :
    (t >>= k).rename f g = t.rename f g >>= fun a => (k a).rename f g := by
  show (t.bind k).rename f g = (t.rename f g).bind fun a => (k a).rename f g
  induction t with
  | done a => rfl
  | acquire m k' ih => exact congrArg (Routine.acquire m) ih
  | release k' ih => exact congrArg Routine.release ih
  | look k' ih => exact congrArg Routine.look (funext ih)
  | update h' k' ih => exact congrArg (Routine.update h') ih
  | ask q k' ih => exact congrArg (Routine.ask (f q)) (funext fun a => ih (g q a))

theorem Atomic.rename (h : t.Atomic) : (t.rename f g).Atomic := by
  cases h with
  | done a => exact .done a
  | guarded m body hbody =>
    have heq : (Routine.guarded m body).rename f g = Routine.guarded m (body.rename f g) := by
      show Routine.acquire m _ = Routine.acquire m _
      rw [rename_bind]
      rfl
    rw [heq]
    exact .guarded m _ hbody.rename

/-- When the answers are known, there is one that is returned. -/
theorem run_of_returns_rename {answer : ∀ q, A q} (hg : ∀ q a, g q a = answer q) {s : σ} {a : α}
    (h : (t.rename f g).Returns s a) : (t.run answer s).1 = a := by
  induction t with
  | done b => exact (h : a = b).symm
  | acquire m k ih => exact ih h
  | release k ih => exact ih h
  | look k ih => exact ih s h
  | update h' k ih => exact h.elim
  | ask q k ih =>
    obtain ⟨x, hx⟩ := h
    have hk := ih (g q x) hx
    rwa [hg] at hk

end rename

end Routine
