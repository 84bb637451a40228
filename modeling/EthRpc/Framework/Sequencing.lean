import EthRpc.Framework.Lts

/-! # Numbered items, taken in order

    There is a counter for each key. An item is taken when its number is the
    counter of its key, and the counter then goes up by one. Counters are
    words, so they start again after their last value.

    * `numbers_eq`: the items of a key were taken in the order of their
      numbers, and none was left out.
    * `length_filter_le_one`: as long as no counter has come back to where it
      started, no number of a key is used twice.
-/

namespace Sequencing

variable {Key Item : Type} [DecidableEq Key] {w : Nat}

/-- The counters, and what has been taken so far. -/
structure State (Key Item : Type) (w : Nat) where
  counter : Key → BitVec w
  taken : List Item

/-- How the items are numbered, and where the counters start. -/
structure Numbering (Key Item : Type) (w : Nat) where
  key : Item → Key
  number : Item → BitVec w
  start : Key → BitVec w

namespace Numbering

variable (N : Numbering Key Item w)

/-- The state after an item is taken. -/
def take (s : State Key Item w) (a : Item) : State Key Item w where
  counter := Function.update s.counter (N.key a) (s.counter (N.key a) + 1)
  taken := s.taken ++ [a]

/-- An item is taken when its number is up. -/
def system : Lts.System (State Key Item w) Item where
  init s := s.counter = N.start ∧ s.taken = []
  step s a s' := N.number a = s.counter (N.key a) ∧ s' = N.take s a

/-- The items of a key, in the order in which they were taken. -/
def items (s : State Key Item w) (k : Key) : List Item := s.taken.filter fun a => N.key a = k

/-- The counter does not come back to where it started. -/
def not_exhausted (s : State Key Item w) (a : Item) : Prop :=
  s.counter (N.key a) + 1 ≠ N.start (N.key a)

variable {N}

theorem items_take_self (s : State Key Item w) (a : Item) :
    N.items (N.take s a) (N.key a) = N.items s (N.key a) ++ [a] := by
  simp [items, take]

theorem items_take_of_ne (s : State Key Item w) {a : Item} {k : Key} (h : k ≠ N.key a) :
    N.items (N.take s a) k = N.items s k := by
  simp [items, take, h.symm]

theorem counter_take_self (s : State Key Item w) (a : Item) :
    (N.take s a).counter (N.key a) = s.counter (N.key a) + 1 := Function.update_self ..

theorem counter_take_of_ne (s : State Key Item w) {a : Item} {k : Key} (h : k ≠ N.key a) :
    (N.take s a).counter k = s.counter k := Function.update_of_ne h ..

/-- **Order.** The numbers of the items of a key count up from the start, and
    the counter is the next one. -/
theorem numbers_eq {s : State Key Item w} (h : Lts.Reachable N.system s) (k : Key) :
    (N.items s k).map N.number =
        (List.range (N.items s k).length).map (fun i => N.start k + BitVec.ofNat w i) ∧
      s.counter k = N.start k + BitVec.ofNat w (N.items s k).length := by
  apply Lts.invariant (fun s => (N.items s k).map N.number =
        (List.range (N.items s k).length).map (fun i => N.start k + BitVec.ofNat w i) ∧
      s.counter k = N.start k + BitVec.ofNat w (N.items s k).length) _ _ h
  · rintro s ⟨hcounter, htaken⟩
    have hnil : N.items s k = [] := by rw [items, htaken, List.filter_nil]
    rw [hnil, hcounter]
    simp
  · rintro s a s' - ⟨hnumbers, hcounter⟩ ⟨hnumber, rfl⟩
    by_cases hk : k = N.key a
    · -- the item that is taken has the next number
      subst hk
      rw [items_take_self, List.length_append, List.length_singleton, List.range_succ]
      constructor
      · rw [List.map_append, List.map_append, hnumbers, List.map_singleton, List.map_singleton,
          hnumber, hcounter]
      · rw [counter_take_self, hcounter, BitVec.add_assoc, BitVec.ofNat_add]
        rfl
    · rw [items_take_of_ne s hk]
      refine ⟨hnumbers, ?_⟩
      rw [counter_take_of_ne s hk, hcounter]

/-- Before a counter has come back to its start, it has taken fewer items
    than there are numbers. -/
theorem length_items_lt {s : State Key Item w}
    (h : Lts.Reachable (N.system.restrict N.not_exhausted) s) (k : Key) :
    (N.items s k).length < 2 ^ w := by
  apply Lts.invariant (fun s => (N.items s k).length < 2 ^ w) _ _ h
  · rintro s ⟨-, htaken⟩
    rw [items, htaken, List.filter_nil]
    exact Nat.two_pow_pos w
  · rintro s a s' hs hlt ⟨hguard, hnumber, rfl⟩
    by_cases hk : k = N.key a
    · subst hk
      obtain ⟨-, hcounter⟩ := numbers_eq hs.of_restrict (N.key a)
      rw [items_take_self, List.length_append, List.length_singleton]
      -- with as many items as numbers the counter would be back at its start
      by_contra hmax
      obtain hlast : (N.items s (N.key a)).length + 1 = 2 ^ w := by omega
      have hround : BitVec.ofNat w (N.items s (N.key a)).length + 1 = 0 := by
        rw [show (1 : BitVec w) = BitVec.ofNat w 1 from rfl, ← BitVec.ofNat_add, hlast]
        apply BitVec.eq_of_toNat_eq
        rw [BitVec.toNat_ofNat, Nat.mod_self]
        simp
      apply hguard
      rw [hcounter, BitVec.add_assoc, hround, add_zero]
    · rwa [items_take_of_ne s hk]

/-- **No number twice.** Two items of one key differ in their numbers. -/
theorem pairwise_ne {s : State Key Item w}
    (h : Lts.Reachable (N.system.restrict N.not_exhausted) s) :
    s.taken.Pairwise fun a b => N.key a = N.key b → N.number a ≠ N.number b := by
  rw [List.pairwise_iff_forall_sublist]
  intro a b hsub hkey hnumber
  obtain ⟨hnumbers, -⟩ := numbers_eq h.of_restrict (N.key a)
  have hlt := length_items_lt h (N.key a)
  -- both are among the items of the key, whose numbers are all different
  have hitems : [a, b].Sublist (N.items s (N.key a)) := by
    have := hsub.filter fun c => N.key c = N.key a
    simpa [items, hkey] using this
  have hnodup : ((N.items s (N.key a)).map N.number).Nodup := by
    rw [hnumbers]
    apply List.Nodup.map_on _ List.nodup_range
    intro i hi j hj hij
    have hij := congrArg BitVec.toNat (add_left_cancel hij)
    rw [List.mem_range] at hi hj
    rwa [BitVec.toNat_ofNat, BitVec.toNat_ofNat, Nat.mod_eq_of_lt (hi.trans hlt),
      Nat.mod_eq_of_lt (hj.trans hlt)] at hij
  have hpair := hnodup.sublist (hitems.map N.number)
  simp [hnumber] at hpair

/-- **At most once.** What can only hold of items of one key and one number
    has been taken once at most. -/
theorem length_filter_le_one {s : State Key Item w}
    (h : Lts.Reachable (N.system.restrict N.not_exhausted) s) (p : Item → Bool)
    (hp : ∀ a ∈ s.taken, ∀ b ∈ s.taken, p a → p b →
      N.key a = N.key b ∧ N.number a = N.number b) : (s.taken.filter p).length ≤ 1 := by
  have hpair := (pairwise_ne h).filter p
  match hl : s.taken.filter p with
  | [] => simp
  | [_] => simp
  | a :: b :: rest =>
    have ha : a ∈ s.taken.filter p := by simp [hl]
    have hb : b ∈ s.taken.filter p := by simp [hl]
    obtain ⟨ha, hpa⟩ := List.mem_filter.mp ha
    obtain ⟨hb, hpb⟩ := List.mem_filter.mp hb
    obtain ⟨hkey, hnumber⟩ := hp a ha b hb hpa hpb
    rw [hl] at hpair
    exact absurd hnumber (List.rel_of_pairwise_cons hpair (List.mem_cons_self ..) hkey)

end Numbering

end Sequencing
