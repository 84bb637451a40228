import EthRpc.Framework.Outcome

/-! # A worklist with names

    Things are asked for under a name. What is asked for is collected, unless
    something was collected under this name before; all that is collected is
    worked on in a round, in the order of the names, and the work asks for more.
    It ends with a round that collects nothing.

    * `State.collect`, `run`: the worklist, where the work may fail.
    * `Taken`: what is worked on, told from the requests alone.
    * `Taken.unique`, `taken_iff_asked`: each name that is asked for, and was
      not excluded at the start, is taken once.
    * `run_results`: a run that ends has done the work of everything taken.
    * `run_ends`: a run ends, if there are finitely many names.
-/

namespace Worklist

variable {K V R ε : Type}

/-- What is collected for the next round, in the order of the names, and the
    names that are not to be collected any more. -/
structure State (K V : Type) where
  collected : List (K × V)
  generated : Finset K

/-- The names of a list of requests. -/
def names (asks : List (K × V)) : List K := asks.map Prod.fst

theorem mem_names {k : K} {asks : List (K × V)} : k ∈ names asks ↔ ∃ v, (k, v) ∈ asks := by
  simp [names]

/-- No name is collected twice, or although it is generated. -/
structure Distinct (s : State K V) : Prop where
  nodup : (names s.collected).Nodup
  fresh : ∀ k ∈ names s.collected, k ∉ s.generated

section take
variable [DecidableEq K]

/-- A round begins: what is collected is taken out, and counts as generated. -/
def State.take (s : State K V) : State K V where
  collected := []
  generated := s.generated ∪ (names s.collected).toFinset

theorem distinct_take (s : State K V) : Distinct s.take :=
  ⟨List.nodup_nil, by simp [State.take, names]⟩

end take

variable [LT K] [DecidableLT K]

/-- Put a new name in its place. -/
def insert_sorted (ask : K × V) : List (K × V) → List (K × V)
  | [] => [ask]
  | entry :: entries =>
    if ask.1 < entry.1 then ask :: entry :: entries else entry :: insert_sorted ask entries

theorem perm_insert_sorted (ask : K × V) (entries : List (K × V)) :
    (insert_sorted ask entries).Perm (ask :: entries) := by
  induction entries with
  | nil => exact .refl _
  | cons head entries ih =>
    unfold insert_sorted
    by_cases hlt : ask.1 < head.1
    · rw [if_pos hlt]
    · rw [if_neg hlt]
      exact (ih.cons head).trans (.swap ask head entries)

variable [DecidableEq K]

namespace State

/-- Collect it, if the name is neither generated nor collected yet. -/
def collect (s : State K V) (ask : K × V) : State K V :=
  if ask.1 ∈ s.generated ∨ ask.1 ∈ names s.collected then s
  else { s with collected := insert_sorted ask s.collected }

def collect_all (s : State K V) (asks : List (K × V)) : State K V := asks.foldl collect s

end State

/-! ## Runs -/

section run
variable (work : K → V → Outcome ε (R × List (K × V)))

/-- The work of a round, one entry after the other. -/
def process : List (K × V) → State K V → Outcome ε (List R × State K V)
  | [], s => return ([], s)
  | entry :: entries, s => do
    let (r, asks) ← work entry.1 entry.2
    let (rs, s) ← process entries (s.collect_all asks)
    return (r :: rs, s)

/-- Round after round; `none` if there are more than `fuel`. -/
def run : Nat → State K V → Outcome ε (Option (List R))
  | 0, _ => return none
  | fuel + 1, s =>
    if s.collected.isEmpty then return some []
    else do
      let (rs, s') ← process work s.collected s.take
      let rest ← run fuel s'
      return rest.map (rs ++ ·)

end run

/-! ## Collecting -/

section collect
variable {s : State K V} {ask : K × V} {asks : List (K × V)} {k : K}

@[simp] theorem generated_collect : (s.collect ask).generated = s.generated := by
  unfold State.collect
  split
  · rfl
  · rfl

theorem mem_names_collect :
    k ∈ names (s.collect ask).collected ↔
      k ∈ names s.collected ∨ k = ask.1 ∧ k ∉ s.generated := by
  unfold State.collect
  by_cases hold : ask.1 ∈ s.generated ∨ ask.1 ∈ names s.collected
  · rw [if_pos hold]
    constructor
    · exact Or.inl
    · intro h
      rcases h with h | ⟨rfl, hfresh⟩
      · exact h
      · exact hold.resolve_left hfresh
  · rw [if_neg hold]
    push Not at hold
    have hperm := ((perm_insert_sorted ask s.collected).map Prod.fst).mem_iff (a := k)
    show k ∈ (insert_sorted ask s.collected).map Prod.fst ↔ _
    rw [hperm, List.map_cons, List.mem_cons]
    constructor
    · intro h
      rcases h with rfl | h
      · exact Or.inr ⟨rfl, hold.1⟩
      · exact Or.inl h
    · intro h
      rcases h with h | ⟨rfl, -⟩
      · exact Or.inr h
      · exact Or.inl rfl

theorem Distinct.collect (h : Distinct s) : Distinct (s.collect ask) := by
  refine ⟨?_, ?_⟩
  · unfold State.collect
    by_cases hold : ask.1 ∈ s.generated ∨ ask.1 ∈ names s.collected
    · rw [if_pos hold]
      exact h.nodup
    · rw [if_neg hold]
      push Not at hold
      apply ((perm_insert_sorted ask s.collected).map Prod.fst).nodup_iff.mpr
      exact List.nodup_cons.mpr ⟨hold.2, h.nodup⟩
  · intro k hk
    rw [generated_collect]
    rcases mem_names_collect.mp hk with hk | ⟨-, hfresh⟩
    · exact h.fresh k hk
    · exact hfresh

@[simp] theorem generated_collect_all : (s.collect_all asks).generated = s.generated := by
  induction asks generalizing s with
  | nil => rfl
  | cons ask asks ih =>
    show ((s.collect ask).collect_all asks).generated = _
    rw [ih, generated_collect]

/-- **What is collected**: the names that were, and those that are asked for
    and not generated. -/
theorem mem_names_collect_all :
    k ∈ names (s.collect_all asks).collected ↔
      k ∈ names s.collected ∨ k ∈ names asks ∧ k ∉ s.generated := by
  induction asks generalizing s with
  | nil => simp [State.collect_all, names]
  | cons ask asks ih =>
    show k ∈ names ((s.collect ask).collect_all asks).collected ↔ _
    rw [ih, mem_names_collect, generated_collect]
    show _ ↔ _ ∨ k ∈ ask.1 :: names asks ∧ _
    rw [List.mem_cons]
    tauto

/-- What is collected was collected before, or is asked for. -/
theorem mem_collect_all {entry : K × V} (h : entry ∈ (s.collect_all asks).collected) :
    entry ∈ s.collected ∨ entry ∈ asks := by
  induction asks generalizing s with
  | nil => exact Or.inl h
  | cons ask asks ih =>
    have h : entry ∈ ((s.collect ask).collect_all asks).collected := h
    rcases ih h with h | h
    · unfold State.collect at h
      by_cases hold : ask.1 ∈ s.generated ∨ ask.1 ∈ names s.collected
      · rw [if_pos hold] at h
        exact Or.inl h
      · rw [if_neg hold] at h
        rcases List.mem_cons.mp ((perm_insert_sorted ask s.collected).mem_iff.mp h) with rfl | h
        · exact Or.inr List.mem_cons_self
        · exact Or.inl h
    · exact Or.inr (List.mem_cons_of_mem ask h)

theorem Distinct.collect_all (h : Distinct s) : Distinct (s.collect_all asks) := by
  induction asks generalizing s with
  | nil => exact h
  | cons ask asks ih => exact ih h.collect

theorem collect_all_append (s : State K V) (asks asks' : List (K × V)) :
    s.collect_all (asks ++ asks') = (s.collect_all asks).collect_all asks' :=
  List.foldl_append

end collect

/-! ## What is taken -/

variable (expand : K → V → List (K × V))

/-- The next round, where the work on an entry asks for `expand` of it. -/
def next (s : State K V) : State K V :=
  s.take.collect_all (s.collected.flatMap fun entry => expand entry.1 entry.2)

/-- The entries of all rounds. -/
inductive Taken : State K V → K → V → Prop where
  | here {s : State K V} {k : K} {v : V} (h : (k, v) ∈ s.collected) : Taken s k v
  | later {s : State K V} {k : K} {v : V} (h : Taken (next expand s) k v) : Taken s k v

section taken
variable {expand} {s : State K V} {k k' : K} {v v' : V}

theorem generated_next : (next expand s).generated = s.generated ∪ (names s.collected).toFinset := by
  rw [next, generated_collect_all]
  rfl

theorem mem_names_next :
    k ∈ names (next expand s).collected ↔
      (∃ entry ∈ s.collected, k ∈ names (expand entry.1 entry.2)) ∧ k ∉ s.generated ∧
        k ∉ names s.collected := by
  rw [next, mem_names_collect_all]
  have hflat : k ∈ names (s.collected.flatMap fun entry => expand entry.1 entry.2) ↔
      ∃ entry ∈ s.collected, k ∈ names (expand entry.1 entry.2) := by
    rw [names, List.map_flatMap, List.mem_flatMap]
    rfl
  rw [hflat]
  simp [State.take, names]

theorem distinct_next : Distinct (next expand s) := (distinct_take s).collect_all

/-- No name that is excluded is taken. -/
theorem Taken.fresh (h : Taken expand s k v) (hs : Distinct s) : k ∉ s.generated := by
  induction h with
  | here h => exact hs.fresh _ (mem_names.mpr ⟨_, h⟩)
  | later h ih =>
    have hnext := ih distinct_next
    rw [generated_next, Finset.mem_union, not_or] at hnext
    exact hnext.1

/-- **Once.** Two things are not taken under one name. -/
theorem Taken.unique (h : Taken expand s k v) (h' : Taken expand s k v') (hs : Distinct s) :
    v = v' := by
  induction h generalizing v' with
  | here h =>
    cases h' with
    | here h' =>
      have heq := List.inj_on_of_nodup_map hs.nodup h h' rfl
      exact congrArg Prod.snd heq
    | later h' =>
      have hfresh := h'.fresh distinct_next
      rw [generated_next, Finset.mem_union, not_or, List.mem_toFinset] at hfresh
      exact absurd (mem_names.mpr ⟨_, h⟩) hfresh.2
  | later h ih =>
    cases h' with
    | here h' =>
      have hfresh := h.fresh distinct_next
      rw [generated_next, Finset.mem_union, not_or, List.mem_toFinset] at hfresh
      exact absurd (mem_names.mpr ⟨_, h'⟩) hfresh.2
    | later h' => exact ih h' distinct_next

/-- A name that is asked for is taken, unless it is excluded. -/
theorem Taken.of_ask (h : Taken expand s k' v') (hk : k ∈ names (expand k' v'))
    (hfresh : k ∉ s.generated) : ∃ v, Taken expand s k v := by
  induction h with
  | @here s k' v' h =>
    by_cases hhere : k ∈ names s.collected
    · obtain ⟨v, hv⟩ := mem_names.mp hhere
      exact ⟨v, .here hv⟩
    · have hnext : k ∈ names (next expand s).collected :=
        mem_names_next.mpr ⟨⟨_, h, hk⟩, hfresh, hhere⟩
      obtain ⟨v, hv⟩ := mem_names.mp hnext
      exact ⟨v, .later (.here hv)⟩
  | @later s k' v' h ih =>
    by_cases hhere : k ∈ names s.collected
    · obtain ⟨v, hv⟩ := mem_names.mp hhere
      exact ⟨v, .here hv⟩
    · obtain ⟨v, hv⟩ := ih hk (by
        rw [generated_next, Finset.mem_union, not_or, List.mem_toFinset]
        exact ⟨hfresh, hhere⟩)
      exact ⟨v, .later hv⟩

/-- Nothing is taken that was not asked for. -/
theorem Taken.asked (h : Taken expand s k v) :
    k ∈ names s.collected ∨ ∃ k' v', Taken expand s k' v' ∧ k ∈ names (expand k' v') := by
  induction h with
  | here h => exact Or.inl (mem_names.mpr ⟨_, h⟩)
  | later h ih =>
    rcases ih with hnext | ⟨k', v', h', hk⟩
    · obtain ⟨⟨entry, hentry, hk⟩, -⟩ := mem_names_next.mp hnext
      exact Or.inr ⟨entry.1, entry.2, .here hentry, hk⟩
    · exact Or.inr ⟨k', v', .later h', hk⟩

theorem mem_next {entry : K × V} (h : entry ∈ (next expand s).collected) :
    ∃ before ∈ s.collected, entry ∈ expand before.1 before.2 := by
  rcases mem_collect_all h with h | h
  · exact absurd h List.not_mem_nil
  · exact List.mem_flatMap.mp h

/-- What holds of the entries at the start, and of what an entry asks for if it
    holds of the entry, holds of all that is taken. -/
theorem Taken.induction {P : K → V → Prop} (hstart : ∀ entry ∈ s.collected, P entry.1 entry.2)
    (hask : ∀ k v, P k v → ∀ ask ∈ expand k v, P ask.1 ask.2) (h : Taken expand s k v) :
    P k v := by
  induction h with
  | here h => exact hstart _ h
  | later h ih =>
    apply ih
    intro entry hentry
    obtain ⟨before, hbefore, hmem⟩ := mem_next hentry
    exact hask _ _ (hstart before hbefore) entry hmem

/-- Things that are taken are asked for as they are. -/
theorem Taken.request (h : Taken expand s k v) :
    (k, v) ∈ s.collected ∨ ∃ k' v', Taken expand s k' v' ∧ (k, v) ∈ expand k' v' := by
  induction h with
  | here h => exact Or.inl h
  | later h ih =>
    rcases ih with hnext | ⟨k', v', h', hk⟩
    · obtain ⟨before, hbefore, hmem⟩ := mem_next hnext
      exact Or.inr ⟨before.1, before.2, .here hbefore, hmem⟩
    · exact Or.inr ⟨k', v', .later h', hk⟩

/-- **The names that are taken** are those that are collected at the start or
    asked for by the work, up to the excluded ones. -/
theorem taken_iff_asked (hs : Distinct s) :
    (∃ v, Taken expand s k v) ↔ k ∉ s.generated ∧
      (k ∈ names s.collected ∨ ∃ k' v', Taken expand s k' v' ∧ k ∈ names (expand k' v')) := by
  constructor
  · intro h
    obtain ⟨v, h⟩ := h
    exact ⟨h.fresh hs, h.asked⟩
  · intro h
    obtain ⟨hfresh, hk | ⟨k', v', h', hk⟩⟩ := h
    · obtain ⟨v, hv⟩ := mem_names.mp hk
      exact ⟨v, .here hv⟩
    · exact h'.of_ask hk hfresh

end taken

/-! ## The results of a run -/

section results
variable {work : K → V → Outcome ε (R × List (K × V))} {expand} {s s' : State K V}

/-- The work on an entry has this result. -/
def Done (work : K → V → Outcome ε (R × List (K × V))) (entry : K × V) (r : R) : Prop :=
  ∃ asks, work entry.1 entry.2 = .ok (r, asks)

section done
variable {entries : List (K × V)} {rs : List R} {entry : K × V}

omit [LT K] [DecidableLT K] [DecidableEq K] in
/-- What the entries tell of their results, in order. -/
theorem map_of_done {γ : Type} {f : R → γ} {g : K × V → γ}
    (hfg : ∀ entry r, Done work entry r → f r = g entry) (h : List.Forall₂ (Done work) entries rs) :
    rs.map f = entries.map g := by
  induction h with
  | nil => rfl
  | cons hentry hrest ih => rw [List.map_cons, List.map_cons, hfg _ _ hentry, ih]

omit [LT K] [DecidableLT K] [DecidableEq K] in
/-- All the work has been done. -/
theorem done_of_mem (h : List.Forall₂ (Done work) entries rs) (hmem : entry ∈ entries) :
    ∃ r, Done work entry r := by
  have hboth : List.Forall₂ (fun entry r => (∃ r, Done work entry r) ∧ Done work entry r)
      entries rs := h.imp fun entry r hdone => ⟨⟨r, hdone⟩, hdone⟩
  exact ((List.forall₂_and_left _ _).mp hboth).1 entry hmem

end done

/-- A round does the work of its entries, and collects what it asks for. -/
theorem process_results (hexpand : ∀ k v r asks, work k v = .ok (r, asks) → asks = expand k v)
    {entries : List (K × V)} {rs : List R} (h : process work entries s = .ok (rs, s')) :
    List.Forall₂ (Done work) entries rs ∧
      s' = s.collect_all (entries.flatMap fun entry => expand entry.1 entry.2) := by
  induction entries generalizing s rs with
  | nil =>
    cases h
    exact ⟨.nil, rfl⟩
  | cons entry entries ih =>
    unfold process at h
    obtain ⟨⟨r, asks⟩, hwork, h⟩ := Outcome.bind_eq_ok.mp h
    obtain ⟨⟨rs', s''⟩, hrest, h⟩ := Outcome.bind_eq_ok.mp h
    cases h
    obtain ⟨hdone, hstate⟩ := ih hrest
    refine ⟨.cons ⟨asks, hwork⟩ hdone, ?_⟩
    rw [hstate, List.flatMap_cons, collect_all_append, hexpand _ _ _ _ hwork]

/-- Where nothing is collected nothing is taken. -/
theorem not_taken_of_nil (h : s.collected = []) (k : K) (v : V) : ¬ Taken expand s k v := by
  intro htaken
  induction htaken with
  | here hmem =>
    rw [h] at hmem
    cases hmem
  | @later s k v _ ih =>
    apply ih
    simp [next, h, State.collect_all, State.take]

/-- **A run that ends** has done the work of everything taken, of each name
    once. -/
theorem run_results (hexpand : ∀ k v r asks, work k v = .ok (r, asks) → asks = expand k v)
    (hs : (names s.collected).Nodup) {fuel : Nat} {rs : List R}
    (h : run work fuel s = .ok (some rs)) :
    ∃ entries, List.Forall₂ (Done work) entries rs ∧ (names entries).Nodup ∧
      ∀ k v, (k, v) ∈ entries ↔ Taken expand s k v := by
  induction fuel generalizing s rs with
  | zero => cases h
  | succ fuel ih =>
    unfold run at h
    by_cases hempty : s.collected = []
    · rw [if_pos (by rw [hempty]; rfl)] at h
      cases h
      exact ⟨[], .nil, List.nodup_nil, by simp [not_taken_of_nil hempty]⟩
    · rw [if_neg (by simpa using hempty)] at h
      obtain ⟨⟨rs₁, s'⟩, hround, h⟩ := Outcome.bind_eq_ok.mp h
      obtain ⟨rest, hrest, h⟩ := Outcome.bind_eq_ok.mp h
      cases hrest' : rest with
      | none =>
        rw [hrest'] at h
        cases h
      | some rs₂ =>
        rw [hrest'] at h hrest
        cases h
        obtain ⟨hdone, rfl⟩ := process_results hexpand hround
        have hnext : Distinct (next expand s) := distinct_next
        obtain ⟨entries, hdone', hnodup, htaken⟩ := ih hnext.nodup hrest
        refine ⟨s.collected ++ entries, List.rel_append hdone hdone', ?_, ?_⟩
        · rw [names, List.map_append, List.nodup_append]
          refine ⟨hs, hnodup, ?_⟩
          -- the names of this round count as generated in all later ones
          intro k hk k' hk' heq
          subst heq
          obtain ⟨v, hv⟩ := mem_names.mp hk'
          have hfresh := ((htaken k v).mp hv).fresh distinct_next
          rw [generated_next, Finset.mem_union, not_or, List.mem_toFinset] at hfresh
          exact hfresh.2 hk
        · intro k v
          rw [List.mem_append, htaken]
          constructor
          · intro hkv
            rcases hkv with hkv | hkv
            · exact .here hkv
            · exact .later hkv
          · intro hkv
            cases hkv with
            | here hkv => exact Or.inl hkv
            | later hkv => exact Or.inr hkv

/-! ## Termination -/

/-- A round whose work can be done. -/
theorem process_of_work (s : State K V) (entries : List (K × V))
    (hwork : ∀ entry ∈ entries, ∃ r, work entry.1 entry.2 = .ok (r, expand entry.1 entry.2)) :
    ∃ rs, process work entries s =
      .ok (rs, s.collect_all (entries.flatMap fun entry => expand entry.1 entry.2)) := by
  induction entries generalizing s with
  | nil => exact ⟨[], rfl⟩
  | cons entry entries ih =>
    obtain ⟨r, hr⟩ := hwork entry List.mem_cons_self
    obtain ⟨rs, hrs⟩ := ih (s.collect_all (expand entry.1 entry.2))
      fun other hmem => hwork other (List.mem_cons_of_mem entry hmem)
    refine ⟨r :: rs, ?_⟩
    unfold process
    simp only [hr, Outcome.ok_bind, hrs, List.flatMap_cons, collect_all_append]
    rfl

/-- A round, if there is something to do. -/
theorem run_succ (hcollected : s.collected ≠ [])
    (hwork : ∀ k v, Taken expand s k v → ∃ r, work k v = .ok (r, expand k v)) :
    ∃ rs, ∀ fuel rest, run work fuel (next expand s) = .ok (some rest) →
      run work (fuel + 1) s = .ok (some (rs ++ rest)) := by
  obtain ⟨rs, hrs⟩ := process_of_work s.take s.collected fun entry hentry =>
    hwork entry.1 entry.2 (.here hentry)
  refine ⟨rs, fun fuel rest hrest => ?_⟩
  unfold run
  rw [if_neg (by simpa using hcollected)]
  have hrest : run work fuel (s.take.collect_all
      (s.collected.flatMap fun entry => expand entry.1 entry.2)) = .ok (some rest) := hrest
  simp only [hrs, Outcome.ok_bind, hrest]
  rfl

theorem run_of_nil {fuel : Nat} (hcollected : s.collected = []) (hfuel : 0 < fuel) :
    run work fuel s = .ok (some []) := by
  obtain ⟨fuel, rfl⟩ := Nat.exists_eq_succ_of_ne_zero hfuel.ne'
  show run work (fuel + 1) s = _
  unfold run
  rw [if_pos (by rw [hcollected]; rfl)]
  rfl

/-- In each round there are fewer names that are not generated yet. -/
theorem card_next_lt {all : Finset K} (hs : Distinct s) (hcollected : s.collected ≠ [])
    (hall : ∀ k v, Taken expand s k v → k ∈ all) :
    (all \ (next expand s).generated).card < (all \ s.generated).card := by
  obtain ⟨entry, hentry⟩ := List.exists_mem_of_ne_nil s.collected hcollected
  have hname : entry.1 ∈ names s.collected := mem_names.mpr ⟨entry.2, hentry⟩
  apply Finset.card_lt_card
  rw [generated_next, Finset.ssubset_iff_of_subset
    (Finset.sdiff_subset_sdiff (Finset.Subset.refl _) Finset.subset_union_left)]
  refine ⟨entry.1, Finset.mem_sdiff.mpr ⟨hall _ _ (.here hentry), hs.fresh _ hname⟩, ?_⟩
  simp [hname]

theorem run_ends_of_distinct {all : Finset K} {rounds : Nat} (hs : Distinct s)
    (hall : ∀ k v, Taken expand s k v → k ∈ all)
    (hwork : ∀ k v, Taken expand s k v → ∃ r, work k v = .ok (r, expand k v))
    (hrounds : (all \ s.generated).card < rounds) :
    ∃ rs, ∀ fuel, rounds ≤ fuel → run work fuel s = .ok (some rs) := by
  induction rounds generalizing s with
  | zero => omega
  | succ rounds ih =>
    by_cases hcollected : s.collected = []
    · exact ⟨[], fun fuel hfuel => run_of_nil hcollected (by omega)⟩
    · obtain ⟨rs, hround⟩ := run_succ hcollected hwork
      have hless := card_next_lt hs hcollected hall
      obtain ⟨rest, hrest⟩ := ih distinct_next (fun k v h => hall k v (.later h))
        (fun k v h => hwork k v (.later h)) (by omega)
      refine ⟨rs ++ rest, fun fuel hfuel => ?_⟩
      obtain ⟨fuel, rfl⟩ := Nat.exists_eq_succ_of_ne_zero (by omega : fuel ≠ 0)
      exact hround fuel rest (hrest fuel (by omega))

/-- **A run ends** if the names that can be taken are finitely many, and the
    work on what is taken can be done. -/
theorem run_ends {all : Finset K} (hall : ∀ k v, Taken expand s k v → k ∈ all)
    (hwork : ∀ k v, Taken expand s k v → ∃ r, work k v = .ok (r, expand k v)) :
    ∃ rounds rs, ∀ fuel, rounds ≤ fuel → run work fuel s = .ok (some rs) := by
  by_cases hcollected : s.collected = []
  · exact ⟨1, [], fun fuel hfuel => run_of_nil hcollected (by omega)⟩
  · -- from the second round on, what is collected is not generated
    obtain ⟨rs, hround⟩ := run_succ hcollected hwork
    have hnext : Distinct (next expand s) := distinct_next
    obtain ⟨rest, hrest⟩ := run_ends_of_distinct hnext (fun k v h => hall k v (.later h))
      (fun k v h => hwork k v (.later h)) (Nat.lt_succ_self _)
    refine ⟨(all \ (next expand s).generated).card + 2, rs ++ rest, fun fuel hfuel => ?_⟩
    obtain ⟨fuel, rfl⟩ := Nat.exists_eq_succ_of_ne_zero (by omega : fuel ≠ 0)
    exact hround fuel rest (hrest fuel (by omega))

end results

end Worklist
