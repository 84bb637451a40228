import EthRpc.Rpc.Lookups

/-! # Lookups do not show the cache

    A lookup that finds its block in the cache does not ask the node. Where
    the delivered blocks are those of a finalized chain of the node, with
    gaps and repeats, it returns what the node would have answered.

    `block_by_number` chains two lookups through different maps, and either
    may hit or miss: a block can be found by its hash and not by its number.
    `Agrees` is what every entry of either map has in common with the node.
-/

namespace EthRpc

/-- The finalized blocks of a node, which it answers for by height and by
    hash. It may know other blocks as well. -/
structure FinalizedChain (node : ∀ q, Answer q) where
  blocks : Set SubstrateBlock
  hash_at : ∀ b ∈ blocks, node (.chain_get_block_hash b.number) = .ok (some b.hash)
  block_at : ∀ b ∈ blocks, node (.block_at b.hash) = .ok b

namespace BlockCache

variable {N : Nat} {node : ∀ q, Answer q}

/-- Deliveries drawn from a finalized chain, in any order and number. -/
def deliveries (N : Nat) (chain : FinalizedChain node) :
    Lts.System (BlockCache N) SubstrateBlock where
  init c := c = default
  step c d c' := d ∈ chain.blocks ∧ c' = c.on_block d

/-- A subscription takes these steps, one for each block it takes in. -/
theorem steps_deliveries (chain : FinalizedChain node) (c : BlockCache N)
    (items : List StreamItem) (h : ∀ d ∈ delivered items, d ∈ chain.blocks) :
    Lts.Steps (deliveries N chain) c (delivered items) (subscribe_blocks c items).1 := by
  rw [subscribe_blocks_fst]
  generalize delivered items = ds at h
  induction ds generalizing c with
  | nil => exact .nil c
  | cons d ds ih =>
    rw [List.forall_mem_cons] at h
    exact .cons d ds ⟨h.1, rfl⟩ (ih (c.on_block d) h.2)

/-! ## The invariant -/

/-- **Every entry is the node's own answer**, found by number or by hash. -/
structure Agrees (node : ∀ q, Answer q) (c : BlockCache N) : Prop where
  by_number : ∀ n b, c.blocks_by_number.lookup n = some b →
    node (.chain_get_block_hash n) = .ok (some b.hash) ∧ node (.block_at b.hash) = .ok b
  by_hash : ∀ h b, c.blocks_by_hash.lookup h = some b → node (.block_at h) = .ok b

theorem agrees_default : Agrees node (default : BlockCache N) where
  by_number := by simp [default]
  by_hash := by simp [default]

/-- A delivery adds the entries of its own block and keeps or drops others. -/
theorem Agrees.on_block {chain : FinalizedChain node} {c : BlockCache N} {d : SubstrateBlock}
    (h : Agrees node c) (hd : d ∈ chain.blocks) : Agrees node (c.on_block d) where
  by_number := by
    intro n b hb
    by_cases hn : n = d.number
    · subst hn
      rw [blocks_on_block_self.2] at hb
      cases hb
      exact ⟨chain.hash_at d hd, chain.block_at d hd⟩
    · exact h.by_number n b ((blocks_by_number_on_block hn).mp hb).1
  by_hash := by
    intro k b hb
    by_cases hk : k = d.hash
    · subst hk
      rw [blocks_on_block_self.1] at hb
      cases hb
      exact chain.block_at d hd
    · exact h.by_hash k b ((blocks_by_hash_on_block hk).mp hb).1

theorem agrees_of_reachable {chain : FinalizedChain node} {c : BlockCache N}
    (h : Lts.Reachable (deliveries N chain) c) : Agrees node c := by
  apply Lts.invariant (Agrees node) _ _ h
  · intro c hc
    rw [hc]
    exact agrees_default
  · intro c d c' _ hagrees hstep
    obtain ⟨hd, rfl⟩ := hstep
    exact hagrees.on_block hd

end BlockCache

/-! ## Lookups -/

namespace Client

variable {N : Nat} {node : ∀ q, Answer q} {c : BlockCache N}

/-- What the node answers for the block at a height: first its hash, then
    the block. -/
def block_of_node (node : ∀ q, Answer q) (n : BitVec 32) :
    Except ClientError (Option SubstrateBlock) :=
  match (node (.chain_get_block_hash n) : Except ClientError (Option H256)) with
  | .ok (some hash) => of_block_at (node (.block_at hash))
  | .ok none => .ok none
  | .error e => .error e

/-- What the node answers for the block that is named by a number. -/
def selection_of_node (node : ∀ q, Answer q) (block_number : U256) : Except ClientError H256 :=
  match try_into 32 block_number with
  | some n =>
    match (node (.chain_get_block_hash n) : Except ClientError (Option H256)) with
    | .ok (some hash) => .ok hash
    | .ok none => .error .BlockNotFound
    | .error e => .error e
  | none => .error .ConversionFailed

theorem get_block_hash_of_agrees (h : c.Agrees node) (n : BitVec 32) :
    (get_block_hash n).run node c = (node (.chain_get_block_hash n), c) := by
  rw [run_get_block_hash]
  cases hb : c.blocks_by_number.lookup n with
  | none => rfl
  | some block =>
    rw [(h.by_number n block hb).1]
    rfl

theorem block_by_hash_of_agrees (h : c.Agrees node) (k : H256) :
    (block_by_hash k).run node c = (of_block_at (node (.block_at k)), c) := by
  rw [run_block_by_hash]
  cases hb : c.blocks_by_hash.lookup k with
  | none => rfl
  | some block => simp only [h.by_hash k block hb, of_block_at]

/-- On a miss, either of the two lookups may still hit. -/
theorem block_by_number_of_agrees (h : c.Agrees node) (n : BitVec 32) :
    (block_by_number n).run node c = (block_of_node node n, c) := by
  rw [run_block_by_number, get_block_hash_of_agrees h]
  cases hb : c.blocks_by_number.lookup n with
  | some block =>
    obtain ⟨hhash, hblock⟩ := h.by_number n block hb
    simp only [block_of_node, hhash, hblock, of_block_at]
  | none =>
    unfold block_of_node
    match (node (.chain_get_block_hash n) : Except ClientError (Option H256)) with
    | .ok (some hash) =>
      simp only
      rw [block_by_hash_of_agrees h]
    | .ok none => rfl
    | .error e => rfl

theorem select_block_of_agrees (h : c.Agrees node) (n : U256) :
    (select_block (.U256 n)).run node c = (selection_of_node node n, c) := by
  unfold select_block selection_of_node
  simp only
  cases try_into 32 n with
  | none => rfl
  | some n =>
    simp only [Routine.run_bind]
    rw [get_block_hash_of_agrees h]
    rcases (node (.chain_get_block_hash n) : Except ClientError (Option H256)) with e | _ | hash
    · rfl
    · rfl
    · rfl

/-- An operation returns the answer on this cache as on an empty one, and
    leaves the cache alone. -/
def Transparent {α : Type} (node : ∀ q, Answer q) (c : BlockCache N) (op : Op N α)
    (answer : α) : Prop :=
  op.run node c = (answer, c) ∧ op.run node .default = (answer, .default)

/-- **Cache transparency.** Whatever was delivered from a finalized chain,
    every lookup by number or hash returns the node's own answer, as it does
    on an empty cache. -/
theorem transparent_of_reachable {chain : FinalizedChain node}
    (hreach : Lts.Reachable (BlockCache.deliveries N chain) c) :
    (∀ n, Transparent node c (get_block_hash n) (node (.chain_get_block_hash n))) ∧
    (∀ n, Transparent node c (block_by_number n) (block_of_node node n)) ∧
    (∀ h, Transparent node c (block_by_hash h) (of_block_at (node (.block_at h)))) ∧
    ∀ n, Transparent node c (storage_api (.U256 n)) (selection_of_node node n) ∧
      Transparent node c (runtime_api (.U256 n)) (selection_of_node node n) := by
  have h := BlockCache.agrees_of_reachable hreach
  have h0 : BlockCache.Agrees node (BlockCache.default (N := N)) := BlockCache.agrees_default
  refine ⟨fun n => ?_, fun n => ?_, fun k => ?_, fun n => ?_⟩
  · exact ⟨get_block_hash_of_agrees h n, get_block_hash_of_agrees h0 n⟩
  · exact ⟨block_by_number_of_agrees h n, block_by_number_of_agrees h0 n⟩
  · exact ⟨block_by_hash_of_agrees h k, block_by_hash_of_agrees h0 k⟩
  · have hselect := And.intro (select_block_of_agrees h n) (select_block_of_agrees h0 n)
    exact ⟨hselect, hselect⟩

/-! ## A sample chain -/

/-- A node with blocks `1` and `2`. -/
def sample_node : ∀ q, Answer q
  | .chain_get_block_hash n =>
    if n = 1 then Except.ok (some (Sample.block 1).hash)
    else if n = 2 then Except.ok (some (Sample.block 2).hash)
    else Except.ok none
  | .block_at hash =>
    if hash = (Sample.block 1).hash then Except.ok (Sample.block 1)
    else if hash = (Sample.block 2).hash then Except.ok (Sample.block 2)
    else Except.error .NotFound
  | .latest => Except.ok (Sample.block 2).hash
  | .receipt_infos _ => ()

def sample_finalized : FinalizedChain sample_node where
  blocks := {b | b = Sample.block 1 ∨ b = Sample.block 2}
  hash_at := by
    intro b hb
    rcases hb with rfl | rfl
    · rfl
    · rfl
  block_at := by
    intro b hb
    rcases hb with rfl | rfl
    · rfl
    · rfl

/-- Block `1` twice, then block `2`, in a cache of two: block `1` is queued
    but found in neither map, and the lookup asks the node. -/
theorem transparent_of_reachable_sample :
    let c := (((BlockCache.default (N := 2)).on_block (Sample.block 1)).on_block
      (Sample.block 1)).on_block (Sample.block 2)
    c.blocks_by_number.lookup 1 = none ∧
      ((block_by_number 1).run sample_node c).1 = .ok (some (Sample.block 1)) ∧
      ((block_by_number 2).run sample_node c).1 = .ok (some (Sample.block 2)) := by
  intro c
  have hsteps := BlockCache.steps_deliveries (N := 2) sample_finalized .default
    [.block (Sample.block 1) none, .block (Sample.block 1) none, .block (Sample.block 2) none]
    (by simp [BlockCache.delivered, sample_finalized])
  obtain ⟨-, hblock, -⟩ := transparent_of_reachable (hsteps.reachable (.init rfl))
  have hfirst : (block_by_number 1).run sample_node c = (_, c) := (hblock 1).1
  have hsecond : (block_by_number 2).run sample_node c = (_, c) := (hblock 2).1
  refine ⟨by decide +kernel, ?_, ?_⟩
  · rw [hfirst]
    decide +kernel
  · rw [hsecond]
    decide +kernel

end Client

end EthRpc
