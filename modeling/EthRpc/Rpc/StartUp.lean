import EthRpc.Framework.Schedule
import EthRpc.Framework.Serde
import EthRpc.Rpc.Lookups

/-! # Start-up of the client

    `Client::from_url` connects to the node, asks it for a few constants, then
    spawns the block subscription and waits for its first update. From there on
    the two only share a watch channel and the cache.

    A node is all that it answers. The tasks are scheduled in any order, a
    delivery takes one step for each thing it does to the cache and the channel,
    and a task whose await is not over is scheduled in vain. Before `from_url`
    returns, nobody else takes the cache lock; later a wait for it is a turn
    that does not come.

    * `Inv`: what the cache holds at each place of the subscription. Once there
      was an update, it is never empty when it can be read.
-/

namespace EthRpc

namespace StartUp

/-! ## The node -/

/-- What a request to the node comes to; `none` if it is never answered. -/
abbrev Reply (α : Type) := Option (Except ClientError α)

/-- `system_properties`. -/
abbrev Properties := Map String Json

/-- The properties are answered before their future is polled for the first
    time, or later, or never. -/
inductive Timed where
  | at_once (r : Except ClientError Properties)
  | later (r : Except ClientError Properties)
  | never

/-- What the block stream comes to at one place. A block comes with the reply
    to the requests of `receipt_infos`. -/
inductive Next where
  | block (b : SubstrateBlock) (receipt_infos : Reply Unit)
  | disconnected_will_reconnect
  | error (e : ClientError)
  | ended
  | pending

/-- All that a node does during start-up, and afterwards as a block stream. -/
structure Node where
  rpc_client : Reply Unit
  /-- The metadata, with the constants in it. -/
  api : Reply Unit
  system_properties : Timed
  chain_id : Except ClientError (BitVec 64)
  max_block_weight : Except ClientError Weight
  subscribe_finalized : Reply Unit
  next : Nat → Next

/-! ## `ClientInner::from_url` -/

/-- What an await comes to: an end, or nothing, for ever. -/
inductive Awaited (α : Type) where
  | ready (r : Outcome ClientError α)
  | pending

namespace Awaited

variable {α β : Type}

def bind (x : Awaited α) (f : α → Awaited β) : Awaited β :=
  match x with
  | .ready (.ok a) => f a
  | .ready (.err e) => .ready (.err e)
  | .ready .panic => .ready .panic
  | .pending => .pending

instance : Monad Awaited where
  pure a := .ready (.ok a)
  bind := bind

/-- A request that is awaited. -/
def of_reply : Reply α → Awaited α
  | some r => .ready (Outcome.of_except r)
  | none => .pending

@[simp] theorem pure_eq (a : α) : (pure a : Awaited α) = .ready (.ok a) := rfl

/-- A chain of awaits ends in a value if all of them do. -/
theorem bind_eq_ok {x : Awaited α} {f : α → Awaited β} {b : β} :
    (x >>= f) = .ready (.ok b) ↔ ∃ a, x = .ready (.ok a) ∧ f a = .ready (.ok b) := by
  show x.bind f = _ ↔ _
  rcases x with (a | e | _) | _
  · simp [bind]
  · simp [bind]
  · simp [bind]
  · simp [bind]

/-- It ends in the first error, if the awaits before it end in values. -/
theorem bind_eq_err {x : Awaited α} {f : α → Awaited β} {e : ClientError} :
    (x >>= f) = .ready (.err e) ↔
      x = .ready (.err e) ∨ ∃ a, x = .ready (.ok a) ∧ f a = .ready (.err e) := by
  show x.bind f = _ ↔ _
  rcases x with (a | e' | _) | _
  · simp [bind]
  · simp [bind]
  · simp [bind]
  · simp [bind]

end Awaited

/-- `as_number()?.as_u64()`. -/
def as_u64 : Json → Option (BitVec 64)
  | .number text =>
    -- any other number is a negative one, or a float
    if text.toList ≠ [] ∧ text.toList.all Char.isDigit then
      let n := text.toList.foldl (fun n digit => 10 * n + (digit.toNat - 48)) 0
      if n < 2 ^ 64 then some (BitVec.ofNat 64 n) else none
    else none
  | _ => none

/-- The property `tokenDecimals`, as a `u64`. -/
def token_decimals (props : Properties) : Option (BitVec 64) := do
  let v ← props.lookup "tokenDecimals"
  as_u64 v

/-- `U256::pow`. -/
def U256.pow (base exponent : U256) : Outcome ClientError U256 :=
  Profile.checked.arith (base.toNat ^ exponent.toNat < 2 ^ 256)
    (BitVec.ofNat 256 (base.toNat ^ exponent.toNat))

/-- Fetch the native to EVM ratio, once the properties are answered. The
    arithmetic of `U256` is checked in every build. -/
def native_to_evm_ratio (system_properties : Except ClientError Properties) :
    Outcome ClientError U256 := do
  let props ← Outcome.of_except system_properties
  let eth_decimals := BitVec.ofNat 256 18
  let native_decimals ← Outcome.ok_or .TokenDecimalsNotFound (token_decimals props)
  let exponent ← Profile.checked.sub eth_decimals (native_decimals.setWidth 256)
  U256.pow (BitVec.ofNat 256 10) exponent

/-- `ClientInner`, the values that are fetched. -/
structure ClientInner where
  chain_id : BitVec 64
  max_block_weight : Weight
  native_to_evm_ratio : U256

/-- `tokio::try_join!`: the constants are there when they are polled, the
    properties possibly not; and the first error ends it. -/
def Node.try_join (node : Node) : Awaited ClientInner :=
  match node.system_properties with
  | .at_once props => do
    let ratio ← .ready (native_to_evm_ratio props)
    let chain_id ← .ready (.of_except node.chain_id)
    let max_block_weight ← .ready (.of_except node.max_block_weight)
    return ⟨chain_id, max_block_weight, ratio⟩
  | .later props => do
    let chain_id ← .ready (.of_except node.chain_id)
    let max_block_weight ← .ready (.of_except node.max_block_weight)
    let ratio ← .ready (native_to_evm_ratio props)
    return ⟨chain_id, max_block_weight, ratio⟩
  | .never => do
    let _ ← .ready (.of_except node.chain_id)
    let _ ← .ready (.of_except node.max_block_weight)
    .pending

/-- `ClientInner::from_url`. -/
def ClientInner.from_url (node : Node) : Awaited ClientInner := do
  let _ ← .of_reply node.rpc_client
  let _ ← .of_reply node.api
  node.try_join

/-! ## The tasks -/

inductive TaskId where
  | from_url
  | subscribe_blocks
  | subscribe_reconnect
  deriving DecidableEq, Inhabited

instance : Fintype TaskId where
  elems := {.from_url, .subscribe_blocks, .subscribe_reconnect}
  complete t := by cases t <;> simp

/-- Where `Client::from_url` is. -/
inductive FromUrl where
  | connecting
  /-- At `updates.changed()`. -/
  | changed
  | returned (r : Except ClientError Unit)
  | panicked

/-- Where `Client::subscribe_blocks` is. From `receipt_infos` to `release` it
    holds the write guard. -/
inductive SubscribeBlocks where
  | unspawned
  | subscribe_finalized
  | next
  | write (b : SubstrateBlock) (receipt_infos : Reply Unit)
  | receipt_infos (b : SubstrateBlock) (receipt_infos : Reply Unit)
  | prune (b : SubstrateBlock)
  | push_back (b : SubstrateBlock)
  | send_replace
  | release
  | returned (r : Except ClientError Unit)

/-- The watch channel of the updates, as its receiver sees it. -/
structure Watch where
  unseen : Bool
  /-- The sender is dropped. -/
  closed : Bool

/-- The state of the client. `items` counts the items of the stream that are
    dealt with. -/
structure State (N : Nat) where
  cache : BlockCache N
  from_url : FromUrl
  subscribe_blocks : SubscribeBlocks
  items : Nat
  updates : Watch

namespace State

variable {N : Nat}

def init : State N where
  cache := .default
  from_url := .connecting
  subscribe_blocks := .unspawned
  items := 0
  updates := ⟨false, false⟩

/-- The write guard is not taken, so that the cache can be read. -/
def Readable (s : State N) : Prop :=
  match s.subscribe_blocks with
  | .receipt_infos _ _ | .prune _ | .push_back _ | .send_replace | .release => False
  | _ => True

/-- The subscription returns: its sender is dropped, and its guard. -/
def subscription_returns (s : State N) (r : Except ClientError Unit) : State N :=
  { s with
    subscribe_blocks := .returned r
    updates := { s.updates with closed := true } }

/-- A step of `Client::from_url`. -/
def step_from_url (node : Node) (s : State N) : State N :=
  match s.from_url with
  | .connecting =>
    match ClientInner.from_url node with
    | .ready (.ok _) => { s with from_url := .changed, subscribe_blocks := .subscribe_finalized }
    | .ready (.err e) => { s with from_url := .returned (.error e) }
    | .ready .panic => { s with from_url := .panicked }
    | .pending => s
  | .changed =>
    -- an update that was not seen is reported even if the sender is gone
    if s.updates.unseen then
      { s with from_url := .returned (.ok ()), updates := { s.updates with unseen := false } }
    else if s.updates.closed then { s with from_url := .panicked }
    else s
  | .returned _ => s
  | .panicked => s

/-- A step of `Client::subscribe_blocks`. -/
def step_subscribe_blocks (node : Node) (s : State N) : State N :=
  match s.subscribe_blocks with
  | .unspawned => s
  | .subscribe_finalized =>
    match node.subscribe_finalized with
    | some (.ok ()) => { s with subscribe_blocks := .next }
    | some (.error e) => s.subscription_returns (.error e)
    | none => s
  | .next =>
    match node.next s.items with
    | .block b receipt_infos => { s with subscribe_blocks := .write b receipt_infos }
    | .disconnected_will_reconnect => { s with items := s.items + 1 }
    | .error e => s.subscription_returns (.error e)
    | .ended => s.subscription_returns (.ok ())
    | .pending => s
  | .write b receipt_infos => { s with subscribe_blocks := .receipt_infos b receipt_infos }
  | .receipt_infos b receipt_infos =>
    match receipt_infos with
    | some (.ok ()) => { s with cache := s.cache.add_receipts b, subscribe_blocks := .prune b }
    | some (.error e) => s.subscription_returns (.error e)
    | none => s
  | .prune b => { s with cache := s.cache.prune, subscribe_blocks := .push_back b }
  | .push_back b => { s with cache := s.cache.push_back b, subscribe_blocks := .send_replace }
  | .send_replace =>
    { s with
      subscribe_blocks := .release
      items := s.items + 1
      updates := { s.updates with unseen := true } }
  | .release => { s with subscribe_blocks := .next }
  | .returned _ => s

/-- A step of a task. `subscribe_reconnect` only writes to the log. -/
def step (node : Node) : TaskId → State N → State N
  | .from_url, s => s.step_from_url node
  | .subscribe_blocks, s => s.step_subscribe_blocks node
  | .subscribe_reconnect, s => s

end State

/-- The state after `n` turns. -/
def run (N : Nat) (node : Node) (σ : Nat → TaskId) (n : Nat) : State N :=
  Schedule.run (State.step node) State.init σ n

/-! ## What the cache holds -/

section safety
variable {N : Nat} {node : Node} {s : State N}

/-- The blocks taken in among the first items of the stream. -/
def Node.taken (node : Node) : Nat → List SubstrateBlock
  | 0 => []
  | n + 1 =>
    match node.next n with
    | .block b (some (.ok ())) => node.taken n ++ [b]
    | _ => node.taken n

/-- The cache these blocks leave. -/
def Node.cache_after (node : Node) (N n : Nat) : BlockCache N :=
  (node.taken n).foldl BlockCache.on_block .default

theorem cache_after_succ {n : Nat} {b : SubstrateBlock}
    (h : node.next n = .block b (some (.ok ()))) :
    node.cache_after N (n + 1) = (node.cache_after N n).on_block b := by
  simp only [Node.cache_after, Node.taken, h, List.foldl_append, List.foldl_cons, List.foldl_nil]

theorem taken_succ_of_disconnected {n : Nat} (h : node.next n = .disconnected_will_reconnect) :
    node.taken (n + 1) = node.taken n := by
  simp only [Node.taken, h]

/-- A delivery leaves a block in the queue, for every capacity. -/
theorem buffer_cache_after_ne_nil {n : Nat} (h : node.taken n ≠ []) :
    (node.cache_after N n).buffer ≠ [] := by
  rcases List.eq_nil_or_concat (node.taken n) with hnil | ⟨bs, b, hcons⟩
  · exact absurd hnil h
  · rw [Node.cache_after, hcons, List.concat_eq_append, List.foldl_append]
    exact List.append_ne_nil_of_right_ne_nil _ (List.cons_ne_nil b [])

/-- What the cache holds, at each place of the subscription: between
    deliveries the blocks taken in, and in one, what is done of `on_block`. -/
def Holds (node : Node) (s : State N) : Prop :=
  match s.subscribe_blocks with
  | .unspawned | .subscribe_finalized | .next | .release | .returned _ =>
    s.cache = node.cache_after N s.items
  | .write b r | .receipt_infos b r =>
    node.next s.items = .block b r ∧ s.cache = node.cache_after N s.items
  | .prune b =>
    node.next s.items = .block b (some (.ok ())) ∧
      s.cache = (node.cache_after N s.items).add_receipts b
  | .push_back b =>
    node.next s.items = .block b (some (.ok ())) ∧
      s.cache = ((node.cache_after N s.items).add_receipts b).prune
  | .send_replace =>
    ∃ b, node.next s.items = .block b (some (.ok ())) ∧
      s.cache = (node.cache_after N s.items).on_block b

/-- The invariant: the cache, and that an update, seen or not, stands for a
    block that was taken in. -/
structure Inv (node : Node) (s : State N) : Prop where
  connecting : s.from_url = .connecting → s.subscribe_blocks = .unspawned
  holds : Holds node s
  updated : s.updates.unseen = true ∨ s.from_url = .returned (.ok ()) → node.taken s.items ≠ []

theorem inv_init : Inv node (State.init : State N) where
  connecting := fun _ => rfl
  holds := rfl
  updated := by simp [State.init]

/-- `from_url` leaves the cache alone, and returns only with an update. -/
theorem Inv.step_from_url (h : Inv node s) : Inv node (s.step_from_url node) := by
  unfold State.step_from_url
  cases hfrom : s.from_url with
  | connecting =>
    have htask := h.connecting hfrom
    have hcache : s.cache = node.cache_after N s.items := by
      have := h.holds
      rwa [Holds, htask] at this
    rcases hinner : ClientInner.from_url node with (inner | e | _) | _
    · exact ⟨by simp, hcache, by simpa using fun hseen => h.updated (Or.inl hseen)⟩
    · exact ⟨by simp, h.holds, by simpa using fun hseen => h.updated (Or.inl hseen)⟩
    · exact ⟨by simp, h.holds, by simpa using fun hseen => h.updated (Or.inl hseen)⟩
    · exact h
  | changed =>
    simp only
    by_cases hunseen : s.updates.unseen = true
    · rw [if_pos hunseen]
      exact ⟨by simp, h.holds, fun _ => h.updated (Or.inl hunseen)⟩
    · rw [if_neg hunseen]
      by_cases hclosed : s.updates.closed = true
      · rw [if_pos hclosed]
        exact ⟨by simp, h.holds, by simpa using fun hseen => h.updated (Or.inl hseen)⟩
      · rw [if_neg hclosed]
        exact h
  | returned r => exact h
  | panicked => exact h

/-- Once the subscription is spawned, `from_url` has connected. -/
theorem Inv.busy (h : Inv node s) (hspawned : s.subscribe_blocks ≠ .unspawned)
    {t : SubscribeBlocks} (hfrom : s.from_url = .connecting) : t = .unspawned :=
  absurd (h.connecting hfrom) hspawned

/-- A failure leaves the cache as it is, and signals no update. -/
theorem Inv.subscription_returns {r : Except ClientError Unit} (h : Inv node s)
    (hspawned : s.subscribe_blocks ≠ .unspawned) (hcache : s.cache = node.cache_after N s.items) :
    Inv node (s.subscription_returns r) where
  connecting := h.busy hspawned
  holds := hcache
  updated := h.updated

/-- The blocks of more items. -/
theorem taken_succ_ne_nil {n : Nat} (h : node.taken n ≠ []) : node.taken (n + 1) ≠ [] := by
  unfold Node.taken
  split
  · exact List.append_ne_nil_of_left_ne_nil h _
  · exact h

/-- **A step of the subscription**: each part of a delivery is done to what
    the parts before it left. -/
theorem Inv.step_subscribe_blocks (h : Inv node s) : Inv node (s.step_subscribe_blocks node) := by
  have hholds := h.holds
  unfold State.step_subscribe_blocks
  cases htask : s.subscribe_blocks with
  | unspawned => exact h
  | subscribe_finalized =>
    rw [Holds, htask] at hholds
    rcases hsub : node.subscribe_finalized with _ | (e | _)
    · exact h
    · exact h.subscription_returns (by simp [htask]) hholds
    · exact ⟨h.busy (by simp [htask]), hholds, h.updated⟩
  | next =>
    rw [Holds, htask] at hholds
    cases hnext : node.next s.items with
    | block b r =>
      exact ⟨h.busy (by simp [htask]), ⟨hnext, hholds⟩, h.updated⟩
    | disconnected_will_reconnect =>
      refine ⟨h.busy (by simp [htask]), ?_,
        fun hseen => taken_succ_ne_nil (h.updated hseen)⟩
      simp only [Holds, Node.cache_after, taken_succ_of_disconnected hnext]
      exact hholds
    | error e => exact h.subscription_returns (by simp [htask]) hholds
    | ended => exact h.subscription_returns (by simp [htask]) hholds
    | pending => exact h
  | write b r =>
    rw [Holds, htask] at hholds
    exact ⟨h.busy (by simp [htask]), hholds, h.updated⟩
  | receipt_infos b r =>
    rw [Holds, htask] at hholds
    obtain ⟨hnext, hcache⟩ := hholds
    rcases r with _ | (e | _)
    · exact h
    · exact h.subscription_returns (by simp [htask]) hcache
    · refine ⟨h.busy (by simp [htask]), ⟨hnext, ?_⟩, h.updated⟩
      show s.cache.add_receipts b = _
      rw [hcache]
  | prune b =>
    rw [Holds, htask] at hholds
    refine ⟨h.busy (by simp [htask]), ⟨hholds.1, ?_⟩, h.updated⟩
    show s.cache.prune = _
    rw [hholds.2]
  | push_back b =>
    rw [Holds, htask] at hholds
    refine ⟨h.busy (by simp [htask]), ⟨b, hholds.1, ?_⟩, h.updated⟩
    show s.cache.push_back b = _
    rw [hholds.2]
    rfl
  | send_replace =>
    rw [Holds, htask] at hholds
    obtain ⟨b, hnext, hcache⟩ := hholds
    refine ⟨h.busy (by simp [htask]), ?_, fun _ => ?_⟩
    · exact hcache.trans (cache_after_succ hnext).symm
    · -- the update stands for this block
      show node.taken (s.items + 1) ≠ []
      simp only [Node.taken, hnext]
      exact List.append_ne_nil_of_right_ne_nil _ (List.cons_ne_nil b [])
  | release =>
    rw [Holds, htask] at hholds
    exact ⟨h.busy (by simp [htask]), hholds, h.updated⟩
  | returned r => exact h

theorem Inv.step (t : TaskId) (h : Inv node s) : Inv node (State.step node t s) := by
  cases t with
  | from_url => exact h.step_from_url
  | subscribe_blocks => exact h.step_subscribe_blocks
  | subscribe_reconnect => exact h

/-- The invariant of every run. -/
theorem inv_run (σ : Nat → TaskId) (n : Nat) : Inv node (run N node σ n) :=
  Schedule.invariant inv_init (fun t _ => Inv.step t) n

/-- Where the cache can be read, it holds the blocks taken in. -/
theorem Inv.cache_eq (h : Inv node s) (hread : s.Readable) :
    s.cache = node.cache_after N s.items := by
  have hholds := h.holds
  unfold Holds at hholds
  unfold State.Readable at hread
  cases htask : s.subscribe_blocks with
  | unspawned => simpa only [htask] using hholds
  | subscribe_finalized => simpa only [htask] using hholds
  | next => simpa only [htask] using hholds
  | write b r =>
    rw [htask] at hholds
    exact hholds.2
  | returned r => simpa only [htask] using hholds
  | receipt_infos b r => simp [htask] at hread
  | prune b => simp [htask] at hread
  | push_back b => simp [htask] at hread
  | send_replace => simp [htask] at hread
  | release => simp [htask] at hread

/-- The cache is not empty, and is not told to be. -/
def NotEmpty (c : BlockCache N) : Prop :=
  (∀ answer, ((Client.latest_block (N := N)).run answer c).1 ≠ none) ∧
    ∀ answer, ((Client.block_number (N := N)).run answer c).1 ≠ .error .CacheEmpty

theorem notEmpty_of_buffer {c : BlockCache N} (h : c.buffer ≠ []) : NotEmpty c := by
  obtain ⟨b, hb⟩ := Option.isSome_iff_exists.mp (List.getLast?_isSome.mpr h)
  have hlatest : c.latest_block = some b := hb
  constructor
  · intro answer
    show c.latest_block ≠ none
    rw [hlatest]
    exact Option.some_ne_none b
  · intro answer
    unfold Client.block_number
    simp only [Routine.run_guarded, Routine.run_bind, Routine.run_get, hlatest, Routine.run_pure]
    exact fun heq => by cases heq

end safety

end StartUp

end EthRpc
