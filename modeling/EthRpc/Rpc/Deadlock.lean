import EthRpc.Rpc.Lookups

/-! # Requests and the subscription on one cache lock

    Any number of requests run against the subscription, which waits for a
    write guard with every block it is delivered. The lock is fair: no read
    request overtakes a write request.

    * `system`: all interleavings.
    * `deadlock_of_miss`: `block_by_number` for a number that is not cached
      keeps its guard and asks for a second one. A block delivered in between
      stops the server.
    * `no_deadlock_of_unqueued`: nothing else does.
-/

namespace EthRpc

open RwLock (Config Label)

/-! ## Who takes the lock -/

/-- What a request calls. -/
inductive Request where
  | latest_block
  | receipt (tx_hash : H256)
  | receipt_by_hash_and_index (block_hash : H256) (transaction_index : U256)
  | receipts_count_per_block (block_hash : H256)
  | block_number
  | get_block_hash (block_number : BitVec 32)
  | block_by_hash (hash : H256)
  | block_by_number (block_number : BitVec 32)
  | block_by_number_or_tag (block : BlockNumberOrTag)
  | storage_api («at» : BlockNumberOrTagOrHash)
  | runtime_api («at» : BlockNumberOrTagOrHash)

/-- The subscription, and any number of requests. -/
inductive TaskId (ι : Type) where
  | subscribe_blocks
  | request (i : ι)
  deriving DecidableEq

namespace Client

variable {N : Nat} {ι : Type}

/-- A routine without its result. -/
def discard {α : Type} (op : Op N α) : Op N Unit := op >>= fun _ => pure ()

theorem discard_bracketed {α : Type} {op : Op N α} {g : List Mode} (h : op.Bracketed g g) :
    (discard op).Bracketed g g :=
  h.bind fun _ => Routine.bracketed_pure _

/-- The routine of a request. -/
def serve : Request → Op N Unit
  | .latest_block => discard latest_block
  | .receipt tx_hash => discard (receipt tx_hash)
  | .receipt_by_hash_and_index block_hash transaction_index =>
    discard (receipt_by_hash_and_index block_hash transaction_index)
  | .receipts_count_per_block block_hash => discard (receipts_count_per_block block_hash)
  | .block_number => discard block_number
  | .get_block_hash block_number => discard (get_block_hash block_number)
  | .block_by_hash hash => discard (block_by_hash hash)
  | .block_by_number block_number => discard (block_by_number block_number)
  | .block_by_number_or_tag block => discard (block_by_number_or_tag block)
  | .storage_api «at» => discard (storage_api «at»)
  | .runtime_api «at» => discard (runtime_api «at»)

theorem serve_bracketed (r : Request) : (serve (N := N) r).Bracketed [] [] := by
  have hg : Mode.write ∉ ([] : List Mode) := by simp
  cases r with
  | latest_block => exact discard_bracketed (latest_block_bracketed hg)
  | receipt t => exact discard_bracketed (receipt_bracketed t hg)
  | receipt_by_hash_and_index h i =>
    exact discard_bracketed (receipt_by_hash_and_index_bracketed h i hg)
  | receipts_count_per_block h => exact discard_bracketed (receipts_count_per_block_bracketed h hg)
  | block_number => exact discard_bracketed (block_number_bracketed hg)
  | get_block_hash n => exact discard_bracketed (get_block_hash_bracketed n hg)
  | block_by_hash h => exact discard_bracketed (block_by_hash_bracketed h hg)
  | block_by_number n => exact discard_bracketed (block_by_number_bracketed n hg)
  | block_by_number_or_tag b => exact discard_bracketed (block_by_number_or_tag_bracketed b hg)
  | storage_api «at» => exact discard_bracketed (select_block_bracketed «at» hg)
  | runtime_api «at» => exact discard_bracketed (select_block_bracketed «at» hg)

/-- Requests come in at any time; the subscription is there from the start. -/
def ops : TaskId ι → Op N Unit → Prop
  | .subscribe_blocks, _ => False
  | .request _, t => ∃ r, t = serve r

theorem ops_request (i : ι) (r : Request) : ops (N := N) (.request i) (serve r) := ⟨r, rfl⟩

/-- What runs at the start: the subscription, on a stream of items. -/
def initial (items : List BlockCache.StreamItem) : TaskId ι → Op N Unit
  | .subscribe_blocks => discard (subscribe_blocks items)
  | .request _ => pure ()

theorem ops_bracketed (i : TaskId ι) (t : Op N Unit) (h : ops i t) : t.Bracketed [] [] := by
  cases i with
  | subscribe_blocks => exact absurd h id
  | request i =>
    obtain ⟨r, rfl⟩ := h
    exact serve_bracketed r

theorem initial_bracketed (items : List BlockCache.StreamItem) (i : TaskId ι) :
    (initial (N := N) items i).Bracketed [] [] := by
  cases i with
  | subscribe_blocks => exact discard_bracketed (subscribe_blocks_bracketed items)
  | request i => exact Routine.bracketed_pure _

variable [DecidableEq ι]

/-- All interleavings of the requests and the subscription, from a given
    cache and for given items of the block stream. -/
def system (ι : Type) [DecidableEq ι] (cache : BlockCache N)
    (items : List BlockCache.StreamItem) :
    Lts.System (Config (TaskId ι) (BlockCache N) Query Answer)
      (Label (TaskId ι) (BlockCache N) Query Answer) :=
  RwLock.system ops cache (initial items)

variable {cache : BlockCache N} {items : List BlockCache.StreamItem}
  {c : Config (TaskId ι) (BlockCache N) Query Answer}

theorem wellLocked_of_reachable (h : Lts.Reachable (system ι cache items) c) :
    RwLock.WellLocked c :=
  RwLock.wellLocked_of_reachable (initial_bracketed items) ops_bracketed h

/-! ## Without a second guard behind the subscription -/

/-- **No deadlock.** In every run in which no task that holds a guard asks
    for another behind a waiting write request, no task waits behind a writer
    that waits for it, and as long as something is unfinished, some
    unfinished task can proceed. -/
theorem no_deadlock_of_unqueued
    (h : Lts.Reachable ((system ι cache items).restrict Config.Unqueued) c) :
    (∀ w r, ¬ c.CircularWait w r) ∧
      ∀ i, c.Unfinished i → ∃ j, c.Unfinished j ∧ ∃ l c',
        (l = .request j ∨ l = .run j ∨ l = .grant ∧ ∃ m rest, c.queue = (j, m) :: rest) ∧
          (system ι cache items).step c l c' := by
  have hnone := RwLock.no_circular_wait_of_unqueued (initial_bracketed items) ops_bracketed h
  refine ⟨hnone, ?_⟩
  intro i hi
  exact RwLock.exists_step (wellLocked_of_reachable h.of_restrict) hnone hi

/-- Block `1` is delivered, and behind it a request for block `7` of an empty
    cache: the request holds nothing yet. -/
theorem no_deadlock_of_unqueued_sample :
    let c : Config (TaskId Nat) (BlockCache 10) Query Answer :=
      { data := .default
        routine := Function.update (initial [.block (Sample.block 1) none]) (.request 0)
          (serve (.block_by_number 7))
        guards := fun _ => []
        queue := [(.subscribe_blocks, .write), (.request 0, .read)] }
    (∀ w r, ¬ c.CircularWait w r) ∧ ∃ j, c.Unfinished j ∧ ∃ l c',
      (system Nat .default [.block (Sample.block 1) none]).step c l c' := by
  intro c
  have hinit : Lts.Reachable ((system Nat (BlockCache.default (N := 10))
      [.block (Sample.block 1) none]).restrict Config.Unqueued)
      ⟨.default, initial [.block (Sample.block 1) none], fun _ => [], []⟩ := .init rfl
  have hstart : Lts.Reachable _ { c with queue := [] } :=
    hinit.step (Label.start (.request 0) (serve (.block_by_number 7)))
      ⟨trivial, rfl, ops_request 0 _, rfl⟩
  have hwrite : Lts.Reachable _ { c with queue := [(.subscribe_blocks, .write)] } :=
    hstart.step (Label.request .subscribe_blocks)
      ⟨Or.inl rfl, .write, _, rfl, by simp [Config.Waiting], rfl⟩
  have hread : Lts.Reachable _ c :=
    hwrite.step (Label.request (.request 0)) ⟨Or.inl rfl, .read, _, rfl, by simp [Config.Waiting], rfl⟩
  obtain ⟨hnone, hprogress⟩ := no_deadlock_of_unqueued hread
  obtain ⟨j, hj, l, c', -, hl⟩ := hprogress (.request 0) (by simp [c, Config.Unfinished]; nofun)
  exact ⟨hnone, j, hj, l, c', hl⟩

/-- **The condition is exact**: the first step of a run that violates it
    makes a circular wait, whatever comes after. -/
theorem deadlock_of_not_unqueued {c' c'' : Config (TaskId ι) (BlockCache N) Query Answer}
    {l : Label (TaskId ι) (BlockCache N) Query Answer}
    {ls : List (Label (TaskId ι) (BlockCache N) Query Answer)}
    (h : Lts.Reachable ((system ι cache items).restrict Config.Unqueued) c)
    (hl : (system ι cache items).step c l c') (hun : ¬ c.Unqueued l)
    (hsteps : Lts.Steps (system ι cache items) c' ls c'') : ∃ w r, c''.CircularWait w r := by
  have hwell := wellLocked_of_reachable h.of_restrict
  have hwell' := hwell.of_step ops_bracketed hl
  obtain ⟨w, r, hcirc⟩ := (RwLock.circular_wait_iff hwell hwell'
    (no_deadlock_of_unqueued h).1 hl).mpr hun
  exact ⟨w, r, hcirc.steps hwell' ops_bracketed hsteps⟩

/-! ## A deadlock -/

/-- A request that does not find its number asks for a second guard while it
    holds the first. -/
theorem serve_block_by_number_of_miss {n : BitVec 32}
    (hmiss : cache.blocks_by_number.lookup n = none) :
    ∃ f, serve (.block_by_number n) = .acquire .read (.look f) ∧
      ∃ k, f cache = .acquire .read k := by
  refine ⟨_, rfl, ?_⟩
  show ∃ k, (((Routine.done cache).bind _).bind _).bind _ = _
  simp only [Routine.bind, hmiss]
  exact ⟨_, rfl⟩

/-- The server after a block was delivered while request `r` held its first
    guard: the subscription waits for that guard, and the request waits
    behind it. -/
def stuck (cache : BlockCache N) (items : List BlockCache.StreamItem) (r : ι)
    (k : Op N Unit) : Config (TaskId ι) (BlockCache N) Query Answer where
  data := cache
  routine := Function.update (initial items) (.request r) (.acquire .read k)
  guards := Function.update (fun _ => []) (.request r) [.read]
  queue := [(.subscribe_blocks, .write), (.request r, .read)]

/-- **A miss in `block_by_number` can stop the server**, whatever is cached:
    it is enough that a block is delivered before the second guard is asked
    for. -/
theorem reachable_stuck (cache : BlockCache N) (items : List BlockCache.StreamItem)
    (b : SubstrateBlock) (receipts_error : Option ClientError) (r : ι) {n : BitVec 32}
    (hmiss : cache.blocks_by_number.lookup n = none) :
    ∃ k, Lts.Reachable (system ι cache (.block b receipts_error :: items))
      (stuck cache (.block b receipts_error :: items) r k) := by
  obtain ⟨f, hserve, k, hf⟩ := serve_block_by_number_of_miss hmiss
  refine ⟨k, ?_⟩
  have hinit : Lts.Reachable (system ι cache (.block b receipts_error :: items))
      ⟨cache, initial (.block b receipts_error :: items), fun _ => [], []⟩ := .init rfl
  have hstart := RwLock.reachable_start hinit (i := .request r) rfl
    (ops_request r (.block_by_number n))
  have hrequest := RwLock.reachable_request hstart (i := .request r) (m := .read) (k := .look f)
    (by simp [hserve]) (by simp [Config.Waiting])
  have hgrant := RwLock.reachable_grant hrequest (i := .request r) (m := .read) (k := .look f)
    rfl (by simp [Config.Free]) (by simp [hserve])
  have hlook := RwLock.reachable_run hgrant (i := .request r)
    (by simpa using RwLock.Local.look cache [.read] f)
  have hwrite := RwLock.reachable_request hlook (i := .subscribe_blocks) (m := .write)
    (by simp [initial]; rfl) (by simp [Config.Waiting])
  have hread := RwLock.reachable_request hwrite (i := .request r) (m := .read) (k := k)
    (by simp [hf]) (by simp [Config.Waiting])
  simpa [stuck, system, hf] using hread

/-- All that is unfinished there waits, and the front of the queue waits for
    the guard of the request. -/
theorem start_of_stuck {r : ι} {k : Op N Unit} {b : SubstrateBlock}
    {receipts_error : Option ClientError} {l : Label (TaskId ι) (BlockCache N) Query Answer}
    (hreach : Lts.Reachable (system ι cache (.block b receipts_error :: items))
      (stuck cache (.block b receipts_error :: items) r k))
    (hl : (system ι cache (.block b receipts_error :: items)).step
      (stuck cache (.block b receipts_error :: items) r k) l c) :
    ∃ i t, l = .start i t := by
  refine RwLock.start_of_stuck (wellLocked_of_reachable hreach) ?_ ?_ hl
  · intro i hi
    cases i with
    | subscribe_blocks => exact ⟨.write, by simp [stuck]⟩
    | request i =>
      by_cases hir : i = r
      · subst hir
        exact ⟨.read, by simp [stuck]⟩
      · exact absurd (by simp [stuck, hir, initial]; rfl) hi
  · intro i m rest hq hfree
    cases hq
    have hguard : (stuck cache (.block b receipts_error :: items) r k).guards (.request r) =
        [.read] := by simp [stuck]
    rw [hfree (.request r)] at hguard
    cases hguard

/-- A request for block `7` of an empty cache, and the delivery of block `1`:
    the request waits behind the subscription, which waits for the request,
    in this state and in every later one, and neither has a step to take. -/
theorem deadlock_sample :
    ∃ c, Lts.Reachable (system Nat (BlockCache.default (N := 10)) [.block (Sample.block 1) none]) c ∧
      c.Unfinished .subscribe_blocks ∧ c.Unfinished (.request 0) ∧
      (∀ l c', (system Nat (BlockCache.default (N := 10)) [.block (Sample.block 1) none]).step c l c' →
        ∃ i t, l = .start i t) ∧
      ∀ ls c', Lts.Steps (system Nat (BlockCache.default (N := 10)) [.block (Sample.block 1) none])
        c ls c' → c'.CircularWait .subscribe_blocks (.request 0) := by
  obtain ⟨k, hreach⟩ := reachable_stuck (BlockCache.default (N := 10)) [] (Sample.block 1) none 0
    (n := 7) (Finmap.lookup_empty _)
  have hwell := wellLocked_of_reachable hreach
  have hcirc : (stuck (BlockCache.default (N := 10)) [.block (Sample.block 1) none] 0 k).CircularWait
      .subscribe_blocks (.request 0) := by
    refine ⟨⟨.read, ?_⟩, ?_⟩
    · simp [stuck]
    · simp [stuck]
  obtain ⟨m, hm⟩ := hcirc.waiting.2
  refine ⟨_, hreach, ?_, ?_, ?_, ?_⟩
  · obtain ⟨k', hk'⟩ := hwell.waiting _ _ hcirc.waiting.1
    unfold Config.Unfinished
    rw [hk']
    simp
  · exact hwell.unfinished (List.ne_nil_of_mem hcirc.2)
  · exact fun l c' hl => start_of_stuck hreach hl
  · exact fun ls c' hsteps => hcirc.steps hwell ops_bracketed hsteps

end Client

end EthRpc
