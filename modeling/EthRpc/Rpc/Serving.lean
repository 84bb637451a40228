import EthRpc.Rpc.Handlers
import EthRpc.Rpc.Transparency

/-! # Serving requests while blocks are imported

    Any number of requests are served against the subscription. Between the
    sections of a handler a block may be imported, and another one dropped.

    * `cache_of_reachable`: the cache is at all times what the loop over the
      stream makes of the items so far.
    * `answered_between`: every answer is put together from operations that
      each saw the cache of one moment between the request and the answer.
    * `told_of_chain`: an answer about the block of some number or hash is
      about the block that has it on the chain.
-/

namespace EthRpc

open RwLock (Config Label)

section answers
variable {N : Nat} (allowed : Allowed) (header : SubstrateBlock → Header)
  (S : Set (BlockCache N))

/-! ## Answers -/

/-- What an operation may return on a cache of `S`. -/
def Returned {α : Type} (op : Op N α) (a : α) : Prop :=
  ∃ c ∈ S, (call op : ServerOp N allowed α).Returns c a

/-- What may be made of a block: the runtime refuses to answer, or there is a
    fee and a time that it answers. -/
def EvmBlock (block : SubstrateBlock) (served : Except ClientError RpcTypes.Block) : Prop :=
  (∃ e, served = .error e) ∨
    ∃ max_fee now, served = .ok (to_evm_block (header block) block max_fee now)

/-- A block that was looked up, and what is served of it. -/
def ServedBlock (found : Except ClientError (Option SubstrateBlock))
    (answer : Except ClientError (Option RpcTypes.Block)) : Prop :=
  match found with
  | .error e => answer = .error e
  | .ok none => answer = .ok none
  | .ok (some block) => ∃ served, EvmBlock header block served ∧ answer = served.map some

def ServedCount (block_hash : H256) (answer : Except ClientError (Option U256)) : Prop :=
  ∃ c ∈ S, answer =
    .ok ((c.receipt_hashes_by_block_and_index.lookup block_hash).map
      fun v => BitVec.ofNat 256 v.keys.card)

def ServedTransaction (block_hash : H256) (transaction_index : U256)
    (answer : Except ClientError (Option RpcTypes.TransactionInfo)) : Prop :=
  ∃ c ∈ S, answer =
    .ok ((c.receipt_by_hash_and_index block_hash transaction_index).map .from_receipt)

/-- What may be answered to a request, if each operation that is called sees
    one cache of `S`. -/
def Answered : (r : ServerRequest) → r.Answer → Prop
  | .block_number, answer =>
    ∃ number, Returned allowed S Client.block_number number ∧
      answer = number.map (BitVec.setWidth 256)
  | .get_transaction_receipt transaction_hash, answer =>
    ∃ c ∈ S, answer = .ok (c.receipt transaction_hash)
  | .get_transaction_by_hash transaction_hash, answer =>
    ∃ c ∈ S, answer = .ok ((c.receipt transaction_hash).map .from_receipt)
  | .get_transaction_by_block_hash_and_index block_hash transaction_index, answer =>
    ServedTransaction S block_hash transaction_index answer
  | .get_transaction_by_block_number_and_index block transaction_index, answer =>
    ∃ found, Returned allowed S (Client.block_by_number_or_tag block) found ∧
      match found with
      | .error e => answer = .error e
      | .ok none => answer = .ok none
      | .ok (some block) => ServedTransaction S block.hash transaction_index answer
  | .get_block_transaction_count_by_hash (some block_hash), answer =>
    ServedCount S block_hash answer
  | .get_block_transaction_count_by_hash none, answer =>
    ∃ found, Returned allowed S Client.latest_block found ∧
      match found with
      | none => answer = .error .BlockNotFound
      | some block => ServedCount S block.hash answer
  | .get_block_transaction_count_by_number block, answer =>
    ∃ found, Returned allowed S (Client.block_by_number_or_tag (block.getD (.BlockTag .Latest)))
        found ∧ ∃ served, ServedBlock header found served ∧
      match served with
      | .error e => answer = .error e
      | .ok none => answer = .ok none
      | .ok (some block) => ServedCount S block.hash answer
  | .get_block_by_hash block_hash, answer =>
    ∃ found, Returned allowed S (Client.block_by_hash block_hash) found ∧
      ServedBlock header found answer
  | .get_block_by_number block, answer =>
    ∃ found, Returned allowed S (Client.block_by_number_or_tag block) found ∧
      ServedBlock header found answer

end answers

/-! ## What a handler answers -/

section handlers
variable {N : Nat} {allowed : Allowed} {header : SubstrateBlock → Header}
  {S : Set (BlockCache N)} {good : ∀ r : ServerRequest, r.Answer → Prop} {s : BlockCache N}
  {α β : Type} {post : β → Prop}

/-- If an answer is sent, then a good one. -/
def Answers (good : ∀ r : ServerRequest, r.Answer → Prop) : Query ⊕ ServerQuery → Prop
  | .inr (.respond r answer) => good r answer
  | _ => True

/-- **After a call** the handler goes on with what the operation returned. -/
theorem call_ensures {op : Op N α} (h : Client.ReadSection op) (hs : s ∈ S)
    {f : α → ServerOp N allowed β}
    (hf : ∀ a, Returned allowed S op a → ∀ s ∈ S, (f a).Ensures S (Answers good) post [] s) :
    (call op >>= f).Ensures S (Answers good) post [] s := by
  have hasks : (call op : ServerOp N allowed α).Asks (Answers good) :=
    Routine.asks_rename (fun _ => trivial) op
  exact .bind (h.atomic.rename.ensures hasks hs fun c hc a ha => hf a ⟨c, hc, ha⟩)
    (call_reader h).bracketed hs

section blocks
variable {block : SubstrateBlock} {found : Except ClientError (Option SubstrateBlock)}

theorem evm_block_ensures {post : Except ClientError RpcTypes.Block → Prop}
    (h : ∀ served, EvmBlock header block served → post served) :
    (evm_block header block : ServerOp N allowed _).Ensures S (Answers good) post [] s := by
  refine ⟨trivial, fun max_fee => ?_⟩
  match (max_fee : Except ClientError Balance) with
  | .error e => exact h _ (Or.inl ⟨e, rfl⟩)
  | .ok max_fee => exact ⟨trivial, fun now => h _ (Or.inr ⟨max_fee, now, rfl⟩)⟩

theorem serve_block_ensures {post : Except ClientError (Option RpcTypes.Block) → Prop} (hs : s ∈ S)
    (h : ∀ answer, ServedBlock header found answer → post answer) :
    (serve_block header found : ServerOp N allowed _).Ensures S (Answers good) post [] s := by
  match found with
  | .error e => exact h _ rfl
  | .ok none => exact h _ rfl
  | .ok (some block) =>
    refine .bind (evm_block_ensures fun served hserved => ?_) evm_block_reader.bracketed hs
    exact fun s _ => h _ ⟨served, hserved, rfl⟩

end blocks

theorem serve_count_ensures {post : Except ClientError (Option U256) → Prop} (hs : s ∈ S)
    (block_hash : H256) (h : ∀ answer, ServedCount S block_hash answer → post answer) :
    (serve_count block_hash : ServerOp N allowed _).Ensures S (Answers good) post [] s := by
  refine call_ensures (Client.receipts_count_per_block_section block_hash) hs ?_
  rintro count ⟨c, hc, rfl⟩ s -
  refine h _ ⟨c, hc, ?_⟩
  rw [Option.map_map]
  rfl

theorem serve_transaction_ensures
    {post : Except ClientError (Option RpcTypes.TransactionInfo) → Prop} (hs : s ∈ S)
    (block_hash : H256) (transaction_index : U256)
    (h : ∀ answer, ServedTransaction S block_hash transaction_index answer → post answer) :
    (serve_transaction block_hash transaction_index : ServerOp N allowed _).Ensures S (Answers good)
      post [] s := by
  refine call_ensures (Client.receipt_by_hash_and_index_section block_hash transaction_index) hs ?_
  rintro receipt ⟨c, hc, rfl⟩ s -
  exact h _ ⟨c, hc, rfl⟩

/-- **Every handler** answers what is put together from sections. -/
theorem handle_ensures (hs : s ∈ S) (r : ServerRequest) :
    (handle header r : ServerOp N allowed _).Ensures S (Answers good)
      (Answered allowed header S r) [] s := by
  cases r with
  | block_number =>
    refine call_ensures Client.block_number_section hs ?_
    intro number hnumber s _
    exact ⟨number, hnumber, rfl⟩
  | get_transaction_receipt t =>
    refine call_ensures (Client.receipt_section t) hs ?_
    rintro receipt ⟨c, hc, rfl⟩ s -
    exact ⟨c, hc, rfl⟩
  | get_transaction_by_hash t =>
    refine call_ensures (Client.receipt_section t) hs ?_
    rintro receipt ⟨c, hc, rfl⟩ s -
    exact ⟨c, hc, rfl⟩
  | get_transaction_by_block_hash_and_index h i =>
    exact serve_transaction_ensures hs h i fun _ ha => ha
  | get_transaction_by_block_number_and_index b i =>
    refine call_ensures (Client.block_by_number_or_tag_section b) hs ?_
    intro found hfound s hs
    match found, hfound with
    | .error e, hfound => exact ⟨_, hfound, rfl⟩
    | .ok none, hfound => exact ⟨_, hfound, rfl⟩
    | .ok (some block), hfound =>
      exact serve_transaction_ensures hs block.hash i fun answer ha => ⟨_, hfound, ha⟩
  | get_block_transaction_count_by_hash block_hash =>
    cases block_hash with
    | some h => exact serve_count_ensures hs h fun _ ha => ha
    | none =>
      refine call_ensures Client.latest_block_section hs ?_
      intro found hfound s hs
      cases found with
      | none => exact ⟨none, hfound, rfl⟩
      | some block =>
        exact serve_count_ensures hs block.hash fun answer ha => ⟨some block, hfound, ha⟩
  | get_block_transaction_count_by_number b =>
    refine call_ensures (Client.block_by_number_or_tag_section _) hs ?_
    intro found hfound s hs
    refine .bind (serve_block_ensures hs fun served hserved => ?_) serve_block_reader.bracketed hs
    intro s hs
    match served, hserved with
    | .error e, hserved => exact ⟨found, hfound, _, hserved, rfl⟩
    | .ok none, hserved => exact ⟨found, hfound, _, hserved, rfl⟩
    | .ok (some block), hserved =>
      exact serve_count_ensures hs block.hash fun answer ha => ⟨found, hfound, _, hserved, ha⟩
  | get_block_by_hash h =>
    refine call_ensures (Client.block_by_hash_section h) hs ?_
    intro found hfound s hs
    exact serve_block_ensures hs fun answer ha => ⟨found, hfound, ha⟩
  | get_block_by_number b =>
    refine call_ensures (Client.block_by_number_or_tag_section b) hs ?_
    intro found hfound s hs
    exact serve_block_ensures hs fun answer ha => ⟨found, hfound, ha⟩

/-- The answer that is sent is the one that was put together. -/
theorem respond_ensures (hs : s ∈ S) (r : ServerRequest)
    (hr : ∀ answer, Answered allowed header S r answer → good r answer) :
    (respond header r : ServerOp N allowed Unit).Ensures S (Answers good) (fun _ => True) [] s := by
  refine .bind ((handle_ensures hs r).mono fun answer hanswer s _ => ?_)
    (handle_reader r).bracketed hs
  exact ⟨hr answer hanswer, fun _ => trivial⟩

end handlers

/-! ## The server -/

namespace EthRpcServer

section system
variable {N : Nat} {ι : Type} {allowed : Allowed} (header : SubstrateBlock → Header)

/-- Requests come in at any time, and any other use of the client. -/
def ops : TaskId ι → ServerOp N allowed Unit → Prop
  | .subscribe_blocks, _ => False
  | .request _, t => (∃ r, t = respond header r) ∨ ∃ r, t = call (Client.serve r)

/-- What runs at the start: the subscription. -/
def initial (items : List BlockCache.StreamItem) : TaskId ι → ServerOp N allowed Unit
  | .subscribe_blocks => call (Client.discard (Client.subscribe_blocks items))
  | .request _ => pure ()

variable (ι allowed) [DecidableEq ι]

/-- All interleavings of the requests and the subscription. -/
def system (cache : BlockCache N) (items : List BlockCache.StreamItem) :
    Lts.System (Config (TaskId ι) (BlockCache N) (Query ⊕ ServerQuery) (Replies allowed))
      (Label (TaskId ι) (BlockCache N) (Query ⊕ ServerQuery) (Replies allowed)) :=
  RwLock.system (ops header) cache (initial items)

end system

section steps
variable {N : Nat} {ι : Type} {allowed : Allowed} {header : SubstrateBlock → Header}
  {items : List BlockCache.StreamItem} {i : TaskId ι} {t : ServerOp N allowed Unit}

theorem ops_reader (h : ops header i t) : t.Reader := by
  cases i with
  | subscribe_blocks => exact h.elim
  | request i =>
    rcases h with ⟨r, rfl⟩ | ⟨r, rfl⟩
    · exact respond_reader r
    · exact (Client.serve_reader r).rename

theorem ops_bracketed (i : TaskId ι) (t : ServerOp N allowed Unit) (h : ops header i t) :
    t.Bracketed [] [] :=
  (ops_reader h).bracketed

theorem ops_writesGuarded (i : TaskId ι) (t : ServerOp N allowed Unit) (h : ops header i t) :
    t.WritesGuarded [] :=
  (ops_reader h).read_only.writesGuarded []

/-- The subscription changes the cache under its write guards only. -/
theorem subscribe_blocks_writesGuarded (items : List BlockCache.StreamItem) :
    (Client.subscribe_blocks (N := N) items).WritesGuarded [] := by
  -- by the recursion of `subscribe_blocks`
  induction items with
  | nil => trivial
  | cons item items ih =>
    cases item with
    | block b receipts_error =>
      intro _
      cases receipts_error with
      | some e => trivial
      | none => exact ⟨List.mem_cons_self, ih⟩
    | disconnected_will_reconnect => exact ih
    | error e => trivial

theorem initial_bracketed (i : TaskId ι) :
    (initial items i : ServerOp N allowed Unit).Bracketed [] [] := by
  cases i with
  | subscribe_blocks =>
    exact (Client.discard_bracketed (Client.subscribe_blocks_bracketed items)).rename
  | request i => exact Routine.bracketed_pure _

theorem initial_writesGuarded (i : TaskId ι) :
    (initial items i : ServerOp N allowed Unit).WritesGuarded [] := by
  cases i with
  | subscribe_blocks =>
    have hdiscard : (Client.discard (Client.subscribe_blocks (N := N) items)).WritesGuarded [] :=
      (subscribe_blocks_writesGuarded items).bind (Client.subscribe_blocks_bracketed items)
        fun _ => trivial
    exact hdiscard.rename
  | request i => trivial

/-! ## The cache -/

/-- The data that the subscription makes by itself are those of the loop. -/
theorem subscribe_blocks_passes {I : BlockCache N → Prop} {cache : BlockCache N}
    (h : ∀ before, before <+: items → I (BlockCache.subscribe_blocks cache before).1) :
    RwLock.Passes I (fun _ s => I s) (Client.subscribe_blocks items) cache := by
  induction items generalizing cache with
  | nil =>
    have hlast : I cache := h [] List.prefix_rfl
    exact ⟨hlast, hlast⟩
  | cons item items ih =>
    have hfirst : I cache := h [] (List.nil_prefix)
    have hrest (before : List BlockCache.StreamItem) (hb : before <+: items) :
        I (BlockCache.subscribe_blocks cache (item :: before)).1 :=
      h _ (List.cons_prefix_cons.mpr ⟨rfl, hb⟩)
    cases item with
    | block b receipts_error =>
      refine ⟨hfirst, fun _ => ?_⟩
      cases receipts_error with
      | some e => exact ⟨hfirst, hfirst⟩
      | none => exact ⟨hfirst, ih hrest⟩
    | disconnected_will_reconnect => exact ih hrest
    | error e => exact ⟨hfirst, hfirst⟩

variable [DecidableEq ι] {cache : BlockCache N}
  {c c₁ c' : Config (TaskId ι) (BlockCache N) (Query ⊕ ServerQuery) (Replies allowed)}

/-- **The cache while requests are served.** At all times it is what the loop
    over the stream makes of the items so far. -/
theorem cache_of_reachable (h : Lts.Reachable (system ι allowed header cache items) c) :
    ∃ before, before <+: items ∧ c.data = (BlockCache.subscribe_blocks cache before).1 := by
  let I (s : BlockCache N) : Prop :=
    ∃ before, before <+: items ∧ s = (BlockCache.subscribe_blocks cache before).1
  refine RwLock.passes_of_reachable (w := .subscribe_blocks) (I := I) ?_ ?_ (fun _ => id)
    (fun _ _ ht => (ops_reader ht).read_only) h
  · have hpasses : RwLock.Passes I (fun _ s => I s) (Client.subscribe_blocks items) cache :=
      subscribe_blocks_passes fun before hb => ⟨before, hb, rfl⟩
    exact .rename (.bind (hpasses.mono fun _ s hs => ⟨hs, trivial⟩))
  · intro i hi
    cases i with
    | subscribe_blocks => exact absurd rfl hi
    | request i => trivial

/-! ## Answers in a run -/

/-- The caches there are while steps are taken. -/
def seen (allowed : Allowed) (header : SubstrateBlock → Header) (cache : BlockCache N)
    (items : List BlockCache.StreamItem)
    (c : Config (TaskId ι) (BlockCache N) (Query ⊕ ServerQuery) (Replies allowed))
    (ls : List (Label (TaskId ι) (BlockCache N) (Query ⊕ ServerQuery) (Replies allowed)))
    (c' : Config (TaskId ι) (BlockCache N) (Query ⊕ ServerQuery) (Replies allowed)) :
    Set (BlockCache N) :=
  {s | ∃ x, RwLock.Between (ops header) cache (initial items) c ls c' x ∧ x.data = s}

/-- **Answers.** However the requests and the subscription take turns, a
    request is answered with what its operations return, each on a cache there
    was between the request and the answer. -/
theorem answered_between {i : ι} {r r' : ServerRequest} {answer : r'.Answer}
    {k : Unit → ServerOp N allowed Unit}
    {ls : List (Label (TaskId ι) (BlockCache N) (Query ⊕ ServerQuery) (Replies allowed))}
    (h : Lts.Reachable (system ι allowed header cache items) c)
    (hstart : (system ι allowed header cache items).step c
      (.start (.request i) (respond header r)) c₁)
    (hsteps : Lts.Steps (system ι allowed header cache items) c₁ ls c')
    (hother : ∀ t, .start (.request i) t ∉ ls)
    (hask : c'.routine (.request i) = .ask (.inr (.respond r' answer)) k) :
    r' = r ∧ Answered allowed header (seen allowed header cache items c₁ ls c') r' answer := by
  have hwell : RwLock.WellLocked c :=
    RwLock.wellLocked_of_reachable initial_bracketed ops_bracketed h
  have hguards : c.guards (.request i) = [] := by
    have hb := hwell.bracketed (.request i)
    rw [hstart.1] at hb
    exact hb
  have hreach := h.step _ hstart
  obtain ⟨-, -, hc₁⟩ := hstart
  have hr : c₁.routine (.request i) = respond header r := by
    rw [hc₁]
    exact Function.update_self ..
  have hg : c₁.guards (.request i) = [] := by
    rw [hc₁]
    exact hguards
  let good (r' : ServerRequest) (answer : r'.Answer) : Prop :=
    r' = r ∧ Answered allowed header (seen allowed header cache items c₁ ls c') r' answer
  have hanswer : Answers good (.inr (.respond r' answer)) := by
    refine RwLock.asked_between initial_bracketed initial_writesGuarded ops_bracketed
      ops_writesGuarded hreach hsteps hother ?_ hask
    rw [hr, hg]
    have hfirst : c₁.data ∈ seen allowed header cache items c₁ ls c' :=
      ⟨c₁, ⟨[], ls, rfl, .nil c₁, hsteps⟩, rfl⟩
    exact respond_ensures hfirst r fun _ hanswer => ⟨rfl, hanswer⟩
  exact hanswer

end steps

/-! ## A sample run -/

def sample_header (_ : SubstrateBlock) : Header where
  parent_hash := List.Vector.replicate 32 1
  state_root := List.Vector.replicate 32 2
  extrinsics_root := List.Vector.replicate 32 3

/-- The number of transactions of the latest block. -/
def sample_request : ServerRequest := .get_block_transaction_count_by_hash none

def sample_items : List BlockCache.StreamItem :=
  [.block (Sample.block 1) none, .block (Sample.block 2) none]

abbrev sample_allowed : Allowed := .only Client.sample_node

def sample_answer : ∀ q, Replies sample_allowed q
  | .inl q => ⟨Client.sample_node q, rfl⟩
  | .inr (.weight_to_fee _) => (.ok 1 : Except ClientError Balance)
  | .inr (.timestamp _) => (none : Option (BitVec 64))
  | .inr (.respond _ _) => ()

/-- The handler of the request, once it knows the latest block. -/
def sample_served (latest : Option SubstrateBlock) : ServerOp 10 sample_allowed Unit := do
  let answer ← (match latest with
    | none => pure (.error .BlockNotFound)
    | some block => serve_count block.hash : ServerOp 10 sample_allowed _)
  (ServerQuery.respond sample_request answer).ask

/-- The subscription, once block `1` is imported. -/
def sample_rest (_ : Except ClientError Unit) : ServerOp 10 sample_allowed Unit :=
  call (Client.discard (Client.subscribe_blocks [.block (Sample.block 2) none]))

abbrev SampleConfig : Type :=
  Config (TaskId Nat) (BlockCache 10) (Query ⊕ ServerQuery) (Replies sample_allowed)

def SampleGoes : SampleConfig → SampleConfig → Prop :=
  RwLock.Goes (ops sample_header) .default (initial sample_items)

theorem sample_import {c : SampleConfig} {f : Except ClientError Unit → ServerOp 10 _ Unit}
    (h : c.Quiet) (n : Nat) (hr : c.routine .subscribe_blocks =
      call (Client.subscribe_blocks [.block (Sample.block n) none]) >>= f) :
    SampleGoes c
      (c.after .subscribe_blocks (c.data.on_block (Sample.block n)) [] (f (.ok ()))) :=
  RwLock.goes_quiet sample_answer _ h (Client.subscribe_blocks_bracketed _).rename hr rfl

/-- Block `1` is imported, and the handler finds it. Before the handler counts
    the transactions, block `2` is imported. -/
theorem sample_run :
    let sys := system (N := 10) Nat sample_allowed sample_header .default sample_items
    ∃ c c₁ c' ls, Lts.Reachable sys c ∧
      sys.step c (.start (.request 0) (respond sample_header sample_request)) c₁ ∧
      Lts.Steps sys c₁ ls c' ∧ (∀ t, .start (.request 0) t ∉ ls) ∧
      c₁.data.latest_block = some (Sample.block 1) ∧
      c'.data.latest_block = some (Sample.block 2) ∧
      c'.routine (.request 0) =
        .ask (.inr (.respond sample_request (.ok (some (1 : U256))))) .done := by
  intro sys
  let cache₁ := (BlockCache.default (N := 10)).on_block (Sample.block 1)
  let cache₂ := cache₁.on_block (Sample.block 2)
  let c₀ : SampleConfig :=
    { data := .default, routine := initial sample_items, guards := fun _ => [], queue := [] }
  have hquiet₀ : c₀.Quiet := ⟨rfl, fun _ => rfl⟩
  let c := c₀.after .subscribe_blocks cache₁ [] (sample_rest (.ok ()))
  have hquiet : c.Quiet := hquiet₀.after _ _ _
  have himport : SampleGoes c₀ c := sample_import hquiet₀ 1 rfl
  have hreach : Lts.Reachable sys c := himport.reachable (.init rfl)
  -- the request comes in, and its handler looks for the latest block
  let c₁ : SampleConfig := { c with
    routine := Function.update c.routine (.request 0) (respond sample_header sample_request) }
  have hquiet₁ : c₁.Quiet := ⟨hquiet.queue, hquiet.guards⟩
  let c₂ := c₁.after (.request 0) cache₁ [] (sample_served (some (Sample.block 1)))
  have hquiet₂ : c₂.Quiet := hquiet₁.after _ _ _
  have hlatest : cache₁.latest_block = some (Sample.block 1) := by decide +kernel
  have hfound : SampleGoes c₁ c₂ := by
    refine RwLock.goes_quiet (f := sample_served) sample_answer (call Client.latest_block) hquiet₁
      (call_reader Client.latest_block_section).bracketed rfl ?_
    rw [← hlatest]
    rfl
  -- block `2` is imported
  let c₃ := c₂.after .subscribe_blocks cache₂ [] (pure ())
  have hquiet₃ : c₃.Quiet := hquiet₂.after _ _ _
  have hnext : SampleGoes c₂ c₃ := sample_import (f := fun _ => pure ()) hquiet₂ 2 rfl
  -- the handler counts the transactions of block `1`
  let send (count : Option Nat) : ServerOp 10 sample_allowed Unit :=
    (ServerQuery.respond sample_request (.ok (count.map (BitVec.ofNat 256)))).ask
  let c₄ := c₃.after (.request 0) cache₂ [] (send (some 1))
  have hcount : (cache₂.receipt_hashes_by_block_and_index.lookup (Sample.block 1).hash).map
      (fun v => v.keys.card) = some 1 := by decide +kernel
  have hserved : SampleGoes c₃ c₄ := by
    refine RwLock.goes_quiet (f := send) sample_answer
      (call (Client.receipts_count_per_block (Sample.block 1).hash)) hquiet₃
      (call_reader (Client.receipts_count_per_block_section _)).bracketed rfl ?_
    rw [← hcount]
    rfl
  obtain ⟨ls, hls, hsteps⟩ := hfound.trans (hnext.trans hserved)
  refine ⟨c, c₁, c₄, ls, hreach, ⟨rfl, Or.inl ⟨_, rfl⟩, rfl⟩, hsteps, hls _, hlatest, ?_, rfl⟩
  decide +kernel

theorem cache_of_reachable_sample :
    ∃ c : SampleConfig,
      c.routine (.request 0) =
          .ask (.inr (.respond sample_request (.ok (some (1 : U256))))) .done ∧
        ∃ before, before <+: sample_items ∧
          c.data = (BlockCache.subscribe_blocks .default before).1 := by
  obtain ⟨c, c₁, c', ls, hreach, hstart, hsteps, -, -, -, hask⟩ := sample_run
  exact ⟨c', hask, cache_of_reachable (hsteps.reachable (hreach.step _ hstart))⟩

theorem answered_between_sample :
    ∃ c c' : SampleConfig, c.data.latest_block = some (Sample.block 1) ∧
      c'.data.latest_block = some (Sample.block 2) ∧
      ∃ ls, Answered sample_allowed sample_header
        (seen sample_allowed sample_header .default sample_items c ls c')
        sample_request (.ok (some (1 : U256))) := by
  obtain ⟨c, c₁, c', ls, hreach, hstart, hsteps, hls, hbefore, hafter, hask⟩ := sample_run
  exact ⟨c₁, c', hbefore, hafter, ls, (answered_between hreach hstart hsteps hls hask).2⟩

end EthRpcServer

end EthRpc
