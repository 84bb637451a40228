import EthRpc.Chain.ExtrinsicFormat
import EthRpc.Chain.Replay
import EthRpc.Rpc.Agreement
import EthRpc.Rpc.CacheWindow
import EthRpc.Rpc.ReceiptLookup

/-! # From the chain to the receipts

    The extrinsics that the chain applies are put into blocks, and the client
    takes in one block after the other. It keeps the receipts under the hashes
    of the extrinsics, so two extrinsics with one hash would have one receipt
    between them.

    * `nodup_extrinsics`: the chain applies no extrinsic twice, since with it
      goes the nonce of its signer.
    * `receipts_of_run`: what is found in the cache are the receipts of the
      last `N` blocks, each under the hash and the index of its extrinsic.
    * `receipt_of_sent`: what is found under the hash that was returned for a
      transaction is the receipt of this transaction.

    That no two extrinsics that were applied have one hash is assumed.
-/

namespace EthRpc

/-! ## Blocks of extrinsics -/

/-- The hash of an extrinsic, from its encoding without the length. -/
def extrinsic_hash {Digest : Type} (host : Host Digest) (bytes : Scale.Vec) : H256 :=
  host.blake2_256 (Scale.vec_encode bytes)

/-- A block as it is on the chain, and as the client took it in. -/
structure ImportedBlock {Digest : Type} (host : Host Digest) where
  content : BlockContent
  block : SubstrateBlock
  extracted : Extracted host content block

namespace ImportedBlock

variable {Digest : Type} {host : Host Digest}

/-- The EVM extrinsics that get a receipt. -/
def transactions (b : ImportedBlock host) : List EvmTransaction := b.content.evm_transactions host

/-- The hashes of these extrinsics. -/
def hashes (b : ImportedBlock host) : List H256 :=
  b.transactions.map fun tx => extrinsic_hash host tx.ext.bytes

theorem transaction_hash_mem {b : ImportedBlock host} {r : ReceiptInfo}
    (hr : r ∈ b.block.receipts) : r.transaction_hash ∈ b.hashes := by
  obtain ⟨tx, htx, hof⟩ := BlockContent.exists_of_mem_receipts b.extracted.receipts hr
  rw [hof.transaction_hash]
  exact List.mem_map.mpr ⟨tx, htx, rfl⟩

/-- Where the hashes are distinct, each extrinsic has its own receipt. -/
theorem mem_receipts_iff {b : ImportedBlock host} (hnodup : b.hashes.Nodup) {r : ReceiptInfo} :
    r ∈ b.block.receipts ↔ ∃ tx ∈ b.transactions, tx.receipt host b.content = .ok r := by
  obtain ⟨completed, all, hperm, hall, hreceipts⟩ :=
    BlockContent.receipt_infos_eq_ok b.extracted.receipts
  have hhashes := List.map_eq_of_mapM (fun tx => tx.ext.transaction_hash host)
    ReceiptInfo.transaction_hash hall
    fun tx r hr => (ReceiptInfo.of_receipt hr).transaction_hash.symm
  have hdistinct : (all.map ReceiptInfo.transaction_hash).Nodup := by
    rw [← hhashes]
    exact (hperm.map _).nodup_iff.mpr hnodup
  rw [hreceipts, Map.collect_eq_self hdistinct]
  constructor
  · intro hr
    obtain ⟨tx, htx, hreceipt⟩ := List.exists_of_mapM hall hr
    exact ⟨tx, hperm.mem_iff.mp htx, hreceipt⟩
  · rintro ⟨tx, htx, hreceipt⟩
    obtain ⟨r', hr', hreceipt'⟩ := List.exists_of_mem_mapM hall (hperm.mem_iff.mpr htx)
    rwa [Except.ok.inj (hreceipt.symm.trans hreceipt')]

end ImportedBlock

/-! ## The receipt of what was sent -/

def Extrinsic.as_eth_instantiate (x : Extrinsic) : Option EthInstantiate :=
  match x.function with
  | .ContractsEvm (.eth_instantiate c) => some c
  | _ => none

def Extrinsic.as_eth_call (x : Extrinsic) : Option EthCall :=
  match x.function with
  | .ContractsEvm (.eth_call c) => some c
  | _ => none

section sent
variable {Digest : Type} {host : Host Digest} {b : BlockContent} {t : EvmTransaction}
  {receipt : ReceiptInfo}

/-- What the receipt says about the payload. -/
theorem EvmTransaction.receipt_info (h : t.receipt host b = .ok receipt) :
    receipt.from = t.info.from ∧ receipt.to = t.info.to ∧
      receipt.contract_address = t.info.contract_address ∧
      receipt.effective_gas_price = t.info.gas_price.setWidth 256 := by
  unfold EvmTransaction.receipt at h
  cases hevents : t.ext.events with
  | error e =>
    rw [hevents] at h
    cases h
  | ok events =>
    rw [hevents] at h
    cases hfee : events.find_first Event.as_transaction_fee_paid with
    | error e =>
      simp only [bind, Except.bind, hfee] at h
      cases h
    | ok tx_fees =>
      simp only [bind, Except.bind, hfee] at h
      cases tx_fees with
      | none => cases h
      | some tx_fees =>
        cases h
        exact ⟨rfl, rfl, rfl, rfl⟩

variable {client : Client Digest} {transaction : Bytes} {x : Extrinsic}
  {tx : TransactionLegacySigned} {sender : H160} {sig : List.Vector UInt8 65}
  {limits : DryRunInfo} {c : Pallet.Call}

/-- What the server submits can be written. -/
theorem Submission.fits {era : Scale.Format Era} {other : List UInt8 → Bool}
    (hsub : Submission client transaction x tx sender sig limits c)
    (himmortal : era.fits .Immortal) : x.fits era other := by
  have hextra (nonce : BitVec 32) : (SignedExtra.format era).fits ⟨.Immortal, nonce, 0⟩ = true := by
    show (era.fits .Immortal && (true && true)) = true
    rw [himmortal]
    rfl
  unfold Extrinsic.fits
  rw [hsub.signature, hsub.function]
  show (true && (true && (SignedExtra.format era).fits _)) && true
  rw [hextra]
  rfl

end sent

namespace ChainRun

variable {Digest S Sys : Type} {r : Runtime Digest S} {sys : SystemPallet Sys} {s : State S Sys}

/-- `raw` are the bytes of the extrinsics that were applied, and those of the
    EVM extrinsics of the blocks are among them, in order; no two blocks have
    one hash or one number. -/
structure MadeOf (host : Host Digest) (era : Scale.Format Era) (other : List UInt8 → Bool)
    (raw : List Scale.Vec) (s : State S Sys) (blocks : List (ImportedBlock host)) : Prop where
  decoded : raw.map (fun v => Extrinsic.decode era other v.data) =
    s.applied.map fun a => some a.extrinsic
  carried : (blocks.flatMap fun b => b.transactions.map fun tx => tx.ext.bytes).Sublist raw
  hash_nodup : (blocks.map fun b => b.block.hash).Nodup
  number_nodup : (blocks.map fun b => b.block.number).Nodup

/-- No two of these have one hash. -/
def CollisionFree (host : Host Digest) (raw : List Scale.Vec) : Prop :=
  Set.InjOn (extrinsic_hash host) {v | v ∈ raw}

/-- **No extrinsic is applied twice.** -/
theorem nodup_extrinsics (hsys : sys.Lawful r.pallet.lookup)
    (h : Lts.Reachable ((system r sys).restrict (nonces_last sys)) s) :
    (s.applied.map Applied.extrinsic).Nodup := by
  have hadm := admitted_of_applied h.of_restrict
  have hpair := Sequencing.Numbering.pairwise_ne (reachable_sequence hsys h)
  rw [List.Nodup, List.pairwise_map]
  refine hpair.imp_of_mem ?_
  intro a b ha hb hne heq
  obtain ⟨_, _, hadma⟩ := hadm a ha
  obtain ⟨_, _, hadmb⟩ := hadm b hb
  -- one extrinsic has one signer and one nonce, in whatever state it is checked
  obtain ⟨addr, sig, hsig, haccount⟩ := Runtime.signed_of_check hsys hadma.check
  obtain ⟨addr', sig', hsig', haccount'⟩ := Runtime.signed_of_check hsys hadmb.check
  rw [← heq, hsig] at hsig'
  simp only [Option.some.injEq, Prod.mk.injEq] at hsig'
  obtain ⟨rfl, -, hextra⟩ := hsig'
  exact hne (Except.ok.inj (haccount.symm.trans haccount'))
    (congrArg SignedExtra.check_nonce hextra)

variable {era : Scale.Format Era} {other : List UInt8 → Bool} {raw : List Scale.Vec}
  {blocks : List (ImportedBlock r.host)}

/-- **No hash twice**, in whatever blocks. -/
theorem nodup_hashes (hsys : sys.Lawful r.pallet.lookup)
    (h : Lts.Reachable ((system r sys).restrict (nonces_last sys)) s)
    (hcollision : CollisionFree r.host raw) (hmade : MadeOf r.host era other raw s blocks) :
    (blocks.flatMap ImportedBlock.hashes).Nodup := by
  -- different extrinsics are not read from the same bytes
  have hraw : raw.Nodup := by
    have hsome := (nodup_extrinsics hsys h).map (Option.some_injective _)
    rw [List.map_map] at hsome
    refine List.Nodup.of_map (fun v => Extrinsic.decode era other v.data) ?_
    rw [hmade.decoded]
    exact hsome
  -- and different bytes have different hashes
  have hcarried := hmade.carried.map (extrinsic_hash r.host)
  rw [List.map_flatMap] at hcarried
  simp only [List.map_map] at hcarried
  exact (hraw.map_on hcollision).sublist hcarried

/-- The blocks share nothing the cache keys on. -/
theorem pairwise_distinct (hmade : MadeOf r.host era other raw s blocks)
    (hnodup : (blocks.flatMap ImportedBlock.hashes).Nodup) :
    (blocks.map ImportedBlock.block).Pairwise SubstrateBlock.Distinct := by
  obtain ⟨-, hdisjoint⟩ := List.nodup_flatMap.mp hnodup
  have hhash := List.pairwise_map.mp hmade.hash_nodup
  have hnumber := List.pairwise_map.mp hmade.number_nodup
  rw [List.pairwise_map]
  refine (hhash.and (hnumber.and hdisjoint)).imp ?_
  rintro a b ⟨hhash, hnumber, hdisjoint⟩
  refine ⟨hhash, hnumber, ?_⟩
  rintro ⟨r, hr, r', hr', heq⟩
  have hmem := ImportedBlock.transaction_hash_mem hr'
  rw [heq] at hmem
  exact hdisjoint (ImportedBlock.transaction_hash_mem hr) hmem

/-- The cache after all blocks were delivered. -/
def cache_of {host : Host Digest} (N : Nat) (blocks : List (ImportedBlock host)) : BlockCache N :=
  (blocks.map ImportedBlock.block).foldl BlockCache.on_block .default

/-- No block has a hash twice. -/
theorem nodup_of_mem {N : Nat} (hsys : sys.Lawful r.pallet.lookup)
    (h : Lts.Reachable ((system r sys).restrict (nonces_last sys)) s)
    (hcollision : CollisionFree r.host raw)
    (hmade : MadeOf r.host era other raw s blocks) {b : ImportedBlock r.host}
    (hb : b ∈ blocks.rtake N) : b.hashes.Nodup :=
  (List.nodup_flatMap.mp (nodup_hashes hsys h hcollision hmade)).1 b
    ((List.rtake_sublist blocks N).subset hb)

section delivered
variable {N : Nat} (hN : 1 ≤ N) (hsys : sys.Lawful r.pallet.lookup)
  (h : Lts.Reachable ((system r sys).restrict (nonces_last sys)) s)
  (hcollision : CollisionFree r.host raw)
  (hmade : MadeOf r.host era other raw s blocks)
include hN hsys h hcollision hmade

/-- What is kept are the receipts of the last `N` blocks. -/
theorem receipts_of : BlockCache.ReceiptsOf (cache_of N blocks)
    ((blocks.rtake N).map ImportedBlock.block) := by
  have hnodup := nodup_hashes hsys h hcollision hmade
  have hwindow := BlockCache.window_foldl hN _ (pairwise_distinct hmade hnodup)
  rw [List.rtake, List.length_map, ← List.map_drop] at hwindow
  exact hwindow.receipts

/-- The receipts by the hash of the extrinsic. -/
theorem receipt_eq_some {receipt : ReceiptInfo} {t : H256} :
    (cache_of N blocks).receipt t = some receipt ↔
      ∃ b ∈ blocks.rtake N, ∃ tx ∈ b.transactions,
        extrinsic_hash r.host tx.ext.bytes = t ∧ tx.receipt r.host b.content = .ok receipt := by
  refine ((receipts_of hN hsys h hcollision hmade).by_hash t receipt).trans ?_
  constructor
  · rintro ⟨_, hblock, hr, rfl⟩
    obtain ⟨b, hb, rfl⟩ := List.mem_map.mp hblock
    obtain ⟨tx, htx, hreceipt⟩ :=
      (ImportedBlock.mem_receipts_iff (nodup_of_mem hsys h hcollision hmade hb)).mp hr
    exact ⟨b, hb, tx, htx, (ReceiptInfo.of_receipt hreceipt).transaction_hash.symm, hreceipt⟩
  · rintro ⟨b, hb, tx, htx, rfl, hreceipt⟩
    have hnodup := nodup_of_mem hsys h hcollision hmade hb
    exact ⟨b.block, List.mem_map_of_mem hb,
      (ImportedBlock.mem_receipts_iff hnodup).mpr ⟨tx, htx, hreceipt⟩,
      (ReceiptInfo.of_receipt hreceipt).transaction_hash⟩

/-- The receipts by the hash of the block and the index of the extrinsic. -/
theorem receipt_by_hash_and_index_eq_some {receipt : ReceiptInfo} {k : H256} {i : U256} :
    (cache_of N blocks).receipt_by_hash_and_index k i = some receipt ↔
      ∃ b ∈ blocks.rtake N, b.content.hash = k ∧ ∃ tx ∈ b.transactions,
        tx.index.setWidth 256 = i ∧ tx.receipt r.host b.content = .ok receipt := by
  have hreceipts := receipts_of hN hsys h hcollision hmade
  rw [BlockCache.receipt_by_hash_and_index_eq_some]
  constructor
  · rintro ⟨m, t, hm, hi, ht⟩
    obtain ⟨_, hblock, rfl, -, hindex⟩ := (hreceipts.by_index k m).mp hm
    obtain ⟨b, hb, rfl⟩ := List.mem_map.mp hblock
    obtain ⟨r', hr', hri, hrt⟩ := (hindex i t).mp hi
    -- the receipt under the hash is the one of this block
    have hsame := (hreceipts.by_hash t r').mpr ⟨b.block, List.mem_map_of_mem hb, hr', hrt⟩
    obtain rfl : r' = receipt := Option.some.inj (hsame.symm.trans ht)
    obtain ⟨tx, htx, hreceipt⟩ :=
      (ImportedBlock.mem_receipts_iff (nodup_of_mem hsys h hcollision hmade hb)).mp hr'
    exact ⟨b, hb, b.extracted.hash.symm, tx, htx,
      (ReceiptInfo.of_receipt hreceipt).transaction_index.symm.trans hri, hreceipt⟩
  · rintro ⟨b, hb, rfl, tx, htx, rfl, hreceipt⟩
    have hmem := (ImportedBlock.mem_receipts_iff (nodup_of_mem hsys h hcollision hmade hb)).mpr
      ⟨tx, htx, hreceipt⟩
    have hof := ReceiptInfo.of_receipt hreceipt
    have hne : b.block.receipts ≠ [] := List.ne_nil_of_mem hmem
    refine ⟨b.block.hashes_by_index, receipt.transaction_hash, ?_, ?_, ?_⟩
    · rw [hreceipts.by_index]
      exact ⟨b.block, List.mem_map_of_mem hb, b.extracted.hash, hne,
        BlockCache.is_index_iff.mpr rfl⟩
    · rw [SubstrateBlock.lookup_hashes_by_index]
      exact ⟨receipt, hmem, hof.transaction_index, rfl⟩
    · exact (hreceipts.by_hash _ _).mpr ⟨b.block, List.mem_map_of_mem hb, hmem, rfl⟩

end delivered

/-- **Receipts of a chain.** After the blocks of a run were delivered, the
    receipts that are found are those of the EVM extrinsics of the last `N`
    blocks, each under the hash of its extrinsic, and under the hash of its
    block and its index. -/
theorem receipts_of_run {N : Nat} (hN : 1 ≤ N)
    (hsys : sys.Lawful r.pallet.lookup)
    (h : Lts.Reachable ((system r sys).restrict (nonces_last sys)) s)
    (hcollision : CollisionFree r.host raw)
    (hmade : MadeOf r.host era other raw s blocks) (receipt : ReceiptInfo) :
    (∀ t, (cache_of N blocks).receipt t = some receipt ↔
      ∃ b ∈ blocks.rtake N, ∃ tx ∈ b.transactions,
        extrinsic_hash r.host tx.ext.bytes = t ∧ tx.receipt r.host b.content = .ok receipt) ∧
    ∀ k i, (cache_of N blocks).receipt_by_hash_and_index k i = some receipt ↔
      ∃ b ∈ blocks.rtake N, b.content.hash = k ∧ ∃ tx ∈ b.transactions,
        tx.index.setWidth 256 = i ∧ tx.receipt r.host b.content = .ok receipt :=
  ⟨fun _ => receipt_eq_some hN hsys h hcollision hmade,
    fun _ _ => receipt_by_hash_and_index_eq_some hN hsys h hcollision hmade⟩

end ChainRun

/-! ## Two transfers in two blocks -/

namespace Sample

/-- The immortal era; the others are not needed here. -/
def immortal_format : Scale.Format Era where
  encode _ := [0]
  decode
    | 0 :: l => some (.Immortal, l)
    | _ => none
  fits era := era = .Immortal
  decode_encode {era} h rest := by
    rw [of_decide_eq_true h]
    rfl
  of_decode {l era rest} h := by
    split at h
    · cases h
      exact ⟨rfl, rfl⟩
    · cases h

def no_other_calls (_ : List UInt8) : Bool := false

/-- The extrinsic of a transfer, encoded. -/
def transfer_encoded (signed : TransactionLegacySigned) (nonce : UInt8) : List UInt8 :=
  [0x84, 0x00] ++ account.toList ++ [0x03] ++ (signature signed ChainRun.recovery_id).toList ++
    [0x00, nonce, 0x00, 0x06, 0x01, 0x01] ++ signer.toList ++ recipient.toList ++
    [0x00, 0x02, 0x2d, 0x31, 0x01, 0xa1, 0x0f, 0x22, 0x48, 0x01, 0x00, 0x02, 0x09, 0x3d, 0x00,
      0x00, 0x01, 0x00]

theorem transfer_encoded_length (signed : TransactionLegacySigned) (nonce : UInt8) :
    (transfer_encoded signed nonce).length < 2 ^ 32 := by
  simp [transfer_encoded]

def transfer_bytes (signed : TransactionLegacySigned) (nonce : UInt8) : Scale.Vec :=
  ⟨transfer_encoded signed nonce, transfer_encoded_length signed nonce⟩

/-- The transfers under the first two nonces. -/
def bytes_0 : Scale.Vec := transfer_bytes signed_call_0 0x00

def bytes_1 : Scale.Vec := transfer_bytes signed_call_1 0x04

def hash_0 : H256 := be_low 32
  0x234ef3f9faf4c60e9779c445504dbd715647e322a96c81331205a46be0bdf98f

def hash_1 : H256 := be_low 32
  0x9b61654380c882aeddec0cae448551bdd82e521392af3779423bc2c8158f3a05

def transfer_table : HostTable where
  keccak := table.keccak
  ecrecover := table.ecrecover
  blake2 := (Scale.vec_encode bytes_0, hash_0) :: (Scale.vec_encode bytes_1, hash_1) :: table.blake2
  keccak_nodup := table.keccak_nodup
  ecrecover_inj := table.ecrecover_inj

theorem extrinsic_hash_bytes_0 : extrinsic_hash transfer_table.host bytes_0 = hash_0 := by
  decide +kernel

theorem extrinsic_hash_bytes_1 : extrinsic_hash transfer_table.host bytes_1 = hash_1 := by
  decide +kernel

theorem hash_ne : hash_0 ≠ hash_1 := by decide +kernel

def transfer_runtime : Runtime TableDigest Unit := { runtime with host := transfer_table.host }

/-- The transfer under the second nonce. -/
def second_transfer : ChainRun.Applied := { ChainRun.sample_transfer with
  extrinsic := extrinsic (.Id account) (signature signed_call_1 ChainRun.recovery_id)
    ⟨1000000, 0⟩ (some 0) 0
  extra := ⟨.Immortal, 1, 0⟩ }

/-- The nonces after it. -/
def both_counted : ChainRun.SystemState := { ChainRun.sample_counted with
  nonces := Function.update ChainRun.sample_counted.nonces account 2 }

def transfers_end : ChainRun.State Unit ChainRun.SystemState :=
  ChainRun.sample_end.apply second_transfer both_counted ()

theorem second_check_nonce : ChainRun.sample_system.check_nonce ChainRun.sample_counted account 1 =
    some both_counted := by
  simp [ChainRun.sample_system, ChainRun.sample_counted, ChainRun.sample_genesis, both_counted]

theorem transfers_reachable :
    Lts.Reachable ((ChainRun.system transfer_runtime ChainRun.sample_system).restrict
      (ChainRun.nonces_last ChainRun.sample_system)) transfers_end := by
  refine .step (s := ChainRun.sample_end) (.apply second_transfer both_counted ())
    (.step (s := ChainRun.sample_start)
      (.apply ChainRun.sample_transfer ChainRun.sample_counted ()) (.init ⟨rfl, rfl⟩) ⟨?_, ?_⟩)
    ⟨?_, ?_⟩
  · show (0 : BitVec 32) + 1 ≠ 0
    decide
  · exact ⟨⟨by decide +kernel, ChainRun.sample_check_nonce, by decide +kernel⟩, rfl⟩
  · show Function.update (fun _ => 0) account 1 account + 1 ≠ (0 : BitVec 32)
    rw [Function.update_self]
    decide
  · exact ⟨⟨by decide +kernel, second_check_nonce, by decide +kernel⟩, rfl⟩

/-- Block `n`, with one transfer. -/
def transfer_block (n : Nat) (bytes : Scale.Vec) : ImportedBlock transfer_table.host where
  content := content n bytes succeeded
  block := (content n bytes succeeded).substrate_block _ (receipt_infos_content _ n bytes)
  extracted := BlockContent.extracted _

def transfer_blocks : List (ImportedBlock transfer_table.host) :=
  [transfer_block 1 bytes_0, transfer_block 2 bytes_1]

theorem encode_0 :
    bytes_0.data = ChainRun.sample_transfer.extrinsic.encode immortal_format := by
  decide +kernel

theorem encode_1 : bytes_1.data = second_transfer.extrinsic.encode immortal_format := by
  decide +kernel

theorem decode_0 : Extrinsic.decode immortal_format no_other_calls bytes_0.data =
    some ChainRun.sample_transfer.extrinsic := by
  rw [encode_0]
  exact Extrinsic.decode_encode _ _ rfl

theorem decode_1 : Extrinsic.decode immortal_format no_other_calls bytes_1.data =
    some second_transfer.extrinsic := by
  rw [encode_1]
  exact Extrinsic.decode_encode _ _ rfl

theorem transfers_made : ChainRun.MadeOf transfer_table.host immortal_format no_other_calls
    [bytes_0, bytes_1] transfers_end transfer_blocks where
  decoded := congrArg₂ (fun x y => [x, y]) decode_0 decode_1
  carried := .refl _
  hash_nodup := by decide +kernel
  number_nodup := by decide +kernel

theorem transfers_collision_free :
    ChainRun.CollisionFree transfer_table.host [bytes_0, bytes_1] := by
  intro v hv w hw heq
  rcases List.mem_pair.mp hv with rfl | rfl
  · rcases List.mem_pair.mp hw with rfl | rfl
    · rfl
    · rw [extrinsic_hash_bytes_0, extrinsic_hash_bytes_1] at heq
      exact absurd heq hash_ne
  · rcases List.mem_pair.mp hw with rfl | rfl
    · rw [extrinsic_hash_bytes_0, extrinsic_hash_bytes_1] at heq
      exact absurd heq.symm hash_ne
    · rfl

end Sample

namespace ChainRun

/-- After two blocks, a cache of one block has the receipts of the second. -/
theorem receipts_of_run_sample :
    let cache := cache_of 1 Sample.transfer_blocks
    cache.receipt Sample.hash_1 = some (Sample.eth_call_receipt 2 Sample.hash_1) ∧
      cache.receipt_by_hash_and_index (be_low 32 2) 0 =
        some (Sample.eth_call_receipt 2 Sample.hash_1) ∧
      cache.receipt Sample.hash_0 ≠ some (Sample.eth_call_receipt 1 Sample.hash_0) := by
  have hrun (receipt : ReceiptInfo) := receipts_of_run (N := 1) le_rfl (sample_system_lawful _)
    Sample.transfers_reachable Sample.transfers_collision_free Sample.transfers_made receipt
  have hb : Sample.transfer_block 2 Sample.bytes_1 ∈ Sample.transfer_blocks.rtake 1 :=
    List.mem_cons_self
  have ht : Sample.eth_call_transaction Sample.bytes_1 Sample.succeeded ∈
      (Sample.transfer_block 2 Sample.bytes_1).transactions := List.mem_cons_self
  have hreceipt : (Sample.eth_call_transaction Sample.bytes_1 Sample.succeeded).receipt
      Sample.transfer_table.host (Sample.transfer_block 2 Sample.bytes_1).content =
        .ok (Sample.eth_call_receipt 2 Sample.hash_1) := by
    decide +kernel
  refine ⟨((hrun _).1 _).mpr ⟨_, hb, _, ht, Sample.extrinsic_hash_bytes_1, hreceipt⟩,
    ((hrun _).2 _ _).mpr ⟨_, hb, rfl, _, ht, rfl, hreceipt⟩, fun hold => ?_⟩
  -- the only block that is kept has another extrinsic
  obtain ⟨b, hb, t, ht, hhash, -⟩ := ((hrun _).1 _).mp hold
  obtain rfl := List.mem_singleton.mp
    (show b ∈ [Sample.transfer_block 2 Sample.bytes_1] from hb)
  obtain rfl := List.mem_singleton.mp
    (show t ∈ [Sample.eth_call_transaction Sample.bytes_1 Sample.succeeded] from ht)
  exact Sample.hash_ne (hhash.symm.trans Sample.extrinsic_hash_bytes_1)

end ChainRun

end EthRpc
