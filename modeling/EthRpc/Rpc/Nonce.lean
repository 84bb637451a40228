import EthRpc.Framework.Lts
import EthRpc.Rpc.Agreement

/-! # Nonces between the wallet and the chain

    A transaction is signed under a nonce, but submitted under the nonce its
    account has on chain when it arrives. The two are followed over whole
    runs, in which arrivals of raw transactions and the production of blocks
    interleave in any order.

    `submitted_faithful`: in a run in which every transaction arrives when
    its turn has come on chain, what is submitted stands for what was
    signed. `nonce_substituted`: when two transactions arrive between two
    blocks, the second does not.
-/

namespace EthRpc

/-! ## State and steps -/

namespace NonceRun

/-- The chain's account nonces, the extrinsics waiting for a block, and all
    that was ever submitted, with the transaction it was submitted for. -/
structure State where
  nonces : AccountId → BitVec 32
  pool : List Extrinsic
  submitted : List (TransactionLegacySigned × Extrinsic)

/-- What the node answers during one request, its nonces apart. -/
structure Answers where
  gas_estimate : GenericTransaction → Except ClientError (Except DispatchError DryRunInfo)
  signer_payload : RuntimeCall → List UInt8
  submit : Extrinsic → Except ClientError H256

/-- The node during one request. -/
def State.node (s : State) (a : Answers) : Node where
  gas_estimate := a.gas_estimate
  account_nonce := s.nonces
  signer_payload := a.signer_payload
  submit := a.submit

inductive Label where
  /-- A raw transaction arrives at the server. -/
  | arrive (transaction : Bytes) (answers : Answers)
  /-- A block includes some of the waiting extrinsics. -/
  | block (included : List Extrinsic)

/-- The account an extrinsic is signed by. -/
def signed_by (account : AccountId) (x : Extrinsic) : Bool :=
  match x.signature with
  | some (.Id id, _, _) => id = account
  | _ => false

/-- The state after the arrival of a transaction; it joins the pool only if
    the node takes it. -/
def State.arrive {Digest : Type} (s : State) (host : Host Digest) (transaction : Bytes)
    (answers : Answers) : State :=
  let client : Client Digest := ⟨host, s.node answers⟩
  match TransactionLegacySigned.decode transaction, client.raw_extrinsic transaction with
  | .ok tx, .ok x => {
      nonces := s.nonces
      pool := match answers.submit x with
        | .ok _ => s.pool ++ [x]
        | .error _ => s.pool
      submitted := s.submitted ++ [(tx, x)] }
  | _, _ => s

/-- The state after a block: each included extrinsic uses up one nonce. -/
def State.include_block (s : State) (included : List Extrinsic) : State where
  nonces account := s.nonces account + BitVec.ofNat 32 (included.countP (signed_by account))
  pool := s.pool.filter (· ∉ included)
  submitted := s.submitted

variable {Digest S : Type}

/-- Arrivals and blocks, in any order. -/
def system (r : Runtime Digest S) : Lts.System State Label where
  init s := s.pool = [] ∧ s.submitted = []
  step s l s' :=
    match l with
    | .arrive transaction answers => s' = s.arrive r.host transaction answers
    | .block included => (∀ x ∈ included, x ∈ s.pool) ∧ s' = s.include_block included

/-! ## Faithful submissions -/

/-- The extrinsic carries the signed nonce, the message rebuilt from it is
    the signed one, and it is not refused with `BadProof`. -/
structure Faithful (r : Runtime Digest S) (tx : TransactionLegacySigned) (x : Extrinsic) :
    Prop where
  carried : ∃ addr sig extra, x.signature = some (addr, .Ethereum sig, extra) ∧
    extra.check_nonce.setWidth 256 = tx.transaction_legacy_unsigned.nonce ∧
    ∀ msg source extra', r.convert_eth_tx.convert x.function extra = .ok (msg, source, extra') →
      msg = .TransactionLegacyUnsigned tx.transaction_legacy_unsigned
  proof : r.check x ≠ .err (.Invalid .BadProof)

/-- The turn of a transaction has come: the on-chain nonce of its sender is
    the signed one. It is a transaction of this chain, and if it is a
    deployment, nothing follows the three vectors of its input. -/
structure InTurn (host : Host Digest) (s : State) (tx : TransactionLegacySigned)
    (eth_addr : H160) : Prop where
  nonce : (s.nonces (get_account_id host eth_addr)).setWidth 256 =
    tx.transaction_legacy_unsigned.nonce
  chain_id : tx.transaction_legacy_unsigned.chain_id = some (ChainId.setWidth 256)
  input : tx.transaction_legacy_unsigned.to = none →
    CallInput.NothingFollows tx.transaction_legacy_unsigned.input.data

/-- Every transaction that arrives is one whose turn has come. -/
def in_turn (host : Host Digest) (s : State) : Label → Prop
  | .arrive transaction _ => ∀ tx eth_addr,
      TransactionLegacySigned.decode transaction = .ok tx →
      tx.recover_eth_address host = .ok eth_addr → InTurn host s tx eth_addr
  | .block _ => True

/-- The message rebuilt from the submission of a transaction in turn. -/
theorem rebuild_in_turn {host : Host Digest} {s : State} {answers : Answers}
    {transaction : Bytes} {x : Extrinsic} {tx : TransactionLegacySigned} {eth_addr : H160}
    {sig : List.Vector UInt8 65} {limits : DryRunInfo} {c : Pallet.Call}
    (hturn : InTurn host s tx eth_addr)
    (hsub : Submission ⟨host, s.node answers⟩ transaction x tx eth_addr sig limits c) :
    c.rebuild ((s.nonces (get_account_id host eth_addr)).setWidth 256) =
      tx.transaction_legacy_unsigned := by
  -- the nonce is right because the turn has come, the input because nothing
  -- follows its vectors
  rw [hturn.nonce]
  cases hto : tx.transaction_legacy_unsigned.to with
  | some dest => exact rebuild_of_call hto hturn.chain_id hsub.call
  | none =>
    obtain ⟨input, rest, hinput, hrebuild⟩ := rebuild_of_deployment hto hturn.chain_id hsub.call
    have hbytes := (CallInput.encode_eq_iff hinput).mpr (hturn.input hto)
    have hvec : (⟨input.encode, input.encode_length_lt⟩ : Bytes) =
        tx.transaction_legacy_unsigned.input := ByteVec.ext hbytes
    rw [hrebuild, hvec]

/-- **One arrival.** What is submitted for a transaction in turn is faithful. -/
theorem faithful_of_in_turn {r : Runtime Digest S} (hagree : r.host.RecoverAgrees) {s : State}
    {answers : Answers} {transaction : Bytes} {x : Extrinsic} {tx : TransactionLegacySigned}
    {eth_addr : H160} {sig : List.Vector UInt8 65} {limits : DryRunInfo} {c : Pallet.Call}
    (hturn : InTurn r.host s tx eth_addr)
    (hsub : Submission ⟨r.host, s.node answers⟩ transaction x tx eth_addr sig limits c) :
    Faithful r tx x := by
  have hrebuild := rebuild_in_turn hturn hsub
  constructor
  · refine ⟨_, sig, _, hsub.signature, hturn.nonce, ?_⟩
    intro msg source extra' hconvert
    rw [hsub.function] at hconvert
    obtain ⟨-, -, -, -, rfl⟩ := ConvertEthTx.convert_contracts_evm_eq_ok.mp hconvert
    exact congrArg _ hrebuild
  · -- the fee check is all that is left to fail
    cases hfee : r.convert_eth_tx.fee_check c with
    | ok _ =>
      rw [hsub.check rfl hagree hrebuild hfee]
      simp
    | err e =>
      rw [r.check_fee_error hsub.signature hsub.function hsub.source hfee,
        ConvertEthTx.fee_check_error hfee]
      simp
    | panic =>
      rw [r.check_fee_panic hsub.signature hsub.function hsub.source hfee]
      simp

/-! ## Runs -/

/-- All that an arrival adds is one submission, made of the arrived bytes. -/
theorem arrive_submitted {s : State} {host : Host Digest} {transaction : Bytes}
    {answers : Answers} {tx : TransactionLegacySigned} {x : Extrinsic}
    (h : (tx, x) ∈ (s.arrive host transaction answers).submitted) :
    (tx, x) ∈ s.submitted ∨
      TransactionLegacySigned.decode transaction = .ok tx ∧
        Client.raw_extrinsic ⟨host, s.node answers⟩ transaction = .ok x := by
  unfold State.arrive at h
  simp only at h
  -- a transaction that does not decode, or is not sent, changes nothing
  split at h
  · next tx' x' htx hx =>
    rw [List.mem_append, List.mem_singleton, Prod.mk.injEq] at h
    rcases h with hold | ⟨rfl, rfl⟩
    · exact Or.inl hold
    · exact Or.inr ⟨htx, hx⟩
  · exact Or.inl h

/-- **No substitution in turn.** In every run in which each transaction
    arrives in its turn, everything ever submitted stands for the
    transaction that was signed. -/
theorem submitted_faithful {r : Runtime Digest S} (hagree : r.host.RecoverAgrees) {s : State}
    (h : Lts.Reachable ((system r).restrict (in_turn r.host)) s) :
    ∀ tx x, (tx, x) ∈ s.submitted → Faithful r tx x := by
  apply Lts.invariant (fun s => ∀ tx x, (tx, x) ∈ s.submitted → Faithful r tx x) _ _ h
  · intro s hinit tx x hmem
    obtain ⟨-, hnone⟩ := hinit
    rw [hnone] at hmem
    cases hmem
  · intro s l s' _ ih hguarded tx x hmem
    obtain ⟨hturn, hstep⟩ := hguarded
    cases l with
    | block included =>
      -- a block submits nothing
      obtain ⟨-, rfl⟩ := hstep
      exact ih tx x hmem
    | arrive transaction answers =>
      obtain rfl : s' = s.arrive r.host transaction answers := hstep
      rcases arrive_submitted hmem with hold | ⟨htx, hx⟩
      · exact ih tx x hold
      · obtain ⟨eth_addr, sig, limits, c, hsub⟩ := Client.submission_of_decoded htx hx
        exact faithful_of_in_turn hagree (hturn tx eth_addr htx hsub.recovered) hsub

/-! ## Sample runs -/

/-- A node that takes everything. -/
def sample_answers : Answers where
  gas_estimate _ := .ok (.ok ⟨⟨1000000, 0⟩, some 0, []⟩)
  signer_payload _ := []
  submit _ := .ok (List.Vector.replicate 32 0)

/-- No account has sent anything yet. -/
def sample_start : State where
  nonces _ := 0
  pool := []
  submitted := []

/-- After the first of two transactions of one wallet has arrived. -/
def sample_first : State :=
  sample_start.arrive Sample.runtime.host Sample.raw_call_0 sample_answers

/-- After a block has included it. -/
def sample_block : State := sample_first.include_block sample_first.pool

/-- After the second of them has arrived, behind the block. -/
def sample_second : State :=
  sample_block.arrive Sample.runtime.host Sample.raw_call_1 sample_answers

/-- Two transactions with consecutive nonces, each in its turn: the second
    is submitted under its own nonce. -/
theorem submitted_faithful_sample :
    (Sample.signed_call_1, Sample.submitted_call (Sample.signature Sample.signed_call_1 0) 1) ∈
        sample_second.submitted ∧
      Faithful Sample.runtime Sample.signed_call_1
        (Sample.submitted_call (Sample.signature Sample.signed_call_1 0) 1) := by
  have hmem : (Sample.signed_call_1, Sample.submitted_call
      (Sample.signature Sample.signed_call_1 0) 1) ∈ sample_second.submitted := by
    decide +kernel
  refine ⟨hmem, submitted_faithful Sample.table.recover_agrees (s := sample_second) ?_ _ _ hmem⟩
  have hstart : Lts.Reachable ((system Sample.runtime).restrict (in_turn Sample.runtime.host))
      sample_start := .init ⟨rfl, rfl⟩
  have hfirst : Lts.Reachable ((system Sample.runtime).restrict (in_turn Sample.runtime.host))
      sample_first := by
    refine .step (.arrive Sample.raw_call_0 sample_answers) hstart ⟨?_, rfl⟩
    intro tx eth_addr htx haddr
    rw [show TransactionLegacySigned.decode Sample.raw_call_0 = .ok Sample.signed_call_0 by
      decide +kernel] at htx
    cases htx
    rw [show Sample.signed_call_0.recover_eth_address Sample.runtime.host = .ok Sample.signer by
      decide +kernel] at haddr
    cases haddr
    exact ⟨by decide +kernel, rfl, fun hto => by cases hto⟩
  have hblock : Lts.Reachable ((system Sample.runtime).restrict (in_turn Sample.runtime.host))
      sample_block :=
    .step (.block sample_first.pool) hfirst ⟨trivial, fun x hx => hx, rfl⟩
  refine .step (.arrive Sample.raw_call_1 sample_answers) hblock ⟨?_, rfl⟩
  intro tx eth_addr htx haddr
  rw [show TransactionLegacySigned.decode Sample.raw_call_1 = .ok Sample.signed_call_1 by
    decide +kernel] at htx
  cases htx
  rw [show Sample.signed_call_1.recover_eth_address Sample.runtime.host = .ok Sample.signer by
    decide +kernel] at haddr
  cases haddr
  exact ⟨by decide +kernel, rfl, fun hto => by cases hto⟩

/-- The same two transactions, both before the block: the second is
    submitted under the nonce of the first, and the runtime refuses it. -/
theorem nonce_substituted :
    let s := sample_first.arrive Sample.runtime.host Sample.raw_call_1 sample_answers
    let second := Sample.submitted_call (Sample.signature Sample.signed_call_1 0) 0
    Lts.Reachable (system Sample.runtime) s ∧
      s.submitted =
        [(Sample.signed_call_0, Sample.submitted_call (Sample.signature Sample.signed_call_0 0) 0),
          (Sample.signed_call_1, second)] ∧
      Sample.signed_call_0.transaction_legacy_unsigned.nonce = 0 ∧
      Sample.signed_call_1.transaction_legacy_unsigned.nonce = 1 ∧
      Sample.runtime.check second = .err (.Invalid .BadProof) ∧
      ¬ Faithful Sample.runtime Sample.signed_call_1 second := by
  have hproof : Sample.runtime.check
      (Sample.submitted_call (Sample.signature Sample.signed_call_1 0) 0) =
        .err (.Invalid .BadProof) := by decide +kernel
  refine ⟨?_, ?_, rfl, rfl, hproof, fun h => h.proof hproof⟩
  · have hstart : Lts.Reachable (system Sample.runtime) sample_start := .init ⟨rfl, rfl⟩
    have hfirst : Lts.Reachable (system Sample.runtime) sample_first :=
      .step (.arrive Sample.raw_call_0 sample_answers) hstart rfl
    exact .step (.arrive Sample.raw_call_1 sample_answers) hfirst rfl
  · decide +kernel

end NonceRun

end EthRpc
