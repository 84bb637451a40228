import EthRpc.Api.HostTable
import EthRpc.Chain.Pallet

/-! # The runtime

    The constants of the runtime, its signed extensions, and `ConvertEthTx`,
    which turns an extrinsic back into the Ethereum message it stands for.

    `convert_eq_ok` says all that `convert` does: it accepts a call of the
    contracts pallet that names a source, passes the fee check, and comes
    with immortal extensions; and the message it returns is then `rebuild`
    of the call under the extensions' nonce.
-/

namespace EthRpc

/-! ## Constants -/

/-- `ChainId`. -/
def ChainId : BitVec 64 := 596

def NATIVE_DECIMALS : Nat := 15

/-- The `DECIMALS_VALUE` of the runtime's converter. -/
def DECIMALS_VALUE : BitVec 64 := BitVec.ofNat 64 (10 ^ (EVM_DECIMALS - NATIVE_DECIMALS))

/-- Custom error code for a fee mismatch. -/
def FEE_MISMATCH : UInt8 := 1

/-! ## Extensions and calls -/

/-- `generic::Era`. -/
inductive Era where
  | Immortal
  | Mortal (period phase : BitVec 64)
  deriving DecidableEq, Repr

/-- The signed extensions that carry data. -/
structure SignedExtra where
  /-- `CheckEra`. -/
  check_era : Era
  /-- `CheckNonce`. -/
  check_nonce : BitVec 32
  /-- `ChargeTransactionPayment`: the tip. -/
  charge_transaction_payment : Balance
  deriving DecidableEq, Repr

/-- `RuntimeCall`: the calls of the contracts pallet, and those of all other
    pallets, kept encoded. -/
inductive RuntimeCall where
  | ContractsEvm (c : Pallet.Call)
  | Other (encoded : List UInt8)
  deriving DecidableEq

/-- `UncheckedExtrinsic<RuntimeCall, SignedExtra, _>`. -/
abbrev Extrinsic := UncheckedExtrinsic RuntimeCall SignedExtra

/-! ## Rebuilding the Ethereum message -/

/-- The message a call stands for, under the given nonce. -/
def Pallet.Call.rebuild (c : Pallet.Call) (nonce : U256) : TransactionLegacyUnsigned :=
  let chain_id : U256 := ChainId.setWidth 256
  match c with
  | .eth_instantiate c =>
    .from_instantiate ⟨c.code, c.data, c.salt⟩ (c.eth_value.setWidth 256)
      (c.eth_gas_price.setWidth 256) (c.eth_gas_limit.setWidth 256) nonce chain_id
  | .eth_call c =>
    .from_call c.to c.data (c.eth_value.setWidth 256) (c.eth_gas_price.setWidth 256)
      (c.eth_gas_limit.setWidth 256) nonce chain_id

/-- `IdentityFee::weight_to_fee`. -/
def IdentityFee.weight_to_fee (w : Weight) : Balance := w.ref_time.setWidth 128

/-- `ConvertEthTx<T>`, with the functions of `T` and the arithmetic the
    crate is compiled with. -/
structure ConvertEthTx where
  weight_to_fee : Weight → Balance
  profile : Profile

namespace ConvertEthTx

variable (t : ConvertEthTx)

/-- Ensure that the fees defined in the transaction cover the fees
    calculated by the runtime. -/
def validate_fee (eth_gas_price : BitVec 64) (eth_gas_limit : BitVec 128) (weight : Weight)
    (storage_deposit_limit : Balance) : Outcome InvalidTransaction Unit := do
  let eth_fee ← t.profile.mul eth_gas_limit (eth_gas_price.setWidth 128)
  let actual_fee ← t.profile.add (t.weight_to_fee weight) storage_deposit_limit
  if eth_fee < actual_fee then .err (.Custom FEE_MISMATCH)
  else return ()

/-- Validate the extensions and return the nonce. -/
def validate_extra (extra : SignedExtra) : Outcome InvalidTransaction U256 :=
  -- require immortal
  if extra.check_era ≠ .Immortal then .err .BadProof
  else .ok (extra.check_nonce.setWidth 256)

/-- `ConvertEthTx::convert`. -/
def convert (call : RuntimeCall) (extra : SignedExtra) :
    Outcome InvalidTransaction (TransactionUnsigned × H160 × SignedExtra) :=
  match call with
  | .ContractsEvm (.eth_instantiate c) => do
    let source ← Outcome.ok_or .BadProof c.source
    t.validate_fee c.eth_gas_price c.eth_gas_limit c.gas_limit (c.storage_deposit_limit.getD 0)
    let nonce ← validate_extra extra
    let chain_id := ChainId.setWidth 256
    let tx := TransactionLegacyUnsigned.from_instantiate ⟨c.code, c.data, c.salt⟩
      (c.eth_value.setWidth 256) (c.eth_gas_price.setWidth 256) (c.eth_gas_limit.setWidth 256)
      nonce chain_id
    return (.TransactionLegacyUnsigned tx, source, extra)
  | .ContractsEvm (.eth_call c) => do
    let source ← Outcome.ok_or .BadProof c.source
    t.validate_fee c.eth_gas_price c.eth_gas_limit c.gas_limit (c.storage_deposit_limit.getD 0)
    let nonce ← validate_extra extra
    let chain_id := ChainId.setWidth 256
    let tx := TransactionLegacyUnsigned.from_call c.to c.data (c.eth_value.setWidth 256)
      (c.eth_gas_price.setWidth 256) (c.eth_gas_limit.setWidth 256) nonce chain_id
    return (.TransactionLegacyUnsigned tx, source, extra)
  | .Other _ => .err .Call

/-- The fee check of a call of the pallet. -/
def fee_check : Pallet.Call → Outcome InvalidTransaction Unit
  | .eth_instantiate c =>
    t.validate_fee c.eth_gas_price c.eth_gas_limit c.gas_limit (c.storage_deposit_limit.getD 0)
  | .eth_call c =>
    t.validate_fee c.eth_gas_price c.eth_gas_limit c.gas_limit (c.storage_deposit_limit.getD 0)

variable {t}

/-- The two arms of `convert`, as one. -/
theorem convert_contracts_evm (c : Pallet.Call) (extra : SignedExtra) :
    t.convert (.ContractsEvm c) extra = (do
      let source ← Outcome.ok_or .BadProof c.source
      t.fee_check c
      let nonce ← validate_extra extra
      return (.TransactionLegacyUnsigned (c.rebuild nonce), source, extra)) := by
  cases c with
  | eth_instantiate c => rfl
  | eth_call c => rfl

theorem validate_extra_eq_ok {extra : SignedExtra} {nonce : U256} :
    validate_extra extra = .ok nonce ↔
      extra.check_era = .Immortal ∧ nonce = extra.check_nonce.setWidth 256 := by
  unfold validate_extra
  by_cases h : extra.check_era = .Immortal
  · simp [h, eq_comm]
  · simp [h]

/-- What `convert` accepts of a call of the contracts pallet. -/
theorem convert_contracts_evm_eq_ok {c : Pallet.Call} {extra extra' : SignedExtra}
    {u : TransactionUnsigned} {source : H160} :
    t.convert (.ContractsEvm c) extra = .ok (u, source, extra') ↔
      c.source = some source ∧ t.fee_check c = .ok () ∧ extra.check_era = .Immortal ∧
        extra' = extra ∧
        u = .TransactionLegacyUnsigned (c.rebuild (extra.check_nonce.setWidth 256)) := by
  rw [convert_contracts_evm]
  simp only [Outcome.bind_eq_ok, Outcome.ok_or_eq_ok, validate_extra_eq_ok, Outcome.pure_eq,
    Outcome.ok.injEq, Prod.mk.injEq]
  constructor
  · intro h
    obtain ⟨source', hsource, _, hfee, nonce, ⟨hera, rfl⟩, rfl, rfl, rfl⟩ := h
    exact ⟨hsource, hfee, hera, rfl, rfl⟩
  · intro h
    obtain ⟨hsource, hfee, hera, rfl, rfl⟩ := h
    exact ⟨source, hsource, (), hfee, _, ⟨hera, rfl⟩, rfl, rfl, rfl⟩

/-- **What `convert` accepts, and the message it returns.** -/
theorem convert_eq_ok {call : RuntimeCall} {extra extra' : SignedExtra} {u : TransactionUnsigned}
    {source : H160} :
    t.convert call extra = .ok (u, source, extra') ↔
      ∃ c, call = .ContractsEvm c ∧ c.source = some source ∧ t.fee_check c = .ok () ∧
        extra.check_era = .Immortal ∧ extra' = extra ∧
        u = .TransactionLegacyUnsigned (c.rebuild (extra.check_nonce.setWidth 256)) := by
  cases call with
  | Other encoded =>
    -- not a call of the contracts pallet
    simp [convert]
  | ContractsEvm c => simp [convert_contracts_evm_eq_ok]

theorem validate_fee_error {eth_gas_price : BitVec 64} {eth_gas_limit : BitVec 128}
    {weight : Weight} {deposit : Balance} {e : InvalidTransaction}
    (h : t.validate_fee eth_gas_price eth_gas_limit weight deposit = .err e) :
    e = .Custom FEE_MISMATCH := by
  unfold validate_fee at h
  -- neither the product nor the sum can fail with an error
  rcases Outcome.bind_eq_err.mp h with hmul | ⟨eth_fee, -, h⟩
  · exact absurd hmul (Profile.mul_ne_err _ _ _ _)
  · rcases Outcome.bind_eq_err.mp h with hadd | ⟨actual_fee, -, h⟩
    · exact absurd hadd (Profile.add_ne_err _ _ _ _)
    · by_cases hlt : eth_fee < actual_fee
      · rw [if_pos hlt] at h
        injection h with he
        exact he.symm
      · rw [if_neg hlt] at h
        cases h

/-- The fee check fails with `FEE_MISMATCH` only. -/
theorem fee_check_error {c : Pallet.Call} {e : InvalidTransaction} (h : t.fee_check c = .err e) :
    e = .Custom FEE_MISMATCH := by
  cases c with
  | eth_instantiate c => exact validate_fee_error h
  | eth_call c => exact validate_fee_error h

end ConvertEthTx

/-! ## Addresses of contracts -/

/-- `EvmAddressGenerator::contract_address`: the account of the address that
    is shared with the RPC server. -/
def EvmAddressGenerator.contract_address {Digest : Type} (host : Host Digest)
    (deploying_address : AccountId) (code_hash : H256) (input_data salt : Scale.Vec) : AccountId :=
  let address := evm_contract_address host deploying_address code_hash input_data salt
  get_account_id host address

/-! ## The runtime as a whole -/

/-- What the runtime is built over: the host, the contracts pallet, the
    compile profile, and the check of extrinsics without an Ethereum
    signature, in one state of the chain. -/
structure Runtime (Digest S : Type) where
  host : Host Digest
  contracts : Contracts S
  block_weights : BlockWeights
  profile : Profile
  generic_check : Extrinsic →
    Outcome TransactionValidityError (CheckedExtrinsic RuntimeCall SignedExtra)

namespace Runtime

variable {Digest S : Type} (r : Runtime Digest S)

/-- The contracts pallet as the runtime configures it. -/
def pallet : Pallet Digest S where
  host := r.host
  contracts := r.contracts
  DECIMALS_VALUE := DECIMALS_VALUE
  block_weights := r.block_weights

/-- `ConvertEthTx<WeightToFeeOf<Runtime>>`. -/
def convert_eth_tx : ConvertEthTx where
  weight_to_fee := IdentityFee.weight_to_fee
  profile := r.profile

/-- The checker of the runtime's extrinsics. -/
def checker : UncheckedExtrinsic.Checker Digest RuntimeCall SignedExtra where
  host := r.host
  convert := r.convert_eth_tx.convert
  lookup := r.pallet.lookup
  generic_check := r.generic_check

/-- `UncheckedExtrinsic::check` in the runtime. -/
def check (x : Extrinsic) :
    Outcome TransactionValidityError (CheckedExtrinsic RuntimeCall SignedExtra) :=
  x.check r.checker

/-- An address that resolves to the account of an Ethereum address. -/
def resolves_to (addr : MultiAddress) (source : H160) : Prop :=
  addr = .Id (get_account_id r.host source) ∨
    ∃ i, addr = .Address20 i ∧ get_account_id r.host i = get_account_id r.host source

/-- **The runtime's check, in one statement.** It accepts an Ethereum
    signature exactly if the call is one of the contracts pallet that names
    its source, the extensions are immortal, the fee check passes, the
    signature recovers to the source over the rebuilt message, and the
    address resolves to the account of the source. -/
theorem check_ethereum {x : Extrinsic} {addr : MultiAddress}
    {sig : List.Vector UInt8 65} {extra : SignedExtra}
    {checked : CheckedExtrinsic RuntimeCall SignedExtra}
    (hsig : x.signature = some (addr, .Ethereum sig, extra)) :
    r.check x = .ok checked ↔
      ∃ c source, x.function = .ContractsEvm c ∧ c.source = some source ∧
        r.convert_eth_tx.fee_check c = .ok () ∧ extra.check_era = .Immortal ∧
        (c.rebuild (extra.check_nonce.setWidth 256)).recover_signer r.host sig = some source ∧
        r.resolves_to addr source ∧
        checked = ⟨some (get_account_id r.host source, extra), x.function⟩ := by
  constructor
  · -- what `check` accepted is a message that `convert` rebuilt, and two lookups
    intro h
    obtain ⟨msg, source, eth_extra, account_id, hacc, rfl⟩ :=
      UncheckedExtrinsic.check_ethereum_eq_ok hsig h
    obtain ⟨c, hcall, hsource, hfee, hera, rfl, hmsg⟩ :=
      ConvertEthTx.convert_eq_ok.mp hacc.convert
    cases hmsg
    -- the runtime's lookup is the pallet's
    have hsigner : r.pallet.lookup (.Address20 source) = .ok account_id := hacc.signer_account
    have haccount : account_id = get_account_id r.host source := by
      rcases r.pallet.lookup_eq_ok.mp hsigner with hid | ⟨i, hi, hi'⟩
      · cases hid
      · cases hi
        exact hi'
    subst haccount
    have haddr_account : r.pallet.lookup addr = .ok _ := hacc.addr_account
    have haddr : r.resolves_to addr source := by
      rcases r.pallet.lookup_eq_ok.mp haddr_account with hid | ⟨i, hi, heq⟩
      · exact Or.inl hid
      · exact Or.inr ⟨i, hi, heq.symm⟩
    exact ⟨c, source, hcall, hsource, hfee, hera, hacc.recover, haddr, rfl⟩
  · intro h
    obtain ⟨c, source, hcall, hsource, hfee, hera, hrecover, haddr, rfl⟩ := h
    refine UncheckedExtrinsic.check_of_accepted hsig ⟨?_, hrecover, rfl, ?_⟩
    · exact ConvertEthTx.convert_eq_ok.mpr ⟨c, hcall, hsource, hfee, hera, rfl, rfl⟩
    · rcases haddr with rfl | ⟨i, rfl, heq⟩
      · exact r.pallet.lookup_eq_ok.mpr (Or.inl rfl)
      · exact r.pallet.lookup_eq_ok.mpr (Or.inr ⟨i, rfl, heq.symm⟩)

section fee_check
variable {r} {x : Extrinsic} {addr : MultiAddress}
  {sig : List.Vector UInt8 65} {extra : SignedExtra} {c : Pallet.Call} {source : H160}

/-- A failed fee check is the first error there can be for a call that
    names its source. -/
theorem check_fee_error {e : InvalidTransaction}
    (hsig : x.signature = some (addr, .Ethereum sig, extra)) (hc : x.function = .ContractsEvm c)
    (hsource : c.source = some source) (hfee : r.convert_eth_tx.fee_check c = .err e) :
    r.check x = .err (.Invalid e) := by
  unfold check UncheckedExtrinsic.check
  rw [hsig, hc]
  simp [checker, ConvertEthTx.convert_contracts_evm, hsource, hfee, Outcome.map_err]

theorem check_fee_panic
    (hsig : x.signature = some (addr, .Ethereum sig, extra)) (hc : x.function = .ContractsEvm c)
    (hsource : c.source = some source) (hfee : r.convert_eth_tx.fee_check c = .panic) :
    r.check x = .panic := by
  unfold check UncheckedExtrinsic.check
  rw [hsig, hc]
  simp [checker, ConvertEthTx.convert_contracts_evm, hsource, hfee, Outcome.map_err]

end fee_check

end Runtime

/-! ## A sample runtime

    Contracts that all return the same value, over a state of no content. -/

namespace Sample

/-- Every execution consumes nothing and returns `output`. -/
def contracts (code_hash : AccountId → Option H256) (output : ExecReturnValue) :
    Contracts Unit where
  code_hash _ := code_hash
  bare_call _ s := (⟨⟨0, 0⟩, ⟨1000, 0⟩, .Charge 0, .ok output⟩, s)
  bare_instantiate _ s := (⟨⟨0, 0⟩, ⟨1000, 0⟩, .Charge 0, .ok ⟨output, account⟩⟩, s)
  transfer _ _ _ s := (.ok (), s)
  weight_instantiate_with_code _ _ _ := ⟨3000000, 0⟩
  weight_call := ⟨1000000, 0⟩

/-- A runtime over these contracts. -/
def runtime_with (code_hash : AccountId → Option H256) (output : ExecReturnValue) :
    Runtime TableDigest Unit where
  host := table.host
  contracts := contracts code_hash output
  block_weights := ⟨none, ⟨2000000000000, 0⟩⟩
  profile := .checked
  generic_check _ := .err (.Invalid .BadProof)

/-- A runtime without contracts. -/
def runtime : Runtime TableDigest Unit := runtime_with (fun _ => none) ⟨0, []⟩

/-- The call that stands for `call 1 596`. -/
def eth_call (gas_limit : Weight) (storage_deposit_limit : Option Balance) : EthCall where
  source := some signer
  «to» := recipient
  data := ⟨[], by decide⟩
  eth_value := 5000000
  eth_gas_price := 1000
  eth_gas_limit := 21000
  gas_limit := gas_limit
  storage_deposit_limit := storage_deposit_limit

/-- The input, code or salt of zero bytes. -/
def no_bytes : Scale.Vec := ⟨[], by decide⟩

/-- The deployment that stands for both signed deployments. -/
def eth_instantiate : EthInstantiate where
  source := some signer
  code := ⟨[], by decide⟩
  data := ⟨[], by decide⟩
  salt := ⟨[], by decide⟩
  eth_value := 0
  eth_gas_price := 1000
  eth_gas_limit := 21000
  gas_limit := ⟨1000000, 0⟩
  storage_deposit_limit := some 0

/-- An extrinsic with the call. -/
def extrinsic (addr : MultiAddress) (sig : List.Vector UInt8 65) (gas_limit : Weight)
    (storage_deposit_limit : Option Balance) (tip : Balance) :
    Extrinsic where
  signature := some (addr, .Ethereum sig, ⟨.Immortal, 1, tip⟩)
  function := .ContractsEvm (.eth_call (eth_call gas_limit storage_deposit_limit))

end Sample

end EthRpc
