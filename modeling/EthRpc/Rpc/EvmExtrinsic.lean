import EthRpc.Chain.Runtime

/-! # Receipts of deployments

    The RPC server finds out from the bytes of an extrinsic who it is from,
    where it goes and, for a deployment, the address of the contract, which
    the runtime derives from the signing account.

    The server takes that account from the address field, and only if the
    field is an account: of the two forms the runtime's lookup resolves, a
    deployment addressed in the other one gets no receipt.
-/

namespace EthRpc

/-- The `pallet_contracts_evm` extrinsics. -/
inductive EvmExtrinsic where
  | Instantiate (payload : EthInstantiate) (address_bytes : List UInt8)
  | Call (call : EthCall)
  deriving DecidableEq

/-- The receipt info extracted from an extrinsic. -/
structure ExtrinsicReceiptInfo where
  «from» : H160
  «to» : Option H160
  contract_address : Option H160
  gas_price : BitVec 64
  deriving DecidableEq

namespace EvmExtrinsic

variable {Digest : Type} (host : Host Digest)

/-- Extract the receipt info from the extrinsic. -/
def into_receipt_info : EvmExtrinsic → Option ExtrinsicReceiptInfo
  | .Call call => do
    let source ← call.source
    return {
      «from» := source
      «to» := some call.to
      contract_address := none
      gas_price := call.eth_gas_price }
  | .Instantiate payload address_bytes => do
    let code_hash := host.blake2_256 payload.code.data
    -- what is left behind the address is not looked at
    let (address, _) ← MultiAddress.decode address_bytes
    match address with
    | .Id id =>
      let contract_address := evm_contract_address host id code_hash payload.data payload.salt
      let source ← payload.source
      return {
        «from» := source
        «to» := none
        contract_address := some contract_address
        gas_price := payload.eth_gas_price }
    | _ => none

/-- A deployment has a receipt if its address is an account and it names its
    source. The contract's address is derived from that account. -/
theorem into_receipt_info_instantiate {payload : EthInstantiate} {addr : MultiAddress}
    {info : ExtrinsicReceiptInfo} (hraw : ∀ bytes, addr = .Raw bytes → bytes.length < 2 ^ 32) :
    into_receipt_info host (.Instantiate payload addr.encode) = some info ↔
      ∃ id source, addr = .Id id ∧ payload.source = some source ∧
        info = ⟨source, none, some (evm_contract_address host id
          (host.blake2_256 payload.code.data) payload.data payload.salt), payload.eth_gas_price⟩ := by
  have hdecode := MultiAddress.decode_encode addr [] hraw
  rw [List.append_nil] at hdecode
  simp only [into_receipt_info, hdecode, Option.bind_eq_bind, Option.bind_some]
  cases addr with
  | Id id =>
    cases payload.source with
    | none => simp
    | some source => simp [eq_comm]
  | Index index => simp
  | Raw bytes => simp
  | Address32 bytes => simp
  | Address20 bytes => simp

/-- The receipt info of a deployment names the contract that the runtime
    derives for the deployer. -/
def RightReceipt (payload : EthInstantiate) (address_bytes : List UInt8) (deployer : AccountId) :
    Prop :=
  ∃ info a, into_receipt_info host (.Instantiate payload address_bytes) = some info ∧
    info.contract_address = some a ∧
    get_account_id host a = EvmAddressGenerator.contract_address host deployer
      (host.blake2_256 payload.code.data) payload.data payload.salt

end EvmExtrinsic

/-! ## Accepted deployments -/

/-- A deployment without code, data or salt, signed and addressed. -/
def Sample.deployment_extrinsic (addr : MultiAddress) (sig : List.Vector UInt8 65) : Extrinsic where
  signature := some (addr, .Ethereum sig, ⟨.Immortal, 0, 0⟩)
  function := .ContractsEvm (.eth_instantiate eth_instantiate)

namespace Runtime

variable {Digest S : Type} {r : Runtime Digest S}

/-- **Deployments.** An accepted deployment gets the right receipt exactly
    if its address field is an account. -/
theorem right_receipt_iff {x : Extrinsic} {addr : MultiAddress} {sig : List.Vector UInt8 65}
    {extra extra' : SignedExtra} {payload : EthInstantiate} {deployer : AccountId}
    {checked : CheckedExtrinsic RuntimeCall SignedExtra}
    (hsig : x.signature = some (addr, .Ethereum sig, extra))
    (hcall : x.function = .ContractsEvm (.eth_instantiate payload))
    (hcheck : r.check x = .ok checked) (hsigned : checked.signed = some (deployer, extra')) :
    EvmExtrinsic.RightReceipt r.host payload addr.encode deployer ↔ ∃ id, addr = .Id id := by
  -- of the forms of an address, two are accepted
  obtain ⟨c, source, hc, hsource, -, -, -, haddr, rfl⟩ := (r.check_ethereum hsig).mp hcheck
  rw [hcall] at hc
  cases hc
  cases hsigned
  have hraw : ∀ bytes, addr = .Raw bytes → bytes.length < 2 ^ 32 := by
    intro bytes hbytes
    subst hbytes
    rcases haddr with hid | ⟨i, hi, -⟩
    · cases hid
    · cases hi
  constructor
  · intro h
    obtain ⟨info, a, hinfo, -, -⟩ := h
    obtain ⟨id, -, hid, -, -⟩ := (EvmExtrinsic.into_receipt_info_instantiate r.host hraw).mp hinfo
    exact ⟨id, hid⟩
  · intro h
    obtain ⟨id, rfl⟩ := h
    -- an account stands for itself, so it is the signing account
    have hdeployer : id = get_account_id r.host source := by
      rcases haddr with hid | ⟨i, hi, -⟩
      · cases hid
        rfl
      · cases hi
    subst hdeployer
    exact ⟨_, _, (EvmExtrinsic.into_receipt_info_instantiate r.host hraw).mpr
      ⟨_, source, rfl, hsource, rfl⟩, rfl, rfl⟩

/-- The deployment with the signer's account in its address field. -/
theorem right_receipt_iff_sample :
    EvmExtrinsic.RightReceipt Sample.runtime.host Sample.eth_instantiate
      (MultiAddress.Id Sample.account).encode Sample.account := by
  have hcheck : Sample.runtime.check (Sample.deployment_extrinsic (.Id Sample.account)
      (Sample.signature Sample.signed_short_deployment 0)) =
        .ok ⟨some (Sample.account, ⟨.Immortal, 0, 0⟩),
          .ContractsEvm (.eth_instantiate Sample.eth_instantiate)⟩ := by
    decide +kernel
  exact (right_receipt_iff rfl rfl hcheck rfl).mpr ⟨_, rfl⟩

/-- The same deployment, with the signer's address in that field, is accepted
    too, from the same account, and gets no receipt. -/
theorem deployment_without_receipt :
    Sample.runtime.check (Sample.deployment_extrinsic (.Address20 Sample.signer)
        (Sample.signature Sample.signed_short_deployment 0)) =
      .ok ⟨some (Sample.account, ⟨.Immortal, 0, 0⟩),
        .ContractsEvm (.eth_instantiate Sample.eth_instantiate)⟩ ∧
    EvmExtrinsic.into_receipt_info Sample.runtime.host
      (.Instantiate Sample.eth_instantiate (MultiAddress.Address20 Sample.signer).encode) = none ∧
    ¬ EvmExtrinsic.RightReceipt Sample.runtime.host Sample.eth_instantiate
      (MultiAddress.Address20 Sample.signer).encode Sample.account := by
  have hnone : EvmExtrinsic.into_receipt_info Sample.runtime.host
      (.Instantiate Sample.eth_instantiate (MultiAddress.Address20 Sample.signer).encode) =
        none := by
    decide +kernel
  refine ⟨by decide +kernel, hnone, ?_⟩
  intro h
  obtain ⟨info, a, hinfo, -, -⟩ := h
  rw [hnone] at hinfo
  cases hinfo

end Runtime

end EthRpc
