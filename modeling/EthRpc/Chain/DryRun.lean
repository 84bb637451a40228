import EthRpc.Chain.Runtime

/-! # Dry runs

    What `gas_estimate` runs, and how it classifies the result of an
    execution, next to how the dispatchables classify it.

    An execution has two layers of failure: the outer error, and the flag of
    a returned value that says the contract reverted. The dry run looks at
    both, the dispatchables only at the first.
-/

namespace EthRpc

/-! ## What a dry run executes -/

/-- The result of a dry run, from the result of its execution: both the
    outer error and a reverted value are failures. -/
def dry_run_result {α : Type} (value : α → ExecReturnValue) (exec : ContractResult α) :
    Except DispatchError DryRunInfo :=
  exec.result.bind fun v =>
    if (value v).did_revert then .error .ContractReverted
    else .ok ⟨exec.gas_required, some exec.storage_deposit.charge_or_zero, (value v).data⟩

namespace Pallet

variable {Digest S : Type} {p : Pallet Digest S} {tx : GenericTransaction} {source : H160}
  {value : Balance}

/-- The input of a dry run; absent means empty. -/
def dry_run_input (tx : GenericTransaction) : List UInt8 := (tx.input.map ByteVec.data).getD []

/-- A dry run of a transfer to an account without a contract runs nothing,
    whatever the value. -/
theorem gas_estimate_transfer {dest : H160} (s : S) (hfrom : tx.from = some source)
    (hto : tx.to = some dest)
    (hcode : p.contracts.code_hash s (get_account_id p.host dest) = none) :
    p.gas_estimate tx s = ⟨.ok ⟨eth_transfer_weight, none, []⟩, s, []⟩ := by
  unfold gas_estimate
  simp [hfrom, hto, hcode]

/-- A dry run of a call runs `bare_call`; the returned value must not have
    reverted. -/
theorem gas_estimate_call {dest : H160} {code_hash : H256} (s : S)
    (hfrom : tx.from = some source) (hto : tx.to = some dest)
    (hcode : p.contracts.code_hash s (get_account_id p.host dest) = some code_hash)
    (hvalue : dry_run_value tx.value = .ok value) :
    p.gas_estimate tx s =
      let args := p.dry_run_call_args (get_account_id p.host source) (get_account_id p.host dest)
        value (dry_run_input tx)
      let exec := p.contracts.bare_call args s
      ⟨dry_run_result id exec.1, exec.2, [.bare_call args]⟩ := by
  -- straight-line up to the result of the execution
  unfold gas_estimate dry_run_exec bare_call dry_run_result
  simp only [hfrom, hto, hcode, hvalue, Traced.lift_ok, Traced.pure_bind_apply,
    Traced.read_bind_apply, Option.isNone_some, Bool.false_eq_true, if_false,
    Traced.call_bind_apply, dry_run_input]
  cases hr : (p.contracts.bare_call (p.dry_run_call_args (get_account_id p.host source)
      (get_account_id p.host dest) value ((tx.input.map ByteVec.data).getD [])) s).1.result with
  | error e => simp [Except.bind]
  | ok v =>
    by_cases hrevert : v.did_revert
    · simp [Except.bind, hrevert]
    · simp [Except.bind, hrevert]

/-- A dry run of a deployment runs `bare_instantiate`; the returned value
    must not have reverted. -/
theorem gas_estimate_instantiate {input : CallInput} {rest : List UInt8} (s : S)
    (hfrom : tx.from = some source) (hto : tx.to = none)
    (hinput : CallInput.decode (dry_run_input tx) = some (input, rest))
    (hvalue : dry_run_value tx.value = .ok value) :
    p.gas_estimate tx s =
      let args := p.dry_run_instantiate_args (get_account_id p.host source) value input
      let exec := p.contracts.bare_instantiate args s
      ⟨dry_run_result InstantiateReturnValue.result exec.1, exec.2,
        [.bare_instantiate args]⟩ := by
  have hsplit : split_input_data ((tx.input.map ByteVec.data).getD []) = .ok input := by
    unfold split_input_data
    unfold dry_run_input at hinput
    rw [hinput]
  unfold gas_estimate dry_run_exec bare_instantiate dry_run_result
  simp only [hfrom, hto, hvalue, hsplit, Traced.lift_ok, Traced.pure_bind_apply,
    Traced.read_bind_apply, Bool.false_eq_true, if_false, Traced.call_bind_apply]
  cases hr : (p.contracts.bare_instantiate (p.dry_run_instantiate_args
      (get_account_id p.host source) value input) s).1.result with
  | error e => simp [Except.bind]
  | ok v =>
    by_cases hrevert : v.result.did_revert
    · simp [Except.bind, hrevert]
    · simp [Except.bind, hrevert]

end Pallet

/-! ## Classification of results -/

/-- The execution itself went through, and its value says it reverted. -/
def reverted {α : Type} (value : α → ExecReturnValue) : Except DispatchError α → Bool
  | .ok v => (value v).did_revert
  | .error _ => false

/-- The dispatchables only see the outer error. -/
theorem is_ok_map {ε α β : Type} (x : Except ε α) (f : α → β) : (x.map f).isOk = x.isOk := by
  cases x with
  | ok a => rfl
  | error e => rfl

/-- The dry run also sees the flag of the value. -/
theorem is_ok_dry_run_result {α : Type} (value : α → ExecReturnValue) (exec : ContractResult α) :
    (dry_run_result value exec).isOk = (exec.result.isOk && !reverted value exec.result) := by
  unfold dry_run_result
  cases exec.result with
  | error e => rfl
  | ok v =>
    by_cases hrevert : (value v).did_revert
    · simp [Except.bind, reverted, hrevert, Except.isOk, Except.toBool]
    · simp [Except.bind, reverted, hrevert, Except.isOk, Except.toBool]

/-- Seeing the flag makes a difference exactly when it is set. -/
theorem is_ok_agree_iff {α : Type} (value : α → ExecReturnValue) (x : Except DispatchError α) :
    (x.isOk = (x.isOk && !reverted value x)) ↔ reverted value x = false := by
  cases x with
  | error e => simp [reverted, Except.isOk, Except.toBool]
  | ok v => simp [reverted, Except.isOk, Except.toBool]

namespace Pallet

variable {Digest S : Type} {p : Pallet Digest S}

/-- **Reverts.** Where a dispatch and a dry run get the same result from the
    contract, they agree on whether it is a success exactly if it is not a
    value that has reverted; this holds of calls and of deployments. -/
theorem revert_classified_iff :
    (∀ (c : EthCall) (origin : Origin) (account : AccountId) (value : Balance) (code_hash : H256)
        (tx : GenericTransaction) (source : H160) (dry_value : Balance) (s : S)
        (result : Except DispatchError ExecReturnValue),
      p.ensure_signed_source origin c.source = .ok account →
      Converter.convert_decimals_from_evm p.DECIMALS_VALUE c.eth_value = some value →
      p.contracts.code_hash s (get_account_id p.host c.to) = some code_hash →
      tx.from = some source → tx.to = some c.to → dry_run_value tx.value = .ok dry_value →
      (p.contracts.bare_call (call_args account (get_account_id p.host c.to) value c) s).1.result =
        result →
      (p.contracts.bare_call (p.dry_run_call_args (get_account_id p.host source)
        (get_account_id p.host c.to) dry_value (dry_run_input tx)) s).1.result = result →
      ((p.eth_call origin c s).result.isOk = (p.gas_estimate tx s).result.isOk ↔
        reverted id result = false)) ∧
    (∀ (c : EthInstantiate) (origin : Origin) (account : AccountId) (value : Balance)
        (tx : GenericTransaction) (source : H160) (dry_value : Balance) (input : CallInput)
        (rest : List UInt8) (s : S) (result : Except DispatchError InstantiateReturnValue),
      p.ensure_signed_source origin c.source = .ok account →
      Converter.convert_decimals_from_evm p.DECIMALS_VALUE c.eth_value = some value →
      tx.from = some source → tx.to = none → dry_run_value tx.value = .ok dry_value →
      CallInput.decode (dry_run_input tx) = some (input, rest) →
      (p.contracts.bare_instantiate (instantiate_args account value c) s).1.result = result →
      (p.contracts.bare_instantiate (p.dry_run_instantiate_args (get_account_id p.host source)
        dry_value input) s).1.result = result →
      ((p.eth_instantiate origin c s).result.isOk = (p.gas_estimate tx s).result.isOk ↔
        reverted InstantiateReturnValue.result result = false)) := by
  constructor
  · intro c origin account value code_hash tx source dry_value s result ho hv hcode hfrom hto
      hvalue hexec hdry
    rw [eth_call_run s ho hv hcode, gas_estimate_call s hfrom hto hcode hvalue]
    simp only
    rw [is_ok_map, is_ok_dry_run_result, hexec, hdry]
    exact is_ok_agree_iff id result
  · intro c origin account value tx source dry_value input rest s result ho hv hfrom hto hvalue
      hinput hexec hdry
    rw [eth_instantiate_run s ho hv, gas_estimate_instantiate s hfrom hto hinput hvalue]
    simp only
    rw [is_ok_map, is_ok_dry_run_result, hexec, hdry]
    exact is_ok_agree_iff InstantiateReturnValue.result result

/-- A transfer of the sample call's value, to be dry run. -/
def sample_tx : GenericTransaction where
  «from» := some Sample.signer
  input := none
  nonce := none
  «to» := some Sample.recipient
  value := some 5000000

/-- A deployment of three empty vectors, to be dry run. -/
def sample_deployment_tx : GenericTransaction where
  «from» := some Sample.signer
  input := some Sample.short_input
  nonce := none
  «to» := none
  value := none

/-- A contract that returns, called and deployed: dispatch and dry run agree. -/
theorem revert_classified_sample :
    let p := (Sample.runtime_with (fun _ => some Sample.call_1_hash) ⟨0, []⟩).pallet
    ((p.eth_call (.Signed Sample.account) (Sample.eth_call ⟨1000000, 0⟩ none) ()).result.isOk =
        (p.gas_estimate sample_tx ()).result.isOk ↔
      reverted id (.ok ⟨0, []⟩) = false) ∧
    ((p.eth_instantiate (.Signed Sample.account) Sample.eth_instantiate ()).result.isOk =
        (p.gas_estimate sample_deployment_tx ()).result.isOk ↔
      reverted InstantiateReturnValue.result (.ok ⟨⟨0, []⟩, Sample.account⟩) = false) := by
  intro p
  have h := revert_classified_iff (p := p)
  constructor
  · exact h.1 (Sample.eth_call ⟨1000000, 0⟩ none) (.Signed Sample.account) Sample.account 5000
      Sample.call_1_hash sample_tx Sample.signer 5000000 () (.ok ⟨0, []⟩) (by decide +kernel)
      (by decide +kernel) rfl rfl rfl (by decide +kernel) rfl rfl
  · exact h.2 Sample.eth_instantiate (.Signed Sample.account) Sample.account 0
      sample_deployment_tx Sample.signer 0 ⟨⟨[], by decide⟩, ⟨[], by decide⟩, ⟨[], by decide⟩⟩ [] ()
      (.ok ⟨⟨0, []⟩, Sample.account⟩) (by decide +kernel) (by decide +kernel) rfl rfl rfl
      (by decide +kernel) rfl rfl

/-- A contract that reverts, called and deployed: the dispatch succeeds, the
    dry run of the same execution fails. -/
theorem revert_dispatched_ok :
    let p := (Sample.runtime_with (fun _ => some Sample.call_1_hash) ⟨1, []⟩).pallet
    (p.eth_call (.Signed Sample.account) (Sample.eth_call ⟨1000000, 0⟩ none) ()).result.isOk ∧
      (p.gas_estimate sample_tx ()).result = .error .ContractReverted ∧
      (p.eth_instantiate (.Signed Sample.account) Sample.eth_instantiate ()).result.isOk ∧
      (p.gas_estimate sample_deployment_tx ()).result = .error .ContractReverted := by
  decide +kernel

end Pallet

end EthRpc
