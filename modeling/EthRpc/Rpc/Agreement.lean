import EthRpc.Rpc.Send

/-! # The server and the runtime agree on the signed message

    The server takes a signed transaction apart and sends the pieces as a
    call; the runtime puts the pieces together again and checks the
    signature over the result. The signature survives exactly when the
    message does.

    * `call_message_agrees`: for a transaction with a recipient it does.
    * `deployment_message_agrees_iff`: for a deployment it does exactly
      when nothing follows the three vectors of its input.
-/

namespace EthRpc

/-! ## The rebuilt message -/

/-- A call built for a transaction with a recipient stands for that
    transaction. -/
theorem rebuild_of_call {eth_addr dest : H160} {tx : TransactionLegacyUnsigned}
    {limits : DryRunInfo} {c : Pallet.Call} (hto : tx.to = some dest)
    (hchain : tx.chain_id = some (ChainId.setWidth 256))
    (h : build_call eth_addr tx limits = .ok c) : c.rebuild tx.nonce = tx := by
  obtain ⟨e, rfl, -, rfl, hdata, hvalue, hprice, hgas, -, -⟩ := build_call_some hto h
  obtain ⟨chain_id, gas, gas_price, input, nonce, dest, ⟨⟩, value⟩ := tx
  simp only at hto hchain hdata hvalue hprice hgas
  simp only [Pallet.Call.rebuild, TransactionLegacyUnsigned.from_call,
    TransactionLegacyUnsigned.mk.injEq, setWidth_try_into hvalue, setWidth_try_into hprice,
    setWidth_try_into hgas, hto, hchain, true_and, and_true]
  exact ByteVec.ext hdata

/-- A call built for a deployment stands for that deployment, but for its
    input, which is the encoding of what the input decoded to. -/
theorem rebuild_of_deployment {eth_addr : H160} {tx : TransactionLegacyUnsigned}
    {limits : DryRunInfo} {c : Pallet.Call} (hto : tx.to = none)
    (hchain : tx.chain_id = some (ChainId.setWidth 256))
    (h : build_call eth_addr tx limits = .ok c) :
    ∃ (input : CallInput) (rest : List UInt8),
      CallInput.decode tx.input.data = some (input, rest) ∧
      ∀ nonce, c.rebuild nonce =
        { tx with input := ⟨input.encode, input.encode_length_lt⟩, nonce := nonce } := by
  obtain ⟨e, rest, rfl, -, hinput, hvalue, hprice, hgas, -, -⟩ := build_call_none hto h
  refine ⟨_, rest, hinput, fun nonce => ?_⟩
  obtain ⟨chain_id, gas, gas_price, input, nonce', dest, ⟨⟩, value⟩ := tx
  simp only at hto hchain hvalue hprice hgas
  simp only [Pallet.Call.rebuild, TransactionLegacyUnsigned.from_instantiate,
    setWidth_try_into hvalue, setWidth_try_into hprice, setWidth_try_into hgas, hto, hchain]

/-- The input of a deployment ends where its third vector ends. -/
def CallInput.NothingFollows (l : List UInt8) : Prop :=
  ∃ input, CallInput.decode l = some (input, [])

/-- What the decoder leaves over is what the encoder does not give back. -/
theorem CallInput.encode_eq_iff {l rest : List UInt8} {input : CallInput}
    (h : CallInput.decode l = some (input, rest)) :
    input.encode = l ↔ CallInput.NothingFollows l := by
  -- `l` is the encoding with `rest` behind it
  have hl := CallInput.encode_of_decode h
  constructor
  · intro hself
    rw [hl] at hself
    obtain rfl : rest = [] := List.append_right_eq_self.mp hself.symm
    exact ⟨input, h⟩
  · intro hnothing
    obtain ⟨input', h'⟩ := hnothing
    rw [h] at h'
    injection h' with h'
    injection h' with _ hrest
    rw [hl, hrest, List.append_nil]

/-! ## The runtime's check of a submission -/

variable {Digest S : Type} {r : Runtime Digest S} {client : Client Digest} {transaction : Bytes}
  {x : Extrinsic} {tx : TransactionLegacySigned} {eth_addr : H160}
  {sig : List.Vector UInt8 65} {limits : DryRunInfo} {c : Pallet.Call}

theorem Submission.source (h : Submission client transaction x tx eth_addr sig limits c) :
    c.source = some eth_addr := by
  cases hto : tx.transaction_legacy_unsigned.to with
  | none =>
    obtain ⟨e, rest, rfl, hsource, -⟩ := build_call_none hto h.call
    exact hsource
  | some dest =>
    obtain ⟨e, rfl, hsource, -⟩ := build_call_some hto h.call
    exact hsource

/-- The signature that is forwarded recovers to the sender the server found. -/
theorem Submission.recover_signer (h : Submission client transaction x tx eth_addr sig limits c)
    (hhost : client.host = r.host) (hagree : r.host.RecoverAgrees) :
    tx.transaction_legacy_unsigned.recover_signer r.host sig = some eth_addr :=
  TransactionLegacySigned.recover_signer_raw_signature r.host hagree (hhost ▸ h.recovered)
    h.raw_signature

/-- If the rebuilt message is the signed one and the fee check passes, the
    runtime accepts what was submitted. -/
theorem Submission.check (h : Submission client transaction x tx eth_addr sig limits c)
    (hhost : client.host = r.host) (hagree : r.host.RecoverAgrees)
    (hrebuild : c.rebuild ((client.node.account_nonce
      (get_account_id client.host eth_addr)).setWidth 256) = tx.transaction_legacy_unsigned)
    (hfee : r.convert_eth_tx.fee_check c = .ok ()) :
    r.check x = .ok ⟨some (get_account_id r.host eth_addr,
      ⟨.Immortal, client.node.account_nonce (get_account_id client.host eth_addr), 0⟩),
      x.function⟩ := by
  have hrecover := h.recover_signer hhost hagree
  refine (r.check_ethereum h.signature).mpr
    ⟨c, eth_addr, h.function, h.source, hfee, rfl, ?_, Or.inl ?_, rfl⟩
  · rw [hrebuild]
    exact hrecover
  · rw [hhost]

/-! ## Transactions with a recipient -/

/-- **Agreement on calls.** A transaction with a recipient, for this chain,
    submitted under the nonce that was signed, is rebuilt field by field:
    the forwarded signature recovers to the sender the server found, and
    the runtime accepts with the account the server addressed. -/
theorem call_message_agrees {addr : MultiAddress} {signature : MultiSignature}
    {extra : SignedExtra} (hhost : client.host = r.host) (hagree : r.host.RecoverAgrees)
    (htx : TransactionLegacySigned.decode transaction = .ok tx)
    (hto : tx.transaction_legacy_unsigned.to ≠ none)
    (hchain : tx.transaction_legacy_unsigned.chain_id = some (ChainId.setWidth 256))
    (hx : client.raw_extrinsic transaction = .ok x)
    (hextra : x.signature = some (addr, signature, extra))
    (hera : extra.check_era = .Immortal)
    (hnonce : extra.check_nonce.setWidth 256 = tx.transaction_legacy_unsigned.nonce)
    (hfee : ∀ c, x.function = .ContractsEvm c → r.convert_eth_tx.fee_check c = .ok ()) :
    ∃ eth_addr sig, tx.recover_eth_address r.host = .ok eth_addr ∧ tx.raw_signature = .ok sig ∧
      signature = .Ethereum sig ∧
      r.convert_eth_tx.convert x.function extra =
        .ok (.TransactionLegacyUnsigned tx.transaction_legacy_unsigned, eth_addr, extra) ∧
      tx.transaction_legacy_unsigned.recover_signer r.host sig = some eth_addr ∧
      addr = .Id (get_account_id r.host eth_addr) ∧
      r.check x = .ok ⟨some (get_account_id r.host eth_addr, extra), x.function⟩ := by
  obtain ⟨eth_addr, sig, limits, c, hsub⟩ := Client.submission_of_decoded htx hx
  have hsame := hsub.signature.symm.trans hextra
  simp only [Option.some.injEq, Prod.mk.injEq] at hsame
  obtain ⟨rfl, rfl, rfl⟩ := hsame
  -- the extension's nonce is the one that was signed, so every field comes back
  obtain ⟨dest, hdest⟩ := Option.ne_none_iff_exists'.mp hto
  have hrebuild := rebuild_of_call hdest hchain hsub.call
  rw [← hnonce] at hrebuild
  refine ⟨eth_addr, sig, hhost ▸ hsub.recovered, hsub.raw_signature, rfl, ?_,
    hsub.recover_signer hhost hagree, by rw [hhost],
    hsub.check hhost hagree hrebuild (hfee c hsub.function)⟩
  exact ConvertEthTx.convert_eq_ok.mpr ⟨c, hsub.function, hsub.source, hfee c hsub.function, hera,
    rfl, by rw [hrebuild]⟩

/-- The sample call, submitted under the nonce it was signed with. -/
theorem call_message_agrees_sample :
    let x := Sample.submitted_call (Sample.signature Sample.signed_call_1 0) 1
    ∃ eth_addr sig,
      Sample.signed_call_1.recover_eth_address Sample.runtime.host = .ok eth_addr ∧
      Sample.signed_call_1.raw_signature = .ok sig ∧
      MultiSignature.Ethereum (Sample.signature Sample.signed_call_1 0) = .Ethereum sig ∧
      Sample.runtime.convert_eth_tx.convert x.function ⟨.Immortal, 1, 0⟩ =
        .ok (.TransactionLegacyUnsigned Sample.signed_call_1.transaction_legacy_unsigned, eth_addr,
          ⟨.Immortal, 1, 0⟩) ∧
      Sample.signed_call_1.transaction_legacy_unsigned.recover_signer Sample.runtime.host sig =
        some eth_addr ∧
      MultiAddress.Id Sample.account = .Id (get_account_id Sample.runtime.host eth_addr) ∧
      Sample.runtime.check x =
        .ok ⟨some (get_account_id Sample.runtime.host eth_addr, ⟨.Immortal, 1, 0⟩),
          x.function⟩ := by
  intro x
  have hhost : (Sample.client 1).host = Sample.runtime.host := rfl
  have htx : TransactionLegacySigned.decode Sample.raw_call_1 = .ok Sample.signed_call_1 := by
    decide +kernel
  have hx : (Sample.client 1).raw_extrinsic Sample.raw_call_1 = .ok x := by decide +kernel
  refine call_message_agrees hhost Sample.table.recover_agrees htx (by decide) rfl hx rfl rfl
    (by decide) ?_
  intro c hc
  cases hc
  decide +kernel

/-! ## Deployments -/

/-- **Agreement on deployments.** The message rebuilt from the submission
    of a deployment has the input that was signed exactly if nothing
    follows the three vectors of that input; and under the nonce that was
    signed, exactly then it is the message that was signed. -/
theorem deployment_message_agrees_iff {extra extra' : SignedExtra}
    {msg : TransactionLegacyUnsigned} {source : H160}
    (htx : TransactionLegacySigned.decode transaction = .ok tx)
    (hto : tx.transaction_legacy_unsigned.to = none)
    (hchain : tx.transaction_legacy_unsigned.chain_id = some (ChainId.setWidth 256))
    (hx : client.raw_extrinsic transaction = .ok x)
    (hconvert : r.convert_eth_tx.convert x.function extra =
      .ok (.TransactionLegacyUnsigned msg, source, extra')) :
    (msg.input = tx.transaction_legacy_unsigned.input ↔
      CallInput.NothingFollows tx.transaction_legacy_unsigned.input.data) ∧
    (extra.check_nonce.setWidth 256 = tx.transaction_legacy_unsigned.nonce →
      (msg = tx.transaction_legacy_unsigned ↔
        CallInput.NothingFollows tx.transaction_legacy_unsigned.input.data)) := by
  obtain ⟨eth_addr, sig, limits, c, hsub⟩ := Client.submission_of_decoded htx hx
  rw [hsub.function] at hconvert
  obtain ⟨-, -, -, -, hmsg⟩ := ConvertEthTx.convert_contracts_evm_eq_ok.mp hconvert
  obtain ⟨input, rest, hinput, hrebuild⟩ := rebuild_of_deployment hto hchain hsub.call
  rw [hrebuild] at hmsg
  cases hmsg
  -- the rebuilt input is the encoding of what the signed one decoded to
  have hbytes : (⟨input.encode, input.encode_length_lt⟩ : Bytes) =
      tx.transaction_legacy_unsigned.input ↔
      CallInput.NothingFollows tx.transaction_legacy_unsigned.input.data := by
    rw [← CallInput.encode_eq_iff hinput]
    exact ⟨congrArg ByteVec.data, fun h => ByteVec.ext h⟩
  refine ⟨hbytes, fun hnonce => ?_⟩
  rw [← hbytes]
  constructor
  · intro hsame
    exact congrArg TransactionLegacyUnsigned.input hsame
  · intro hsame
    rw [hsame, hnonce]

/-- A deployment with nothing behind its three vectors. -/
theorem deployment_message_agrees_sample :
    ((Sample.deployment Sample.short_input).input =
        Sample.signed_short_deployment.transaction_legacy_unsigned.input ↔
      CallInput.NothingFollows Sample.short_input.data) ∧
    ((0 : BitVec 32).setWidth 256 = (0 : U256) →
      (Sample.deployment Sample.short_input =
          Sample.signed_short_deployment.transaction_legacy_unsigned ↔
        CallInput.NothingFollows Sample.short_input.data)) := by
  have htx : TransactionLegacySigned.decode Sample.raw_short_deployment =
      .ok Sample.signed_short_deployment := by decide +kernel
  have hx : (Sample.client 0).raw_extrinsic Sample.raw_short_deployment =
      .ok (Sample.submitted_deployment (Sample.signature Sample.signed_short_deployment 0)) := by
    decide +kernel
  have hconvert : Sample.runtime.convert_eth_tx.convert
      (.ContractsEvm (.eth_instantiate Sample.eth_instantiate)) ⟨.Immortal, 0, 0⟩ =
        .ok (.TransactionLegacyUnsigned (Sample.deployment Sample.short_input), Sample.signer,
          ⟨.Immortal, 0, 0⟩) := by decide +kernel
  exact deployment_message_agrees_iff htx rfl rfl hx hconvert

/-- A deployment whose input carries one byte more than its three vectors:
    the server submits it, and the runtime rebuilds another message and
    refuses the signature. -/
theorem deployment_reencoded :
    let x := Sample.submitted_deployment (Sample.signature Sample.signed_deployment 1)
    (Sample.client 0).raw_extrinsic Sample.raw_deployment = .ok x ∧
      Sample.runtime.convert_eth_tx.convert x.function ⟨.Immortal, 0, 0⟩ =
        .ok (.TransactionLegacyUnsigned (Sample.deployment Sample.short_input), Sample.signer,
          ⟨.Immortal, 0, 0⟩) ∧
      (Sample.deployment Sample.short_input).input ≠
        Sample.signed_deployment.transaction_legacy_unsigned.input ∧
      Sample.runtime.check x = .err (.Invalid .BadProof) := by
  refine ⟨?_, ?_, ?_, ?_⟩
  · decide +kernel
  · decide +kernel
  · decide +kernel
  · decide +kernel

end EthRpc
