import EthRpc.Chain.Runtime

/-! # Sending a raw transaction

    `send_raw_transaction`: decode a signed Ethereum transaction, recover
    its sender, dry run it, and submit it as an extrinsic of the contracts
    pallet that carries the Ethereum signature.

    `Node` gathers what the server asks the node. The extensions are filled
    in by the subxt library: the default parameters are immortal, without a
    tip, and give no nonce, so the nonce is the account's on-chain one.

    `raw_extrinsic_eq_ok` says what an extrinsic that gets as far as the
    submission is made of.
-/

namespace EthRpc

/-! ## Errors -/

/-- `ClientError`; errors of the libraries are told apart by a number. -/
inductive ClientError where
  | SubxtError (code : Nat)
  | RpcError (code : Nat)
  | CodecError
  | DryRunFailed
  | ConversionFailed
  | BlockNotFound
  | TxFeeNotFound
  | TokenDecimalsNotFound
  | CacheEmpty
  deriving DecidableEq, Repr

inductive EthRpcError where
  | ClientError (e : ClientError)
  | RlpError (e : Rlp.DecoderError)
  | ConversionError
  | InvalidSignature
  | AccountNotFound (address : H160)
  deriving DecidableEq

/-- An error on its way to the caller: of the server, or of the client. -/
inductive RequestError where
  | eth_rpc (e : EthRpcError)
  | client (e : ClientError)
  deriving DecidableEq

inductive ErrorCode where
  | InternalError
  | InvalidRequest
  deriving DecidableEq, Repr

/-- The code of the error object a request fails with. -/
def RequestError.code : RequestError → ErrorCode
  | .eth_rpc (.ClientError _) => .InternalError
  | .eth_rpc _ => .InvalidRequest
  | .client _ => .InternalError

/-! ## Extrinsic parameters -/

/-- `DefaultExtrinsicParamsBuilder`, once built. -/
structure ExtrinsicParams where
  mortality : Era
  nonce : Option (BitVec 32)
  tip : Balance
  deriving DecidableEq, Repr

/-- `DefaultExtrinsicParamsBuilder::default().build()`. -/
def ExtrinsicParams.default : ExtrinsicParams where
  mortality := .Immortal
  nonce := none
  tip := 0

structure EthSigner where
  account_id : AccountId
  signature : MultiSignature
  deriving DecidableEq

/-- `Signer::address`. -/
def EthSigner.address (s : EthSigner) : MultiAddress := .Id s.account_id

/-- `Signer::sign`: the signature is the one already made, whatever the payload. -/
def EthSigner.sign (s : EthSigner) (_signer_payload : List UInt8) : MultiSignature := s.signature

/-! ## The node, and the client connected to it -/

/-- What the server asks the node. -/
structure Node where
  /-- The runtime API `gas_estimate` at the latest block. -/
  gas_estimate : GenericTransaction → Except ClientError (Except DispatchError DryRunInfo)
  /-- The nonce of an account, on chain. -/
  account_nonce : AccountId → BitVec 32
  /-- The payload the signer is asked to sign. -/
  signer_payload : RuntimeCall → List UInt8
  submit : Extrinsic → Except ClientError H256

structure Client (Digest : Type) where
  host : Host Digest
  node : Node

namespace Client

variable {Digest : Type} (client : Client Digest)

/-- `Client::account_id`. -/
def account_id (address : H160) : AccountId := get_account_id client.host address

/-- `Client::dry_run`. The transaction is sent encoded, and the encoder
    panics on an input of `2 ^ 32` bytes or more. -/
def dry_run (tx : GenericTransaction) : Outcome ClientError DryRunInfo :=
  if ((tx.input.map ByteVec.data).getD []).length < 2 ^ 32 then
    match client.node.gas_estimate tx with
    | .ok (.ok info) => .ok info
    | .ok (.error _) => .err .DryRunFailed
    | .error e => .err e
  else .panic

/-- The extrinsic that `sign_and_submit` makes of a call: a nonce that the
    parameters do not give is the on-chain nonce of the signer's account. -/
def create_signed (call : RuntimeCall) (signer : EthSigner) (params : ExtrinsicParams) :
    Extrinsic where
  signature := some (signer.address, signer.sign (client.node.signer_payload call), {
    check_era := params.mortality
    check_nonce := params.nonce.getD (client.node.account_nonce signer.account_id)
    charge_transaction_payment := params.tip })
  function := call

end Client

/-! ## From the transaction to the extrinsic -/

/-- The transaction a dry run is asked for. -/
def TransactionLegacyUnsigned.to_generic (tx : TransactionLegacyUnsigned) (eth_addr : H160) :
    GenericTransaction where
  «from» := some eth_addr
  input := some tx.input
  nonce := some tx.nonce
  «to» := tx.to
  value := some tx.value

/-- A conversion to a narrower number, or `ConversionError`. -/
def convert_to {v : Nat} (w : Nat) (n : BitVec v) : Outcome RequestError (BitVec w) :=
  Outcome.ok_or (.eth_rpc .ConversionError) (try_into w n)

/-- The bytes of a call as a SCALE vector; the encoder panics when they are
    too many. -/
def to_scale_vec (b : Bytes) : Outcome RequestError Scale.Vec :=
  match ByteVec.ofList? b.data with
  | some v => .ok v
  | none => .panic

/-- The call of the contracts pallet for a transaction, with the limits of
    its dry run. -/
def build_call (eth_addr : H160) (tx : TransactionLegacyUnsigned) (limits : DryRunInfo) :
    Outcome RequestError Pallet.Call :=
  match tx.to with
  | some dest => do
    let input ← to_scale_vec tx.input
    let value ← convert_to 128 tx.value
    let eth_gas_price ← convert_to 64 tx.gas_price
    let eth_gas_limit ← convert_to 128 tx.gas
    return .eth_call {
      source := some eth_addr, «to» := dest, data := input, eth_value := value,
      eth_gas_price := eth_gas_price, eth_gas_limit := eth_gas_limit,
      gas_limit := limits.gas_limit, storage_deposit_limit := limits.storage_deposit_limit }
  | none => do
    -- bytes the decoder leaves over are dropped
    let (input, _) ← Outcome.ok_or (.client .CodecError) (CallInput.decode tx.input.data)
    let value ← convert_to 128 tx.value
    let eth_gas_price ← convert_to 64 tx.gas_price
    let eth_gas_limit ← convert_to 128 tx.gas
    return .eth_instantiate {
      source := some eth_addr, code := input.code, data := input.data, salt := input.salt,
      eth_value := value, eth_gas_price := eth_gas_price, eth_gas_limit := eth_gas_limit,
      gas_limit := limits.gas_limit, storage_deposit_limit := limits.storage_deposit_limit }

namespace Client

variable {Digest : Type} (client : Client Digest)

/-- `send_raw_transaction`, up to the submission. -/
def raw_extrinsic (transaction : Bytes) :
    Outcome RequestError (Extrinsic) := do
  let tx ← (TransactionLegacySigned.decode transaction).map_err fun e => .eth_rpc (.RlpError e)
  let eth_addr ←
    (tx.recover_eth_address client.host).map_err fun _ => .eth_rpc .InvalidSignature
  let signature ← tx.raw_signature.map_err fun _ => .eth_rpc .InvalidSignature
  let unsigned := tx.transaction_legacy_unsigned
  -- the signed nonce goes to the dry run, and nowhere else
  let limits ← (client.dry_run (unsigned.to_generic eth_addr)).map_err .client
  let signer : EthSigner := ⟨client.account_id eth_addr, .Ethereum signature⟩
  let call ← build_call eth_addr unsigned limits
  return client.create_signed (.ContractsEvm call) signer .default

/-- `send_raw_transaction`. -/
def send_raw_transaction (transaction : Bytes) : Outcome RequestError H256 := do
  let x ← client.raw_extrinsic transaction
  (Outcome.of_except (client.node.submit x)).map_err fun e => .eth_rpc (.ClientError e)

end Client

/-! ## What is submitted -/

/-- The parts of a submitted extrinsic: the decoded transaction, its sender,
    its raw signature, the limits of the dry run, and the call. -/
structure Submission {Digest : Type} (client : Client Digest) (transaction : Bytes)
    (x : Extrinsic) (tx : TransactionLegacySigned)
    (eth_addr : H160) (sig : List.Vector UInt8 65) (limits : DryRunInfo) (c : Pallet.Call) :
    Prop where
  decoded : TransactionLegacySigned.decode transaction = .ok tx
  recovered : tx.recover_eth_address client.host = .ok eth_addr
  raw_signature : tx.raw_signature = .ok sig
  dry_run : client.dry_run (tx.transaction_legacy_unsigned.to_generic eth_addr) = .ok limits
  call : build_call eth_addr tx.transaction_legacy_unsigned limits = .ok c
  function : x.function = .ContractsEvm c
  signature : x.signature = some (.Id (get_account_id client.host eth_addr), .Ethereum sig,
    ⟨.Immortal, client.node.account_nonce (get_account_id client.host eth_addr), 0⟩)

/-- **What an extrinsic that is submitted is made of.** -/
theorem Client.raw_extrinsic_eq_ok {Digest : Type} {client : Client Digest} {transaction : Bytes}
    {x : Extrinsic}
    (h : client.raw_extrinsic transaction = .ok x) :
    ∃ tx eth_addr sig limits c, Submission client transaction x tx eth_addr sig limits c := by
  -- one step of the chain after the other
  unfold raw_extrinsic at h
  obtain ⟨tx, htx, h⟩ := Outcome.bind_eq_ok.mp h
  obtain ⟨eth_addr, haddr, h⟩ := Outcome.bind_eq_ok.mp h
  obtain ⟨sig, hsig, h⟩ := Outcome.bind_eq_ok.mp h
  obtain ⟨limits, hlimits, h⟩ := Outcome.bind_eq_ok.mp h
  obtain ⟨c, hcall, h⟩ := Outcome.bind_eq_ok.mp h
  cases h
  exact ⟨tx, eth_addr, sig, limits, c, {
    decoded := Outcome.map_err_eq_ok.mp htx
    recovered := Outcome.map_err_eq_ok.mp haddr
    raw_signature := Outcome.map_err_eq_ok.mp hsig
    dry_run := Outcome.map_err_eq_ok.mp hlimits
    call := hcall
    function := rfl
    signature := rfl }⟩

/-- The same, for a transaction that is known to decode. -/
theorem Client.submission_of_decoded {Digest : Type} {client : Client Digest} {transaction : Bytes}
    {x : Extrinsic} {tx : TransactionLegacySigned}
    (htx : TransactionLegacySigned.decode transaction = .ok tx)
    (h : client.raw_extrinsic transaction = .ok x) :
    ∃ eth_addr sig limits c, Submission client transaction x tx eth_addr sig limits c := by
  obtain ⟨tx', eth_addr, sig, limits, c, hsub⟩ := Client.raw_extrinsic_eq_ok h
  have hsame : tx' = tx := by
    have := hsub.decoded.symm.trans htx
    injection this
  subst hsame
  exact ⟨eth_addr, sig, limits, c, hsub⟩

theorem convert_to_eq_ok {v w : Nat} {n : BitVec v} {m : BitVec w}
    (h : convert_to w n = .ok m) : try_into w n = some m :=
  Outcome.ok_or_eq_ok.mp h

theorem to_scale_vec_eq_ok {b : Bytes} {v : Scale.Vec} (h : to_scale_vec b = .ok v) :
    v.data = b.data := by
  unfold to_scale_vec at h
  split at h
  · next w hw =>
    cases h
    exact ByteVec.ofList?_eq_some hw
  · cases h

/-- The call built for a transaction with a recipient. -/
theorem build_call_some {eth_addr dest : H160} {tx : TransactionLegacyUnsigned}
    {limits : DryRunInfo} {c : Pallet.Call} (hto : tx.to = some dest)
    (h : build_call eth_addr tx limits = .ok c) :
    ∃ e : EthCall, c = .eth_call e ∧ e.source = some eth_addr ∧ e.to = dest ∧
      e.data.data = tx.input.data ∧ try_into 128 tx.value = some e.eth_value ∧
      try_into 64 tx.gas_price = some e.eth_gas_price ∧
      try_into 128 tx.gas = some e.eth_gas_limit ∧ e.gas_limit = limits.gas_limit ∧
      e.storage_deposit_limit = limits.storage_deposit_limit := by
  unfold build_call at h
  rw [hto] at h
  obtain ⟨input, hinput, h⟩ := Outcome.bind_eq_ok.mp h
  obtain ⟨value, hvalue, h⟩ := Outcome.bind_eq_ok.mp h
  obtain ⟨price, hprice, h⟩ := Outcome.bind_eq_ok.mp h
  obtain ⟨gas, hgas, h⟩ := Outcome.bind_eq_ok.mp h
  cases h
  exact ⟨_, rfl, rfl, rfl, to_scale_vec_eq_ok hinput, convert_to_eq_ok hvalue,
    convert_to_eq_ok hprice, convert_to_eq_ok hgas, rfl, rfl⟩

/-- The call built for a deployment, and what the input decoded to. -/
theorem build_call_none {eth_addr : H160} {tx : TransactionLegacyUnsigned} {limits : DryRunInfo}
    {c : Pallet.Call} (hto : tx.to = none) (h : build_call eth_addr tx limits = .ok c) :
    ∃ (e : EthInstantiate) (rest : List UInt8), c = .eth_instantiate e ∧
      e.source = some eth_addr ∧
      CallInput.decode tx.input.data = some (⟨e.code, e.data, e.salt⟩, rest) ∧
      try_into 128 tx.value = some e.eth_value ∧
      try_into 64 tx.gas_price = some e.eth_gas_price ∧
      try_into 128 tx.gas = some e.eth_gas_limit ∧ e.gas_limit = limits.gas_limit ∧
      e.storage_deposit_limit = limits.storage_deposit_limit := by
  unfold build_call at h
  rw [hto] at h
  obtain ⟨⟨input, rest⟩, hinput, h⟩ := Outcome.bind_eq_ok.mp h
  obtain ⟨value, hvalue, h⟩ := Outcome.bind_eq_ok.mp h
  obtain ⟨price, hprice, h⟩ := Outcome.bind_eq_ok.mp h
  obtain ⟨gas, hgas, h⟩ := Outcome.bind_eq_ok.mp h
  cases h
  exact ⟨_, rest, rfl, rfl, Outcome.ok_or_eq_ok.mp hinput, convert_to_eq_ok hvalue,
    convert_to_eq_ok hprice, convert_to_eq_ok hgas, rfl, rfl⟩

/-! ## A sample client -/

namespace Sample

/-- A node whose dry runs all return the same limits, with one nonce. -/
def client (nonce : BitVec 32) : Client TableDigest where
  host := table.host
  node := {
    gas_estimate := fun _ => .ok (.ok ⟨⟨1000000, 0⟩, some 0, []⟩)
    account_nonce := fun _ => nonce
    signer_payload := fun _ => []
    submit := fun _ => .ok (List.Vector.replicate 32 0) }

/-- The bytes of a signed transaction. -/
def raw (tx : TransactionLegacySigned) (h : tx.encode.length < 2 ^ 63) : Bytes := ⟨tx.encode, h⟩

def raw_call_0 : Bytes := raw signed_call_0 (by decide +kernel)

def raw_call_1 : Bytes := raw signed_call_1 (by decide +kernel)

def raw_deployment : Bytes := raw signed_deployment (by decide +kernel)

def raw_short_deployment : Bytes := raw signed_short_deployment (by decide +kernel)

/-- What the server submits for a signed call. -/
def submitted_call (sig : List.Vector UInt8 65) (nonce : BitVec 32) : Extrinsic where
  signature := some (.Id account, .Ethereum sig, ⟨.Immortal, nonce, 0⟩)
  function := .ContractsEvm (.eth_call (eth_call ⟨1000000, 0⟩ (some 0)))

/-- What the server submits for a signed deployment. -/
def submitted_deployment (sig : List.Vector UInt8 65) :
    Extrinsic where
  signature := some (.Id account, .Ethereum sig, ⟨.Immortal, 0, 0⟩)
  function := .ContractsEvm (.eth_instantiate eth_instantiate)

example : (client 1).raw_extrinsic raw_call_1 =
    .ok (submitted_call (signature signed_call_1 0) 1) := by decide +kernel

end Sample

end EthRpc
