import EthRpc.Api.SignRoundTrip
import EthRpc.Chain.Replay
import EthRpc.Rpc.Agreement
import EthRpc.Rpc.Wallet

/-! # Sending a transaction, from the wallet to the chain

    A wallet asks for the chain id, the gas price, its nonce and a gas
    estimate, signs a transaction made of the answers, and sends it. The
    server answers each request from the chain as it is at that moment, and
    blocks are imported in between.

    `send_transaction_admitted_iff`: what the server submits stands for the
    message that was signed, but under the nonce that the account has by
    then, and the chain admits it exactly if that is still the one the wallet
    was told.
-/

namespace EthRpc

/-! ## The account -/

/-- `Account`: a secret key, by what is done with it. -/
structure Account (Digest : Type) where
  host : Host Digest
  /-- The public key, serialized without its tag. -/
  public_key : PublicKey
  sign_ecdsa_recoverable : Digest → RecoverableSignature

namespace Account

variable {Digest : Type} (a : Account Digest)

/-- `Account::address`. -/
def address : H160 := a.host.hash_address (a.host.keccak_256 a.public_key.toList)

/-- The signature of a message. -/
def signature (tx : TransactionLegacyUnsigned) : RecoverableSignature :=
  a.sign_ecdsa_recoverable (a.host.keccak_256 tx.encode)

/-- `Account::sign_transaction`. -/
def sign_transaction {ε : Type} (tx : TransactionLegacyUnsigned) :
    Outcome ε TransactionLegacySigned :=
  TransactionLegacySigned.from tx (a.signature tx)

/-- What the library promises of the signature of a message. Recovery ids
    above one need an `r` that nobody can find. -/
structure Signs (tx : TransactionLegacyUnsigned) : Prop where
  recovery_id_le : (a.signature tx).recovery_id.val ≤ 1
  is_compact : a.host.is_compact (a.signature tx).compact = true
  recovers : a.host.recover_ecdsa (a.host.keccak_256 tx.encode) (a.signature tx) =
    some a.public_key

end Account

/-! ## The server, as a wallet sees it -/

/-- `GAS_PRICE`. -/
def GAS_PRICE : Balance := 1

/-- An account of the system pallet, as far as the server reads it. -/
structure AccountInfo where
  nonce : BitVec 32
  data : AccountData
  deriving DecidableEq, Repr

/-- The server during one request. -/
structure Server (Digest : Type) where
  client : Client Digest
  chain_id : BitVec 64
  /-- The account of the system pallet, at the latest block. -/
  account : AccountId → Except ClientError (Option AccountInfo)
  weight_to_fee : Weight → Except ClientError Balance
  profile : Profile

namespace Server

variable {Digest : Type} (server : Server Digest)

/-- `Client::nonce`. -/
def nonce (address : H160) : Except ClientError (BitVec 32) := do
  match ← server.account (server.client.account_id address) with
  | none => return 0
  | some account => return account.nonce

/-- `get_transaction_count`. -/
def get_transaction_count (address : H160) : Outcome RequestError U256 :=
  (Outcome.of_except ((server.nonce address).map (BitVec.setWidth 256))).map_err .client

/-- `estimate_gas`. -/
def estimate_gas (tx : GenericTransaction) : Outcome RequestError U256 :=
  (server.client.gas_estimate GAS_PRICE server.weight_to_fee server.profile tx).map_err .client

end Server

/-! ## The wallet -/

/-- The requests of a wallet, in their order. -/
inductive WalletRequest where
  | chain_id
  | gas_price
  | get_transaction_count
  | estimate_gas
  | send_raw_transaction
  deriving DecidableEq, Repr

/-- An error of a request, and what it was made for. -/
structure SendError where
  context : Option String
  error : RequestError
  deriving DecidableEq

/-- A transaction as bytes to send. -/
def to_raw (tx : TransactionLegacySigned) : Outcome SendError Bytes :=
  match ByteVec.ofList? tx.encode with
  | some raw => .ok raw
  | none => .panic

namespace Account

variable {Digest : Type} (a : Account Digest)

/-- What the gas is estimated of. -/
def estimated (value : U256) (input : Bytes) (dest : Option H160) : GenericTransaction where
  «from» := some a.address
  input := some input
  nonce := none
  «to» := dest
  value := some value

/-- `Account::send_transaction`. The server may be another one at each of
    the requests. -/
def send_transaction (server : WalletRequest → Server Digest) (value : U256) (input : Bytes)
    (dest : Option H160) : Outcome SendError H256 := do
  let chain_id : U256 := (server .chain_id).chain_id.setWidth 256
  let gas_price : U256 := GAS_PRICE.setWidth 256
  let nonce ← ((server .get_transaction_count).get_transaction_count a.address).map_err
    fun e => ⟨some "Failed to fetch account nonce", e⟩
  let gas ← ((server .estimate_gas).estimate_gas (a.estimated value input dest)).map_err
    fun e => ⟨some "Failed to fetch gas estimate", e⟩
  let unsigned_tx : TransactionLegacyUnsigned := {
    chain_id := some chain_id, gas := gas, gas_price := gas_price, input := input,
    nonce := nonce, «to» := dest, type := .mk, value := value }
  let tx ← a.sign_transaction unsigned_tx
  let bytes ← to_raw tx
  ((server .send_raw_transaction).client.send_raw_transaction bytes).map_err
    fun e => ⟨some "transaction failed", e⟩

end Account

/-! ## The chain behind the server -/

/-- What the fee check takes a dry run to cost. -/
def ConvertEthTx.cost (t : ConvertEthTx) (limits : DryRunInfo) : Nat :=
  (t.weight_to_fee limits.gas_limit).toNat + (limits.storage_deposit_limit.getD 0).toNat

/-- The server answers from this state of the chain. `weight_to_fee` of the
    node takes a weight for that of a full block at most. -/
structure Server.Follows {Digest S N : Type} (server : Server Digest) (r : Runtime Digest S)
    (sys : SystemPallet N) (max_block : Weight) (s : ChainRun.State S N) : Prop where
  host : server.client.host = r.host
  chain_id : server.chain_id = ChainId
  gas_estimate : ∀ tx, server.client.node.gas_estimate tx =
    .ok (r.pallet.gas_estimate tx s.contracts).result
  account_nonce : server.client.node.account_nonce = sys.account_nonce s.system
  account : ∀ id, ∃ found, server.account id = .ok found ∧
    (found.map AccountInfo.nonce).getD 0 = sys.account_nonce s.system id
  weight_to_fee : ∀ w, server.weight_to_fee w =
    .ok (r.convert_eth_tx.weight_to_fee (w.min max_block))

namespace Server.Follows

variable {Digest S N : Type} {server : Server Digest} {r : Runtime Digest S}
  {sys : SystemPallet N} {max_block : Weight} {s : ChainRun.State S N}

theorem get_transaction_count_eq (h : server.Follows r sys max_block s) (address : H160) :
    server.get_transaction_count address =
      .ok ((sys.account_nonce s.system (get_account_id r.host address)).setWidth 256) := by
  obtain ⟨found, hfound, hnonce⟩ := h.account (server.client.account_id address)
  have hid : server.client.account_id address = get_account_id r.host address := by
    rw [Client.account_id, h.host]
  rw [hid] at hfound hnonce
  unfold get_transaction_count Server.nonce
  rw [hid, hfound]
  cases found with
  | none =>
    rw [← hnonce]
    rfl
  | some account =>
    rw [← hnonce]
    rfl

/-- A dry run, when its input can be sent. -/
theorem dry_run_eq (h : server.Follows r sys max_block s) {tx : GenericTransaction} {input : Bytes}
    (hinput : tx.input = some input) (hlength : input.data.length < 2 ^ 32) {limits : DryRunInfo}
    (hlimits : (r.pallet.gas_estimate tx s.contracts).result = .ok limits) :
    server.client.dry_run tx = .ok limits := by
  unfold Client.dry_run
  rw [hinput, h.gas_estimate, hlimits]
  exact if_pos hlength

/-- The estimated gas is one more than the cost. -/
theorem estimate_gas_eq (h : server.Follows r sys max_block s) {tx : GenericTransaction}
    {input : Bytes} (hinput : tx.input = some input) (hlength : input.data.length < 2 ^ 32)
    {limits : DryRunInfo}
    (hlimits : (r.pallet.gas_estimate tx s.contracts).result = .ok limits)
    (hmax : limits.gas_limit.all_lte max_block)
    (hcost : r.convert_eth_tx.cost limits < 2 ^ 128 - 1) :
    server.estimate_gas tx = .ok (BitVec.ofNat 256 (r.convert_eth_tx.cost limits + 1)) := by
  have hfee : server.weight_to_fee limits.gas_limit =
      .ok (r.convert_eth_tx.weight_to_fee limits.gas_limit) := by
    rw [h.weight_to_fee, Weight.min_eq_left hmax]
  have hprice : 0 < GAS_PRICE := by decide
  unfold ConvertEthTx.cost at hcost
  obtain ⟨gas, hgas, hgas_nat⟩ := Client.gas_estimate_eq server.profile hprice
    (h.dry_run_eq hinput hlength hlimits) hfee (by omega)
  have hone : GAS_PRICE.toNat = 1 := rfl
  rw [hone, Nat.div_one] at hgas_nat
  have hsame : gas = BitVec.ofNat 256 (r.convert_eth_tx.cost limits + 1) := by
    apply BitVec.eq_of_toNat_eq
    rw [hgas_nat, BitVec.toNat_ofNat, ConvertEthTx.cost, Nat.mod_eq_of_lt (by omega)]
  rw [Server.estimate_gas, hgas, hsame]
  rfl

end Server.Follows

/-! ## What is signed can be sent -/

namespace Account

variable {Digest : Type} {a : Account Digest} {tx : TransactionLegacyUnsigned}

/-- **A signed transaction** for this chain is decoded as it was, and both
    its signature and the address of its signer come out. -/
theorem sign_transaction_eq {ε : Type} (hsigns : a.Signs tx)
    (hchain : tx.chain_id = some (ChainId.setWidth 256)) :
    ∃ t, a.sign_transaction tx = (.ok t : Outcome ε _) ∧ t.transaction_legacy_unsigned = tx ∧
      (∀ raw : Bytes, raw.data = t.encode → TransactionLegacySigned.decode raw = .ok t) ∧
      t.raw_signature = .ok (Host.signature_bytes (a.signature tx).compact
        (a.signature tx).recovery_id) ∧
      t.recover_eth_address a.host = .ok a.address := by
  have hid := hsigns.recovery_id_le
  have hc : (ChainId.setWidth 256 : U256).toNat = 596 := by decide
  obtain ⟨t, hfrom, htx, hv, hcompact⟩ :=
    TransactionLegacySigned.from_eq_ok (ε := ε) hchain (by omega) hid
  have hextract := TransactionLegacySigned.extract_recovery_id_packed (by rw [htx]; exact hchain) hv
  rw [if_pos (by omega)] at hextract
  refine ⟨t, hfrom, htx, ?_, ?_, ?_⟩
  · intro raw hraw
    rw [TransactionLegacySigned.decode_encode hraw (by omega),
      TransactionLegacySigned.extract_chain_id_packed hv hid, ← hchain, ← htx]
  · rw [TransactionLegacySigned.raw_signature, hextract, Outcome.ok_bind, Outcome.pure_eq, hcompact]
  · have hrecovers := hsigns.recovers
    unfold TransactionLegacySigned.recover_eth_address TransactionLegacySigned.recover_pub_key
      TransactionLegacySigned.recoverable_signature Host.from_compact
    rw [hextract, Outcome.ok_bind, hcompact, if_pos hsigns.is_compact, Outcome.ok_or_some,
      Outcome.ok_bind, htx]
    have hsig : (⟨(a.signature tx).compact, (a.signature tx).recovery_id⟩ : RecoverableSignature) =
        a.signature tx := rfl
    simp only [hsig, hrecovers]
    rfl

end Account

/-- A transaction is not much longer than its input. -/
theorem encode_length_lt {tx : TransactionLegacySigned}
    (h : tx.transaction_legacy_unsigned.input.data.length < 2 ^ 32) :
    tx.encode.length < 2 ^ 63 := by
  obtain ⟨hstrings, hflatten⟩ := tx.rlp_strings_length_lt
  have hheader := @Rlp.header_length_le 0xc0 _ hflatten
  have hle := Rlp.flatten_encode_value_length_le hstrings
  have hnonce := uint_bytes_length_le tx.transaction_legacy_unsigned.nonce
  have hprice := uint_bytes_length_le tx.transaction_legacy_unsigned.gas_price
  have hgas := uint_bytes_length_le tx.transaction_legacy_unsigned.gas
  have hto := to_bytes_length_le tx.transaction_legacy_unsigned.to
  have hvalue := uint_bytes_length_le tx.transaction_legacy_unsigned.value
  have hv := uint_bytes_length_le tx.v
  have hr := uint_bytes_length_le tx.r
  have hs := uint_bytes_length_le tx.s
  have hsum : (tx.rlp_strings.map List.length).sum + 9 * tx.rlp_strings.length < 2 ^ 33 := by
    simp only [TransactionLegacySigned.rlp_strings, List.map_cons, List.map_nil, List.sum_cons,
      List.sum_nil, List.length_cons, List.length_nil]
    omega
  rw [TransactionLegacySigned.encode_eq, Rlp.encode_list, List.length_append]
  omega

theorem convert_to_of_lt {v w : Nat} {n : BitVec v} (h : n.toNat < 2 ^ w) :
    convert_to w n = .ok (BitVec.ofNat w n.toNat) := by
  rw [convert_to, try_into, if_pos h]
  rfl

/-- A call is built of every transaction whose numbers and input fit. -/
theorem build_call_of_fits {eth_addr : H160} {tx : TransactionLegacyUnsigned} {limits : DryRunInfo}
    (hvalue : tx.value.toNat < 2 ^ 128) (hprice : tx.gas_price.toNat < 2 ^ 64)
    (hgas : tx.gas.toNat < 2 ^ 128) (hinput : tx.input.data.length < 2 ^ 32)
    (hdeploy : tx.to = none → CallInput.NothingFollows tx.input.data) :
    ∃ c, build_call eth_addr tx limits = .ok c := by
  have hvalue := convert_to_of_lt hvalue
  have hprice := convert_to_of_lt hprice
  have hgas := convert_to_of_lt hgas
  unfold build_call
  cases hto : tx.to with
  | none =>
    obtain ⟨input, hinput⟩ := hdeploy hto
    simp only [hinput, hvalue, hprice, hgas, Outcome.ok_or_some, Outcome.ok_bind]
    exact ⟨_, rfl⟩
  | some dest =>
    have hvec : to_scale_vec tx.input = .ok ⟨tx.input.data, hinput⟩ := by
      rw [to_scale_vec, ByteVec.ofList?, dif_pos hinput]
    simp only [hvec, hvalue, hprice, hgas, Outcome.ok_bind]
    exact ⟨_, rfl⟩

/-- What goes through, when each part of it does, is submitted. -/
theorem Client.submission_of {Digest : Type} {client : Client Digest} {transaction : Bytes}
    {tx : TransactionLegacySigned} {eth_addr : H160} {sig : List.Vector UInt8 65}
    {limits : DryRunInfo} {c : Pallet.Call}
    (hdecoded : TransactionLegacySigned.decode transaction = .ok tx)
    (hrecovered : tx.recover_eth_address client.host = .ok eth_addr)
    (hsignature : tx.raw_signature = .ok sig)
    (hlimits : client.dry_run (tx.transaction_legacy_unsigned.to_generic eth_addr) = .ok limits)
    (hcall : build_call eth_addr tx.transaction_legacy_unsigned limits = .ok c) :
    ∃ x, client.raw_extrinsic transaction = .ok x ∧
      Submission client transaction x tx eth_addr sig limits c := by
  refine ⟨client.create_signed (.ContractsEvm c) ⟨client.account_id eth_addr, .Ethereum sig⟩
    .default, ?_, ?_⟩
  · unfold raw_extrinsic
    rw [Outcome.map_err_eq_ok.mpr hdecoded, Outcome.ok_bind, Outcome.map_err_eq_ok.mpr hrecovered,
      Outcome.ok_bind, Outcome.map_err_eq_ok.mpr hsignature, Outcome.ok_bind]
    simp only [Outcome.map_err_eq_ok.mpr hlimits, Outcome.ok_bind, hcall]
    rfl
  · exact {
      decoded := hdecoded
      recovered := hrecovered
      raw_signature := hsignature
      dry_run := hlimits
      call := hcall
      function := rfl
      signature := rfl }

/-! ## What the chain makes of it -/

/-- The nonce comes into a rebuilt message from outside. -/
theorem Pallet.Call.rebuild_eq (c : Pallet.Call) (n m : U256) :
    c.rebuild n = { c.rebuild m with nonce := n } := by
  cases c with
  | eth_instantiate c => rfl
  | eth_call c => rfl

/-- The message a wallet signs, under the nonce it was told. -/
def wallet_message (nonce : BitVec 32) (gas : Nat) (value : U256) (input : Bytes)
    (dest : Option H160) : TransactionLegacyUnsigned where
  chain_id := some (ChainId.setWidth 256)
  gas := BitVec.ofNat 256 gas
  gas_price := GAS_PRICE.setWidth 256
  input := input
  nonce := nonce.setWidth 256
  «to» := dest
  type := .mk
  value := value

/-- What is asked for can be put into a call, and the input of a deployment
    ends where its third vector does. -/
structure CanBeCalled (value : U256) (input : Bytes) (dest : Option H160) : Prop where
  value_lt : value.toNat < 2 ^ 128
  input_lt : input.data.length < 2 ^ 32
  input_ends : dest = none → CallInput.NothingFollows input.data

/-- The call that is submitted for a message stands for the message, under
    any nonce. -/
theorem rebuild_of_message {eth_addr : H160} {nonce : BitVec 32} {gas : Nat} {value : U256}
    {input : Bytes} {dest : Option H160} {limits : DryRunInfo} {c : Pallet.Call}
    (hcan : CanBeCalled value input dest)
    (h : build_call eth_addr (wallet_message nonce gas value input dest) limits = .ok c)
    (now : BitVec 32) :
    c.rebuild (now.setWidth 256) = wallet_message now gas value input dest := by
  suffices hsame : c.rebuild (nonce.setWidth 256) = wallet_message nonce gas value input dest by
    rw [c.rebuild_eq _ (nonce.setWidth 256), hsame]
    rfl
  cases hdest : dest with
  | some address => exact hdest ▸ rebuild_of_call hdest rfl h
  | none =>
    obtain ⟨call_input, rest, hdecode, hrebuild⟩ := rebuild_of_deployment hdest rfl h
    have hbytes := (CallInput.encode_eq_iff hdecode).mpr (hcan.input_ends hdest)
    have hvec : (⟨call_input.encode, call_input.encode_length_lt⟩ : Bytes) = input :=
      ByteVec.ext hbytes
    rw [hrebuild, hvec, ← hdest]
    rfl

section admission
variable {Digest S N : Type} {a : Account Digest} {server : WalletRequest → Server Digest}
  {r : Runtime Digest S} {sys : SystemPallet N} {max_block : Weight}
  {s : WalletRequest → ChainRun.State S N} {value : U256} {input : Bytes} {dest : Option H160}

/-- The nonce of the account of a wallet. -/
def Account.nonce_at (a : Account Digest) (sys : SystemPallet N) (s : ChainRun.State S N) :
    BitVec 32 :=
  sys.account_nonce s.system (get_account_id a.host a.address)

/-- What is sent, once the answers are there. -/
theorem Account.send_transaction_eq (hfollows : ∀ q, (server q).Follows r sys max_block (s q))
    (hhost : a.host = r.host) (hcan : CanBeCalled value input dest) {estimate : DryRunInfo}
    (hestimate : (r.pallet.gas_estimate (a.estimated value input dest)
      (s .estimate_gas).contracts).result = .ok estimate)
    (hmax : estimate.gas_limit.all_lte max_block)
    (hcost : r.convert_eth_tx.cost estimate < 2 ^ 128 - 1) {t : TransactionLegacySigned}
    (hsign : a.sign_transaction (wallet_message (a.nonce_at sys (s .get_transaction_count))
      (r.convert_eth_tx.cost estimate + 1) value input dest) = (.ok t : Outcome SendError _))
    {raw : Bytes} (hraw : raw.data = t.encode) :
    a.send_transaction server value input dest =
      ((server .send_raw_transaction).client.send_raw_transaction raw).map_err
        fun e => ⟨some "transaction failed", e⟩ := by
  have hnonce := (hfollows .get_transaction_count).get_transaction_count_eq a.address
  rw [← hhost] at hnonce
  have hgas := (hfollows .estimate_gas).estimate_gas_eq rfl hcan.input_lt hestimate hmax hcost
  have hchain := (hfollows .chain_id).chain_id
  have hbytes : to_raw t = .ok raw := by
    rw [to_raw, ← hraw, ByteVec.ofList?_data]
  unfold Account.send_transaction
  rw [hnonce, hgas, hchain]
  show (a.sign_transaction (wallet_message (a.nonce_at sys (s .get_transaction_count))
    (r.convert_eth_tx.cost estimate + 1) value input dest) >>= _) = _
  rw [hsign, Outcome.ok_bind, hbytes, Outcome.ok_bind]

/-- The estimated gas pays for limits that cost no more than the estimate. -/
theorem fee_check_of_cheaper {client : Client Digest} {raw : Bytes} {x : Extrinsic}
    {t : TransactionLegacySigned} {sig : List.Vector UInt8 65} {nonce : BitVec 32}
    {estimate limits : DryRunInfo} {c : Pallet.Call} {eth_addr : H160}
    (hsub : Submission client raw x t eth_addr sig limits c)
    (htx : t.transaction_legacy_unsigned =
      wallet_message nonce (r.convert_eth_tx.cost estimate + 1) value input dest)
    (hcost : r.convert_eth_tx.cost estimate < 2 ^ 128 - 1)
    (hcheaper : r.convert_eth_tx.cost limits ≤ r.convert_eth_tx.cost estimate) :
    r.convert_eth_tx.fee_check c = .ok () := by
  obtain ⟨hprice, hgas, hlimit, hdeposit⟩ := hsub.fee_fields
  have hgas_nat : c.eth_gas_limit.toNat = r.convert_eth_tx.cost estimate + 1 := by
    rw [hgas, htx]
    exact (BitVec.toNat_ofNat ..).trans (Nat.mod_eq_of_lt (by omega))
  have hprice_nat : c.eth_gas_price.toNat = 1 := by
    rw [hprice, htx]
    rfl
  rw [r.convert_eth_tx.fee_check_eq, hlimit, hdeposit]
  apply ConvertEthTx.validate_fee_of_le
  · rw [hgas_nat, hprice_nat]
    omega
  · rw [hgas_nat, hprice_nat]
    show r.convert_eth_tx.cost limits ≤ _
    omega

/-- One signature stands for one message. -/
theorem message_unique (hkeccak : Function.Injective r.host.keccak_256)
    (hrecovery : r.host.RecoveryInjective) {sig : List.Vector UInt8 65}
    {msg msg' : TransactionLegacyUnsigned} {signer : H160}
    (h : msg.recover_signer r.host sig = some signer)
    (h' : msg'.recover_signer r.host sig = some signer) : msg = msg' := by
  rw [TransactionLegacyUnsigned.recover_signer_eq] at h h'
  exact TransactionLegacyUnsigned.encode_inj (hkeccak (hrecovery sig _ _ signer h h'))

/-- What the chain makes of a submitted message. -/
theorem check_wallet_message_iff {client : Client Digest} {raw : Bytes} {x : Extrinsic}
    {t : TransactionLegacySigned} {sig : List.Vector UInt8 65} {nonce : BitVec 32} {gas : Nat}
    {limits : DryRunInfo} {c : Pallet.Call} {eth_addr : H160} (hhost : client.host = r.host)
    (hagree : r.host.RecoverAgrees) (hkeccak : Function.Injective r.host.keccak_256)
    (hrecovery : r.host.RecoveryInjective)
    (hcan : CanBeCalled value input dest)
    (hsub : Submission client raw x t eth_addr sig limits c)
    (htx : t.transaction_legacy_unsigned = wallet_message nonce gas value input dest)
    (hfee : r.convert_eth_tx.fee_check c = .ok ()) :
    r.check x = .ok ⟨some (get_account_id r.host eth_addr,
        ⟨.Immortal, client.node.account_nonce (get_account_id r.host eth_addr), 0⟩), x.function⟩ ↔
      client.node.account_nonce (get_account_id r.host eth_addr) = nonce := by
  have hrebuild := rebuild_of_message hcan (htx ▸ hsub.call)
  have hrecover := hsub.recover_signer hhost hagree
  have hsig := hsub.signature
  rw [hhost] at hsig
  constructor
  · intro h
    obtain ⟨c', source, hcall, hsource, -, -, hrecover', -, -⟩ := (r.check_ethereum hsig).mp h
    rw [hsub.function] at hcall
    cases hcall
    obtain rfl : eth_addr = source := Option.some.inj (hsub.source.symm.trans hsource)
    -- the signature recovers to the signer over the message under either nonce
    have hsame := message_unique hkeccak hrecovery hrecover' hrecover
    rw [hrebuild, htx] at hsame
    have hnonce := congrArg TransactionLegacyUnsigned.nonce hsame
    exact setWidth_inj (by omega) hnonce
  · intro h
    have hcheck := hsub.check hhost hagree (by rw [hrebuild, htx, hhost, h]) hfee
    rwa [hhost] at hcheck

/-- **From the wallet to the chain.** Blocks may come in between: the gas was
    estimated for a dry run with some limits, the transaction is submitted
    with others that cost no more. The extrinsic that is submitted stands for
    what was signed, but under the nonce the account has by then. If the
    account exists, the chain admits it exactly if that nonce is still the one
    that was told, and so the message the one that was signed. -/
theorem Account.send_transaction_admitted_iff (hsys : sys.Lawful r.pallet.lookup)
    (hfollows : ∀ q, (server q).Follows r sys max_block (s q)) (hhost : a.host = r.host)
    (hagree : r.host.RecoverAgrees) (hkeccak : Function.Injective r.host.keccak_256)
    (hrecovery : r.host.RecoveryInjective) (hcan : CanBeCalled value input dest)
    {estimate limits : DryRunInfo}
    (hestimate : (r.pallet.gas_estimate (a.estimated value input dest)
      (s .estimate_gas).contracts).result = .ok estimate)
    (hmax : estimate.gas_limit.all_lte max_block)
    (hcost : r.convert_eth_tx.cost estimate < 2 ^ 128 - 1)
    (hlimits : (r.pallet.gas_estimate (a.estimated value input dest)
      (s .send_raw_transaction).contracts).result = .ok limits)
    (hcheaper : r.convert_eth_tx.cost limits ≤ r.convert_eth_tx.cost estimate)
    (hsigns : a.Signs (wallet_message (a.nonce_at sys (s .get_transaction_count))
      (r.convert_eth_tx.cost estimate + 1) value input dest))
    (hprovided : sys.provided (s .send_raw_transaction).system
      (get_account_id a.host a.address)) :
    ∃ applied : ChainRun.Applied,
      a.send_transaction server value input dest =
        (Outcome.of_except ((server .send_raw_transaction).client.node.submit
          applied.extrinsic)).map_err (fun e =>
            ⟨some "transaction failed", .eth_rpc (.ClientError e)⟩) ∧
      applied.message = some (a.address, wallet_message (a.nonce_at sys (s .send_raw_transaction))
        (r.convert_eth_tx.cost estimate + 1) value input dest) ∧
      ((∃ system, ChainRun.Admitted r sys (s .send_raw_transaction) applied system) ↔
        a.nonce_at sys (s .send_raw_transaction) = a.nonce_at sys (s .get_transaction_count)) := by
  have hsend := hfollows .send_raw_transaction
  have hclient : (server .send_raw_transaction).client.host = r.host := hsend.host
  -- what is signed, and sent
  obtain ⟨t, hsign, htx, hdecode, hsig, hrecover⟩ :=
    a.sign_transaction_eq (ε := SendError) hsigns rfl
  have hlength : t.encode.length < 2 ^ 63 := encode_length_lt (by rw [htx]; exact hcan.input_lt)
  let raw : Bytes := ⟨t.encode, hlength⟩
  have hraw : raw.data = t.encode := rfl
  have hsent := Account.send_transaction_eq hfollows hhost hcan hestimate hmax hcost hsign hraw
  -- what is submitted for it
  have hdry : (server .send_raw_transaction).client.dry_run
      (t.transaction_legacy_unsigned.to_generic a.address) = .ok limits := by
    rw [htx]
    exact hsend.dry_run_eq rfl hcan.input_lt hlimits
  have hgas : t.transaction_legacy_unsigned.gas.toNat < 2 ^ 128 := by
    rw [htx]
    exact lt_of_le_of_lt (Nat.mod_le _ _) (by omega : r.convert_eth_tx.cost estimate + 1 < 2 ^ 128)
  have hprice : t.transaction_legacy_unsigned.gas_price.toNat < 2 ^ 64 := by
    rw [htx]
    exact (by decide : (GAS_PRICE.setWidth 256 : U256).toNat < 2 ^ 64)
  obtain ⟨c, hcall⟩ : ∃ c, build_call a.address t.transaction_legacy_unsigned limits = .ok c := by
    refine build_call_of_fits ?_ hprice hgas ?_ ?_
    · rw [htx]
      exact hcan.value_lt
    · rw [htx]
      exact hcan.input_lt
    · rw [htx]
      exact hcan.input_ends
  rw [hhost, ← hclient] at hrecover
  obtain ⟨x, hx, hsub⟩ := Client.submission_of (hdecode raw hraw) hrecover hsig hdry hcall
  have hfee := fee_check_of_cheaper hsub htx hcost hcheaper
  have hcheck := check_wallet_message_iff hclient hagree hkeccak hrecovery hcan hsub htx hfee
  have hnow : (server .send_raw_transaction).client.node.account_nonce
      (get_account_id r.host a.address) = a.nonce_at sys (s .send_raw_transaction) := by
    rw [hsend.account_nonce, Account.nonce_at, hhost]
  rw [hnow] at hcheck
  refine ⟨{
    extrinsic := x
    account := get_account_id r.host a.address
    extra := ⟨.Immortal, a.nonce_at sys (s .send_raw_transaction), 0⟩
    function := x.function
    trace := ChainRun.dispatch_trace r (get_account_id r.host a.address)
      (s .send_raw_transaction).contracts x.function }, ?_, ?_, ?_⟩
  · rw [hsent, Client.send_raw_transaction, hx, Outcome.ok_bind]
    cases (server .send_raw_transaction).client.node.submit x with
    | ok hash => rfl
    | error e => rfl
  · have hsignature := hsub.signature
    rw [hclient, hnow] at hsignature
    unfold ChainRun.Applied.message
    rw [hsignature, hsub.function]
    simp only
    rw [hsub.source, Option.map_some, rebuild_of_message hcan (htx ▸ hcall)]
  · have hsignature := hsub.signature
    rw [hclient] at hsignature
    rw [← hcheck]
    constructor
    · rintro ⟨system, h⟩
      exact (Runtime.check_in_state _ hsignature).symm.trans h.check
    · intro h
      obtain ⟨system, hsystem⟩ := hsys.check_nonce_of_provided hprovided
      refine ⟨system, (Runtime.check_in_state _ hsignature).trans h, ?_, rfl⟩
      rw [hhost] at hsystem
      show sys.check_nonce _ _ (a.nonce_at sys (s .send_raw_transaction)) = _
      rw [Account.nonce_at, hhost]
      exact hsystem

end admission

/-! ## A sample wallet -/

namespace Sample

def no_input : Bytes := .default

/-- What the wallet signs: the transfer of the sample calls, under nonce 1,
    at the price of the server. -/
def wallet_call : TransactionLegacyUnsigned :=
  wallet_message 1 280000001 5000000 no_input (some recipient)

/-- Digest of the message. -/
def wallet_call_hash : H256 := be_low 32
  0x8534269264a4a3cdee6fcd9a615179cf7ee28c6860ab5bb5d2bfbc98b8334874

/-- The message, signed. -/
def signed_wallet_call : TransactionLegacySigned where
  transaction_legacy_unsigned := wallet_call
  r := 0xb5f94809e489abdfbf56576418460be46ea16b2d0fd10059755f1eedb68ee839
  s := 0x400a7d02709eca72a56bc55cfc6d9e17fc0b05655583306fd5a3cb07c3cc8d3
  v := 1227

def wallet_table : HostTable where
  keccak := [
    (wallet_call.encode, wallet_call_hash),
    (key.toList, be_low 32 0x5a26481edf34d32b363ec32875e480db528101a381ce68544611c169ad7eb342)]
  ecrecover := [⟨Sample.signature signed_wallet_call ChainRun.recovery_id, wallet_call_hash, key⟩]
  blake2 := table.blake2
  keccak_nodup := by decide +kernel
  ecrecover_inj := by decide +kernel

/-- An account that signs this message. -/
def wallet : Account TableDigest where
  host := wallet_table.host
  public_key := key
  sign_ecdsa_recoverable _ := ⟨signed_wallet_call.compact, ChainRun.recovery_id⟩

def wallet_runtime : Runtime TableDigest Unit := { runtime with host := wallet_table.host }

/-- The nonce of the account, and that of all others. -/
def wallet_state (own others : BitVec 32) : ChainRun.State Unit ChainRun.SystemState where
  system := ⟨fun id => if id = account then own else others, fun _ => true⟩
  contracts := ()
  applied := []

def wallet_max_block : Weight := ⟨2000000000000, 5242880⟩

def wallet_server (s : ChainRun.State Unit ChainRun.SystemState) : Server TableDigest where
  client := {
    host := wallet_table.host
    node := {
      gas_estimate := fun tx => .ok (wallet_runtime.pallet.gas_estimate tx ()).result
      account_nonce := s.system.nonces
      signer_payload := fun _ => []
      submit := fun _ => .ok (List.Vector.replicate 32 0) } }
  chain_id := ChainId
  account := fun id => .ok (some ⟨s.system.nonces id, ⟨26000000⟩⟩)
  weight_to_fee := fun w =>
    .ok (wallet_runtime.convert_eth_tx.weight_to_fee (w.min wallet_max_block))
  profile := .checked

theorem wallet_server_follows (s : ChainRun.State Unit ChainRun.SystemState) :
    (wallet_server s).Follows wallet_runtime ChainRun.sample_system wallet_max_block s where
  host := rfl
  chain_id := rfl
  gas_estimate _ := rfl
  account_nonce := rfl
  account _ := ⟨_, rfl, rfl⟩
  weight_to_fee _ := rfl

/-- The chain at a request: a block comes in before the last one. -/
def wallet_chain (own others : BitVec 32) (q : WalletRequest) :
    ChainRun.State Unit ChainRun.SystemState :=
  if q = .send_raw_transaction then wallet_state own others else wallet_state 1 0

theorem wallet_signs : wallet.Signs wallet_call where
  recovery_id_le := by decide +kernel
  is_compact := rfl
  recovers := by decide +kernel

theorem wallet_nonce_at (own others : BitVec 32) :
    wallet.nonce_at ChainRun.sample_system (wallet_state own others) = own := by
  have haccount : get_account_id wallet.host wallet.address = account := by decide +kernel
  show (if get_account_id wallet.host wallet.address = account then own else others) = own
  rw [if_pos haccount]

/-- What the wallet gets for its transfer. -/
def sent (own others : BitVec 32) : Outcome SendError H256 :=
  wallet.send_transaction (fun q => wallet_server (wallet_chain own others q)) 5000000 no_input
    (some recipient)

/-- What the server hands to its node. -/
def submitted (own others : BitVec 32) (x : Extrinsic) : Outcome SendError H256 :=
  (Outcome.of_except ((wallet_server (wallet_state own others)).client.node.submit x)).map_err
    fun e => ⟨some "transaction failed", .eth_rpc (.ClientError e)⟩

end Sample

/-- The sample wallet sends the transfer. If the block that comes in before
    has extrinsics of others, the transfer is admitted; after one of its own
    it is submitted under another nonce, and refused. -/
theorem Account.send_transaction_admitted_iff_sample :
    (∃ applied system, Sample.sent 1 1 = Sample.submitted 1 1 applied.extrinsic ∧
      applied.message = some (Sample.wallet.address, Sample.wallet_call) ∧
      ChainRun.Admitted Sample.wallet_runtime ChainRun.sample_system (Sample.wallet_state 1 1)
        applied system) ∧
    ∃ applied, Sample.sent 2 0 = Sample.submitted 2 0 applied.extrinsic ∧
      applied.message = some (Sample.wallet.address, { Sample.wallet_call with nonce := 2 }) ∧
      ¬ ∃ system, ChainRun.Admitted Sample.wallet_runtime ChainRun.sample_system
        (Sample.wallet_state 2 0) applied system := by
  have hresult : (Sample.wallet_runtime.pallet.gas_estimate (Sample.wallet.estimated 5000000
      Sample.no_input (some Sample.recipient)) ()).result =
        .ok ⟨eth_transfer_weight, none, []⟩ := by
    decide +kernel
  have hcost : Sample.wallet_runtime.convert_eth_tx.cost ⟨eth_transfer_weight, none, []⟩ =
      280000000 := by decide +kernel
  have hcan : CanBeCalled 5000000 Sample.no_input (some Sample.recipient) :=
    ⟨by decide, by decide, by simp⟩
  have hmax : eth_transfer_weight.all_lte Sample.wallet_max_block := ⟨by decide, by decide⟩
  have h (own others : BitVec 32) := Account.send_transaction_admitted_iff
    (ChainRun.sample_system_lawful _)
    (fun q => Sample.wallet_server_follows (Sample.wallet_chain own others q)) rfl
    Sample.wallet_table.recover_agrees Sample.wallet_table.keccak_injective
    Sample.wallet_table.recovery_injective hcan hresult hmax (by rw [hcost]; decide) hresult le_rfl
    (by
      rw [hcost, Sample.wallet_chain, if_neg (by decide), Sample.wallet_nonce_at]
      exact Sample.wallet_signs) rfl
  simp only [hcost, Sample.wallet_chain, if_true, reduceCtorEq, if_false,
    Sample.wallet_nonce_at] at h
  constructor
  · obtain ⟨applied, hsent, hmessage, hadmitted⟩ := h 1 1
    obtain ⟨system, hsystem⟩ := hadmitted.mpr rfl
    exact ⟨applied, system, hsent, hmessage, hsystem⟩
  · obtain ⟨applied, hsent, hmessage, hadmitted⟩ := h 2 0
    exact ⟨applied, hsent, hmessage, fun hsystem => absurd (hadmitted.mp hsystem) (by decide)⟩

end EthRpc
