import EthRpc.Framework.Traced
import EthRpc.Chain.Primitives

/-! # The pallet `pallet_contracts_evm`

    The two dispatchables `eth_instantiate` and `eth_call`, the dry run
    `gas_estimate`, the decimals converter and the address lookup.

    `pallet_contracts` and the currency are outside the pallet. `Contracts`
    lists what the pallet calls there, over an arbitrary chain state `S`;
    each such call, and each decimals conversion, is recorded in the trace.
-/

namespace EthRpc

/-! ## Decimals conversion -/

/-- EVM uses 18 decimals. -/
def EVM_DECIMALS : Nat := 18

namespace Converter

variable (DECIMALS_VALUE : BitVec 64)

/-- Convert decimals from native to EVM; the product saturates. -/
def convert_decimals_to_evm (b : Balance) : Balance :=
  if b = 0 then b
  else if b.toNat * DECIMALS_VALUE.toNat < 2 ^ 128 then b * DECIMALS_VALUE.setWidth 128
  else BitVec.allOnes 128

/-- Convert decimals from EVM to native; `checked_rem` and `checked_div`
    are `None` for a zero divisor. -/
def convert_decimals_from_evm (b : Balance) : Option Balance :=
  if b = 0 then some b
  else if DECIMALS_VALUE = 0 then none
  else if b.umod (DECIMALS_VALUE.setWidth 128) ≠ 0 then none
  else some (b.udiv (DECIMALS_VALUE.setWidth 128))

variable {DECIMALS_VALUE}

/-- A division without remainder is undone by the product. -/
theorem checked_div_eq_some {b d n : Balance} (hd : d ≠ 0) :
    (if b.umod d ≠ 0 then none else some (b.udiv d)) = some n ↔ b.toNat = n.toNat * d.toNat := by
  have hpos : 0 < d.toNat := Nat.pos_of_ne_zero fun h => hd (BitVec.eq_of_toNat_eq h)
  have hmod : (b.umod d).toNat = b.toNat % d.toNat := by rw [BitVec.umod_eq, BitVec.toNat_umod]
  have hdiv : (b.udiv d).toNat = b.toNat / d.toNat := by rw [BitVec.udiv_eq, BitVec.toNat_udiv]
  by_cases hrem : b.toNat % d.toNat = 0
  · have hzero : b.umod d = 0 := BitVec.eq_of_toNat_eq (by rw [hmod, hrem]; rfl)
    rw [if_neg (not_not.mpr hzero), Option.some.injEq]
    constructor
    · rintro rfl
      rw [hdiv, Nat.div_mul_cancel (Nat.dvd_of_mod_eq_zero hrem)]
    · intro hmul
      apply BitVec.eq_of_toNat_eq
      rw [hdiv, hmul, Nat.mul_div_cancel _ hpos]
  · have hne : b.umod d ≠ 0 := by
      intro h
      rw [h] at hmod
      exact hrem hmod.symm
    rw [if_pos hne]
    simp only [reduceCtorEq, false_iff]
    intro hmul
    exact hrem (by rw [hmul, Nat.mul_mod_left])

/-- A conversion from EVM decimals succeeds exactly on whole native units. -/
theorem convert_decimals_from_evm_eq_some {b n : Balance} :
    convert_decimals_from_evm DECIMALS_VALUE b = some n ↔
      b.toNat = n.toNat * DECIMALS_VALUE.toNat ∧ (DECIMALS_VALUE = 0 → n = 0) := by
  unfold convert_decimals_from_evm
  by_cases hv : DECIMALS_VALUE = 0
  · -- `checked_rem` by zero, but zero converts to zero
    subst hv
    by_cases hb : b = 0
    · subst hb
      rw [if_pos rfl, Option.some.injEq]
      constructor
      · rintro rfl
        exact ⟨by simp, fun _ => rfl⟩
      · intro h
        exact (h.2 rfl).symm
    · have hb' : b.toNat ≠ 0 := fun h => hb (BitVec.eq_of_toNat_eq h)
      rw [if_neg hb, if_pos rfl]
      simp [hb']
  · have hd : (DECIMALS_VALUE.setWidth 128).toNat = DECIMALS_VALUE.toNat :=
      BitVec.toNat_setWidth_of_le (by omega)
    have hd0 : DECIMALS_VALUE.setWidth 128 ≠ 0 := by
      intro h
      rw [h] at hd
      exact hv (BitVec.eq_of_toNat_eq hd.symm)
    have hdiv := checked_div_eq_some (b := b) (n := n) hd0
    rw [hd] at hdiv
    simp only [hv, false_implies, and_true, if_false]
    rw [← hdiv]
    by_cases hb : b = 0
    · -- the quotient of zero is zero
      subst hb
      simp
    · rw [if_neg hb]

end Converter

/-! ## The contracts pallet, seen from outside -/

/-- `DispatchError`, with the module errors this pallet raises; all other
    errors are told apart by a number. -/
inductive DispatchError where
  | BadOrigin
  /-- `Error::<T>::DecimalsConversionFailed`. -/
  | DecimalsConversionFailed
  /-- `Error::<T>::InvalidTransaction`. -/
  | InvalidTransaction
  /-- `pallet_contracts::Error::<T>::DecodingFailed`. -/
  | DecodingFailed
  /-- `pallet_contracts::Error::<T>::ContractReverted`. -/
  | ContractReverted
  | Other (code : Nat)
  deriving DecidableEq, Repr

inductive DebugInfo where
  | UnsafeDebug
  | Skip
  deriving DecidableEq, Repr

inductive CollectEvents where
  | UnsafeCollect
  | Skip
  deriving DecidableEq, Repr

inductive Determinism where
  | Enforced
  | Relaxed
  deriving DecidableEq, Repr

/-- The arguments of `bare_call`. -/
structure BareCall where
  origin : AccountId
  dest : AccountId
  value : Balance
  gas_limit : Weight
  storage_deposit_limit : Option Balance
  data : List UInt8
  debug : DebugInfo
  collect_events : CollectEvents
  determinism : Determinism
  deriving DecidableEq

/-- The code of a deployment. -/
inductive Code where
  | Upload (code : List UInt8)
  | Existing (code_hash : H256)
  deriving DecidableEq

/-- The arguments of `bare_instantiate`. -/
structure BareInstantiate where
  origin : AccountId
  value : Balance
  gas_limit : Weight
  storage_deposit_limit : Option Balance
  code : Code
  data : List UInt8
  salt : List UInt8
  debug : DebugInfo
  collect_events : CollectEvents
  deriving DecidableEq

/-- What a contract returns. -/
structure ExecReturnValue where
  flags : BitVec 32
  data : List UInt8
  deriving DecidableEq, Repr

/-- `ReturnFlags::REVERT` is bit 0. -/
def ExecReturnValue.did_revert (v : ExecReturnValue) : Bool := v.flags.getLsbD 0

structure InstantiateReturnValue where
  result : ExecReturnValue
  account_id : AccountId
  deriving DecidableEq

inductive StorageDeposit where
  | Refund (amount : Balance)
  | Charge (amount : Balance)
  deriving DecidableEq, Repr

def StorageDeposit.charge_or_zero : StorageDeposit → Balance
  | .Refund _ => 0
  | .Charge amount => amount

/-- `ContractResult`, without the debug message and the events. -/
structure ContractResult (R : Type) where
  gas_consumed : Weight
  gas_required : Weight
  storage_deposit : StorageDeposit
  result : Except DispatchError R

/-- What the pallet calls outside itself, over a chain state `S`. -/
structure Contracts (S : Type) where
  code_hash : S → AccountId → Option H256
  bare_call : BareCall → S → ContractResult ExecReturnValue × S
  bare_instantiate : BareInstantiate → S → ContractResult InstantiateReturnValue × S
  /-- `Currency::transfer` with `Preservation::Preserve`. -/
  transfer : AccountId → AccountId → Balance → S → Except DispatchError Unit × S
  /-- `WeightInfo::instantiate_with_code` of the contracts pallet. -/
  weight_instantiate_with_code : BitVec 32 → BitVec 32 → BitVec 32 → Weight
  /-- `WeightInfo::call` of the contracts pallet. -/
  weight_call : Weight

/-- The calls recorded in a trace. -/
inductive Effect where
  | convert_decimals_from_evm (evm_balance : Balance)
  | bare_call (args : BareCall)
  | bare_instantiate (args : BareInstantiate)
  | transfer (source dest : AccountId) (value : Balance)
  deriving DecidableEq

abbrev Dispatch (S α : Type) := Traced S Effect DispatchError α

/-! ## Calls of the pallet -/

/-- `Call::eth_instantiate`. -/
structure EthInstantiate where
  source : Option H160
  code : Scale.Vec
  data : Scale.Vec
  salt : Scale.Vec
  eth_value : Balance
  eth_gas_price : BitVec 64
  eth_gas_limit : BitVec 128
  gas_limit : Weight
  storage_deposit_limit : Option Balance
  deriving DecidableEq

/-- `Call::eth_call`. -/
structure EthCall where
  source : Option H160
  «to» : H160
  data : Scale.Vec
  eth_value : Balance
  eth_gas_price : BitVec 64
  eth_gas_limit : BitVec 128
  gas_limit : Weight
  storage_deposit_limit : Option Balance
  deriving DecidableEq

/-- The origin of a dispatch; `Custom` stands for the origins of other pallets. -/
inductive Origin where
  | Root
  | Signed (account_id : AccountId)
  | Unsigned
  | Custom (code : Nat)
  deriving DecidableEq

inductive Pays where
  | Yes
  | No
  deriving DecidableEq, Repr

structure PostDispatchInfo where
  actual_weight : Option Weight
  pays_fee : Pays
  deriving DecidableEq, Repr

/-- `BlockWeights`, as far as the dry run reads it. -/
structure BlockWeights where
  normal_max_total : Option Weight
  max_block : Weight
  deriving DecidableEq, Repr

/-- The pallet's configuration. -/
structure Pallet (Digest S : Type) where
  host : Host Digest
  contracts : Contracts S
  DECIMALS_VALUE : BitVec 64
  block_weights : BlockWeights

/-- `WeightInfo::eth_transfer`. -/
def eth_transfer_weight : Weight := ⟨280000000, 4000⟩

/-- `code.len() as u32`. -/
def len_u32 (v : Scale.Vec) : BitVec 32 := BitVec.ofNat 32 v.data.length

namespace Pallet

variable {Digest S : Type} (p : Pallet Digest S)

/-- The origin must be signed; a source, when given, must be the address
    the signing account was derived from. -/
def ensure_signed_source (origin : Origin) (source : Option H160) :
    Except DispatchError AccountId :=
  match origin with
  | .Signed account =>
    match source with
    | some source =>
      if account = get_account_id p.host source then .ok account else .error .BadOrigin
    | none => .ok account
  | _ => .error .BadOrigin

/-- A source is accepted only from its own account. -/
theorem ensure_signed_source_some {origin : Origin} {source : H160} {account : AccountId} :
    p.ensure_signed_source origin (some source) = .ok account ↔
      origin = .Signed (get_account_id p.host source) ∧ account = get_account_id p.host source := by
  unfold ensure_signed_source
  cases origin with
  | Signed a =>
    by_cases ha : a = get_account_id p.host source
    · subst ha
      simp [eq_comm]
    · simp [ha]
  | Root => simp
  | Unsigned => simp
  | Custom code => simp

/-- A call from the account of its source is not refused. -/
theorem ensure_signed_source_signed {source : H160} :
    p.ensure_signed_source (.Signed (get_account_id p.host source)) (some source) =
      .ok (get_account_id p.host source) :=
  p.ensure_signed_source_some.mpr ⟨rfl, rfl⟩

/-! ## Calls to the outside -/

/-- Convert a value from EVM decimals, or fail. -/
def convert_value (eth_value : Balance) : Dispatch S Balance := do
  Traced.call (.convert_decimals_from_evm eth_value) fun s => ((), s)
  Traced.lift <|
    match Converter.convert_decimals_from_evm p.DECIMALS_VALUE eth_value with
    | some value => .ok value
    | none => .error .DecimalsConversionFailed

def bare_call (args : BareCall) : Dispatch S (ContractResult ExecReturnValue) :=
  Traced.call (.bare_call args) (p.contracts.bare_call args)

def bare_instantiate (args : BareInstantiate) :
    Dispatch S (ContractResult InstantiateReturnValue) :=
  Traced.call (.bare_instantiate args) (p.contracts.bare_instantiate args)

def transfer (source dest : AccountId) (value : Balance) : Dispatch S (Except DispatchError Unit) :=
  Traced.call (.transfer source dest value) (p.contracts.transfer source dest value)

/-! ## Dispatchables -/

/-- The `bare_instantiate` a deployment makes. -/
def instantiate_args (origin : AccountId) (value : Balance) (c : EthInstantiate) :
    BareInstantiate where
  origin := origin
  value := value
  gas_limit := c.gas_limit
  storage_deposit_limit := c.storage_deposit_limit
  code := .Upload c.code.data
  data := c.data.data
  salt := c.salt.data
  debug := .Skip
  collect_events := .Skip

/-- The `bare_call` a call makes. -/
def call_args (origin dest : AccountId) (value : Balance) (c : EthCall) : BareCall where
  origin := origin
  dest := dest
  value := value
  gas_limit := c.gas_limit
  storage_deposit_limit := c.storage_deposit_limit
  data := c.data.data
  debug := .Skip
  collect_events := .Skip
  determinism := .Enforced

/-- The dispatchable `eth_instantiate`. -/
def eth_instantiate (origin : Origin) (c : EthInstantiate) : Dispatch S PostDispatchInfo := do
  let origin ← Traced.lift (p.ensure_signed_source origin c.source)
  let value ← p.convert_value c.eth_value
  let exec ← p.bare_instantiate (instantiate_args origin value c)
  -- `exec.result?`: the returned value is not looked at
  let _ ← Traced.lift exec.result
  return {
    actual_weight := some (exec.gas_consumed.saturating_add
      (p.contracts.weight_instantiate_with_code (len_u32 c.code) (len_u32 c.data)
        (len_u32 c.salt)))
    pays_fee := .Yes }

/-- The dispatchable `eth_call`. -/
def eth_call (origin : Origin) (c : EthCall) : Dispatch S PostDispatchInfo := do
  let origin ← Traced.lift (p.ensure_signed_source origin c.source)
  let value ← p.convert_value c.eth_value
  let dest := get_account_id p.host c.to
  let code_hash ← Traced.read fun s => p.contracts.code_hash s dest
  match code_hash with
  | none => do
    -- no contract at `dest`: transfer the value
    let sent ← p.transfer origin dest value
    let _ ← Traced.lift sent
    return { actual_weight := some eth_transfer_weight, pays_fee := .Yes }
  | some _ => do
    let exec ← p.bare_call (call_args origin dest value c)
    -- nor here
    let _ ← Traced.lift exec.result
    return {
      actual_weight := some (exec.gas_consumed.saturating_add p.contracts.weight_call)
      pays_fee := .Yes }

/-- `pallet_contracts_evm::Call`. -/
inductive Call where
  | eth_instantiate (c : EthInstantiate)
  | eth_call (c : EthCall)
  deriving DecidableEq

/-- The Ethereum address a call claims to come from. -/
def Call.source : Call → Option H160
  | .eth_instantiate c => c.source
  | .eth_call c => c.source

/-- The value of a call, in EVM decimals. -/
def Call.eth_value : Call → Balance
  | .eth_instantiate c => c.eth_value
  | .eth_call c => c.eth_value

/-- Dispatch a call of the pallet. -/
def dispatch (origin : Origin) : Call → Dispatch S PostDispatchInfo
  | .eth_instantiate c => p.eth_instantiate origin c
  | .eth_call c => p.eth_call origin c

/-- Split the input of a deployment into code, data and salt. -/
def split_input_data (input : List UInt8) : Except DispatchError CallInput :=
  match CallInput.decode input with
  | some (c, _) => .ok c
  | none => .error .DecodingFailed

/-- The gas limit of a dry run. -/
def dry_run_gas_limit : Weight :=
  p.block_weights.normal_max_total.getD p.block_weights.max_block

/-- The `bare_instantiate` a dry run makes. -/
def dry_run_instantiate_args (origin : AccountId) (value : Balance) (c : CallInput) :
    BareInstantiate where
  origin := origin
  value := value
  gas_limit := p.dry_run_gas_limit
  storage_deposit_limit := none
  code := .Upload c.code.data
  data := c.data.data
  salt := c.salt.data
  debug := .UnsafeDebug
  collect_events := .UnsafeCollect

/-- The `bare_call` a dry run makes. -/
def dry_run_call_args (origin dest : AccountId) (value : Balance) (data : List UInt8) :
    BareCall where
  origin := origin
  dest := dest
  value := value
  gas_limit := p.dry_run_gas_limit
  storage_deposit_limit := none
  data := data
  debug := .UnsafeDebug
  collect_events := .UnsafeCollect
  determinism := .Enforced

/-- The value of a dry run: absent means zero, and it must fit a balance. -/
def dry_run_value (value : Option U256) : Except DispatchError Balance :=
  match value with
  | none => .ok 0
  | some v =>
    match try_into 128 v with
    | some b => .ok b
    | none => .error .InvalidTransaction

/-- The part of a dry run that executes a contract. -/
def dry_run_exec (origin : AccountId) (tx : GenericTransaction) : Dispatch S DryRunInfo := do
  let input_data := (tx.input.map ByteVec.data).getD []
  -- the value stays in EVM decimals
  let value ← Traced.lift (dry_run_value tx.value)
  match tx.to with
  | none => do
    let input ← Traced.lift (split_input_data input_data)
    let result ← p.bare_instantiate (p.dry_run_instantiate_args origin value input)
    let exec_result ← Traced.lift result.result
    if exec_result.result.did_revert then Traced.lift (.error .ContractReverted)
    else return {
      gas_limit := result.gas_required
      storage_deposit_limit := some result.storage_deposit.charge_or_zero
      return_data := exec_result.result.data }
  | some address => do
    let dest := get_account_id p.host address
    let result ← p.bare_call (p.dry_run_call_args origin dest value input_data)
    let exec_result ← Traced.lift result.result
    if exec_result.did_revert then Traced.lift (.error .ContractReverted)
    else return {
      gas_limit := result.gas_required
      storage_deposit_limit := some result.storage_deposit.charge_or_zero
      return_data := exec_result.data }

/-- Dry run a transaction and return the result. -/
def gas_estimate (tx : GenericTransaction) : Dispatch S DryRunInfo := do
  let origin ← Traced.lift <|
    match tx.from with
    | some address => .ok (get_account_id p.host address)
    | none => .error .InvalidTransaction
  -- a transfer to an account without a contract is not executed
  let no_contract ← Traced.read fun s =>
    match tx.to with
    | some dest => (p.contracts.code_hash s (get_account_id p.host dest)).isNone
    | none => false
  if no_contract then
    return { gas_limit := eth_transfer_weight, storage_deposit_limit := none, return_data := [] }
  else p.dry_run_exec origin tx

/-! ## What the dispatchables do

    One lemma for each way through: a refused source, a value that does not
    convert, and the run of a contract or a transfer. -/

section runs
variable {p}

theorem convert_value_none {β : Type} {eth_value : Balance} (f : Balance → Dispatch S β) (s : S)
    (h : Converter.convert_decimals_from_evm p.DECIMALS_VALUE eth_value = none) :
    (p.convert_value eth_value >>= f) s =
      ⟨.error .DecimalsConversionFailed, s, [.convert_decimals_from_evm eth_value]⟩ := by
  show (Traced.bind (p.convert_value eth_value) f) s = _
  simp [Traced.bind, convert_value, h]

theorem convert_value_some {β : Type} {eth_value value : Balance} (f : Balance → Dispatch S β)
    (s : S) (h : Converter.convert_decimals_from_evm p.DECIMALS_VALUE eth_value = some value) :
    (p.convert_value eth_value >>= f) s =
      ⟨(f value s).result, (f value s).state,
        .convert_decimals_from_evm eth_value :: (f value s).trace⟩ := by
  show (Traced.bind (p.convert_value eth_value) f) s = _
  simp [Traced.bind, convert_value, h]

/-- A refused source ends the dispatch before its first call. -/
theorem dispatch_refused {origin : Origin} {c : Call} {e : DispatchError} (s : S)
    (h : p.ensure_signed_source origin c.source = .error e) :
    p.dispatch origin c s = ⟨.error e, s, []⟩ := by
  cases c with
  | eth_instantiate c =>
    simp only [Call.source] at h
    simp [dispatch, eth_instantiate, h]
  | eth_call c =>
    simp only [Call.source] at h
    simp [dispatch, eth_call, h]

theorem eth_instantiate_unconverted {origin : Origin} {account : AccountId} {c : EthInstantiate}
    (s : S) (ho : p.ensure_signed_source origin c.source = .ok account)
    (hv : Converter.convert_decimals_from_evm p.DECIMALS_VALUE c.eth_value = none) :
    p.eth_instantiate origin c s =
      ⟨.error .DecimalsConversionFailed, s, [.convert_decimals_from_evm c.eth_value]⟩ := by
  unfold eth_instantiate
  rw [ho, Traced.lift_ok, Traced.pure_bind_apply, convert_value_none _ s hv]

theorem eth_call_unconverted {origin : Origin} {account : AccountId} {c : EthCall}
    (s : S) (ho : p.ensure_signed_source origin c.source = .ok account)
    (hv : Converter.convert_decimals_from_evm p.DECIMALS_VALUE c.eth_value = none) :
    p.eth_call origin c s =
      ⟨.error .DecimalsConversionFailed, s, [.convert_decimals_from_evm c.eth_value]⟩ := by
  unfold eth_call
  rw [ho, Traced.lift_ok, Traced.pure_bind_apply, convert_value_none _ s hv]

/-- A deployment runs `bare_instantiate`, and its result is the outer result
    of the execution. -/
theorem eth_instantiate_run {origin : Origin} {account : AccountId} {value : Balance}
    {c : EthInstantiate} (s : S) (ho : p.ensure_signed_source origin c.source = .ok account)
    (hv : Converter.convert_decimals_from_evm p.DECIMALS_VALUE c.eth_value = some value) :
    p.eth_instantiate origin c s =
      let exec := p.contracts.bare_instantiate (instantiate_args account value c) s
      ⟨exec.1.result.map fun _ => {
          actual_weight := some (exec.1.gas_consumed.saturating_add
            (p.contracts.weight_instantiate_with_code (len_u32 c.code) (len_u32 c.data)
              (len_u32 c.salt)))
          pays_fee := .Yes },
        exec.2,
        [.convert_decimals_from_evm c.eth_value,
          .bare_instantiate (instantiate_args account value c)]⟩ := by
  unfold eth_instantiate bare_instantiate
  rw [ho, Traced.lift_ok, Traced.pure_bind_apply, convert_value_some _ s hv]
  simp only [Traced.call_bind_apply]
  cases hr : (p.contracts.bare_instantiate (instantiate_args account value c) s).1.result with
  | error e => simp [Except.map]
  | ok v => simp [Except.map]

/-- A call to a contract runs `bare_call`, and its result is the outer
    result of the execution. -/
theorem eth_call_run {origin : Origin} {account : AccountId} {value : Balance} {code_hash : H256}
    {c : EthCall} (s : S) (ho : p.ensure_signed_source origin c.source = .ok account)
    (hv : Converter.convert_decimals_from_evm p.DECIMALS_VALUE c.eth_value = some value)
    (hcode : p.contracts.code_hash s (get_account_id p.host c.to) = some code_hash) :
    p.eth_call origin c s =
      let args := call_args account (get_account_id p.host c.to) value c
      let exec := p.contracts.bare_call args s
      ⟨exec.1.result.map fun _ => {
          actual_weight := some (exec.1.gas_consumed.saturating_add p.contracts.weight_call)
          pays_fee := .Yes },
        exec.2, [.convert_decimals_from_evm c.eth_value, .bare_call args]⟩ := by
  unfold eth_call bare_call
  rw [ho, Traced.lift_ok, Traced.pure_bind_apply, convert_value_some _ s hv]
  simp only [Traced.read_bind_apply, hcode, Traced.call_bind_apply]
  cases hr : (p.contracts.bare_call
      (call_args account (get_account_id p.host c.to) value c) s).1.result with
  | error e => simp [Except.map]
  | ok v => simp [Except.map]

/-- A call to an account without a contract transfers the value. -/
theorem eth_call_transfer {origin : Origin} {account : AccountId} {value : Balance}
    {c : EthCall} (s : S) (ho : p.ensure_signed_source origin c.source = .ok account)
    (hv : Converter.convert_decimals_from_evm p.DECIMALS_VALUE c.eth_value = some value)
    (hcode : p.contracts.code_hash s (get_account_id p.host c.to) = none) :
    p.eth_call origin c s =
      let dest := get_account_id p.host c.to
      let sent := p.contracts.transfer account dest value s
      ⟨sent.1.map fun _ => { actual_weight := some eth_transfer_weight, pays_fee := .Yes },
        sent.2, [.convert_decimals_from_evm c.eth_value, .transfer account dest value]⟩ := by
  unfold eth_call transfer
  rw [ho, Traced.lift_ok, Traced.pure_bind_apply, convert_value_some _ s hv]
  simp only [Traced.read_bind_apply, hcode, Traced.call_bind_apply]
  cases hr : (p.contracts.transfer account (get_account_id p.host c.to) value s).1 with
  | error e => simp [Except.map]
  | ok v => simp [Except.map]

/-- The call a dispatch makes to the contracts pallet or the currency, and
    the result it gets from there. -/
inductive Outside (p : Pallet Digest S) (account : AccountId) (value : Balance) (s : S) :
    Call → Effect → Except DispatchError Unit → Prop where
  | instantiate (c : EthInstantiate) :
    Outside p account value s (.eth_instantiate c)
      (.bare_instantiate (instantiate_args account value c))
      ((p.contracts.bare_instantiate (instantiate_args account value c) s).1.result.map fun _ => ())
  | call (c : EthCall) :
    Outside p account value s (.eth_call c)
      (.bare_call (call_args account (get_account_id p.host c.to) value c))
      ((p.contracts.bare_call
        (call_args account (get_account_id p.host c.to) value c) s).1.result.map fun _ => ())
  | transfer (c : EthCall) :
    Outside p account value s (.eth_call c)
      (.transfer account (get_account_id p.host c.to) value)
      (p.contracts.transfer account (get_account_id p.host c.to) value s).1

theorem map_map_unit {ε α β : Type} (x : Except ε α) (b : β) :
    ((x.map fun _ => b).map fun _ => ()) = x.map fun _ => () := by
  cases x with
  | ok a => rfl
  | error e => rfl

theorem map_unit {ε : Type} (x : Except ε Unit) : (x.map fun _ => ()) = x := by
  cases x with
  | ok a => rfl
  | error e => rfl

/-- **All that a dispatch can do.** It is refused before its first call, or
    fails at the conversion of its value, or makes one call to the outside
    and passes on the result. -/
theorem dispatch_cases (origin : Origin) (c : Call) (s : S) :
    (∃ e, p.ensure_signed_source origin c.source = .error e ∧
      p.dispatch origin c s = ⟨.error e, s, []⟩) ∨
    (∃ account, p.ensure_signed_source origin c.source = .ok account ∧
      p.dispatch origin c s =
        ⟨.error .DecimalsConversionFailed, s, [.convert_decimals_from_evm c.eth_value]⟩) ∨
    ∃ account value effect result,
      p.ensure_signed_source origin c.source = .ok account ∧
      p.Outside account value s c effect result ∧
      ((p.dispatch origin c s).result.map fun _ => ()) = result ∧
      (p.dispatch origin c s).trace = [.convert_decimals_from_evm c.eth_value, effect] := by
  cases ho : p.ensure_signed_source origin c.source with
  | error e => exact Or.inl ⟨e, rfl, p.dispatch_refused s ho⟩
  | ok account =>
    right
    cases c with
    | eth_instantiate c =>
      cases hv : Converter.convert_decimals_from_evm p.DECIMALS_VALUE c.eth_value with
      | none => exact Or.inl ⟨account, rfl, eth_instantiate_unconverted s ho hv⟩
      | some value =>
        have hrun : p.dispatch origin (.eth_instantiate c) s = _ := eth_instantiate_run s ho hv
        refine Or.inr ⟨account, value, _, _, rfl, .instantiate c, ?_, ?_⟩
        · rw [hrun, map_map_unit]
        · rw [hrun]
          rfl
    | eth_call c =>
      cases hv : Converter.convert_decimals_from_evm p.DECIMALS_VALUE c.eth_value with
      | none => exact Or.inl ⟨account, rfl, eth_call_unconverted s ho hv⟩
      | some value =>
        -- with a contract at the destination it is called, without one it is paid
        cases hcode : p.contracts.code_hash s (get_account_id p.host c.to) with
        | none =>
          have hrun : p.dispatch origin (.eth_call c) s = _ := eth_call_transfer s ho hv hcode
          refine Or.inr ⟨account, value, _, _, rfl, .transfer c, ?_, ?_⟩
          · rw [hrun, map_map_unit, map_unit]
          · rw [hrun]
            rfl
        | some code_hash =>
          have hrun : p.dispatch origin (.eth_call c) s = _ := eth_call_run s ho hv hcode
          refine Or.inr ⟨account, value, _, _, rfl, .call c, ?_, ?_⟩
          · rw [hrun, map_map_unit]
          · rw [hrun]
            rfl

end runs

/-! ## Lookup -/

/-- `StaticLookup::lookup`. -/
def lookup : MultiAddress → Except LookupError AccountId
  | .Id id => .ok id
  | .Address20 i => .ok (get_account_id p.host i)
  | _ => .error .mk

theorem lookup_eq_ok {a : MultiAddress} {id : AccountId} :
    p.lookup a = .ok id ↔
      a = .Id id ∨ ∃ i, a = .Address20 i ∧ id = get_account_id p.host i := by
  cases a with
  | Id a => simp [lookup]
  | Address20 i => simp [lookup, eq_comm]
  | Index i => simp [lookup]
  | Raw b => simp [lookup]
  | Address32 b => simp [lookup]

end Pallet

end EthRpc
