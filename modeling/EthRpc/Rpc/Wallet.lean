import EthRpc.Chain.Fees
import EthRpc.Rpc.Send

/-! # What a wallet sees

    A wallet asks for the balance of an account, the gas price and a gas
    estimate, and signs a message when the balance is at least
    `value + gas_price * gas`. The balance it sees is in wei: the native
    balance times the ratio of the decimals. The value is converted back
    before it is spent. The fee is not: the runtime compares the wei that
    the message offers with a fee in native units, as numbers.

    `affordable_iff`: what the wallet can afford, the account can afford,
    exactly if the fee that was approved is at most the signed fee converted
    to native units.

    `gas_estimate_sufficient`: a message signed with the estimated gas
    passes the fee check of the runtime.
-/

namespace EthRpc

/-! ## The reported balance -/

/-- `U256::saturating_mul`. -/
def saturating_mul {w : Nat} (a b : BitVec w) : BitVec w :=
  if a.toNat * b.toNat < 2 ^ w then a * b else BitVec.allOnes w

theorem toNat_saturating_mul {w : Nat} (a b : BitVec w) :
    (saturating_mul a b).toNat = min (a.toNat * b.toNat) (2 ^ w - 1) := by
  unfold saturating_mul
  by_cases h : a.toNat * b.toNat < 2 ^ w
  · rw [if_pos h, BitVec.toNat_mul, Nat.mod_eq_of_lt h]
    omega
  · rw [if_neg h, BitVec.toNat_allOnes]
    omega

/-- The account data of the system pallet, as far as the server reads it. -/
structure AccountData where
  free : Balance
  deriving DecidableEq, Repr

/-- `ClientInner::native_to_evm_decimals`. -/
def native_to_evm_decimals (native_to_evm_ratio value : U256) : U256 :=
  saturating_mul value native_to_evm_ratio

/-- `Client::balance`: `fetch` reads the account of the system pallet at the
    requested block. -/
def Client.balance {Digest : Type} (client : Client Digest) (native_to_evm_ratio : U256)
    (fetch : AccountId → Except ClientError (Option AccountData)) (address : H160) :
    Except ClientError U256 := do
  match ← fetch (client.account_id address) with
  | none => return 0
  | some account =>
    let native := account.free.setWidth 256
    return native_to_evm_decimals native_to_evm_ratio native

/-- A balance of `u128` and a ratio of `u64` do not saturate a `U256`. -/
theorem toNat_native_to_evm_decimals (ratio : BitVec 64) (b : Balance) :
    (native_to_evm_decimals (ratio.setWidth 256) (b.setWidth 256)).toNat =
      b.toNat * ratio.toNat := by
  have hb : (b.setWidth 256).toNat = b.toNat := BitVec.toNat_setWidth_of_le (by omega)
  have hratio : (ratio.setWidth 256).toNat = ratio.toNat := BitVec.toNat_setWidth_of_le (by omega)
  have hfits : b.toNat * ratio.toNat ≤ 2 ^ 128 * 2 ^ 64 :=
    Nat.mul_le_mul b.isLt.le ratio.isLt.le
  rw [native_to_evm_decimals, toNat_saturating_mul, hb, hratio]
  omega

/-- The balance reported for an account with `b` native units. -/
theorem Client.balance_eq_ok {Digest : Type} {client : Client Digest} {ratio : BitVec 64}
    {fetch : AccountId → Except ClientError (Option AccountData)} {address : H160} {b : Balance}
    (hfetch : fetch (client.account_id address) = .ok (some ⟨b⟩)) {reported : U256} :
    client.balance (ratio.setWidth 256) fetch address = .ok reported ↔
      reported = native_to_evm_decimals (ratio.setWidth 256) (b.setWidth 256) := by
  unfold Client.balance
  rw [hfetch]
  constructor
  · intro h
    cases h
    rfl
  · intro h
    rw [h]
    rfl

/-! ## Affordability -/

/-- What the fee check approves of a call, in native units. -/
def ConvertEthTx.approved_fee (t : ConvertEthTx) (c : Pallet.Call) : Nat :=
  (t.weight_to_fee c.gas_limit).toNat + (c.storage_deposit_limit.getD 0).toNat

namespace Client

variable {Digest : Type} (client : Client Digest)

/-- Every account whose reported balance covers the value and the signed fee
    of the call has the native units for the value and the approved fee. -/
def Affordable (ratio : BitVec 64) (t : ConvertEthTx) (c : Pallet.Call) : Prop :=
  ∀ (fetch : AccountId → Except ClientError (Option AccountData)) (address : H160) (b : Balance)
    (reported : U256),
    fetch (client.account_id address) = .ok (some ⟨b⟩) →
    client.balance (ratio.setWidth 256) fetch address = .ok reported →
    c.eth_value.toNat + c.eth_fee ≤ reported.toNat →
    ∀ value, Converter.convert_decimals_from_evm ratio c.eth_value = some value →
      value.toNat + t.approved_fee c ≤ b.toNat

variable {client} {ratio : BitVec 64} {t : ConvertEthTx} {c : Pallet.Call}

/-- Without the requests: what it says about the numbers. -/
theorem affordable_iff_nat {value : Balance}
    (hvalue : Converter.convert_decimals_from_evm ratio c.eth_value = some value) :
    client.Affordable ratio t c ↔
      ∀ b : Balance, c.eth_value.toNat + c.eth_fee ≤ b.toNat * ratio.toNat →
        value.toNat + t.approved_fee c ≤ b.toNat := by
  constructor
  · intro h b hcovers
    -- a node where every account has the balance
    refine h (fun _ => .ok (some ⟨b⟩)) (List.Vector.replicate 20 0) b _ rfl
      ((client.balance_eq_ok rfl).mpr rfl) ?_ value hvalue
    rw [toNat_native_to_evm_decimals]
    exact hcovers
  · intro h fetch address b reported hfetch hreported hcovers value' hvalue'
    have hsame : value' = value := Option.some.inj (hvalue'.symm.trans hvalue)
    subst hsame
    rw [(client.balance_eq_ok hfetch).mp hreported, toNat_native_to_evm_decimals] at hcovers
    exact h b hcovers

end Client

/-- An amount of wei on top of a whole number of native units is at most a
    whole number of them if the amount is, rounded up. -/
theorem wei_le_iff {value fee ratio b : Nat} (hratio : 0 < ratio) :
    value * ratio + fee ≤ b * ratio ↔ value + fee ⌈/⌉ ratio ≤ b := by
  constructor
  · intro h
    have hvalue : value ≤ b :=
      Nat.le_of_mul_le_mul_right (le_trans (Nat.le_add_right _ _) h) hratio
    have hfee : fee ⌈/⌉ ratio ≤ b - value := by
      rw [ceilDiv_le_iff_le_mul hratio, Nat.mul_sub, Nat.mul_comm ratio b,
        Nat.mul_comm ratio value]
      omega
    omega
  · intro h
    have hfee : fee ≤ ratio * (fee ⌈/⌉ ratio) := (ceilDiv_le_iff_le_mul hratio).mp le_rfl
    calc value * ratio + fee
        ≤ value * ratio + ratio * (fee ⌈/⌉ ratio) := Nat.add_le_add_left hfee _
      _ = (value + fee ⌈/⌉ ratio) * ratio := by ring
      _ ≤ b * ratio := Nat.mul_le_mul_right ratio h

/-- Among the balances up to `top`, of which the largest is enough for the
    wallet: each that is enough for the wallet is enough for the chain
    exactly if the rounded fee covers what is approved. -/
theorem covered_iff {value fee approved ratio top : Nat} (hzero : ratio = 0 → value = 0)
    (htop : value * ratio + fee ≤ top * ratio) :
    (∀ b ≤ top, value * ratio + fee ≤ b * ratio → value + approved ≤ b) ↔
      approved ≤ fee ⌈/⌉ ratio := by
  rcases Nat.eq_zero_or_pos ratio with hratio | hratio
  · -- every balance is reported as zero, which is enough for nothing but zero
    subst hratio
    have hvalue : value = 0 := hzero rfl
    have hfee : fee = 0 := by omega
    rw [hvalue, hfee, ceilDiv_zero]
    constructor
    · intro h
      simpa using h 0 (Nat.zero_le _) le_rfl
    · intro h b _ _
      omega
  · simp only [wei_le_iff hratio] at htop ⊢
    constructor
    · intro h
      -- the smallest balance that is enough for the wallet
      have := h _ htop le_rfl
      omega
    · intro h b _ hb
      omega

/-- **Affordability.** For a call that `convert` accepts, an account that can
    pay by the reported balance can pay in native units exactly if the value
    is no whole number of units, or no balance is reported to be enough, or
    the approved fee is at most the signed fee converted to native units. -/
theorem Client.affordable_iff {Digest : Type} (client : Client Digest) (ratio : BitVec 64)
    (t : ConvertEthTx) {call : RuntimeCall} {extra extra' : SignedExtra} {u : TransactionUnsigned}
    {source : H160} (h : t.convert call extra = .ok (u, source, extra')) :
    ∃ c, call = .ContractsEvm c ∧ (client.Affordable ratio t c ↔
      Converter.convert_decimals_from_evm ratio c.eth_value = none ∨
      (2 ^ 128 - 1) * ratio.toNat < c.eth_value.toNat + c.eth_fee ∨
      t.approved_fee c ≤ c.eth_fee ⌈/⌉ ratio.toNat) := by
  obtain ⟨c, hc, -⟩ := ConvertEthTx.convert_eq_ok.mp h
  refine ⟨c, hc, ?_⟩
  cases hvalue : Converter.convert_decimals_from_evm ratio c.eth_value with
  | none =>
    -- the call moves no value, and there is nothing to show
    have haffordable : client.Affordable ratio t c := by
      intro _ _ _ _ _ _ _ value hsome
      rw [hvalue] at hsome
      cases hsome
    simp [haffordable]
  | some value =>
    obtain ⟨hmul, hzero⟩ := Converter.convert_decimals_from_evm_eq_some.mp hvalue
    have hzero : ratio.toNat = 0 → value.toNat = 0 := fun hratio =>
      congrArg BitVec.toNat (hzero (BitVec.eq_of_toNat_eq hratio))
    rw [client.affordable_iff_nat hvalue, hmul]
    simp only [reduceCtorEq, false_or]
    by_cases htop : value.toNat * ratio.toNat + c.eth_fee ≤ (2 ^ 128 - 1) * ratio.toNat
    · rw [← covered_iff hzero htop]
      have hnot : ¬ (2 ^ 128 - 1) * ratio.toNat < value.toNat * ratio.toNat + c.eth_fee := by omega
      simp only [hnot, false_or]
      constructor
      · intro hall b hb hcovers
        have hto : (BitVec.ofNat 128 b).toNat = b := by
          rw [BitVec.toNat_ofNat]
          omega
        have := hall (BitVec.ofNat 128 b)
        rw [hto] at this
        exact this hcovers
      · intro hall b hcovers
        have := b.isLt
        exact hall b.toNat (by omega) hcovers
    · -- the largest balance is not enough, so none is
      have hlt : (2 ^ 128 - 1) * ratio.toNat < value.toNat * ratio.toNat + c.eth_fee := by omega
      simp only [hlt, true_or, iff_true]
      intro b hcovers
      have hb : b.toNat * ratio.toNat ≤ (2 ^ 128 - 1) * ratio.toNat :=
        Nat.mul_le_mul_right _ (by have := b.isLt; omega)
      omega

/-- A call whose gas limit costs as many native units as its signed fee is
    worth. -/
theorem Client.affordable_iff_sample :
    ∃ c, RuntimeCall.ContractsEvm (.eth_call (Sample.eth_call ⟨21000, 0⟩ (some 0))) =
        .ContractsEvm c ∧
      ((Sample.client 1).Affordable DECIMALS_VALUE Sample.runtime.convert_eth_tx c ↔
        Converter.convert_decimals_from_evm DECIMALS_VALUE c.eth_value = none ∨
        (2 ^ 128 - 1) * DECIMALS_VALUE.toNat < c.eth_value.toNat + c.eth_fee ∨
        Sample.runtime.convert_eth_tx.approved_fee c ≤ c.eth_fee ⌈/⌉ DECIMALS_VALUE.toNat) := by
  have hfee : Sample.runtime.convert_eth_tx.fee_check
      (.eth_call (Sample.eth_call ⟨21000, 0⟩ (some 0))) = .ok () := by decide +kernel
  have hextra : (⟨.Immortal, 1, 0⟩ : SignedExtra).check_era = .Immortal := rfl
  exact (Sample.client 1).affordable_iff DECIMALS_VALUE Sample.runtime.convert_eth_tx
    (ConvertEthTx.convert_contracts_evm_eq_ok.mpr ⟨rfl, hfee, hextra, rfl, rfl⟩)

/-- An account of 26000 native units is reported to have the 26000000 wei
    for a value of 5000000 and a fee of 1000 times 21000. The value takes
    5000 units, but the fee check approves a fee of 21000000 units. -/
theorem unaffordable_call :
    let c := Pallet.Call.eth_call (Sample.eth_call ⟨21000000, 0⟩ (some 0))
    (Sample.runtime.check (Sample.extrinsic (.Id Sample.account)
        (Sample.signature Sample.signed_call_1 0) ⟨21000000, 0⟩ (some 0) 0)).is_ok ∧
      (Sample.runtime.convert_eth_tx.convert (.ContractsEvm c) ⟨.Immortal, 1, 0⟩).is_ok ∧
      (Sample.client 1).balance (DECIMALS_VALUE.setWidth 256) (fun _ => .ok (some ⟨26000⟩))
        Sample.signer = .ok 26000000 ∧
      c.eth_value.toNat + c.eth_fee ≤ (26000000 : U256).toNat ∧
      Converter.convert_decimals_from_evm DECIMALS_VALUE c.eth_value = some 5000 ∧
      ¬ (5000 : Balance).toNat + Sample.runtime.convert_eth_tx.approved_fee c ≤
        (26000 : Balance).toNat := by
  refine ⟨?_, ?_, rfl, ?_, ?_, ?_⟩
  all_goals decide +kernel

/-! ## The gas estimate -/

/-- `Client::gas_estimate`, with the constant `GAS_PRICE` of the server as a
    parameter: `weight_to_fee` asks the node, and `profile` is that of the
    server. The final sum is at most `2 ^ 128`. -/
def Client.gas_estimate {Digest : Type} (client : Client Digest) (GAS_PRICE : Balance)
    (weight_to_fee : Weight → Except ClientError Balance) (profile : Profile)
    (tx : GenericTransaction) : Outcome ClientError U256 := do
  let result ← client.dry_run tx
  let fee ← Outcome.of_except (weight_to_fee result.gas_limit)
  let total_fee ← profile.add fee (result.storage_deposit_limit.getD 0)
  if GAS_PRICE = 0 then .panic
  else return (total_fee.udiv GAS_PRICE).setWidth 256 + 1

/-- `Weight::min`. -/
def Weight.min (a b : Weight) : Weight where
  ref_time := if a.ref_time ≤ b.ref_time then a.ref_time else b.ref_time
  proof_size := if a.proof_size ≤ b.proof_size then a.proof_size else b.proof_size

/-- `Weight::all_lte`. -/
def Weight.all_lte (a b : Weight) : Prop :=
  a.ref_time ≤ b.ref_time ∧ a.proof_size ≤ b.proof_size

theorem Weight.min_eq_left {a b : Weight} (h : a.all_lte b) : a.min b = a := by
  unfold Weight.min
  rw [if_pos h.1, if_pos h.2]

/-- The estimated gas, as a number. -/
theorem Client.gas_estimate_eq {Digest : Type} {client : Client Digest} {GAS_PRICE : Balance}
    {weight_to_fee : Weight → Except ClientError Balance} (profile : Profile)
    {tx : GenericTransaction} {limits : DryRunInfo} {fee : Balance} (hprice : 0 < GAS_PRICE)
    (hlimits : client.dry_run tx = .ok limits) (hfee : weight_to_fee limits.gas_limit = .ok fee)
    (hsum : fee.toNat + (limits.storage_deposit_limit.getD 0).toNat < 2 ^ 128) :
    ∃ gas, client.gas_estimate GAS_PRICE weight_to_fee profile tx = .ok gas ∧
      gas.toNat = (fee.toNat + (limits.storage_deposit_limit.getD 0).toNat) / GAS_PRICE.toNat + 1 := by
  have hne : GAS_PRICE ≠ 0 := by
    rintro rfl
    exact absurd hprice (BitVec.lt_irrefl _)
  refine ⟨((fee + limits.storage_deposit_limit.getD 0).udiv GAS_PRICE).setWidth 256 + 1, ?_, ?_⟩
  · unfold Client.gas_estimate
    rw [hlimits, Outcome.ok_bind, hfee, Outcome.of_except_ok, Outcome.ok_bind,
      Profile.add_of_lt hsum, Outcome.ok_bind, if_neg hne]
    rfl
  · have hle : (fee.toNat + (limits.storage_deposit_limit.getD 0).toNat) / GAS_PRICE.toNat <
        2 ^ 128 := lt_of_le_of_lt (Nat.div_le_self _ _) hsum
    have hone : (1 : U256).toNat = 1 := rfl
    rw [BitVec.toNat_add, BitVec.toNat_setWidth_of_le (by omega), BitVec.udiv_eq,
      BitVec.toNat_udiv, BitVec.toNat_add, Nat.mod_eq_of_lt hsum, hone, Nat.mod_eq_of_lt]
    exact lt_of_le_of_lt (Nat.succ_le_of_lt hle) (by decide)

/-- The fee check accepts a product that does not wrap and covers the sum. -/
theorem ConvertEthTx.validate_fee_of_le {t : ConvertEthTx} {eth_gas_price : BitVec 64}
    {eth_gas_limit : BitVec 128} {weight : Weight} {deposit : Balance}
    (hmul : eth_gas_limit.toNat * eth_gas_price.toNat < 2 ^ 128)
    (hle : (t.weight_to_fee weight).toNat + deposit.toNat ≤
      eth_gas_limit.toNat * eth_gas_price.toNat) :
    t.validate_fee eth_gas_price eth_gas_limit weight deposit = .ok () := by
  have hprice : (eth_gas_price.setWidth 128).toNat = eth_gas_price.toNat :=
    BitVec.toNat_setWidth_of_le (by omega)
  have hmul' : eth_gas_limit.toNat * (eth_gas_price.setWidth 128).toNat < 2 ^ 128 := by
    rw [hprice]
    exact hmul
  have hsum : (t.weight_to_fee weight).toNat + deposit.toNat < 2 ^ 128 :=
    lt_of_le_of_lt hle hmul
  have hcovers : ¬ eth_gas_limit * eth_gas_price.setWidth 128 < t.weight_to_fee weight + deposit := by
    rw [BitVec.not_lt, BitVec.le_def, BitVec.toNat_add, Nat.mod_eq_of_lt hsum, BitVec.toNat_mul,
      Nat.mod_eq_of_lt hmul', hprice]
    exact hle
  unfold validate_fee
  rw [Profile.mul_of_lt hmul', Outcome.ok_bind, Profile.add_of_lt hsum, Outcome.ok_bind,
    if_neg hcovers]
  rfl

/-- What the fee check reads of a submitted call: price and gas of the
    transaction, and the limits of the dry run. -/
theorem Submission.fee_fields {Digest : Type} {client : Client Digest} {transaction : Bytes}
    {x : Extrinsic} {tx : TransactionLegacySigned} {eth_addr : H160} {sig : List.Vector UInt8 65}
    {limits : DryRunInfo} {c : Pallet.Call}
    (h : Submission client transaction x tx eth_addr sig limits c) :
    c.eth_gas_price.toNat = tx.transaction_legacy_unsigned.gas_price.toNat ∧
      c.eth_gas_limit.toNat = tx.transaction_legacy_unsigned.gas.toNat ∧
      c.gas_limit = limits.gas_limit ∧
      c.storage_deposit_limit = limits.storage_deposit_limit := by
  have hbuild := h.call
  cases hto : tx.transaction_legacy_unsigned.to with
  | none =>
    obtain ⟨e, rest, rfl, -, -, -, hprice, hgas, hlimit, hdeposit⟩ := build_call_none hto hbuild
    exact ⟨toNat_try_into hprice, toNat_try_into hgas, hlimit, hdeposit⟩
  | some dest =>
    obtain ⟨e, rfl, -, -, -, -, hprice, hgas, hlimit, hdeposit⟩ := build_call_some hto hbuild
    exact ⟨toNat_try_into hprice, toNat_try_into hgas, hlimit, hdeposit⟩

/-- **The gas estimate is sufficient.** When the fee and the deposit of a
    dry run fit, an estimate is returned; and every transaction signed with
    at least this gas, at the price of the server or above, passes the fee
    check once it is submitted with the limits of the same dry run. -/
theorem Client.gas_estimate_sufficient {Digest : Type} {client : Client Digest}
    (t : ConvertEthTx) {GAS_PRICE : Balance} (hprice : 0 < GAS_PRICE)
    {max_block : Weight} {weight_to_fee : Weight → Except ClientError Balance}
    (hquery : ∀ w, weight_to_fee w = .ok (t.weight_to_fee (w.min max_block)))
    (profile : Profile) {tx : GenericTransaction} {limits : DryRunInfo}
    (hlimits : client.dry_run tx = .ok limits) (hmax : limits.gas_limit.all_lte max_block)
    (hfee : (t.weight_to_fee limits.gas_limit).toNat +
      (limits.storage_deposit_limit.getD 0).toNat < 2 ^ 128 - 1) :
    ∃ gas, client.gas_estimate GAS_PRICE weight_to_fee profile tx = .ok gas ∧
      ∀ {transaction : Bytes} {x : Extrinsic} {signed : TransactionLegacySigned} {eth_addr : H160}
        {sig : List.Vector UInt8 65} {c : Pallet.Call},
        Submission client transaction x signed eth_addr sig limits c →
        gas ≤ signed.transaction_legacy_unsigned.gas →
        GAS_PRICE.toNat ≤ signed.transaction_legacy_unsigned.gas_price.toNat →
        signed.transaction_legacy_unsigned.gas.toNat *
          signed.transaction_legacy_unsigned.gas_price.toNat < 2 ^ 128 →
        t.fee_check c = .ok () := by
  have hquery_fee : weight_to_fee limits.gas_limit = .ok (t.weight_to_fee limits.gas_limit) := by
    rw [hquery, Weight.min_eq_left hmax]
  obtain ⟨gas, hgas, hgas_nat⟩ := client.gas_estimate_eq profile hprice hlimits hquery_fee
    (by omega)
  refine ⟨gas, hgas, ?_⟩
  intro transaction x signed eth_addr sig c hsub hle hge hmul
  obtain ⟨hc_price, hc_gas, hc_limit, hc_deposit⟩ := hsub.fee_fields
  rw [t.fee_check_eq, hc_limit, hc_deposit]
  have hle : gas.toNat ≤ signed.transaction_legacy_unsigned.gas.toNat := hle
  rw [hgas_nat] at hle
  apply ConvertEthTx.validate_fee_of_le
  · rw [hc_gas, hc_price]
    exact hmul
  · rw [hc_gas, hc_price]
    -- one more than the rounded quotient, times the divisor, is more than the dividend
    calc (t.weight_to_fee limits.gas_limit).toNat + (limits.storage_deposit_limit.getD 0).toNat
        ≤ GAS_PRICE.toNat * (((t.weight_to_fee limits.gas_limit).toNat +
            (limits.storage_deposit_limit.getD 0).toNat) / GAS_PRICE.toNat + 1) :=
          (Nat.lt_mul_div_succ _ hprice).le
      _ ≤ signed.transaction_legacy_unsigned.gas_price.toNat *
            signed.transaction_legacy_unsigned.gas.toNat := Nat.mul_le_mul hge hle
      _ = _ := Nat.mul_comm _ _

/-- At a price of 1000 the sample call is estimated at 1001. It is signed
    with 21000, and passes. -/
theorem Client.gas_estimate_sufficient_sample :
    (Sample.client 1).gas_estimate 1000
        (fun w => .ok (IdentityFee.weight_to_fee (w.min ⟨2000000000000, 0⟩))) .checked
        (Sample.signed_call_1.transaction_legacy_unsigned.to_generic Sample.signer) = .ok 1001 ∧
      Sample.runtime.convert_eth_tx.fee_check
        (.eth_call (Sample.eth_call ⟨1000000, 0⟩ (some 0))) = .ok () := by
  -- what the server submits, and what the node answers to the dry run
  have hsubmitted : (Sample.client 1).raw_extrinsic Sample.raw_call_1 =
      .ok (Sample.submitted_call (Sample.signature Sample.signed_call_1 0) 1) := by decide +kernel
  have hdecoded : TransactionLegacySigned.decode Sample.raw_call_1 = .ok Sample.signed_call_1 := by
    decide +kernel
  obtain ⟨eth_addr, sig, limits, c, hsub⟩ := Client.submission_of_decoded hdecoded hsubmitted
  have hanswer (eth_addr : H160) : (Sample.client 1).dry_run
      (Sample.signed_call_1.transaction_legacy_unsigned.to_generic eth_addr) =
        .ok ⟨⟨1000000, 0⟩, some 0, []⟩ := rfl
  have hlimits : ⟨⟨1000000, 0⟩, some 0, []⟩ = limits := by
    have := (hanswer eth_addr).symm.trans hsub.dry_run
    injection this
  subst hlimits
  have hcall : c = .eth_call (Sample.eth_call ⟨1000000, 0⟩ (some 0)) := by
    have := hsub.function
    injection this with this
    exact this.symm
  subst hcall
  have hprice : (0 : Balance) < 1000 := by decide
  have hquery (w : Weight) :
      (.ok (IdentityFee.weight_to_fee (w.min ⟨2000000000000, 0⟩)) : Except ClientError Balance) =
        .ok (Sample.runtime.convert_eth_tx.weight_to_fee (w.min ⟨2000000000000, 0⟩)) := rfl
  have hmax : Weight.all_lte ⟨1000000, 0⟩ ⟨2000000000000, 0⟩ := ⟨by decide, by decide⟩
  obtain ⟨gas, hgas, hsufficient⟩ := (Sample.client 1).gas_estimate_sufficient
    Sample.runtime.convert_eth_tx hprice hquery .checked (hanswer Sample.signer) hmax
    (by decide +kernel)
  have hestimate : (Sample.client 1).gas_estimate 1000
      (fun w => .ok (IdentityFee.weight_to_fee (w.min ⟨2000000000000, 0⟩))) .checked
      (Sample.signed_call_1.transaction_legacy_unsigned.to_generic Sample.signer) = .ok 1001 := by
    decide +kernel
  refine ⟨hestimate, hsufficient hsub ?_ (by decide +kernel) (by decide +kernel)⟩
  have hgas : gas = 1001 := by
    have := hgas.symm.trans hestimate
    injection this
  rw [hgas]
  decide +kernel

end EthRpc
