import EthRpc.Chain.DryRun
import EthRpc.Rpc.Send

/-! # The dry run and the dispatch of one transaction

    The limits of an extrinsic come from a dry run of its transaction. The
    dry run executes with the value in wei, and lets every value pass to an
    account without a contract; the dispatch converts the value to native
    units first, and refuses one that is not whole.

    `dry_run_agrees_iff`: the two execute the same thing, and refuse the
    same values, exactly for a value of zero, or of whole native units on
    its way to an account without a contract.
-/

namespace EthRpc

/-! ## Executions -/

/-- What `pallet_contracts` is asked to execute, limits and debug flags apart. -/
inductive Execution where
  | call (origin dest : AccountId) (value : Balance) (data : List UInt8)
  | instantiate (origin : AccountId) (value : Balance) (code : Code) (data salt : List UInt8)
  deriving DecidableEq

def Effect.execution : Effect → Option Execution
  | .bare_call a => some (.call a.origin a.dest a.value a.data)
  | .bare_instantiate a => some (.instantiate a.origin a.value a.code a.data a.salt)
  | _ => none

/-- The executions in a trace, in order. -/
def executions (trace : List Effect) : List Execution := trace.filterMap Effect.execution

@[simp] theorem executions_nil : executions [] = [] := rfl

@[simp] theorem executions_convert (v : Balance) (trace : List Effect) :
    executions (.convert_decimals_from_evm v :: trace) = executions trace := rfl

@[simp] theorem executions_transfer (a b : AccountId) (v : Balance) (trace : List Effect) :
    executions (.transfer a b v :: trace) = executions trace := rfl

@[simp] theorem executions_bare_call (a : BareCall) (trace : List Effect) :
    executions (.bare_call a :: trace) =
      .call a.origin a.dest a.value a.data :: executions trace := rfl

@[simp] theorem executions_bare_instantiate (a : BareInstantiate) (trace : List Effect) :
    executions (.bare_instantiate a :: trace) =
      .instantiate a.origin a.value a.code a.data a.salt :: executions trace := rfl

/-! ## Values in wei and in native units -/

theorem dry_run_value_of_try_into {v : U256} {b : Balance} (h : try_into 128 v = some b) :
    Pallet.dry_run_value (some v) = .ok b := by
  simp [Pallet.dry_run_value, h]

theorem DECIMALS_VALUE_toNat : DECIMALS_VALUE.toNat = 1000 := by decide

/-- In the runtime a value converts exactly if it is a multiple of the ratio. -/
theorem convert_eq_none_iff {b : Balance} :
    Converter.convert_decimals_from_evm DECIMALS_VALUE b = none ↔ ¬ 1000 ∣ b.toNat := by
  constructor
  · intro h hdvd
    -- the quotient fits, so the conversion would have returned it
    obtain ⟨k, hk⟩ := hdvd
    have hlt : k < 2 ^ 128 := by
      have := b.isLt
      omega
    have hsome : Converter.convert_decimals_from_evm DECIMALS_VALUE b =
        some (BitVec.ofNat 128 k) := by
      rw [Converter.convert_decimals_from_evm_eq_some, DECIMALS_VALUE_toNat, BitVec.toNat_ofNat,
        Nat.mod_eq_of_lt hlt]
      exact ⟨by omega, fun h => absurd h (by decide)⟩
    rw [h] at hsome
    cases hsome
  · intro hdvd
    cases hconv : Converter.convert_decimals_from_evm DECIMALS_VALUE b with
    | none => rfl
    | some n =>
      obtain ⟨hmul, -⟩ := Converter.convert_decimals_from_evm_eq_some.mp hconv
      rw [DECIMALS_VALUE_toNat] at hmul
      exact absurd ⟨n.toNat, by omega⟩ hdvd

/-- Only zero is the same amount in wei and in native units. -/
theorem convert_self_iff {b n : Balance}
    (h : Converter.convert_decimals_from_evm DECIMALS_VALUE b = some n) : b = n ↔ b = 0 := by
  obtain ⟨hmul, -⟩ := Converter.convert_decimals_from_evm_eq_some.mp h
  rw [DECIMALS_VALUE_toNat] at hmul
  have hzero : (0 : Balance).toNat = 0 := rfl
  constructor
  · intro hsame
    rw [hsame] at hmul ⊢
    apply BitVec.eq_of_toNat_eq
    omega
  · intro hb
    rw [hb] at hmul ⊢
    apply BitVec.eq_of_toNat_eq
    omega

/-! ## Agreement -/

namespace Runtime

variable {Digest S : Type} (r : Runtime Digest S)

/-- The dispatch of a call, signed by the account of its sender. -/
def dispatch_signed (eth_addr : H160) (c : Pallet.Call) : Dispatch S PostDispatchInfo :=
  r.pallet.dispatch (.Signed (get_account_id r.host eth_addr)) c

/-- The dry run of a transaction executes what the dispatch of its call
    executes, and fails for a value that the dispatch refuses, which is one
    that is not a whole number of native units. -/
structure DryRunAgrees (eth_addr : H160) (tx : TransactionLegacyUnsigned) (c : Pallet.Call)
    (s : S) : Prop where
  executes : executions (r.pallet.gas_estimate (tx.to_generic eth_addr) s).trace =
    executions (r.dispatch_signed eth_addr c s).trace
  refuses : ¬ DECIMALS_VALUE.toNat ∣ tx.value.toNat →
    ∃ e, (r.pallet.gas_estimate (tx.to_generic eth_addr) s).result = .error e

/-- The recipient exists and is not a contract. -/
def NoContract (tx : TransactionLegacyUnsigned) (s : S) : Prop :=
  ∃ dest, tx.to = some dest ∧ r.contracts.code_hash s (get_account_id r.host dest) = none

section agreement
variable {r} {eth_addr : H160} {tx : TransactionLegacyUnsigned} {limits : DryRunInfo}
  {c : Pallet.Call}

/-- The signed account of a sender is not refused by the pallet. -/
theorem ensure_sender {source : Option H160} (hsource : source = some eth_addr) :
    r.pallet.ensure_signed_source (.Signed (get_account_id r.host eth_addr)) source =
      .ok (get_account_id r.host eth_addr) := by
  rw [hsource]
  exact r.pallet.ensure_signed_source_signed

/-- The dispatch refuses a value that is not a whole number of native units,
    and executes nothing. -/
theorem dispatch_signed_refuses (hbuild : build_call eth_addr tx limits = .ok c) (s : S)
    (hvalue : ¬ DECIMALS_VALUE.toNat ∣ tx.value.toNat) :
    (r.dispatch_signed eth_addr c s).result = .error .DecimalsConversionFailed ∧
      executions (r.dispatch_signed eth_addr c s).trace = [] := by
  rw [DECIMALS_VALUE_toNat] at hvalue
  cases hto : tx.to with
  | none =>
    obtain ⟨e, rest, rfl, hsource, -, hv, -⟩ := build_call_none hto hbuild
    rw [← toNat_try_into hv, ← convert_eq_none_iff] at hvalue
    have hrun := Pallet.eth_instantiate_unconverted (p := r.pallet) s (ensure_sender hsource) hvalue
    rw [dispatch_signed, Pallet.dispatch, hrun]
    simp
  | some dest =>
    obtain ⟨e, rfl, hsource, -, -, hv, -⟩ := build_call_some hto hbuild
    rw [← toNat_try_into hv, ← convert_eq_none_iff] at hvalue
    have hrun := Pallet.eth_call_unconverted (p := r.pallet) s (ensure_sender hsource) hvalue
    rw [dispatch_signed, Pallet.dispatch, hrun]
    simp

theorem zero_iff_try_into {v : U256} {b : Balance} (h : try_into 128 v = some b) :
    b = 0 ↔ v = 0 := by
  have hnat := toNat_try_into h
  have hzero : (0 : Balance).toNat = (0 : U256).toNat := rfl
  constructor
  · intro hb
    rw [hb] at hnat
    exact BitVec.eq_of_toNat_eq (hnat.symm.trans hzero)
  · intro hv
    rw [hv] at hnat
    exact BitVec.eq_of_toNat_eq (hnat.trans hzero.symm)

/-- A deployment is executed with the value in wei by the dry run, and in
    native units by the dispatch. -/
theorem executions_deployment_iff (hto : tx.to = none)
    (hbuild : build_call eth_addr tx limits = .ok c) (s : S) :
    executions (r.pallet.gas_estimate (tx.to_generic eth_addr) s).trace =
      executions (r.dispatch_signed eth_addr c s).trace ↔ tx.value = 0 := by
  obtain ⟨e, rest, rfl, hsource, hinput, hv, -⟩ := build_call_none hto hbuild
  have hfrom : (tx.to_generic eth_addr).from = some eth_addr := rfl
  have hdry := Pallet.gas_estimate_instantiate (p := r.pallet) s hfrom hto hinput
    (dry_run_value_of_try_into hv)
  rw [hdry, dispatch_signed, Pallet.dispatch, ← zero_iff_try_into hv]
  cases hconv : Converter.convert_decimals_from_evm DECIMALS_VALUE e.eth_value with
  | none =>
    -- the dispatch stops before the execution, and zero would have converted
    rw [Pallet.eth_instantiate_unconverted (p := r.pallet) s (ensure_sender hsource) hconv]
    simp only [executions_bare_instantiate, executions_convert, executions_nil, reduceCtorEq,
      false_iff]
    intro hzero
    rw [convert_eq_none_iff, hzero] at hconv
    exact hconv (by decide)
  | some n =>
    -- the executions differ in their value only
    rw [Pallet.eth_instantiate_run (p := r.pallet) s (ensure_sender hsource) hconv,
      ← convert_self_iff hconv]
    simp [Pallet.dry_run_instantiate_args, Pallet.instantiate_args, pallet]

/-- And so is a call to a contract. -/
theorem executions_call_iff {dest : H160} {code_hash : H256} (hto : tx.to = some dest)
    (hbuild : build_call eth_addr tx limits = .ok c) (s : S)
    (hcode : r.contracts.code_hash s (get_account_id r.host dest) = some code_hash) :
    executions (r.pallet.gas_estimate (tx.to_generic eth_addr) s).trace =
      executions (r.dispatch_signed eth_addr c s).trace ↔ tx.value = 0 := by
  obtain ⟨e, rfl, hsource, rfl, hdata, hv, -⟩ := build_call_some hto hbuild
  have hfrom : (tx.to_generic eth_addr).from = some eth_addr := rfl
  have hdry := Pallet.gas_estimate_call (p := r.pallet) s hfrom hto hcode
    (dry_run_value_of_try_into hv)
  rw [hdry, dispatch_signed, Pallet.dispatch, ← zero_iff_try_into hv]
  cases hconv : Converter.convert_decimals_from_evm DECIMALS_VALUE e.eth_value with
  | none =>
    rw [Pallet.eth_call_unconverted (p := r.pallet) s (ensure_sender hsource) hconv]
    simp only [executions_bare_call, executions_convert, executions_nil, reduceCtorEq, false_iff]
    intro hzero
    rw [convert_eq_none_iff, hzero] at hconv
    exact hconv (by decide)
  | some n =>
    rw [Pallet.eth_call_run (p := r.pallet) s (ensure_sender hsource) hconv hcode,
      ← convert_self_iff hconv]
    have hinput : Pallet.dry_run_input (tx.to_generic eth_addr) = e.data.data := hdata.symm
    simp [Pallet.dry_run_call_args, Pallet.call_args, pallet, hinput]

/-- **Dry run and dispatch.** They agree exactly for a value of zero, or of
    whole native units on its way to an account without a contract. -/
theorem dry_run_agrees_iff (hbuild : build_call eth_addr tx limits = .ok c) (s : S) :
    r.DryRunAgrees eth_addr tx c s ↔
      tx.value = 0 ∨ (r.NoContract tx s ∧ DECIMALS_VALUE.toNat ∣ tx.value.toNat) := by
  have hzero : tx.value = 0 → DECIMALS_VALUE.toNat ∣ tx.value.toNat := by
    intro h
    rw [h]
    exact Dvd.intro 0 rfl
  by_cases hnone : r.NoContract tx s
  · -- nothing is executed by either: only the refusal can differ
    obtain ⟨dest, hto, hcode⟩ := hnone
    have hfrom : (tx.to_generic eth_addr).from = some eth_addr := rfl
    have hdry := Pallet.gas_estimate_transfer (p := r.pallet) s hfrom hto hcode
    have hiff : r.DryRunAgrees eth_addr tx c s ↔ DECIMALS_VALUE.toNat ∣ tx.value.toNat := by
      constructor
      · intro h
        by_contra hvalue
        obtain ⟨e, he⟩ := h.refuses hvalue
        rw [hdry] at he
        cases he
      · intro hvalue
        refine ⟨?_, fun h => absurd hvalue h⟩
        obtain ⟨e, rfl, hsource, rfl, -, hv, -⟩ := build_call_some hto hbuild
        rw [← toNat_try_into hv, DECIMALS_VALUE_toNat] at hvalue
        obtain ⟨n, hconv⟩ := Option.ne_none_iff_exists'.mp
          (mt convert_eq_none_iff.mp (not_not.mpr hvalue))
        rw [hdry, dispatch_signed, Pallet.dispatch,
          Pallet.eth_call_transfer (p := r.pallet) s (ensure_sender hsource) hconv hcode]
        simp
    rw [hiff]
    exact ⟨fun h => Or.inr ⟨⟨dest, hto, hcode⟩, h⟩, fun h => h.elim hzero And.right⟩
  · -- both execute, unless the dispatch refuses: the values must be the same
    have hiff : executions (r.pallet.gas_estimate (tx.to_generic eth_addr) s).trace =
        executions (r.dispatch_signed eth_addr c s).trace ↔ tx.value = 0 := by
      cases hto : tx.to with
      | none => exact executions_deployment_iff hto hbuild s
      | some dest =>
        cases hcode : r.contracts.code_hash s (get_account_id r.host dest) with
        | none => exact absurd ⟨dest, hto, hcode⟩ hnone
        | some code_hash => exact executions_call_iff hto hbuild s hcode
    constructor
    · intro h
      exact Or.inl (hiff.mp h.executes)
    · intro h
      rcases h with h | h
      · exact ⟨hiff.mpr h, fun hvalue => absurd (hzero h) hvalue⟩
      · exact absurd h.1 hnone

/-- A transfer of whole native units to an account without a contract. -/
theorem dry_run_agrees_sample :
    Sample.runtime.DryRunAgrees Sample.signer (Sample.call 1 596)
        (.eth_call (Sample.eth_call ⟨1000000, 0⟩ none)) () ↔
      (Sample.call 1 596).value = 0 ∨ (Sample.runtime.NoContract (Sample.call 1 596) () ∧
        DECIMALS_VALUE.toNat ∣ (Sample.call 1 596).value.toNat) := by
  have hbuild : build_call Sample.signer (Sample.call 1 596) ⟨⟨1000000, 0⟩, none, []⟩ =
      .ok (.eth_call (Sample.eth_call ⟨1000000, 0⟩ none)) := by decide +kernel
  exact dry_run_agrees_iff hbuild ()

/-- The same transfer, to a contract: the dry run calls it with `5000000`
    units, the dispatch with `5000`. And a value of one wei: the dry run
    lets it pass, the dispatch refuses it. -/
theorem dry_run_value_differs :
    (let r := Sample.runtime_with (fun _ => some Sample.call_1_hash) ⟨0, []⟩
      let dest := get_account_id r.host Sample.recipient
      executions (r.pallet.gas_estimate ((Sample.call 1 596).to_generic Sample.signer) ()).trace =
          [.call Sample.account dest 5000000 []] ∧
        executions (r.dispatch_signed Sample.signer
          (.eth_call (Sample.eth_call ⟨1000000, 0⟩ none)) ()).trace =
            [.call Sample.account dest 5000 []]) ∧
    (let tx := { Sample.call 1 596 with value := 1 }
      let c := { Sample.eth_call ⟨1000000, 0⟩ none with eth_value := 1 }
      build_call Sample.signer tx ⟨⟨1000000, 0⟩, none, []⟩ = .ok (.eth_call c) ∧
        (Sample.runtime.pallet.gas_estimate (tx.to_generic Sample.signer) ()).result.isOk ∧
        (Sample.runtime.dispatch_signed Sample.signer (.eth_call c) ()).result =
          .error .DecimalsConversionFailed) := by
  decide +kernel

end agreement

end Runtime

end EthRpc
