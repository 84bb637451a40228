import EthRpc.Api.ScaleTypes
import EthRpc.Rpc.Execution

/-! # The dry run, over the wire

    A dry run goes to the node as bytes: the server encodes the transaction,
    decodes it into the type generated from the metadata, which has the same
    fields, and encodes that; the runtime decodes it, runs it, and encodes
    the outcome.

    * `do_dry_run_eq`: what comes back is what the pallet says of this
      transaction, and the server panics exactly on what cannot be encoded.
    * `do_dry_run_refines`: for the transactions the server makes itself this
      is the dry run without the bytes in between.
-/

namespace EthRpc

open Scale

/-! ## Fields a dry run reads -/

namespace RpcTypes.GenericTransaction

/-- The fields the pallet reads, and the nonce. -/
def fields (tx : GenericTransaction) : EthRpc.GenericTransaction where
  «from» := tx.from
  input := tx.input
  nonce := tx.nonce
  «to» := tx.to
  value := tx.value

/-- The transaction that has only these fields. -/
def of_fields (tx : EthRpc.GenericTransaction) : GenericTransaction :=
  { default with
    «from» := tx.from
    input := tx.input
    nonce := tx.nonce
    «to» := tx.to
    value := tx.value }

theorem fields_of_fields (tx : EthRpc.GenericTransaction) : (of_fields tx).fields = tx := rfl

end RpcTypes.GenericTransaction

/-! ## The runtime's side -/

/-- How a `DispatchError` is written and read. The text of some errors is not
    written, so what is read is an error, but perhaps not the same one. -/
structure DispatchErrorForm where
  encode : DispatchError → List UInt8
  decode : List UInt8 → Option (DispatchError × List UInt8)
  decode_encode : ∀ e rest, ∃ e', decode (encode e ++ rest) = some (e', rest)

/-- What a dry run ends in. -/
abbrev DryRunResult := Except DispatchError DryRunInfo

namespace DispatchErrorForm

variable (D : DispatchErrorForm)

/-- `Result::encode`. -/
def encode_result {ε : Type} : DryRunResult → Outcome ε (List UInt8)
  | .ok info => do
    let bytes ← ScaleTypes.dry_run_info.try_encode info
    return 0 :: bytes
  | .error e => .ok (1 :: D.encode e)

/-- `Result::decode`. -/
def decode_result : List UInt8 → Option (DryRunResult × List UInt8)
  | 0 :: l => (ScaleTypes.dry_run_info.decode l).map (Prod.map .ok id)
  | 1 :: l => (D.decode l).map (Prod.map .error id)
  | _ => none

end DispatchErrorForm

section api
variable {Digest S : Type}

/-- `ContractsEvmApi::gas_estimate`: the runtime panics on an argument that
    does not decode, or that something follows. -/
def Pallet.gas_estimate_api {ε : Type} (p : Pallet Digest S) (D : DispatchErrorForm)
    (arguments : List UInt8) (s : S) : Outcome ε (List UInt8) :=
  match ScaleTypes.generic_transaction.decode arguments with
  | some (tx, []) => D.encode_result (p.gas_estimate tx.fields s).result
  | _ => .panic

/-- The error of a call of the runtime that panicked. -/
def runtime_trapped : ClientError := .SubxtError 0

/-- The error of an answer that does not decode. -/
def undecodable : ClientError := .SubxtError 1

/-- What the node answers when the runtime ran: a panic is an error. -/
def executed {α : Type} : Outcome Empty α → Except ClientError α
  | .ok a => .ok a
  | .err e => nomatch e
  | .panic => .error runtime_trapped

@[simp] theorem executed_ok {α : Type} (a : α) : executed (.ok a) = .ok a := rfl

/-- The node, asked to call the runtime. -/
def Pallet.state_call (p : Pallet Digest S) (D : DispatchErrorForm) (s : S)
    (arguments : List UInt8) : Except ClientError (List UInt8) :=
  executed (p.gas_estimate_api D arguments s)

end api

/-! ## The server's side -/

/-- `Client::do_dry_run`. -/
def do_dry_run (D : DispatchErrorForm) (call : List UInt8 → Except ClientError (List UInt8))
    (tx : RpcTypes.GenericTransaction) : Outcome ClientError DryRunInfo := do
  let encoded ← ScaleTypes.generic_transaction.try_encode tx
  match ScaleTypes.generic_transaction.decode encoded with
  -- `unwrap`
  | none => .panic
  | some (tx, _) => do
    let arguments ← ScaleTypes.generic_transaction.try_encode tx
    let answer ← Outcome.of_except (call arguments)
    let (result, _) ← Outcome.ok_or undecodable (D.decode_result answer)
    match result with
    | .ok info => return info
    | .error _ => .err .DryRunFailed

/-! ## There and back -/

/-- What becomes of the outcome of a dry run on its way back. -/
def dry_run_outcome : DryRunResult → Outcome ClientError DryRunInfo
  | .ok info => if ScaleTypes.dry_run_info.fits info then .ok info else .err runtime_trapped
  | .error _ => .err .DryRunFailed

section there_and_back
variable {Digest S : Type} (p : Pallet Digest S) (D : DispatchErrorForm) (s : S)

/-- The runtime's answer, read by the server. -/
theorem decode_result_encode {ε : Type} {result : DryRunResult} {bytes : List UInt8}
    (h : D.encode_result (ε := ε) result = .ok bytes) :
    (∃ info, result = .ok info ∧ D.decode_result bytes = some (.ok info, [])) ∨
      (∃ e e', result = .error e ∧ D.decode_result bytes = some (.error e', [])) := by
  cases result with
  | ok info =>
    left
    obtain ⟨encoded, hencoded, h⟩ := Outcome.bind_eq_ok.mp h
    cases h
    obtain ⟨hfits, rfl⟩ := Format.try_encode_eq_ok.mp hencoded
    refine ⟨info, rfl, ?_⟩
    have hdecode := ScaleTypes.dry_run_info.decode_encode hfits []
    rw [List.append_nil] at hdecode
    rw [DispatchErrorForm.decode_result, hdecode]
    rfl
  | error e =>
    right
    cases h
    obtain ⟨e', hdecode⟩ := D.decode_encode e []
    rw [List.append_nil] at hdecode
    refine ⟨e, e', rfl, ?_⟩
    rw [DispatchErrorForm.decode_result, hdecode]
    rfl

/-- The runtime writes every outcome whose return data can be written. -/
theorem encode_result_cases (result : DryRunResult) :
    (∃ bytes, D.encode_result (ε := Empty) result = .ok bytes) ∨
      (D.encode_result (ε := Empty) result = .panic ∧
        ∃ info, result = .ok info ∧ ¬ ScaleTypes.dry_run_info.fits info) := by
  cases result with
  | ok info =>
    by_cases hfits : ScaleTypes.dry_run_info.fits info
    · left
      refine ⟨0 :: ScaleTypes.dry_run_info.encode info, ?_⟩
      rw [DispatchErrorForm.encode_result, Format.try_encode_of_fits hfits]
      rfl
    · right
      refine ⟨?_, info, rfl, hfits⟩
      rw [DispatchErrorForm.encode_result, Format.try_encode_of_not_fits hfits]
      rfl
  | error e => exact Or.inl ⟨_, rfl⟩

/-- What the node answers to the bytes of a transaction. -/
theorem state_call_encode {tx : RpcTypes.GenericTransaction}
    (hfits : ScaleTypes.generic_transaction.fits tx) :
    p.state_call D s (ScaleTypes.generic_transaction.encode tx) =
      executed (D.encode_result (p.gas_estimate tx.fields s).result) := by
  have hdecode := ScaleTypes.generic_transaction.decode_encode hfits []
  rw [List.append_nil] at hdecode
  rw [Pallet.state_call, Pallet.gas_estimate_api, hdecode]

/-- **There and back.** A dry run over the wire ends as the pallet's does on
    the same transaction, and panics exactly on a transaction that cannot be
    written. -/
theorem do_dry_run_eq (tx : RpcTypes.GenericTransaction) :
    do_dry_run D (p.state_call D s) tx =
      if ScaleTypes.generic_transaction.fits tx then
        dry_run_outcome (p.gas_estimate tx.fields s).result
      else .panic := by
  by_cases hfits : ScaleTypes.generic_transaction.fits tx
  · have hdecode := ScaleTypes.generic_transaction.decode_encode hfits []
    rw [List.append_nil] at hdecode
    rw [if_pos hfits, do_dry_run, Format.try_encode_of_fits hfits, Outcome.ok_bind, hdecode]
    show (Format.try_encode _ tx >>= _) = _
    rw [Format.try_encode_of_fits hfits, Outcome.ok_bind, state_call_encode p D s hfits]
    rcases encode_result_cases D (p.gas_estimate tx.fields s).result with
      ⟨bytes, hbytes⟩ | ⟨hpanic, info, hinfo, hnot⟩
    · rw [hbytes, executed_ok, Outcome.of_except_ok, Outcome.ok_bind]
      rcases decode_result_encode D hbytes with ⟨info, hinfo, hread⟩ | ⟨e, e', he, hread⟩
      · -- what was written fits
        have hinfo_fits : ScaleTypes.dry_run_info.fits info := by
          rw [hinfo] at hbytes
          obtain ⟨encoded, hencoded, -⟩ := Outcome.bind_eq_ok.mp hbytes
          exact (Format.try_encode_eq_ok.mp hencoded).1
        rw [hread, hinfo, dry_run_outcome, if_pos hinfo_fits]
        rfl
      · rw [hread, he]
        rfl
    · rw [hpanic, hinfo, dry_run_outcome, if_neg hnot]
      rfl
  · rw [if_neg hfits, do_dry_run, Format.try_encode_of_not_fits hfits]
    rfl

end there_and_back

/-! ## The requests of the server -/

/-- A transaction that has only the fields above can be written if its input
    can. -/
theorem fits_of_fields (tx : GenericTransaction) :
    ScaleTypes.generic_transaction.fits (.of_fields tx) ↔
      ((tx.input.map ByteVec.data).getD []).length < 2 ^ 32 := by
  cases hinput : tx.input with
  | none =>
    simp [ScaleTypes.generic_transaction, Format.iso, RpcTypes.GenericTransaction.of_fields,
      RpcTypes.GenericTransaction.default, hinput, Option.all_eq_true]
  | some b =>
    simp [ScaleTypes.generic_transaction, Format.iso, RpcTypes.GenericTransaction.of_fields,
      RpcTypes.GenericTransaction.default, hinput, Option.all_eq_true]

/-- **Refinement.** For the transactions the server makes itself, a dry run
    over the wire is the dry run of a node that answers with the outcome of
    the pallet. -/
theorem do_dry_run_refines {Digest S : Type} {client : Client Digest} {p : Pallet Digest S}
    {D : DispatchErrorForm} {s : S} {tx : GenericTransaction}
    (hnode : client.node.gas_estimate tx = .ok (p.gas_estimate tx s).result)
    (hreturn : ∀ info, (p.gas_estimate tx s).result = .ok info →
      info.return_data.length < 2 ^ 32) :
    do_dry_run D (p.state_call D s) (.of_fields tx) = client.dry_run tx := by
  rw [do_dry_run_eq, RpcTypes.GenericTransaction.fields_of_fields, Client.dry_run, hnode]
  by_cases hinput : ((tx.input.map ByteVec.data).getD []).length < 2 ^ 32
  · rw [if_pos ((fits_of_fields tx).mpr hinput), if_pos hinput]
    cases hresult : (p.gas_estimate tx s).result with
    | error e => rfl
    | ok info =>
      have hfits : ScaleTypes.dry_run_info.fits info := by
        rw [ScaleTypes.dry_run_info_fits, decide_eq_true_eq]
        exact hreturn info hresult
      exact if_pos hfits
  · rw [if_neg (mt (fits_of_fields tx).mp hinput), if_neg hinput]

namespace Sample

/-- All errors written as the same byte. -/
def dispatch_error_form : DispatchErrorForm where
  encode _ := [0]
  decode
    | 0 :: l => some (.Other 0, l)
    | _ => none
  decode_encode _ _ := ⟨.Other 0, rfl⟩

/-- A client of a node that runs the sample runtime. -/
def runtime_client (nonce : BitVec 32) : Client TableDigest where
  host := table.host
  node := { (client nonce).node with
    gas_estimate := fun tx => .ok (runtime.pallet.gas_estimate tx ()).result }

/-- The transaction of the call that stands for `call 1 596`. -/
def dry_run_call : GenericTransaction := (call 1 596).to_generic signer

end Sample

/-- The dry run of the sample transfer, over the wire. -/
theorem do_dry_run_refines_sample :
    do_dry_run Sample.dispatch_error_form
        (Sample.runtime.pallet.state_call Sample.dispatch_error_form ())
        (.of_fields Sample.dry_run_call) =
      (Sample.runtime_client 1).dry_run Sample.dry_run_call := by
  refine do_dry_run_refines rfl ?_
  intro info hinfo
  have hresult : (Sample.runtime.pallet.gas_estimate Sample.dry_run_call ()).result =
      .ok ⟨eth_transfer_weight, none, []⟩ := by decide +kernel
  rw [hresult] at hinfo
  cases hinfo
  decide

end EthRpc
