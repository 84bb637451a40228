import EthRpc.Chain.Runtime

/-! # The source of a call is authentic

    The source is compared twice: by `check`, with the address recovered
    from the signature, and by the pallet, with the account of the origin.

    * An accepted Ethereum extrinsic names the recovered address as its
      source and is signed by that address's account, so the pallet does
      not refuse it.
    * Whatever the origin, a call that names a source gets past the
      pallet's comparison only from that source's account.
-/

namespace EthRpc

/-! ## What the pallet refuses -/

/-- The currency and `pallet_contracts` take accounts, not origins: none of
    the calls the pallet makes fails with `BadOrigin`. -/
structure Contracts.NeverBadOrigin {S : Type} (contracts : Contracts S) : Prop where
  bare_call : ∀ args s, (contracts.bare_call args s).1.result ≠ .error .BadOrigin
  bare_instantiate : ∀ args s, (contracts.bare_instantiate args s).1.result ≠ .error .BadOrigin
  transfer : ∀ source dest value s, (contracts.transfer source dest value s).1 ≠ .error .BadOrigin

theorem map_ne_error {ε α β : Type} {x : Except ε α} {e : ε} (f : α → β) (h : x ≠ .error e) :
    x.map f ≠ .error e := by
  cases x with
  | ok a => simp [Except.map]
  | error e' => simpa [Except.map] using h

namespace Pallet

variable {Digest S : Type} {p : Pallet Digest S}

/-- What comes back from outside is not `BadOrigin`. -/
theorem Outside.ne_bad_origin (hcontracts : p.contracts.NeverBadOrigin) {account : AccountId}
    {value : Balance} {s : S} {c : Call} {effect : Effect} {result : Except DispatchError Unit}
    (h : p.Outside account value s c effect result) : result ≠ .error .BadOrigin := by
  cases h with
  | instantiate c => exact map_ne_error _ (hcontracts.bare_instantiate _ s)
  | call c => exact map_ne_error _ (hcontracts.bare_call _ s)
  | transfer c => exact hcontracts.transfer _ _ _ s

/-- Past the comparison of the source, nothing fails with `BadOrigin`. -/
theorem dispatch_ne_bad_origin (hcontracts : p.contracts.NeverBadOrigin) {origin : Origin}
    {c : Call} {account : AccountId} (s : S)
    (ho : p.ensure_signed_source origin c.source = .ok account) :
    (p.dispatch origin c s).result ≠ .error .BadOrigin := by
  rcases p.dispatch_cases origin c s with ⟨e, he, -⟩ | ⟨-, -, hrun⟩ |
    ⟨account, value, effect, result, -, hout, hresult, -⟩
  · rw [ho] at he
    cases he
  · rw [hrun]
    simp
  · intro hbad
    rw [hbad] at hresult
    exact hout.ne_bad_origin hcontracts hresult.symm

/-- A dispatch that calls out at all got past the comparison. -/
theorem signed_of_trace_ne_nil {origin : Origin} {c : Call} {source : H160} {s : S}
    (hsource : c.source = some source) (htrace : (p.dispatch origin c s).trace ≠ []) :
    origin = .Signed (get_account_id p.host source) := by
  cases ho : p.ensure_signed_source origin c.source with
  | error e =>
    rw [p.dispatch_refused s ho] at htrace
    exact absurd rfl htrace
  | ok account =>
    rw [hsource] at ho
    exact (p.ensure_signed_source_some.mp ho).1

end Pallet

/-! ## From check to dispatch -/

namespace Runtime

variable {Digest S : Type} {r : Runtime Digest S}

/-- What makes the source of an accepted extrinsic authentic. -/
structure Authentic (r : Runtime Digest S) (x : Extrinsic)
    (addr : MultiAddress) (sig : List.Vector UInt8 65) (extra : SignedExtra)
    (checked : CheckedExtrinsic RuntimeCall SignedExtra) (c : Pallet.Call) (source : H160) :
    Prop where
  /-- The call is `eth_call` or `eth_instantiate`, and names its source. -/
  function : x.function = .ContractsEvm c
  call_source : c.source = some source
  /-- The source is recovered from the signature over the rebuilt message. -/
  recovered : ∃ msg, r.convert_eth_tx.convert x.function extra =
      .ok (.TransactionLegacyUnsigned msg, source, extra) ∧
    msg.recover_signer r.host sig = some source
  /-- The address is one of two forms, and both give the source's account. -/
  address : addr = .Id (get_account_id r.host source) ∨
    ∃ i, addr = .Address20 i ∧ get_account_id r.host i = get_account_id r.host source
  signed : checked.signed = some (get_account_id r.host source, extra)
  unchanged : checked.function = x.function
  /-- The pallet does not refuse the call from this account. -/
  dispatched : ∀ s, (r.pallet.dispatch (.Signed (get_account_id r.host source)) c s).result ≠
    .error .BadOrigin

/-- **Authentic source.** An accepted Ethereum extrinsic is a call of the
    contracts pallet from the recovered address, signed by that address's
    account, and its dispatch is not refused; and no origin but that
    account gets a call of this source to the decimals conversion, the
    transfer or the execution. -/
theorem authentic_source (hcontracts : r.contracts.NeverBadOrigin) :
    (∀ (x : Extrinsic) (addr : MultiAddress)
        (sig : List.Vector UInt8 65) (extra : SignedExtra)
        (checked : CheckedExtrinsic RuntimeCall SignedExtra),
      x.signature = some (addr, .Ethereum sig, extra) → r.check x = .ok checked →
      ∃ c source, Authentic r x addr sig extra checked c source) ∧
    (∀ (origin : Origin) (c : Pallet.Call) (source : H160) (s : S),
      c.source = some source → (r.pallet.dispatch origin c s).trace ≠ [] →
      origin = .Signed (get_account_id r.host source)) := by
  constructor
  · intro x addr sig extra checked hsig hcheck
    obtain ⟨c, source, hc, hsource, hfee, hera, hrecover, haddr, rfl⟩ :=
      (r.check_ethereum hsig).mp hcheck
    have hconvert := ConvertEthTx.convert_eq_ok.mpr ⟨c, hc, hsource, hfee, hera, rfl, rfl⟩
    have ho : r.pallet.ensure_signed_source (.Signed (get_account_id r.host source)) c.source =
        .ok (get_account_id r.host source) := by
      rw [hsource]
      exact r.pallet.ensure_signed_source_signed
    exact ⟨c, source, {
      function := hc
      call_source := hsource
      recovered := ⟨_, hconvert, hrecover⟩
      address := haddr
      signed := rfl
      unchanged := rfl
      dispatched := fun s => Pallet.dispatch_ne_bad_origin hcontracts s ho }⟩
  · -- any origin: the conversion is the first call that is recorded
    intro origin c source s hsource htrace
    exact Pallet.signed_of_trace_ne_nil hsource htrace

/-- An accepted call addressed by its Ethereum address, and its dispatch,
    which reaches the transfer from the signer's account. -/
theorem authentic_source_sample :
    (∃ c source, Authentic Sample.runtime
      (Sample.extrinsic (.Address20 Sample.signer) (Sample.signature Sample.signed_call_1 0)
        ⟨1000000, 0⟩ none 0)
      (.Address20 Sample.signer) (Sample.signature Sample.signed_call_1 0) ⟨.Immortal, 1, 0⟩
      ⟨some (Sample.account, ⟨.Immortal, 1, 0⟩),
        .ContractsEvm (.eth_call (Sample.eth_call ⟨1000000, 0⟩ none))⟩ c source) ∧
    Origin.Signed Sample.account =
      .Signed (get_account_id Sample.runtime.host Sample.signer) := by
  have hcontracts : Sample.runtime.contracts.NeverBadOrigin := {
    bare_call := by
      intro args s
      simp [Sample.runtime, Sample.runtime_with, Sample.contracts]
    bare_instantiate := by
      intro args s
      simp [Sample.runtime, Sample.runtime_with, Sample.contracts]
    transfer := by
      intro source dest value s
      simp [Sample.runtime, Sample.runtime_with, Sample.contracts] }
  have h := authentic_source hcontracts
  constructor
  · exact h.1 _ _ _ _ _ rfl (by decide +kernel)
  · exact h.2 (.Signed Sample.account) (.eth_call (Sample.eth_call ⟨1000000, 0⟩ none))
      Sample.signer () rfl (by decide +kernel)

end Runtime

end EthRpc
