import EthRpc.Chain.Runtime

/-! # What an Ethereum signature binds

    An accepted extrinsic is one whose signature recovers to its source over
    the message rebuilt from it. Rebuilding is injective, RLP encoding is
    injective, the digest does not collide, and one signature of one signer
    stands for one digest: so the signature fixes the signed part of the
    call and the nonce, and a signature over a message for another chain,
    or for none, is never accepted.
-/

namespace EthRpc

/-- The part of a call that its Ethereum message carries. -/
inductive SignedPart where
  | eth_instantiate (code data salt : Scale.Vec) (eth_value : Balance) (eth_gas_price : BitVec 64)
      (eth_gas_limit : BitVec 128)
  | eth_call («to» : H160) (data : Scale.Vec) (eth_value : Balance) (eth_gas_price : BitVec 64)
      (eth_gas_limit : BitVec 128)
  deriving DecidableEq

def Pallet.Call.signed_part : Pallet.Call → SignedPart
  | .eth_instantiate c =>
    .eth_instantiate c.code c.data c.salt c.eth_value c.eth_gas_price c.eth_gas_limit
  | .eth_call c => .eth_call c.to c.data c.eth_value c.eth_gas_price c.eth_gas_limit

/-- The signed part of a runtime call, if it has one. -/
def RuntimeCall.signed_part : RuntimeCall → Option SignedPart
  | .ContractsEvm c => some c.signed_part
  | .Other _ => none

/-- The source of a runtime call, if it has one. -/
def RuntimeCall.source : RuntimeCall → Option H160
  | .ContractsEvm c => c.source
  | .Other _ => none

/-! ## Rebuilding is injective -/

theorem setWidth_inj {v w : Nat} (hvw : v ≤ w) {a b : BitVec v}
    (h : a.setWidth w = b.setWidth w) : a = b := by
  apply BitVec.eq_of_toNat_eq
  have hnat := congrArg BitVec.toNat h
  rwa [BitVec.toNat_setWidth_of_le hvw, BitVec.toNat_setWidth_of_le hvw] at hnat

/-- Two calls with the same message have the same signed part, and the
    message was rebuilt under the same nonce. -/
theorem Pallet.Call.rebuild_inj {c d : Pallet.Call} {n m : U256}
    (h : c.rebuild n = d.rebuild m) : c.signed_part = d.signed_part ∧ n = m := by
  -- the two kinds differ in the recipient; within a kind, each field has a place
  cases c with
  | eth_instantiate c =>
    cases d with
    | eth_instantiate d =>
      simp only [rebuild, TransactionLegacyUnsigned.from_instantiate,
        TransactionLegacyUnsigned.mk.injEq, ByteVec.mk.injEq, true_and] at h
      obtain ⟨hgas, hprice, hinput, hnonce, hvalue⟩ := h
      -- code, data and salt are read back from the one input
      have hinput := CallInput.encode_inj hinput
      simp only [CallInput.mk.injEq] at hinput
      obtain ⟨hcode, hdata, hsalt⟩ := hinput
      refine ⟨?_, hnonce⟩
      simp only [signed_part, hcode, hdata, hsalt, setWidth_inj (by omega) hvalue,
        setWidth_inj (by omega) hprice, setWidth_inj (by omega) hgas]
    | eth_call d =>
      -- a deployment has no recipient
      have hto := congrArg TransactionLegacyUnsigned.to h
      simp [rebuild, TransactionLegacyUnsigned.from_instantiate,
        TransactionLegacyUnsigned.from_call] at hto
  | eth_call c =>
    cases d with
    | eth_instantiate d =>
      have hto := congrArg TransactionLegacyUnsigned.to h
      simp [rebuild, TransactionLegacyUnsigned.from_instantiate,
        TransactionLegacyUnsigned.from_call] at hto
    | eth_call d =>
      simp only [rebuild, TransactionLegacyUnsigned.from_call,
        TransactionLegacyUnsigned.mk.injEq, Option.some.injEq, true_and] at h
      obtain ⟨hgas, hprice, hinput, hnonce, hto, hvalue⟩ := h
      have hbytes : (c.data.widen _).data = (d.data.widen _).data := congrArg ByteVec.data hinput
      have hdata : c.data = d.data := ByteVec.ext hbytes
      refine ⟨?_, hnonce⟩
      simp only [signed_part, hto, hdata, setWidth_inj (by omega) hvalue,
        setWidth_inj (by omega) hprice, setWidth_inj (by omega) hgas]

theorem Pallet.Call.rebuild_chain_id (c : Pallet.Call) (n : U256) :
    (c.rebuild n).chain_id = some (ChainId.setWidth 256) := by
  cases c with
  | eth_instantiate c => rfl
  | eth_call c => rfl

/-! ## One signature, one message -/

/-- A signature of one signer stands for one message. -/
theorem Host.message_of_signature {Digest : Type} {host : Host Digest}
    (hkeccak : Function.Injective host.keccak_256) (hrecovery : host.RecoveryInjective)
    {s t : TransactionLegacyUnsigned} {sig : List.Vector UInt8 65} {signer : H160}
    (hs : s.recover_signer host sig = some signer)
    (ht : t.recover_signer host sig = some signer) : s = t := by
  -- from the signature to the digest, to the encoding, to the message
  rw [TransactionLegacyUnsigned.recover_signer_eq] at hs ht
  have hdigest := hrecovery sig _ _ signer hs ht
  exact TransactionLegacyUnsigned.encode_inj (hkeccak hdigest)

namespace Runtime

variable {Digest S : Type} {r : Runtime Digest S}

/-- **Binding.** Accepted extrinsics with one signature and one source agree
    on the signed part and the nonce, and no extrinsic is accepted with a
    signature its source made over a message of another chain id or of none. -/
theorem signature_binds (hkeccak : Function.Injective r.host.keccak_256)
    (hrecovery : r.host.RecoveryInjective) :
    (∀ (x y : Extrinsic) (sig : List.Vector UInt8 65)
        (source : H160) (addr addr' : MultiAddress) (extra extra' : SignedExtra)
        (checked checked' : CheckedExtrinsic RuntimeCall SignedExtra),
      x.signature = some (addr, .Ethereum sig, extra) →
      y.signature = some (addr', .Ethereum sig, extra') →
      x.function.source = some source → y.function.source = some source →
      r.check x = .ok checked → r.check y = .ok checked' →
      x.function.signed_part = y.function.signed_part ∧
        extra.check_nonce = extra'.check_nonce) ∧
    (∀ (msg : TransactionLegacyUnsigned) (x : Extrinsic)
        (sig : List.Vector UInt8 65) (source : H160) (addr : MultiAddress) (extra : SignedExtra)
        (checked : CheckedExtrinsic RuntimeCall SignedExtra),
      msg.chain_id ≠ some (ChainId.setWidth 256) →
      msg.recover_signer r.host sig = some source →
      x.signature = some (addr, .Ethereum sig, extra) →
      x.function.source = some source →
      r.check x ≠ .ok checked) := by
  constructor
  · -- both messages were signed by `source` with `sig`, so they are the same
    intro x y sig source addr addr' extra extra' checked checked' hx hy hsx hsy hcx hcy
    obtain ⟨c, s, hc, hcs, -, -, hrc, -, -⟩ := (r.check_ethereum hx).mp hcx
    obtain ⟨d, s', hd, hds, -, -, hrd, -, -⟩ := (r.check_ethereum hy).mp hcy
    rw [hc] at hsx
    rw [hd] at hsy
    obtain rfl : s = source := Option.some.inj (hcs.symm.trans hsx)
    obtain rfl : s' = s := Option.some.inj (hds.symm.trans hsy)
    obtain ⟨hpart, hnonce⟩ :=
      Pallet.Call.rebuild_inj (Host.message_of_signature hkeccak hrecovery hrc hrd)
    rw [hc, hd]
    exact ⟨congrArg some hpart, setWidth_inj (by omega) hnonce⟩
  · -- the rebuilt message always has this chain's id
    intro msg x sig source addr extra checked hchain hmsg hx hsx hcx
    obtain ⟨c, s, hc, hcs, -, -, hrc, -, -⟩ := (r.check_ethereum hx).mp hcx
    rw [hc] at hsx
    obtain rfl : s = source := Option.some.inj (hcs.symm.trans hsx)
    rw [Host.message_of_signature hkeccak hrecovery hmsg hrc] at hchain
    exact hchain (c.rebuild_chain_id _)

/-- Two accepted extrinsics with the signature of one call, one addressed by
    account and one by address, with different limits and tips; and one with
    the signature of the same call for another chain, which is not accepted. -/
theorem signature_binds_sample :
    (let x := Sample.extrinsic (.Id Sample.account) (Sample.signature Sample.signed_call_1 0)
        ⟨1000000, 0⟩ none 0
      let y := Sample.extrinsic (.Address20 Sample.signer)
        (Sample.signature Sample.signed_call_1 0) ⟨20000000, 0⟩ (some 1000000) 7
      x.function.signed_part = y.function.signed_part) ∧
    ∀ checked, Sample.runtime.check (Sample.extrinsic (.Id Sample.account)
      (Sample.signature Sample.signed_call_other_chain 1) ⟨1000000, 0⟩ none 0) ≠ .ok checked := by
  have h := Runtime.signature_binds (r := Sample.runtime) Sample.table.keccak_injective
    Sample.table.recovery_injective
  constructor
  · exact (h.1 _ _ (Sample.signature Sample.signed_call_1 0) Sample.signer (.Id Sample.account)
      (.Address20 Sample.signer) ⟨.Immortal, 1, 0⟩ ⟨.Immortal, 1, 7⟩
      ⟨some (Sample.account, ⟨.Immortal, 1, 0⟩),
        .ContractsEvm (.eth_call (Sample.eth_call ⟨1000000, 0⟩ none))⟩
      ⟨some (Sample.account, ⟨.Immortal, 1, 7⟩),
        .ContractsEvm (.eth_call (Sample.eth_call ⟨20000000, 0⟩ (some 1000000)))⟩
      rfl rfl rfl rfl (by decide +kernel) (by decide +kernel)).1
  · intro checked
    exact h.2 (Sample.call 1 1) _ (Sample.signature Sample.signed_call_other_chain 1)
      Sample.signer (.Id Sample.account) ⟨.Immortal, 1, 0⟩ checked (by decide)
      (by decide +kernel) rfl rfl

end Runtime

end EthRpc
