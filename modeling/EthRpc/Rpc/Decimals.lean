import EthRpc.Rpc.Wallet
import EthRpc.Rpc.StartUpEnds

/-! # Decimals on the chain and in the server

    The runtime converts between native units and wei with a ratio of its own,
    in 128 bits; the server multiplies with the ratio it computes from the
    properties of the chain, in 256 bits.

    * `convert_decimals_from_saturated`: an amount that is saturated is odd,
      and no multiple of the ratio.
    * `decimals_exact`: no amount is changed by a conversion, and a transfer
      changes the balances the server reports by the wei that were asked for.
-/

namespace EthRpc

open StartUp (Properties token_decimals native_to_evm_ratio)

/-! ## Powers of ten -/

/-- The ratio for a token with `k` decimals less than wei. -/
def decimals_ratio (k : Nat) : BitVec 64 := BitVec.ofNat 64 (10 ^ k)

theorem toNat_decimals_ratio {k : Nat} (hk : k ≤ 18) : (decimals_ratio k).toNat = 10 ^ k := by
  have hlt : 10 ^ k < 2 ^ 64 := (Nat.pow_le_pow_right (by decide) hk).trans_lt (by decide)
  rw [decimals_ratio, BitVec.toNat_ofNat, Nat.mod_eq_of_lt hlt]

theorem decimals_ratio_ne_zero {k : Nat} (hk : k ≤ 18) : decimals_ratio k ≠ 0 := by
  intro h
  have hzero : (decimals_ratio k).toNat = 0 := by
    rw [h]
    rfl
  rw [toNat_decimals_ratio hk] at hzero
  exact absurd hzero (Nat.pow_pos (by decide)).ne'

/-! ## Conversions on the chain -/

namespace Converter

variable {ratio : BitVec 64} {b n : Balance}

/-- The product, as far as it fits. -/
theorem toNat_convert_decimals_to_evm :
    (convert_decimals_to_evm ratio b).toNat = min (b.toNat * ratio.toNat) (2 ^ 128 - 1) := by
  have hratio : (ratio.setWidth 128).toNat = ratio.toNat := BitVec.toNat_setWidth_of_le (by omega)
  unfold convert_decimals_to_evm
  by_cases hb : b = 0
  · rw [if_pos hb, hb]
    simp
  · rw [if_neg hb]
    by_cases hfits : b.toNat * ratio.toNat < 2 ^ 128
    · rw [if_pos hfits, BitVec.toNat_mul, hratio, Nat.mod_eq_of_lt hfits]
      omega
    · rw [if_neg hfits, BitVec.toNat_allOnes]
      omega

/-- A saturated amount is odd, so that an even ratio does not divide it. -/
theorem convert_decimals_from_saturated (heven : 2 ∣ ratio.toNat) :
    convert_decimals_from_evm ratio (BitVec.allOnes 128) = none := by
  rw [Option.eq_none_iff_forall_ne_some]
  intro n h
  obtain ⟨hmul, -⟩ := convert_decimals_from_evm_eq_some.mp h
  rw [BitVec.toNat_allOnes] at hmul
  have hdvd : 2 ∣ n.toNat * ratio.toNat := heven.mul_left _
  omega

/-- What is converted from wei is converted back. -/
theorem convert_decimals_to_from (h : convert_decimals_from_evm ratio b = some n) :
    convert_decimals_to_evm ratio n = b := by
  obtain ⟨hmul, -⟩ := convert_decimals_from_evm_eq_some.mp h
  have hb := b.isLt
  apply BitVec.eq_of_toNat_eq
  rw [toNat_convert_decimals_to_evm, ← hmul]
  omega

/-- A native amount is converted back where its wei fit, and refused where
    they are saturated. A ratio of one saturates nothing. -/
theorem convert_decimals_from_to (hratio : ratio ≠ 0) (heven : 2 ∣ ratio.toNat ∨ ratio.toNat = 1) :
    convert_decimals_from_evm ratio (convert_decimals_to_evm ratio n) =
      if n.toNat * ratio.toNat < 2 ^ 128 then some n else none := by
  have hto : (convert_decimals_to_evm ratio n).toNat = min (n.toNat * ratio.toNat) (2 ^ 128 - 1) :=
    toNat_convert_decimals_to_evm
  by_cases hfits : n.toNat * ratio.toNat < 2 ^ 128
  · rw [if_pos hfits, convert_decimals_from_evm_eq_some]
    refine ⟨?_, fun hzero => absurd hzero hratio⟩
    omega
  · rw [if_neg hfits]
    have hsaturated : convert_decimals_to_evm ratio n = BitVec.allOnes 128 := by
      apply BitVec.eq_of_toNat_eq
      rw [hto, BitVec.toNat_allOnes]
      omega
    rw [hsaturated]
    rcases heven with heven | hone
    · exact convert_decimals_from_saturated heven
    · have hn := n.isLt
      rw [hone] at hfits
      omega

end Converter

/-! ## Conversions in the server -/

/-- The ratio the server computes is the one of the runtime, and its products
    do not saturate. -/
theorem native_to_evm_ratio_eq {props : Properties} {d : BitVec 64} {k : Nat}
    (hdec : token_decimals props = some d) (hk : d.toNat + k = 18) :
    native_to_evm_ratio (.ok props) = .ok ((decimals_ratio k).setWidth 256) := by
  have hexp : 18 - d.toNat = k := by omega
  have hratio : BitVec.ofNat 256 (10 ^ k) = (decimals_ratio k).setWidth 256 := by
    apply BitVec.eq_of_toNat_eq
    have hlt : 10 ^ k < 2 ^ 64 :=
      (Nat.pow_le_pow_right (by decide) (by omega : k ≤ 18)).trans_lt (by decide)
    rw [BitVec.toNat_setWidth_of_le (by omega), toNat_decimals_ratio (by omega),
      BitVec.toNat_ofNat, Nat.mod_eq_of_lt (hlt.trans (by decide))]
  rw [StartUp.native_to_evm_ratio_of_decimals hdec, if_pos (by omega), hexp, hratio]

theorem toNat_native_to_evm_decimals_of_lt {k : Nat} (hk : k ≤ 18) {n : U256}
    (hn : n.toNat < 2 ^ 128) :
    (native_to_evm_decimals ((decimals_ratio k).setWidth 256) n).toNat = n.toNat * 10 ^ k := by
  have hnarrow : (n.setWidth 128).setWidth 256 = n := by
    apply BitVec.eq_of_toNat_eq
    rw [BitVec.toNat_setWidth_of_le (by omega), BitVec.toNat_setWidth, Nat.mod_eq_of_lt hn]
  have hsame : (n.setWidth 128).toNat = n.toNat := by
    rw [BitVec.toNat_setWidth, Nat.mod_eq_of_lt hn]
  rw [← hnarrow, toNat_native_to_evm_decimals, hsame, toNat_decimals_ratio hk, hnarrow]

/-! ## Transfers -/

/-- `Currency::transfer`: what leaves the source arrives at the destination. -/
structure MovesValue {S : Type} (contracts : Contracts S) (free : S → AccountId → Balance) :
    Prop where
  source : ∀ a b value s s', contracts.transfer a b value s = (.ok (), s') → a ≠ b →
    (free s' a).toNat + value.toNat = (free s a).toNat
  dest : ∀ a b value s s', contracts.transfer a b value s = (.ok (), s') → a ≠ b →
    (free s' b).toNat = (free s b).toNat + value.toNat

/-- `eth_getBalance`, where every account has its free balance. -/
def Client.reported_balance {Digest : Type} (client : Client Digest) (native_to_evm_ratio : U256)
    (free : AccountId → Balance) (address : H160) : Except ClientError U256 :=
  client.balance native_to_evm_ratio (fun account => .ok (some ⟨free account⟩)) address

theorem Client.reported_balance_eq {Digest : Type} (client : Client Digest) {k : Nat}
    (hk : k ≤ 18) (free : AccountId → Balance) (address : H160) :
    ∃ b, client.reported_balance ((decimals_ratio k).setWidth 256) free address = .ok b ∧
      b.toNat = (free (client.account_id address)).toNat * 10 ^ k := by
  refine ⟨_, (client.balance_eq_ok rfl).mpr rfl, ?_⟩
  rw [toNat_native_to_evm_decimals, toNat_decimals_ratio hk]

/-- A transfer of `eth_value` wei to an account without a contract, by the
    account of an address: the reported balances of the two change by this. -/
def TransfersExactly (k : Nat) : Prop :=
  ∀ {Digest S : Type} (p : Pallet Digest S) (client : Client Digest) (free : S → AccountId → Balance)
    (origin : Origin) (source : H160) (c : EthCall) (s : S) (info : PostDispatchInfo),
    client.host = p.host → p.DECIMALS_VALUE = decimals_ratio k → MovesValue p.contracts free →
    p.ensure_signed_source origin c.source = .ok (get_account_id p.host source) →
    p.contracts.code_hash s (get_account_id p.host c.to) = none →
    get_account_id p.host source ≠ get_account_id p.host c.to →
    (p.eth_call origin c s).result = .ok info →
    ∀ props d, token_decimals props = some d → d.toNat + k = 18 →
    ∃ ratio, native_to_evm_ratio (.ok props) = .ok ratio ∧
      ∃ source_before source_after to_before to_after,
        client.reported_balance ratio (free s) source = .ok source_before ∧
        client.reported_balance ratio (free (p.eth_call origin c s).state) source =
          .ok source_after ∧
        client.reported_balance ratio (free s) c.to = .ok to_before ∧
        client.reported_balance ratio (free (p.eth_call origin c s).state) c.to = .ok to_after ∧
        source_after.toNat + c.eth_value.toNat = source_before.toNat ∧
        to_after.toNat = to_before.toNat + c.eth_value.toNat

theorem transfersExactly {k : Nat} (hk : k ≤ 18) : TransfersExactly k := by
  intro Digest S p client free origin source c s info hhost hratio hmoves hsource hcode hne hok
    props d hdec hd
  refine ⟨_, native_to_evm_ratio_eq hdec hd, ?_⟩
  cases hvalue : Converter.convert_decimals_from_evm p.DECIMALS_VALUE c.eth_value with
  | none =>
    rw [Pallet.eth_call_unconverted s hsource hvalue] at hok
    cases hok
  | some value =>
    rw [Pallet.eth_call_transfer s hsource hvalue hcode] at hok ⊢
    obtain ⟨hmul, -⟩ := Converter.convert_decimals_from_evm_eq_some.mp hvalue
    rw [hratio, toNat_decimals_ratio hk] at hmul
    -- the transfer has succeeded
    have hsent : p.contracts.transfer (get_account_id p.host source) (get_account_id p.host c.to)
        value s = (.ok (), (p.contracts.transfer (get_account_id p.host source)
          (get_account_id p.host c.to) value s).2) := by
      cases hres : (p.contracts.transfer (get_account_id p.host source)
          (get_account_id p.host c.to) value s).1 with
      | error e =>
        simp only [hres, Except.map] at hok
        cases hok
      | ok u => exact Prod.ext hres rfl
    have hleaves := hmoves.source _ _ _ _ _ hsent hne
    have harrives := hmoves.dest _ _ _ _ _ hsent hne
    have haccount : ∀ address, client.account_id address = get_account_id p.host address := by
      intro address
      show get_account_id client.host address = _
      rw [hhost]
    obtain ⟨b, hb, hbval⟩ := client.reported_balance_eq hk (free s) source
    obtain ⟨b', hb', hbval'⟩ := client.reported_balance_eq hk (free (p.contracts.transfer
      (get_account_id p.host source) (get_account_id p.host c.to) value s).2) source
    obtain ⟨t, ht, htval⟩ := client.reported_balance_eq hk (free s) c.to
    obtain ⟨t', ht', htval'⟩ := client.reported_balance_eq hk (free (p.contracts.transfer
      (get_account_id p.host source) (get_account_id p.host c.to) value s).2) c.to
    refine ⟨b, b', t, t', hb, hb', ht, ht', ?_, ?_⟩
    · rw [hbval, hbval', hmul, haccount, ← hleaves, Nat.add_mul]
    · rw [htval, htval', hmul, haccount, harrives, Nat.add_mul]

/-! ## Exact conversions -/

/-- Conversions neither make nor lose money, with `k` decimals less than wei. -/
structure DecimalsExact (k : Nat) : Prop where
  from_evm : ∀ v n : Balance, Converter.convert_decimals_from_evm (decimals_ratio k) v = some n ↔
    n.toNat * 10 ^ k = v.toNat
  back_to_evm : ∀ v n : Balance, Converter.convert_decimals_from_evm (decimals_ratio k) v = some n →
    Converter.convert_decimals_to_evm (decimals_ratio k) n = v
  back_from_evm : ∀ n : Balance, Converter.convert_decimals_from_evm (decimals_ratio k)
    (Converter.convert_decimals_to_evm (decimals_ratio k) n) =
      if n.toNat * 10 ^ k < 2 ^ 128 then some n else none
  reported : ∀ props d, token_decimals props = some d → d.toNat + k = 18 →
    ∃ ratio, native_to_evm_ratio (.ok props) = .ok ratio ∧ ∀ n : U256, n.toNat < 2 ^ 128 →
      (native_to_evm_decimals ratio n).toNat = n.toNat * 10 ^ k
  transferred : TransfersExactly k

/-- **Conversions are exact**, for every token with at most eighteen decimals. -/
theorem decimals_exact {k : Nat} (hk : k ≤ 18) : DecimalsExact k where
  from_evm v n := by
    rw [Converter.convert_decimals_from_evm_eq_some, toNat_decimals_ratio hk, eq_comm]
    exact and_iff_left fun hzero => absurd hzero (decimals_ratio_ne_zero hk)
  back_to_evm _ _ h := Converter.convert_decimals_to_from h
  back_from_evm n := by
    have heven : 2 ∣ (decimals_ratio k).toNat ∨ (decimals_ratio k).toNat = 1 := by
      rw [toNat_decimals_ratio hk]
      rcases Nat.eq_zero_or_pos k with rfl | hpos
      · exact Or.inr rfl
      · exact Or.inl ((by decide : 2 ∣ 10).trans (dvd_pow_self 10 hpos.ne'))
    rw [Converter.convert_decimals_from_to (decimals_ratio_ne_zero hk) heven,
      toNat_decimals_ratio hk]
  reported props d hdec hd :=
    ⟨_, native_to_evm_ratio_eq hdec hd, fun _ hn => toNat_native_to_evm_decimals_of_lt hk hn⟩
  transferred := transfersExactly hk

/-! ## A sample transfer -/

namespace Sample

/-- Accounts with free balances, and no contracts. -/
def ledger : Contracts (AccountId → Balance) where
  code_hash _ _ := none
  bare_call _ s := (⟨⟨0, 0⟩, ⟨0, 0⟩, .Charge 0, .error (.Other 0)⟩, s)
  bare_instantiate _ s := (⟨⟨0, 0⟩, ⟨0, 0⟩, .Charge 0, .error (.Other 0)⟩, s)
  transfer source dest value s :=
    if source = dest then (.ok (), s)
    else if value.toNat ≤ (s source).toNat ∧ (s dest).toNat + value.toNat < 2 ^ 128 then
      (.ok (), fun a => if a = source then s a - value else if a = dest then s a + value else s a)
    else (.error (.Other 0), s)
  weight_instantiate_with_code _ _ _ := ⟨0, 0⟩
  weight_call := ⟨0, 0⟩

theorem ledger_moves : MovesValue ledger fun s => s where
  source a b value s s' h hne := by
    simp only [ledger, if_neg hne] at h
    by_cases hfits : value.toNat ≤ (s a).toNat ∧ (s b).toNat + value.toNat < 2 ^ 128
    · simp only [if_pos hfits, Prod.mk.injEq, true_and] at h
      have hsub := BitVec.toNat_sub_of_le (BitVec.le_def.mpr hfits.1)
      simp only [← h, if_true, hsub]
      omega
    · rw [if_neg hfits] at h
      simp at h
  dest a b value s s' h hne := by
    simp only [ledger, if_neg hne] at h
    by_cases hfits : value.toNat ≤ (s a).toNat ∧ (s b).toNat + value.toNat < 2 ^ 128
    · simp only [if_pos hfits, Prod.mk.injEq, true_and] at h
      simp only [← h, if_neg hne.symm, if_true, BitVec.toNat_add, Nat.mod_eq_of_lt hfits.2]
    · rw [if_neg hfits] at h
      simp at h

/-- The pallet over this ledger, with the ratio of the runtime. -/
def ledger_pallet : Pallet TableDigest (AccountId → Balance) where
  host := table.host
  contracts := ledger
  DECIMALS_VALUE := DECIMALS_VALUE
  block_weights := ⟨none, ⟨2000000000000, 0⟩⟩

end Sample

/-- The runtime has three decimals less than wei. A call with five million
    wei is a transfer of five thousand units, and is reported as five million. -/
theorem decimals_exact_sample :
    let before : AccountId → Balance := fun _ => 1000000
    let after := (Sample.ledger_pallet.eth_call (.Signed Sample.account)
      (Sample.eth_call ⟨1000000, 0⟩ none) before).state
    ∃ ratio, native_to_evm_ratio (.ok (StartUp.Sample.properties "15")) = .ok ratio ∧
      ∃ source_before source_after to_before to_after,
        (Sample.client 0).reported_balance ratio before Sample.signer = .ok source_before ∧
        (Sample.client 0).reported_balance ratio after Sample.signer = .ok source_after ∧
        (Sample.client 0).reported_balance ratio before Sample.recipient = .ok to_before ∧
        (Sample.client 0).reported_balance ratio after Sample.recipient = .ok to_after ∧
        source_after.toNat + 5000000 = source_before.toNat ∧
        to_after.toNat = to_before.toNat + 5000000 :=
  (decimals_exact (by decide : 3 ≤ 18)).transferred Sample.ledger_pallet (Sample.client 0)
    (fun s => s) (.Signed Sample.account) Sample.signer (Sample.eth_call ⟨1000000, 0⟩ none)
    (fun _ => 1000000) ⟨some eth_transfer_weight, .Yes⟩ rfl rfl Sample.ledger_moves
    (by decide +kernel) rfl (by decide +kernel) (by decide +kernel)
    (StartUp.Sample.properties "15") 15 (by decide +kernel) rfl

end EthRpc
