import EthRpc.Api.Signature

/-! # Hosts given by tables

    A host whose functions are known at finitely many places, for running
    the model on concrete extrinsics. An input outside the table has a
    digest of its own, so that such a host never collides; a signature
    outside the table recovers to nothing.

    The three facts that the theorems about signatures take from the
    cryptography hold of every table.
-/

namespace EthRpc

/-- A digest: known, or that of an input the table does not list. -/
inductive TableDigest where
  | known (hash : H256)
  | unlisted (input : List UInt8)
  deriving DecidableEq

namespace TableDigest

/-- The digest of an input, from the rows of a table. -/
def lookup (rows : List (List UInt8 × H256)) (input : List UInt8) : TableDigest :=
  match rows.find? fun row => row.1 = input with
  | some row => .known row.2
  | none => .unlisted input

/-- The last twenty bytes of a digest. -/
def address : TableDigest → H160
  | .known hash => ⟨hash.toList.drop 12, by simp⟩
  | .unlisted _ => List.Vector.replicate 20 0

theorem lookup_eq_known {rows : List (List UInt8 × H256)} {input : List UInt8} {hash : H256}
    (h : lookup rows input = .known hash) : (input, hash) ∈ rows := by
  unfold lookup at h
  split at h
  · next row hrow =>
    cases h
    have hinput : row.1 = input := by simpa using List.find?_some hrow
    rw [← hinput]
    exact List.mem_of_find?_eq_some hrow
  · cases h

theorem lookup_eq_unlisted {rows : List (List UInt8 × H256)} {input input' : List UInt8}
    (h : lookup rows input = .unlisted input') : input = input' := by
  unfold lookup at h
  split at h
  · cases h
  · cases h
    rfl

end TableDigest

/-- A signature, a digest, and the key the signature recovers to over it. -/
structure RecoverRow where
  sig : List.Vector UInt8 65
  hash : H256
  pub_key : PublicKey
  deriving DecidableEq

/-- Known values of the host's functions. No digest is listed for two
    inputs, and no signature recovers to one address over two digests. -/
structure HostTable where
  keccak : List (List UInt8 × H256)
  ecrecover : List RecoverRow
  blake2 : List (List UInt8 × H256)
  keccak_nodup : (keccak.map Prod.snd).Nodup
  ecrecover_inj : ∀ a ∈ ecrecover, ∀ b ∈ ecrecover, a.sig = b.sig →
    (TableDigest.lookup keccak a.pub_key.toList).address =
      (TableDigest.lookup keccak b.pub_key.toList).address → a.hash = b.hash

namespace HostTable

variable (t : HostTable)

def secp256k1_ecdsa_recover (sig : List.Vector UInt8 65) (digest : TableDigest) :
    Option PublicKey :=
  (t.ecrecover.find? fun row => row.sig = sig ∧ .known row.hash = digest).map RecoverRow.pub_key

def blake2_256 (input : List UInt8) : H256 :=
  match t.blake2.find? fun row => row.1 = input with
  | some row => row.2
  | none => List.Vector.replicate 32 0

/-- The host of a table. Both libraries recover from the same table. -/
def host : Host TableDigest where
  keccak_256 := TableDigest.lookup t.keccak
  hash_address := TableDigest.address
  secp256k1_ecdsa_recover := t.secp256k1_ecdsa_recover
  is_compact _ := true
  recover_ecdsa digest sig :=
    t.secp256k1_ecdsa_recover (Host.signature_bytes sig.compact sig.recovery_id) digest
  blake2_256 := t.blake2_256

/-- A table host never collides. -/
theorem keccak_injective : Function.Injective t.host.keccak_256 := by
  intro x y h
  have h : TableDigest.lookup t.keccak x = TableDigest.lookup t.keccak y := h
  cases hy : TableDigest.lookup t.keccak y with
  | known hash =>
    -- two rows with one digest are the same row
    have hxmem := TableDigest.lookup_eq_known (h.trans hy)
    have hymem := TableDigest.lookup_eq_known hy
    have hrows := List.inj_on_of_nodup_map t.keccak_nodup hxmem hymem rfl
    exact congrArg Prod.fst hrows
  | unlisted input =>
    -- an unlisted digest carries its input
    rw [TableDigest.lookup_eq_unlisted hy, TableDigest.lookup_eq_unlisted (h.trans hy)]

/-- A recovered address comes from a row of the table. -/
theorem recover_address_eq_some {sig : List.Vector UInt8 65} {digest : TableDigest} {signer : H160}
    (h : t.host.recover_address sig digest = some signer) :
    ∃ row ∈ t.ecrecover, row.sig = sig ∧ digest = .known row.hash ∧
      (TableDigest.lookup t.keccak row.pub_key.toList).address = signer := by
  obtain ⟨key, hkey, haddr⟩ := Option.map_eq_some_iff.mp h
  obtain ⟨row, hrow, rfl⟩ := Option.map_eq_some_iff.mp hkey
  have hfound := List.find?_some hrow
  simp only [decide_eq_true_eq] at hfound
  obtain ⟨hsig, hdigest⟩ := hfound
  exact ⟨row, List.mem_of_find?_eq_some hrow, hsig, hdigest.symm, haddr⟩

/-- One signature recovers to one address over one digest only. -/
theorem recovery_injective : t.host.RecoveryInjective := by
  intro sig d d' signer h h'
  obtain ⟨row, hmem, hsig, rfl, haddr⟩ := t.recover_address_eq_some h
  obtain ⟨row', hmem', hsig', rfl, haddr'⟩ := t.recover_address_eq_some h'
  rw [t.ecrecover_inj row hmem row' hmem' (hsig.trans hsig'.symm) (haddr.trans haddr'.symm)]

/-- Both libraries recover the same key. -/
theorem recover_agrees : t.host.RecoverAgrees := by
  intro compact id digest
  rfl

end HostTable

/-! ## A sample table

    One key, and what it signed: two calls with consecutive nonces, the
    second of them also for another chain, and two deployments. -/

namespace Sample

/-- The public key. -/
def key : PublicKey := be_low 64
  0xf172053d444af7dcd94631559fde721a3a000d6efecb79796eca68d9790fe5c9c17e665ff679db8a90f6720816936b096ed393d7e276d05fca127bebedc57295

/-- The address of the key. -/
def signer : H160 := be_low 20 0x75e480db528101a381ce68544611c169ad7eb342

/-- The account of the address. -/
def account : H256 := be_low 32
  0x1672fe8634b87e28e8918543c99a734124cb33ac4bb61a33089103a4ac8903f8

/-- The recipient of the calls. -/
def recipient : H160 := be_low 20 0x1111111111222222222233333333334444444444

/-- A transfer of `5000000` wei. -/
def call (nonce chain_id : U256) : TransactionLegacyUnsigned where
  chain_id := some chain_id
  gas := 21000
  gas_price := 1000
  input := ⟨[], by decide⟩
  nonce := nonce
  «to» := some recipient
  type := .mk
  value := 5000000

/-- A deployment with the given input. -/
def deployment (input : Bytes) : TransactionLegacyUnsigned where
  chain_id := some 596
  gas := 21000
  gas_price := 1000
  input := input
  nonce := 0
  «to» := none
  type := .mk
  value := 0

/-- The input of the signed deployment: three empty vectors and one byte more. -/
def long_input : Bytes := ⟨[0, 0, 0, 0xff], by decide⟩

/-- The same input without the byte behind the vectors. -/
def short_input : Bytes := ⟨[0, 0, 0], by decide⟩

/-- `call 0 596`, signed. -/
def signed_call_0 : TransactionLegacySigned where
  transaction_legacy_unsigned := call 0 596
  r := 0xa0ef95515ea7c2bcc4a04eddc0f242b21a51b0f001b5ccb07308aba32a94a373
  s := 0x163c3d317d93916354e0ed9b2198c29ce5ef9159a40ab36a703a6fb5cb73b847
  v := 1227

/-- `call 1 596`, signed. -/
def signed_call_1 : TransactionLegacySigned where
  transaction_legacy_unsigned := call 1 596
  r := 0x7a6c66c2a31a8be0a292ec5bdf738d665e75cf14cd6c71074c72d91aec29da95
  s := 0x75a800d424524d1875a337edbe32fb15244f84a13b87afe0014f6b223ee3b5e8
  v := 1227

/-- `call 1 1`, signed. -/
def signed_call_other_chain : TransactionLegacySigned where
  transaction_legacy_unsigned := call 1 1
  r := 0x848911dea033098655adc5f8be4fa2599a50f03b09be1a8362e68e0a61cf4409
  s := 0x38ed3ae754c9526f1de8b23a6675a8a42feefe56b2e50dd8067226f7fa201a74
  v := 38

/-- `deployment long_input`, signed. -/
def signed_deployment : TransactionLegacySigned where
  transaction_legacy_unsigned := deployment long_input
  r := 0xf33152b13c20f4635e5bfecd1e9d436cde3fabf68a14b9a70e046c2083f2359a
  s := 0x1b8d258e760651f0cb2e12f88b41a69678833a0b6426d359ce2d7eab928a853e
  v := 1228

/-- `deployment short_input`, signed. -/
def signed_short_deployment : TransactionLegacySigned where
  transaction_legacy_unsigned := deployment short_input
  r := 0x2206ab3f61a1b3d9f99552860ebb6fd735ea6b15bfb2a0d3f5fc45ed4e133d71
  s := 0x0df5ae41f5ce2235862f4e558574004e2cdcaedc38ad09e5bec11cfb919037c1
  v := 1227

/-- The bytes of a signature with the given recovery id. -/
def signature (tx : TransactionLegacySigned) (id : RecoveryId) : List.Vector UInt8 65 :=
  Host.signature_bytes tx.compact id

/-- Digest of `call 0 596`. -/
def call_0_hash : H256 := be_low 32
  0xe9042a05b406eb43346ed102878f2c72725e4addd1bbefeb0550310dc3650b78

/-- Digest of `call 1 596`. -/
def call_1_hash : H256 := be_low 32
  0x7207b7b1649fdae6998d775af93ad4fbd088180403a78397d45afbeb15f994b7

/-- Digest of `call 1 1`. -/
def call_other_chain_hash : H256 := be_low 32
  0xbc4c9dcc42d7a252b56aec613f89bb7a360cb942cc2c98e636508a4959916c29

/-- Digest of `deployment long_input`. -/
def long_hash : H256 := be_low 32
  0x5c02e7b41f83ac82ffb996599b76cb432fbdd923003ed9f5dce5946761cf4e0a

/-- Digest of `deployment short_input`. -/
def short_hash : H256 := be_low 32
  0x6026174307423cd4c48b30aaa601322756f2ca08024d09517986dc33a0f9f841

/-- The key that the signature of `call 1 596` recovers to over `call 0 596`. -/
def wrong_call_key : PublicKey := be_low 64
  0x09efbe498cf06acae50cb62817d32302a8fc252a139238701eae7226ffd11fc54c4c442f7a414c8e0a68d3f38df920d5e7ed6038d0685ca086884880876bde67

/-- The key that the signature of `deployment long_input` recovers to over
    `deployment short_input`. -/
def wrong_deployment_key : PublicKey := be_low 64
  0x8bb990aeac76c482b7f1934d2eba8d1a053ce3ce5ab4b96a99d8ce96b406392f8b58f69a5e26771d542c3c978be4a8b119666802785a8145da9ae6eee7d208fc

/-- The tag `b"AccountId32:"` and the address: what the account is hashed from. -/
def account_preimage : List UInt8 :=
  [65, 99, 99, 111, 117, 110, 116, 73, 100, 51, 50, 58] ++ signer.toList

def table : HostTable where
  keccak := [
    ((call 0 596).encode, call_0_hash),
    ((call 1 596).encode, call_1_hash),
    ((call 1 1).encode, call_other_chain_hash),
    ((deployment long_input).encode, long_hash),
    ((deployment short_input).encode, short_hash),
    (key.toList, be_low 32
      0x5a26481edf34d32b363ec32875e480db528101a381ce68544611c169ad7eb342),
    (wrong_call_key.toList, be_low 32
      0x624573fae5eb753ffab8a4aeac18d9418ba4399d56e78cbabfa54fa77855df57),
    (wrong_deployment_key.toList, be_low 32
      0x8b71fe23e5dac67ff943cc7ce59f79f182583b3a3b38b33fbd3465d820aaf464)]
  ecrecover := [
    ⟨signature signed_call_0 0, call_0_hash, key⟩,
    ⟨signature signed_call_1 0, call_1_hash, key⟩,
    ⟨signature signed_call_1 0, call_0_hash, wrong_call_key⟩,
    ⟨signature signed_call_other_chain 1, call_other_chain_hash, key⟩,
    ⟨signature signed_deployment 1, long_hash, key⟩,
    ⟨signature signed_deployment 1, short_hash, wrong_deployment_key⟩,
    ⟨signature signed_short_deployment 0, short_hash, key⟩]
  blake2 := [
    (account_preimage, account),
    ([65, 99, 99, 111, 117, 110, 116, 73, 100, 51, 50, 58] ++ recipient.toList, be_low 32
      0xc12c3c5111470a628fbf62c86c7cd8bc211b07d9cc42f809a350e63fd38c8e32)]
  keccak_nodup := by decide +kernel
  ecrecover_inj := by decide +kernel

end Sample

end EthRpc
