import EthRpc.Chain.Runtime

/-! # Addresses of contracts and of accounts

    A contract's address is the front of a hash over its deployment, and an
    account is a hash over an address. The two hashes are over byte strings
    with tags of their own.

    * `Deployment.preimage_inj`: a deployment can be read off its byte string.
    * `Deployment.preimage_ne_account_preimage`: it is not one of an account.
    * `addresses_unambiguous`: addresses agree only where hashes agree that
      should not, or where the front of a hash is not enough.
-/

namespace EthRpc

/-! ## What is hashed -/

/-- The tuple an address is generated from. -/
structure Deployment where
  deploying_address : AccountId
  code_hash : H256
  input_data : Scale.Vec
  salt : Scale.Vec
  deriving DecidableEq

/-- The tuple `evm_contract_address` encodes. -/
def Deployment.preimage (d : Deployment) : List UInt8 :=
  contract_addr_tag ++ d.deploying_address.toList ++ d.code_hash.toList ++
    Scale.vec_encode d.input_data ++ Scale.vec_encode d.salt

/-- The tuple `get_account_id` encodes. -/
def account_preimage (evm : H160) : List UInt8 :=
  account_id_tag ++ evm.toList

/-- The first twenty bytes of a hash, as an `H160` is decoded from it. -/
def H160.decode (entropy : H256) : H160 :=
  ⟨entropy.toList.take 20, by simp⟩

section
variable {Digest : Type} (host : Host Digest)

def Deployment.address (d : Deployment) : H160 :=
  evm_contract_address host d.deploying_address d.code_hash d.input_data d.salt

def Deployment.account (d : Deployment) : AccountId :=
  EvmAddressGenerator.contract_address host d.deploying_address d.code_hash d.input_data d.salt

theorem Deployment.address_eq (d : Deployment) :
    d.address host = H160.decode (host.blake2_256 d.preimage) := rfl

theorem Deployment.account_eq (d : Deployment) :
    d.account host = get_account_id host (d.address host) := rfl

theorem get_account_id_eq (evm : H160) :
    get_account_id host evm = host.blake2_256 (account_preimage evm) := rfl

end

/-! ## Byte strings that are hashed -/

theorem account_preimage_inj {evm evm' : H160} :
    account_preimage evm = account_preimage evm' ↔ evm = evm' := by
  unfold account_preimage
  rw [List.append_cancel_left_eq, List.Vector.toList_injective.eq_iff]

/-- The fields of fixed width first, then the two vectors, each of which
    tells where it ends. -/
theorem Deployment.preimage_inj {d d' : Deployment} : d.preimage = d'.preimage ↔ d = d' := by
  constructor
  · intro h
    simp only [preimage, List.append_assoc, List.append_cancel_left_eq] at h
    obtain ⟨haccount, h⟩ := List.append_inj h (by simp)
    obtain ⟨hcode, h⟩ := List.append_inj h (by simp)
    obtain ⟨hdata, h⟩ := Scale.vec_encode_append_inj.mp h
    have hsalt : d.salt = d'.salt := by
      apply And.left
      apply Scale.vec_encode_append_inj.mp
      rw [List.append_nil, h]
      exact (List.append_nil _).symm
    have haccount := List.Vector.toList_injective haccount
    have hcode := List.Vector.toList_injective hcode
    cases d
    simp_all only
  · rintro rfl
    rfl

/-- The tags differ in the first byte. -/
theorem Deployment.preimage_ne_account_preimage (d : Deployment) (evm : H160) :
    d.preimage ≠ account_preimage evm := by
  intro h
  have hhead := congrArg List.head? h
  simp [preimage, account_preimage, contract_addr_tag, account_id_tag] at hhead

/-! ## Agreement of addresses -/

/-- Two byte strings with the same hash. -/
def Host.Collision {Digest : Type} (host : Host Digest) (l l' : List UInt8) : Prop :=
  l ≠ l' ∧ host.blake2_256 l = host.blake2_256 l'

/-- Two hashes with the same first twenty bytes. -/
def H160.Truncated (entropy entropy' : H256) : Prop :=
  entropy ≠ entropy' ∧ H160.decode entropy = H160.decode entropy'

section
variable {Digest : Type} {host : Host Digest} {l l' : List UInt8}

/-- Equal fronts of two hashes. -/
theorem collision_or_truncated (hne : l ≠ l')
    (h : H160.decode (host.blake2_256 l) = H160.decode (host.blake2_256 l')) :
    host.Collision l l' ∨ H160.Truncated (host.blake2_256 l) (host.blake2_256 l') := by
  by_cases hhash : host.blake2_256 l = host.blake2_256 l'
  · exact Or.inl ⟨hne, hhash⟩
  · exact Or.inr ⟨hhash, h⟩

theorem account_eq_or_collision {evm evm' : H160}
    (h : get_account_id host evm = get_account_id host evm') :
    evm = evm' ∨ host.Collision (account_preimage evm) (account_preimage evm') := by
  by_cases hevm : evm = evm'
  · exact Or.inl hevm
  · exact Or.inr ⟨fun h => hevm (account_preimage_inj.mp h), h⟩

/-- Two deployments with one address. -/
theorem Deployment.of_address_eq {d d' : Deployment} (hne : d ≠ d')
    (h : d.address host = d'.address host) :
    host.Collision d.preimage d'.preimage ∨
      H160.Truncated (host.blake2_256 d.preimage) (host.blake2_256 d'.preimage) :=
  collision_or_truncated (fun h => hne (Deployment.preimage_inj.mp h)) h

end

/-! ## Unambiguous addresses -/

/-- What the two functions hash, and when their results agree. Every
    statement names the byte strings whose hashes are to blame. -/
structure AddressesUnambiguous : Prop where
  contract_hashes : ∀ {Digest : Type} (host : Host Digest) (d : Deployment),
    evm_contract_address host d.deploying_address d.code_hash d.input_data d.salt =
      H160.decode (host.blake2_256 d.preimage)
  account_hashes : ∀ {Digest : Type} (host : Host Digest) (evm : H160),
    get_account_id host evm = host.blake2_256 (account_preimage evm)
  injective : ∀ d d' : Deployment, d.preimage = d'.preimage ↔ d = d'
  separate : ∀ (d : Deployment) (evm : H160), d.preimage ≠ account_preimage evm
  share_address : ∀ {Digest : Type} (host : Host Digest) (d d' : Deployment), d ≠ d' →
    d.address host = d'.address host →
    host.Collision d.preimage d'.preimage ∨
      H160.Truncated (host.blake2_256 d.preimage) (host.blake2_256 d'.preimage)
  share_account : ∀ {Digest : Type} (host : Host Digest) (d d' : Deployment), d ≠ d' →
    d.account host = d'.account host →
    host.Collision d.preimage d'.preimage ∨
      H160.Truncated (host.blake2_256 d.preimage) (host.blake2_256 d'.preimage) ∨
      host.Collision (account_preimage (d.address host)) (account_preimage (d'.address host))
  /-- A contract's hash, or its front, that is an ordinary account's. -/
  hash_ordinary : ∀ {Digest : Type} (host : Host Digest) (d : Deployment) (evm : H160),
    d.address host = H160.decode (get_account_id host evm) →
    host.Collision d.preimage (account_preimage evm) ∨
      H160.Truncated (host.blake2_256 d.preimage) (host.blake2_256 (account_preimage evm))
  /-- A contract's account that is an ordinary account: the ordinary address
      is the front of the contract's hash. -/
  account_ordinary : ∀ {Digest : Type} (host : Host Digest) (d : Deployment) (evm : H160),
    d.account host = get_account_id host evm →
    evm = H160.decode (host.blake2_256 d.preimage) ∨
      host.Collision (account_preimage (d.address host)) (account_preimage evm)

/-- **Addresses are unambiguous**, up to collisions and truncation. -/
theorem addresses_unambiguous : AddressesUnambiguous where
  contract_hashes host d := d.address_eq host
  account_hashes host evm := get_account_id_eq host evm
  injective _ _ := Deployment.preimage_inj
  separate d evm := d.preimage_ne_account_preimage evm
  share_address _ _ _ hne h := Deployment.of_address_eq hne h
  share_account host d d' hne h := by
    rw [Deployment.account_eq, Deployment.account_eq] at h
    rcases account_eq_or_collision h with haddress | hcollision
    · exact (Deployment.of_address_eq hne haddress).imp_right Or.inl
    · exact Or.inr (Or.inr hcollision)
  hash_ordinary host d evm h := by
    rw [Deployment.address_eq, get_account_id_eq] at h
    exact collision_or_truncated (d.preimage_ne_account_preimage evm) h
  account_ordinary host d evm h := by
    rw [Deployment.account_eq] at h
    rcases account_eq_or_collision h with haddress | hcollision
    · exact Or.inl haddress.symm
    · exact Or.inr hcollision

end EthRpc
