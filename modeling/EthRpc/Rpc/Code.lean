import EthRpc.Rpc.Lookups
import EthRpc.Rpc.ReceiptLookup

/-! # The code of a contract

    The contracts pallet keeps two maps: contracts by account, each with the
    hash of its code, and code by its hash. An account and a code hash are
    both 32 bytes.

    `get_contract_code` looks the account of the address up in the second
    map. `get_contract_code_iff`: what it finds is the code of the contract
    exactly if the account is the hash of that code, or the code is empty
    and so is the answer.
-/

namespace EthRpc

/-! ## Storage of the contracts pallet -/

/-- `ContractInfo`, as far as it tells the code. -/
structure ContractInfo where
  code_hash : H256
  deriving DecidableEq

/-- The storage of the contracts pallet. Code is kept under its hash, and
    that of every contract is kept. -/
structure ContractsStorage {Digest : Type} (host : Host Digest) where
  contract_info_of : Map AccountId ContractInfo
  pristine_code : Map H256 (List UInt8)
  hash_of_code : ∀ h code, pristine_code.lookup h = some code → h = host.blake2_256 code
  code_kept : ∀ a info, contract_info_of.lookup a = some info →
    ∃ code, pristine_code.lookup info.code_hash = some code

namespace ContractsStorage

variable {Digest : Type} {host : Host Digest}

/-- Storage without contracts. -/
def empty (host : Host Digest) : ContractsStorage host where
  contract_info_of := ∅
  pristine_code := ∅
  hash_of_code := by simp
  code_kept := by simp

/-- The storage after code was uploaded and a contract of it was made for an
    account. Uploaded code replaces nothing but itself, where hashes are those
    of one code only. -/
def instantiate (s : ContractsStorage host) (account : AccountId) (code : List UInt8) :
    ContractsStorage host where
  contract_info_of := s.contract_info_of.insert account ⟨host.blake2_256 code⟩
  pristine_code := s.pristine_code.insert (host.blake2_256 code) code
  hash_of_code := by
    intro h c hc
    by_cases hh : h = host.blake2_256 code
    · subst hh
      rw [Finmap.lookup_insert] at hc
      cases hc
      rfl
    · rw [Finmap.lookup_insert_of_ne _ hh] at hc
      exact s.hash_of_code h c hc
  code_kept := by
    intro a info hinfo
    by_cases hcode : info.code_hash = host.blake2_256 code
    · exact ⟨code, by rw [hcode, Finmap.lookup_insert]⟩
    · rw [Finmap.lookup_insert_of_ne _ hcode]
      by_cases ha : a = account
      · subst ha
        rw [Finmap.lookup_insert] at hinfo
        cases hinfo
        exact absurd rfl hcode
      · rw [Finmap.lookup_insert_of_ne _ ha] at hinfo
        exact s.code_kept a info hinfo

/-- What is deployed at an address: the code of its contract, or nothing. -/
def deployed_code (s : ContractsStorage host) (address : H160) : Option (List UInt8) := do
  let info ← s.contract_info_of.lookup (get_account_id host address)
  s.pristine_code.lookup info.code_hash

end ContractsStorage

/-! ## The request -/

/-- Get the contract code for the given contract address; `fetch` reads
    `PristineCode` at a block. -/
def Client.get_contract_code {Digest : Type} {N : Nat} (client : Client Digest)
    (fetch : H256 → H256 → Except ClientError (Option (List UInt8))) (contract_address : H160)
    (block : BlockNumberOrTagOrHash) : Op N (Except ClientError (List UInt8)) := do
  match ← Client.storage_api block with
  | .error e => return .error e
  | .ok storage_api =>
    let account_id := client.account_id contract_address
    -- the account goes where the hash of the code belongs
    let code_hash : H256 := account_id
    return (fetch storage_api code_hash).map fun result => result.getD []

section code
variable {Digest : Type} {N : Nat} {client : Client Digest}

/-- `fetch`, of a node with this storage at each block. -/
def ContractsStorage.fetch {host : Host Digest} (storage : H256 → ContractsStorage host)
    (block code_hash : H256) : Except ClientError (Option (List UInt8)) :=
  .ok ((storage block).pristine_code.lookup code_hash)

/-- By itself, at a block that is found, the request returns what is kept
    under the account. -/
theorem run_get_contract_code {fetch : H256 → H256 → Except ClientError (Option (List UInt8))}
    {block : BlockNumberOrTagOrHash} {hash : H256} (node : ∀ q, Answer q) (c : BlockCache N)
    (address : H160) (hblock : ((Client.storage_api block).run node c).1 = .ok hash) :
    ((client.get_contract_code fetch address block).run node c).1 =
      (fetch hash (get_account_id client.host address)).map fun result => result.getD [] := by
  unfold Client.get_contract_code
  rw [Routine.run_bind, hblock]
  rfl

/-- The code returned is the deployed code; it is empty where nothing is
    deployed. -/
def ContractsStorage.ReturnsDeployed {host : Host Digest} (s : ContractsStorage host)
    (address : H160) (result : List UInt8) : Prop :=
  match s.contract_info_of.lookup (get_account_id host address) with
  | some info => s.pristine_code.lookup info.code_hash = some result
  | none => result = []

/-- The condition: the account of a contract is the hash of its code, or the
    contract's code is empty and none is kept under the account; and no code
    but the empty one is kept under the account of an address without a
    contract. -/
def ContractsStorage.AccountIsCodeHash {host : Host Digest} (s : ContractsStorage host)
    (address : H160) : Prop :=
  match s.contract_info_of.lookup (get_account_id host address) with
  | some info => info.code_hash = get_account_id host address ∨
      s.pristine_code.lookup (get_account_id host address) = none ∧
        s.pristine_code.lookup info.code_hash = some []
  | none => ∀ code,
      s.pristine_code.lookup (get_account_id host address) = some code → code = []

/-- What is kept under the account, against what is deployed. -/
theorem ContractsStorage.returnsDeployed_iff {host : Host Digest} (s : ContractsStorage host)
    (address : H160) :
    s.ReturnsDeployed address ((s.pristine_code.lookup (get_account_id host address)).getD []) ↔
      s.AccountIsCodeHash address := by
  unfold ReturnsDeployed AccountIsCodeHash
  cases hinfo : s.contract_info_of.lookup (get_account_id host address) with
  | none =>
    simp only
    cases s.pristine_code.lookup (get_account_id host address) with
    | none => simp
    | some code => simp
  | some info =>
    simp only
    obtain ⟨code, hcode⟩ := s.code_kept _ _ hinfo
    cases hkept : s.pristine_code.lookup (get_account_id host address) with
    | none =>
      -- then the account is no code hash of a contract
      have hne : info.code_hash ≠ get_account_id host address := by
        intro heq
        rw [heq, hkept] at hcode
        cases hcode
      simp [hne]
    | some other =>
      simp only [Option.getD_some, reduceCtorEq, false_and, or_false]
      constructor
      · intro h
        -- the same code under both keys: both are its hash
        rw [s.hash_of_code _ _ h, s.hash_of_code _ _ hkept]
      · intro h
        rw [h, hkept]

/-- **`eth_getCode`.** In every state of the chain, for every address, at
    every block that is found: the request returns the deployed code exactly
    if the account of the address is the hash of that code, up to empty code. -/
theorem get_contract_code_iff (client : Client Digest)
    (storage : H256 → ContractsStorage client.host) (node : ∀ q, Answer q) (c : BlockCache N)
    (address : H160) {block : BlockNumberOrTagOrHash} {hash : H256}
    (hblock : ((Client.storage_api block).run node c).1 = .ok hash) :
    ∃ code, ((client.get_contract_code (ContractsStorage.fetch storage) address block).run
        node c).1 = .ok code ∧
      ((storage hash).ReturnsDeployed address code ↔ (storage hash).AccountIsCodeHash address) := by
  refine ⟨_, run_get_contract_code node c address hblock, ?_⟩
  exact (storage hash).returnsDeployed_iff address

end code

/-! ## A deployment -/

namespace Sample

/-- A node that answers nothing. -/
def silent_node : ∀ q, Answer q
  | .chain_get_block_hash _ => .ok none
  | .block_at _ => .error .NotFound
  | .latest => .error .BlockNotFound
  | .receipt_infos _ => ()

/-- A client with the host that tells inputs apart by their length. -/
def length_client : Client TableDigest where
  host := length_host
  node := {
    gas_estimate := fun _ => .error (.SubxtError 0)
    account_nonce := fun _ => 0
    signer_payload := fun _ => []
    submit := fun _ => .error (.SubxtError 0) }

/-- The same client, with the sample host. -/
def table_client : Client TableDigest := { length_client with host := table.host }

/-- What is hashed to the account of the recipient. -/
def tagged_code : List UInt8 := account_id_tag ++ recipient.toList

/-- Storage with a contract of this code for that account. -/
def tagged_storage : ContractsStorage table.host :=
  (ContractsStorage.empty table.host).instantiate (get_account_id table.host recipient) tagged_code

/-- The address of a contract with code of one byte, made by the sample account. -/
def contract_address : H160 :=
  evm_contract_address length_host account (length_host.blake2_256 [7]) no_bytes no_bytes

/-- The storage after that contract was made. -/
def contracts_storage : ContractsStorage length_host :=
  (ContractsStorage.empty length_host).instantiate (get_account_id length_host contract_address) [7]

end Sample

/-- The condition holds of a contract whose code is hashed to its own account. -/
theorem get_contract_code_iff_sample :
    ∃ code, ((Sample.table_client.get_contract_code
        (ContractsStorage.fetch fun _ => Sample.tagged_storage) Sample.recipient
        (.H256 (be_low 32 1))).run Sample.silent_node (BlockCache.default : BlockCache 2)).1 =
          .ok code ∧
      Sample.tagged_storage.ReturnsDeployed Sample.recipient code ∧
      Sample.tagged_storage.deployed_code Sample.recipient = some Sample.tagged_code := by
  have hblock : ((Client.storage_api (.H256 (be_low 32 1))).run Sample.silent_node
      (BlockCache.default : BlockCache 2)).1 = .ok (be_low 32 1) := rfl
  obtain ⟨code, hcode, hiff⟩ := get_contract_code_iff Sample.table_client
    (fun _ => Sample.tagged_storage) Sample.silent_node BlockCache.default Sample.recipient hblock
  have hinfo : Sample.tagged_storage.contract_info_of.lookup
      (get_account_id Sample.table.host Sample.recipient) =
        some ⟨Sample.table.host.blake2_256 Sample.tagged_code⟩ := Finmap.lookup_insert _
  have hcondition : Sample.tagged_storage.AccountIsCodeHash Sample.recipient := by
    unfold ContractsStorage.AccountIsCodeHash
    rw [hinfo]
    exact Or.inl rfl
  exact ⟨code, hcode, hiff.mpr hcondition, by decide +kernel⟩

/-- After the deployment of a contract, its code is asked for at its address:
    the code is kept, and the answer is empty. -/
theorem deployed_code_not_returned :
    let result := (Sample.length_client.get_contract_code
      (ContractsStorage.fetch fun _ => Sample.contracts_storage) Sample.contract_address
      (.H256 (be_low 32 1))).run Sample.silent_node (BlockCache.default : BlockCache 2)
    Sample.contracts_storage.deployed_code Sample.contract_address = some [7] ∧
      result.1 = .ok [] ∧
      ¬ Sample.contracts_storage.ReturnsDeployed Sample.contract_address [] := by
  refine ⟨by decide +kernel, by decide +kernel, ?_⟩
  show ¬ Sample.contracts_storage.pristine_code.lookup (Sample.length_host.blake2_256 [7]) = some []
  decide +kernel

end EthRpc
