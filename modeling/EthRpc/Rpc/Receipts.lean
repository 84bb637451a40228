import EthRpc.Chain.Binding
import EthRpc.Rpc.Cache
import EthRpc.Rpc.EvmExtrinsic

/-! # The receipts of a block

    `receipt_infos` makes a receipt for each EVM extrinsic of a block, from
    its payload and from two lookups in the events recorded for it: the fee,
    without which there are no receipts at all, and the success, of which
    only matters whether the lookup fails. It fails on an event that does
    not decode, not on one that is absent.

    Up to ten extrinsics are looked at at a time, so they complete in some
    order of their own. The receipts are collected into a map by transaction
    hash, here the list of its values.
-/

namespace EthRpc

/-! ## Events -/

/-- The fields of `TransactionFeePaid` that are read. -/
structure TransactionFeePaid where
  actual_fee : Balance
  tip : Balance
  deriving DecidableEq, Repr

/-- An event, told apart by pallet and name. The fields of those that are
    looked for may fail to decode. -/
inductive Event where
  | TransactionFeePaid (fields : Except ClientError EthRpc.TransactionFeePaid)
  | ExtrinsicSuccess (fields : Except ClientError Unit)
  | Other

namespace Event

/-- `as_event::<TransactionFeePaid>`. -/
def as_transaction_fee_paid : Event → Except ClientError (Option EthRpc.TransactionFeePaid)
  | .TransactionFeePaid fields => fields.map some
  | _ => .ok none

/-- `as_event::<ExtrinsicSuccess>`. -/
def as_extrinsic_success : Event → Except ClientError (Option Unit)
  | .ExtrinsicSuccess fields => fields.map some
  | _ => .ok none

end Event

/-- The events recorded for an extrinsic; some may not decode at all. -/
abbrev Events := List (Except ClientError Event)

namespace Events

variable {α : Type} {as_event : Event → Except ClientError (Option α)} {events : Events}

/-- `find_first`: the first event of a type, or the first error before it. -/
def find_first (as_event : Event → Except ClientError (Option α)) :
    Events → Except ClientError (Option α)
  | [] => .ok none
  | event :: events =>
    match event >>= as_event with
    | .error e => .error e
    | .ok (some a) => .ok (some a)
    | .ok none => find_first as_event events

/-- The lookup does not fail exactly if there is no error, or an event of
    the type before the first one. -/
theorem find_first_isOk : (find_first as_event events).isOk = true ↔
    (∀ x ∈ events, ∃ o, (x >>= as_event) = .ok o) ∨
      ∃ pre x post a, events = pre ++ x :: post ∧ (x >>= as_event) = .ok (some a) ∧
        ∀ y ∈ pre, ∃ o, (y >>= as_event) = .ok o := by
  induction events with
  | nil => simp [find_first, Except.isOk, Except.toBool]
  | cons event events ih =>
    unfold find_first
    cases hevent : event >>= as_event with
    | error e =>
      -- the lookup ends here
      simp only [Except.isOk, Except.toBool, Bool.false_eq_true, false_iff, not_or]
      constructor
      · intro h
        obtain ⟨o, ho⟩ := h event List.mem_cons_self
        rw [hevent] at ho
        cases ho
      · intro h
        obtain ⟨pre, x, post, a, heq, hx, hpre⟩ := h
        cases pre with
        | nil =>
          cases heq
          rw [hevent] at hx
          cases hx
        | cons y pre =>
          cases heq
          obtain ⟨o, ho⟩ := hpre event List.mem_cons_self
          rw [hevent] at ho
          cases ho
    | ok o =>
      cases o with
      | some a =>
        simp only [Except.isOk, Except.toBool, true_iff]
        exact Or.inr ⟨[], event, events, a, rfl, hevent, by simp⟩
      | none =>
        rw [ih]
        constructor
        · intro h
          rcases h with h | ⟨pre, x, post, a, rfl, hx, hpre⟩
          · exact Or.inl (List.forall_mem_cons.mpr ⟨⟨none, hevent⟩, h⟩)
          · exact Or.inr ⟨event :: pre, x, post, a, rfl, hx,
              List.forall_mem_cons.mpr ⟨⟨none, hevent⟩, hpre⟩⟩
        · intro h
          rcases h with h | ⟨pre, x, post, a, heq, hx, hpre⟩
          · exact Or.inl (List.forall_mem_cons.mp h).2
          · cases pre with
            | nil =>
              cases heq
              rw [hevent] at hx
              cases hx
            | cons y pre =>
              cases heq
              exact Or.inr ⟨pre, x, post, a, rfl, hx, (List.forall_mem_cons.mp hpre).2⟩

/-- An `ExtrinsicSuccess` event is among them. -/
def Succeeded (events : Events) : Prop := ∃ fields, .ok (.ExtrinsicSuccess fields) ∈ events

/-- An event that a lookup of `ExtrinsicSuccess` cannot read. -/
def Unreadable (x : Except ClientError Event) : Prop :=
  ∃ e, x = .error e ∨ x = .ok (.ExtrinsicSuccess (.error e))

/-- **When the receipt's status is right**: a readable success comes before
    anything that cannot be read, or there is no success but something that
    cannot be read. -/
def Legible (events : Events) : Prop :=
  (∃ pre post, events = pre ++ .ok (.ExtrinsicSuccess (.ok ())) :: post ∧
    ∀ x ∈ pre, ¬ Unreadable x) ∨
  (¬ events.Succeeded ∧ ∃ x ∈ events, Unreadable x)

theorem not_unreadable_iff {x : Except ClientError Event} :
    ¬ Unreadable x ↔ ∃ o, (x >>= Event.as_extrinsic_success) = .ok o := by
  match x with
  | .error e => simp [Unreadable, bind, Except.bind]
  | .ok (.ExtrinsicSuccess (.error e)) =>
    simp [Unreadable, bind, Except.bind, Event.as_extrinsic_success, Except.map]
  | .ok (.ExtrinsicSuccess (.ok u)) =>
    simp [Unreadable, bind, Except.bind, Event.as_extrinsic_success, Except.map]
  | .ok (.TransactionFeePaid fields) =>
    simp [Unreadable, bind, Except.bind, Event.as_extrinsic_success]
  | .ok .Other => simp [Unreadable, bind, Except.bind, Event.as_extrinsic_success]

theorem as_extrinsic_success_eq_some {x : Except ClientError Event} :
    (x >>= Event.as_extrinsic_success) = .ok (some ()) ↔ x = .ok (.ExtrinsicSuccess (.ok ())) := by
  match x with
  | .error e => simp [bind, Except.bind]
  | .ok (.ExtrinsicSuccess (.error e)) =>
    simp [bind, Except.bind, Event.as_extrinsic_success, Except.map]
  | .ok (.ExtrinsicSuccess (.ok u)) =>
    simp [bind, Except.bind, Event.as_extrinsic_success, Except.map]
  | .ok (.TransactionFeePaid fields) => simp [bind, Except.bind, Event.as_extrinsic_success]
  | .ok .Other => simp [bind, Except.bind, Event.as_extrinsic_success]

/-- The lookup of the success does not fail exactly if everything can be
    read, or a readable success comes before what cannot. -/
theorem find_success_isOk : (find_first Event.as_extrinsic_success events).isOk = true ↔
    (∀ x ∈ events, ¬ Unreadable x) ∨
      ∃ pre post, events = pre ++ .ok (.ExtrinsicSuccess (.ok ())) :: post ∧
        ∀ x ∈ pre, ¬ Unreadable x := by
  rw [find_first_isOk]
  simp only [not_unreadable_iff]
  constructor
  · intro h
    rcases h with h | ⟨pre, x, post, u, rfl, hx, hpre⟩
    · exact Or.inl h
    · rw [as_extrinsic_success_eq_some.mp hx]
      exact Or.inr ⟨pre, post, rfl, hpre⟩
  · intro h
    rcases h with h | ⟨pre, post, rfl, hpre⟩
    · exact Or.inl h
    · exact Or.inr ⟨pre, _, post, (), rfl, rfl, hpre⟩

/-- **The lookup tells whether there is a success** exactly if the events
    are legible. -/
theorem find_success_iff :
    ((find_first Event.as_extrinsic_success events).isOk = true ↔ events.Succeeded) ↔
      events.Legible := by
  rw [find_success_isOk]
  constructor
  · intro h
    by_cases hsuccess : events.Succeeded
    · refine Or.inl ?_
      rcases h.mpr hsuccess with hall | hfound
      · -- everything can be read, so any success will do
        obtain ⟨fields, hmem⟩ := hsuccess
        obtain ⟨pre, post, rfl⟩ := List.append_of_mem hmem
        have hfields : fields = .ok () := by
          cases fields with
          | ok u => rfl
          | error e => exact absurd ⟨e, Or.inr rfl⟩ (hall _ hmem)
        subst hfields
        exact ⟨pre, post, rfl, fun x hx => hall x (List.mem_append_left _ hx)⟩
      · exact hfound
    · refine Or.inr ⟨hsuccess, ?_⟩
      by_contra hnone
      push Not at hnone
      exact hsuccess (h.mp (Or.inl hnone))
  · intro h
    rcases h with ⟨pre, post, rfl, hpre⟩ | ⟨hsuccess, x, hx, hunreadable⟩
    · constructor
      · intro _
        exact ⟨.ok (), List.mem_append_right _ List.mem_cons_self⟩
      · intro _
        exact Or.inr ⟨pre, post, rfl, hpre⟩
    · constructor
      · intro hread
        rcases hread with hall | ⟨pre, post, rfl, -⟩
        · exact absurd hunreadable (hall x hx)
        · exact ⟨.ok (), List.mem_append_right _ List.mem_cons_self⟩
      · intro h
        exact absurd h hsuccess

end Events

/-! ## Extrinsics -/

/-- `ExtrinsicDetails`, with what the client asks of it. -/
structure ExtrinsicDetails where
  bytes : Scale.Vec
  /-- The bytes of the address, if the extrinsic is signed. -/
  address_bytes : Option (List UInt8)
  /-- `as_extrinsic::<EthInstantiate>`. -/
  as_eth_instantiate : Except ClientError (Option EthInstantiate)
  /-- `as_extrinsic::<EthCall>`. -/
  as_eth_call : Except ClientError (Option EthCall)
  events : Except ClientError Events

/-- A block as `receipt_infos` sees it. Extrinsics are numbered by a `u32`. -/
structure BlockContent where
  hash : H256
  number : BitVec 32
  extrinsics : Except ClientError (List (Except ClientError ExtrinsicDetails))
  length_le : ∀ l, extrinsics = .ok l → l.length ≤ 2 ^ 32

/-- An EVM extrinsic of a block, with its index. -/
structure EvmTransaction where
  info : ExtrinsicReceiptInfo
  ext : ExtrinsicDetails
  index : BitVec 32

section receipts
variable {Digest : Type} (host : Host Digest)

/-- The payload of an EVM extrinsic. -/
def ExtrinsicDetails.payload (ext : ExtrinsicDetails) : Option EvmExtrinsic :=
  match ext.as_eth_instantiate with
  | .ok (some payload) => do
    let address_bytes ← ext.address_bytes
    return .Instantiate payload address_bytes
  | _ =>
    match ext.as_eth_call with
    | .ok (some payload) => some (.Call payload)
    | _ => none

/-- The hash of the extrinsic's bytes, encoded as a vector once more. -/
def ExtrinsicDetails.transaction_hash (ext : ExtrinsicDetails) : H256 :=
  host.blake2_256 (Scale.vec_encode ext.bytes)

/-- An extrinsic that did not decode, or that has no receipt info, is left out. -/
def EvmTransaction.of_extrinsic (ext : Except ClientError ExtrinsicDetails) (index : Nat) :
    Option EvmTransaction :=
  match ext with
  | .error _ => none
  | .ok ext => do
    let payload ← ext.payload
    let info ← payload.into_receipt_info host
    return ⟨info, ext, BitVec.ofNat 32 index⟩

/-- The extrinsics that get a receipt. -/
def BlockContent.evm_transactions (b : BlockContent) : List EvmTransaction :=
  match b.extrinsics with
  | .error _ => []
  | .ok extrinsics =>
    extrinsics.zipIdx.filterMap fun (ext, index) => EvmTransaction.of_extrinsic host ext index

/-- `u128::saturating_add`. -/
def saturating_add_u128 (a b : Balance) : Balance :=
  if a.toNat + b.toNat < 2 ^ 128 then a + b else BitVec.allOnes 128

/-- `checked_div`, or zero. -/
def checked_div_or_default (a b : Balance) : Balance := if b = 0 then 0 else a.udiv b

/-- The receipt of an extrinsic. -/
def EvmTransaction.receipt (b : BlockContent) (tx : EvmTransaction) :
    Except ClientError ReceiptInfo := do
  let events ← tx.ext.events
  match ← events.find_first Event.as_transaction_fee_paid with
  | none => .error .TxFeeNotFound
  | some tx_fees =>
    let gas_used := checked_div_or_default (saturating_add_u128 tx_fees.tip tx_fees.actual_fee)
      (tx.info.gas_price.setWidth 128)
    -- an event that is absent is no error
    let success := (events.find_first Event.as_extrinsic_success).isOk
    return {
      block_hash := b.hash
      block_number := b.number.setWidth 256
      contract_address := tx.info.contract_address
      effective_gas_price := tx.info.gas_price.setWidth 256
      «from» := tx.info.from
      gas_used := gas_used.setWidth 256
      status := some (if success then 1 else 0)
      «to» := tx.info.to
      transaction_hash := tx.ext.transaction_hash host
      transaction_index := tx.index.setWidth 256 }

/-- What is collected from the extrinsics, completed in the given order. -/
def BlockContent.collect_receipts (b : BlockContent) (completed : List EvmTransaction) :
    Except ClientError (List ReceiptInfo) := do
  let receipts ← completed.mapM (EvmTransaction.receipt host b)
  return Map.collect ReceiptInfo.transaction_hash receipts

/-- `receipt_infos` may return this. -/
def BlockContent.receipt_infos (b : BlockContent) (result : Except ClientError (List ReceiptInfo)) :
    Prop :=
  match b.extrinsics with
  | .error e => result = .error e
  | .ok _ => ∃ completed, completed.Perm (b.evm_transactions host) ∧
      result = b.collect_receipts host completed

/-! ## Which receipt is whose -/

variable {host} {b : BlockContent} {tx : EvmTransaction} {r : ReceiptInfo}
  {receipts : List ReceiptInfo}

/-- What a receipt says about its extrinsic. -/
structure ReceiptInfo.Of (host : Host Digest) (b : BlockContent) (tx : EvmTransaction)
    (r : ReceiptInfo) : Prop where
  block_hash : r.block_hash = b.hash
  transaction_hash : r.transaction_hash = tx.ext.transaction_hash host
  transaction_index : r.transaction_index = tx.index.setWidth 256
  status : ∀ events, tx.ext.events = .ok events → r.status =
    some (if (events.find_first Event.as_extrinsic_success).isOk then 1 else 0)

theorem ReceiptInfo.of_receipt (h : tx.receipt host b = .ok r) : r.Of host b tx := by
  unfold EvmTransaction.receipt at h
  cases hevents : tx.ext.events with
  | error e =>
    rw [hevents] at h
    cases h
  | ok events =>
    rw [hevents] at h
    cases hfee : events.find_first Event.as_transaction_fee_paid with
    | error e =>
      simp only [bind, Except.bind, hfee] at h
      cases h
    | ok tx_fees =>
      simp only [bind, Except.bind, hfee] at h
      cases tx_fees with
      | none => cases h
      | some tx_fees =>
        cases h
        exact ⟨rfl, rfl, rfl, fun events' h => by rw [hevents] at h; cases h; rfl⟩

theorem EvmTransaction.index_of_extrinsic {ext : Except ClientError ExtrinsicDetails} {i : Nat}
    (h : of_extrinsic host ext i = some tx) : tx.index = BitVec.ofNat 32 i := by
  cases ext with
  | error e => cases h
  | ok ext =>
    simp only [of_extrinsic, Option.bind_eq_bind, Option.bind_eq_some_iff] at h
    obtain ⟨payload, -, info, -, htx⟩ := h
    cases htx
    rfl

/-- No two EVM extrinsics of a block have one index. -/
theorem BlockContent.nodup_index (b : BlockContent) :
    ((b.evm_transactions host).map EvmTransaction.index).Nodup := by
  unfold evm_transactions
  cases hext : b.extrinsics with
  | error e => exact List.nodup_nil
  | ok extrinsics =>
    have hlen := b.length_le extrinsics hext
    have hpositions : (extrinsics.zipIdx.map Prod.snd).Nodup := by
      rw [List.zipIdx_map_snd]
      exact List.nodup_range'
    rw [List.Nodup, List.pairwise_map, List.pairwise_filterMap]
    rw [List.Nodup, List.pairwise_map] at hpositions
    refine hpositions.imp_of_mem ?_
    intro x y hx hy hne tx htx tx' htx'
    rw [EvmTransaction.index_of_extrinsic htx, EvmTransaction.index_of_extrinsic htx']
    have hxlt := List.snd_lt_of_mem_zipIdx hx
    have hylt := List.snd_lt_of_mem_zipIdx hy
    intro heq
    have hnat := congrArg BitVec.toNat heq
    rw [BitVec.toNat_ofNat, BitVec.toNat_ofNat, Nat.mod_eq_of_lt (by omega),
      Nat.mod_eq_of_lt (by omega)] at hnat
    exact hne hnat

/-- The receipts of a block are collected from those of its EVM extrinsics. -/
theorem BlockContent.receipt_infos_eq_ok (h : b.receipt_infos host (.ok receipts)) :
    ∃ (completed : List EvmTransaction) (all : List ReceiptInfo),
      completed.Perm (b.evm_transactions host) ∧
      completed.mapM (EvmTransaction.receipt host b) = .ok all ∧
      receipts = Map.collect ReceiptInfo.transaction_hash all := by
  unfold receipt_infos at h
  cases hext : b.extrinsics with
  | error e =>
    rw [hext] at h
    cases h
  | ok extrinsics =>
    rw [hext] at h
    obtain ⟨completed, hperm, hcollect⟩ := h
    unfold collect_receipts at hcollect
    cases hall : completed.mapM (EvmTransaction.receipt host b) with
    | error e =>
      rw [hall] at hcollect
      cases hcollect
    | ok all =>
      rw [hall] at hcollect
      cases hcollect
      exact ⟨completed, all, hperm, hall, rfl⟩

/-- Every receipt is that of an EVM extrinsic of the block. -/
theorem BlockContent.exists_of_mem_receipts (h : b.receipt_infos host (.ok receipts))
    (hr : r ∈ receipts) : ∃ tx ∈ b.evm_transactions host, r.Of host b tx := by
  obtain ⟨completed, all, hperm, hall, rfl⟩ := receipt_infos_eq_ok h
  obtain ⟨tx, htx, hreceipt⟩ := List.exists_of_mapM hall (Map.mem_of_mem_collect hr)
  exact ⟨tx, hperm.subset htx, ReceiptInfo.of_receipt hreceipt⟩

/-- A receipt with the index of an extrinsic is that extrinsic's. -/
theorem BlockContent.of_index (h : b.receipt_infos host (.ok receipts)) (hr : r ∈ receipts)
    (htx : tx ∈ b.evm_transactions host) (hindex : r.transaction_index = tx.index.setWidth 256) :
    r.Of host b tx := by
  obtain ⟨tx', htx', hof⟩ := exists_of_mem_receipts h hr
  have heq : tx'.index = tx.index := by
    rw [hof.transaction_index] at hindex
    exact setWidth_inj (by omega) hindex
  rw [← List.inj_on_of_nodup_map b.nodup_index htx' htx heq]
  exact hof

theorem BlockContent.nodup_receipts (h : b.receipt_infos host (.ok receipts)) :
    (receipts.map ReceiptInfo.transaction_hash).Nodup := by
  obtain ⟨completed, all, -, -, rfl⟩ := receipt_infos_eq_ok h
  exact Map.nodup_collect _ all

/-- **No receipt is lost** exactly if the transaction hashes of the EVM
    extrinsics are distinct. -/
theorem BlockContent.all_receipts_iff (h : b.receipt_infos host (.ok receipts)) :
    (∀ tx ∈ b.evm_transactions host, ∃ r ∈ receipts,
      r.transaction_index = tx.index.setWidth 256) ↔
    ((b.evm_transactions host).map fun tx => tx.ext.transaction_hash host).Nodup := by
  constructor
  · intro hall
    refine List.Nodup.map_on ?_ b.nodup_index.of_map
    -- two extrinsics with one hash have one receipt, so one index
    intro tx htx tx' htx' heq
    obtain ⟨r, hr, hindex⟩ := hall tx htx
    obtain ⟨r', hr', hindex'⟩ := hall tx' htx'
    have hof := of_index h hr htx hindex
    have hof' := of_index h hr' htx' hindex'
    have hsame : r = r' := List.inj_on_of_nodup_map (nodup_receipts h) hr hr'
      (hof.transaction_hash.trans (heq.trans hof'.transaction_hash.symm))
    rw [hsame, hindex'] at hindex
    exact (List.inj_on_of_nodup_map b.nodup_index htx' htx (setWidth_inj (by omega) hindex)).symm
  · intro hnodup tx htx
    obtain ⟨completed, all, hperm, hall, rfl⟩ := receipt_infos_eq_ok h
    have hhashes := List.map_eq_of_mapM (fun tx => tx.ext.transaction_hash host)
      ReceiptInfo.transaction_hash hall
      fun tx r hr => (ReceiptInfo.of_receipt hr).transaction_hash.symm
    have hall_nodup : (all.map ReceiptInfo.transaction_hash).Nodup := by
      rw [← hhashes]
      exact (hperm.map _).nodup_iff.mpr hnodup
    rw [Map.collect_eq_self hall_nodup]
    have hindices := List.map_eq_of_mapM (fun tx => tx.index.setWidth 256)
      ReceiptInfo.transaction_index hall
      fun tx r hr => (ReceiptInfo.of_receipt hr).transaction_index.symm
    have hmem : tx.index.setWidth 256 ∈ all.map ReceiptInfo.transaction_index := by
      rw [← hindices]
      exact List.mem_map.mpr ⟨tx, hperm.mem_iff.mpr htx, rfl⟩
    exact List.mem_map.mp hmem

/-! ## The status -/

/-- The status is one if the extrinsic succeeded, and zero otherwise. -/
def ReceiptInfo.TellsOutcome (r : ReceiptInfo) (events : Events) : Prop :=
  (r.status = some 1 ↔ events.Succeeded) ∧ (¬ events.Succeeded → r.status = some 0)

/-- **The status of a receipt** tells the outcome exactly if the events
    recorded for the extrinsic are legible. -/
theorem tells_outcome_iff {events : Events} (h : b.receipt_infos host (.ok receipts))
    (htx : tx ∈ b.evm_transactions host) (hevents : tx.ext.events = .ok events)
    (hr : r ∈ receipts) (hindex : r.transaction_index = tx.index.setWidth 256) :
    r.TellsOutcome events ↔ events.Legible := by
  have hstatus := (BlockContent.of_index h hr htx hindex).status events hevents
  rw [← Events.find_success_iff]
  unfold ReceiptInfo.TellsOutcome
  rw [hstatus]
  cases (events.find_first Event.as_extrinsic_success).isOk with
  | true =>
    constructor
    · intro h
      have hsuccess := h.1.mp rfl
      exact ⟨fun _ => hsuccess, fun _ => rfl⟩
    · intro h
      have hsuccess := h.mp rfl
      exact ⟨⟨fun _ => hsuccess, fun _ => rfl⟩, fun hnot => absurd hsuccess hnot⟩
  | false => simp

end receipts

/-! ## A sample block -/

namespace Sample

def fee_paid : Except ClientError Event := .ok (.TransactionFeePaid (.ok ⟨1000000, 0⟩))

def extrinsic_success : Except ClientError Event := .ok (.ExtrinsicSuccess (.ok ()))

/-- A call of the contracts pallet, with these bytes and events. -/
def eth_call_details (bytes : Scale.Vec) (events : Events) : ExtrinsicDetails where
  bytes := bytes
  address_bytes := some (MultiAddress.Id account).encode
  as_eth_instantiate := .ok none
  as_eth_call := .ok (some (eth_call ⟨1000000, 0⟩ (some 0)))
  events := .ok events

/-- Block `n`, with that call as its only extrinsic. -/
def content (n : Nat) (bytes : Scale.Vec) (events : Events) : BlockContent where
  hash := be_low 32 n
  number := BitVec.ofNat 32 n
  extrinsics := .ok [.ok (eth_call_details bytes events)]
  length_le := by
    intro l hl
    cases hl
    simp

def eth_call_transaction (bytes : Scale.Vec) (events : Events) : EvmTransaction where
  info := ⟨signer, some recipient, none, 1000⟩
  ext := eth_call_details bytes events
  index := 0

/-- Its receipt, with status one. -/
def eth_call_receipt (n : Nat) (transaction_hash : H256) : ReceiptInfo where
  block_hash := be_low 32 n
  block_number := (BitVec.ofNat 32 n).setWidth 256
  contract_address := none
  effective_gas_price := 1000
  «from» := signer
  gas_used := 1000
  status := some 1
  «to» := some recipient
  transaction_hash := transaction_hash
  transaction_index := 0

/-- The events of a call that succeeded. -/
def succeeded : Events := [fee_paid, extrinsic_success]

theorem receipt_infos_content {Digest : Type} (host : Host Digest) (n : Nat) (bytes : Scale.Vec) :
    (content n bytes succeeded).receipt_infos host
      (.ok [eth_call_receipt n (host.blake2_256 (Scale.vec_encode bytes))]) := by
  refine ⟨[eth_call_transaction bytes succeeded], .refl _, ?_⟩
  have hgas : (checked_div_or_default (saturating_add_u128 0 1000000)
      (BitVec.setWidth 128 1000#64)).setWidth 256 = 1000#256 := by
    decide +kernel
  have hreceipt : (eth_call_transaction bytes succeeded).receipt host
      (content n bytes succeeded) =
        .ok (eth_call_receipt n (host.blake2_256 (Scale.vec_encode bytes))) := by
    show Except.ok _ = _
    unfold eth_call_receipt
    congr
  unfold BlockContent.collect_receipts
  rw [List.mapM_cons, hreceipt]
  rfl

end Sample

/-- A call with a success event. -/
theorem tells_outcome_iff_sample :
    (Sample.eth_call_receipt 1 (List.Vector.replicate 32 0)).TellsOutcome Sample.succeeded := by
  have htx : Sample.eth_call_transaction ⟨[], by decide⟩ Sample.succeeded ∈
      (Sample.content 1 ⟨[], by decide⟩ Sample.succeeded).evm_transactions Sample.table.host :=
    List.mem_cons_self
  refine (tells_outcome_iff (Sample.receipt_infos_content Sample.table.host 1 ⟨[], by decide⟩) htx
    rfl List.mem_cons_self rfl).mpr (Or.inl ?_)
  exact ⟨[Sample.fee_paid], [], rfl, by simp [Events.Unreadable, Sample.fee_paid]⟩

/-- A call that failed: the fee was paid, the other event is of the failure,
    and the receipt has status one. -/
theorem failed_call_has_status_one :
    let events : Events := [Sample.fee_paid, .ok .Other]
    let content := Sample.content 1 ⟨[], by decide⟩ events
    let receipt := Sample.eth_call_receipt 1 (List.Vector.replicate 32 0)
    content.receipt_infos Sample.table.host (.ok [receipt]) ∧
      Sample.eth_call_transaction ⟨[], by decide⟩ events ∈
        content.evm_transactions Sample.table.host ∧
      ¬ events.Succeeded ∧ receipt.status = some 1 ∧ ¬ receipt.TellsOutcome events := by
  intro events content receipt
  have hfailed : ¬ events.Succeeded := by
    simp [events, Events.Succeeded, Sample.fee_paid]
  refine ⟨⟨_, .refl _, by decide +kernel⟩, List.mem_cons_self, hfailed, rfl, ?_⟩
  intro htells
  exact hfailed (htells.1.mp rfl)

end EthRpc
