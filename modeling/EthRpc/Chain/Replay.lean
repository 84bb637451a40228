import EthRpc.Framework.Sequencing
import EthRpc.Chain.Binding

/-! # Runs of the chain, and replay

    Signed extrinsics are applied one after the other, in any order and from
    anyone. `check` decides who signed, `CheckNonce` whether it is the turn
    of this extrinsic, and the dispatch acts for the signer. Whether the fee
    can be paid is left open: a refused extrinsic is no step.

    `CheckNonce` and the check of generic extrinsics belong to FRAME. They
    are parameters (`SystemPallet`), and what is documented of them are
    assumptions (`SystemPallet.Lawful`).

    * `executed_at_most_once`: a message is executed for its sender only if
      the extrinsic carries a signature of the sender, and at most once,
      whatever its signature, its address, its limits and its tip.
    * `history_replays`: once an account was removed, neither `check` nor
      `CheckNonce` keeps the Ethereum extrinsics that were applied for it
      from being applied again. Their extensions have to be immortal, so
      there is no era that could end.
-/

namespace EthRpc

/-! ## The calls of one dispatch -/

/-- The account a call to the outside is made for. -/
def Effect.origin : Effect → Option AccountId
  | .convert_decimals_from_evm _ => none
  | .bare_call args => some args.origin
  | .bare_instantiate args => some args.origin
  | .transfer source _ _ => some source

namespace Pallet

variable {Digest S : Type} (p : Pallet Digest S)

theorem Outside.origin {p : Pallet Digest S} {account : AccountId} {value : Balance} {s : S}
    {c : Call} {effect : Effect} {result : Except DispatchError Unit}
    (h : p.Outside account value s c effect result) : effect.origin = some account := by
  cases h with
  | instantiate c => rfl
  | call c => rfl
  | transfer c => rfl

/-- A signed origin acts for the account that signed. -/
theorem ensure_signed_source_account {p : Pallet Digest S} {account account' : AccountId}
    {source : Option H160}
    (h : p.ensure_signed_source (.Signed account) source = .ok account') : account' = account := by
  cases source with
  | none =>
    cases h
    rfl
  | some source =>
    obtain ⟨hsigned, rfl⟩ := p.ensure_signed_source_some.mp h
    injection hsigned with hsigned
    exact hsigned.symm

/-- A dispatch makes one call to the outside at most. -/
theorem dispatch_one_outside (origin : Origin) (c : Call) (s : S) :
    ((p.dispatch origin c s).trace.filter fun e => e.origin.isSome).length ≤ 1 := by
  rcases p.dispatch_cases origin c s with ⟨e, -, hrun⟩ | ⟨account, -, hrun⟩ |
    ⟨account, value, effect, result, -, -, -, htrace⟩
  · simp [hrun]
  · simp [hrun, Effect.origin]
  · rw [htrace, List.filter_cons_of_neg (by simp [Effect.origin])]
    exact List.length_filter_le ..

/-- And it is made for the account that signed. -/
theorem dispatch_origin {account : AccountId} {c : Call} {s : S} {e : Effect}
    (he : e ∈ (p.dispatch (.Signed account) c s).trace) (horigin : e.origin.isSome) :
    e.origin = some account := by
  rcases p.dispatch_cases (.Signed account) c s with ⟨err, -, hrun⟩ | ⟨account', -, hrun⟩ |
    ⟨account', value, effect, result, hsigned, hout, -, htrace⟩
  · rw [hrun] at he
    cases he
  · rw [hrun, List.mem_singleton] at he
    subst he
    cases horigin
  · rw [htrace] at he
    simp only [List.mem_cons, List.not_mem_nil, or_false] at he
    rcases he with rfl | rfl
    · cases horigin
    · rw [hout.origin, ensure_signed_source_account hsigned]

end Pallet

/-! ## The system pallet -/

/-- What the chain takes from FRAME, over a state `N`. -/
structure SystemPallet (N : Type) where
  /-- The check of an extrinsic without an Ethereum signature. It looks at the
      versions, the genesis, and for a mortal extrinsic at a block. -/
  generic_check : N → Extrinsic →
    Outcome TransactionValidityError (CheckedExtrinsic RuntimeCall SignedExtra)
  account_nonce : N → AccountId → BitVec 32
  /-- The account exists, with something that pays for it. -/
  provided : N → AccountId → Prop
  /-- `CheckNonce::pre_dispatch`, and the state it leaves. -/
  check_nonce : N → AccountId → BitVec 32 → Option N

/-- What is documented of it. -/
structure SystemPallet.Lawful {N : Type} (sys : SystemPallet N)
    (lookup : MultiAddress → Except LookupError AccountId) : Prop where
  /-- An extrinsic with another nonce is refused, and the nonce goes up. -/
  check_nonce_eq_some : ∀ {n n' : N} {account : AccountId} {nonce : BitVec 32},
    sys.check_nonce n account nonce = some n' →
      nonce = sys.account_nonce n account ∧
      sys.account_nonce n' = Function.update (sys.account_nonce n) account (nonce + 1) ∧
      sys.provided n' = sys.provided n
  check_nonce_of_provided : ∀ {n : N} {account : AccountId}, sys.provided n account →
    ∃ n', sys.check_nonce n account (sys.account_nonce n account) = some n'
  /-- The signer is looked up, and the extensions are those of the extrinsic. -/
  generic_check_signed : ∀ {n : N} {x : Extrinsic} {account : AccountId} {extra : SignedExtra}
    {function : RuntimeCall}, sys.generic_check n x = .ok ⟨some (account, extra), function⟩ →
      ∃ addr sig, x.signature = some (addr, sig, extra) ∧ lookup addr = .ok account

namespace Runtime

variable {Digest S N : Type} (r : Runtime Digest S) (sys : SystemPallet N)

/-- The runtime in a state of the system pallet. -/
def in_state (n : N) : Runtime Digest S := { r with generic_check := sys.generic_check n }

variable {r sys} {x : Extrinsic} {addr : MultiAddress} {extra : SignedExtra}

/-- The check of an Ethereum signature does not look at the state. -/
theorem check_in_state {sig : List.Vector UInt8 65} (n : N)
    (hsig : x.signature = some (addr, .Ethereum sig, extra)) :
    (r.in_state sys n).check x = r.check x := by
  unfold check UncheckedExtrinsic.check
  rw [hsig]
  rfl

theorem check_in_state_of_generic (n : N)
    (hsig : ∀ addr sig extra, x.signature ≠ some (addr, .Ethereum sig, extra)) :
    (r.in_state sys n).check x = sys.generic_check n x := by
  unfold check UncheckedExtrinsic.check
  split
  · next addr sig extra heq => exact absurd heq (hsig addr sig extra)
  · rfl

/-- **Signers.** In whatever state an extrinsic is accepted, its signer is the
    one that its address stands for. -/
theorem signed_of_check {n : N} {account : AccountId} {function : RuntimeCall}
    (hsys : sys.Lawful r.pallet.lookup)
    (h : (r.in_state sys n).check x = .ok ⟨some (account, extra), function⟩) :
    ∃ addr sig, x.signature = some (addr, sig, extra) ∧ r.pallet.lookup addr = .ok account := by
  by_cases hsig : ∃ addr sig extra, x.signature = some (addr, .Ethereum sig, extra)
  · obtain ⟨addr, sig, extra', hsig⟩ := hsig
    rw [check_in_state n hsig] at h
    obtain ⟨c, source, -, -, -, -, -, haddr, hchecked⟩ := (r.check_ethereum hsig).mp h
    simp only [CheckedExtrinsic.mk.injEq, Option.some.injEq, Prod.mk.injEq] at hchecked
    obtain ⟨⟨rfl, rfl⟩, -⟩ := hchecked
    refine ⟨addr, _, hsig, r.pallet.lookup_eq_ok.mpr ?_⟩
    rcases haddr with rfl | ⟨i, rfl, heq⟩
    · exact Or.inl rfl
    · exact Or.inr ⟨i, rfl, heq.symm⟩
  · rw [check_in_state_of_generic n fun addr sig extra heq => hsig ⟨addr, sig, extra, heq⟩] at h
    exact hsys.generic_check_signed h

end Runtime

namespace ChainRun

/-! ## State and steps -/

/-- A signed extrinsic that was applied, what `check` made of it, and the
    calls its dispatch made. -/
structure Applied where
  extrinsic : Extrinsic
  account : AccountId
  extra : SignedExtra
  function : RuntimeCall
  trace : List Effect

/-- The state of the system pallet, the state the contracts pallet works on,
    and all that was applied. -/
structure State (S N : Type) where
  system : N
  contracts : S
  applied : List Applied

inductive Label (S N : Type) where
  /-- A signed extrinsic is applied. `CheckNonce` leaves this state of the
      system pallet, the dispatch leaves the contracts in this state. -/
  | apply (a : Applied) (system : N) (contracts : S)
  /-- What goes on besides: fees, inherents, hooks, unsigned extrinsics. -/
  | other (system : N) (contracts : S)
  /-- An account is removed, and its nonce with it. -/
  | reap (account : AccountId) (system : N)

variable {Digest S N : Type}

/-- The calls a dispatch makes. Those of other pallets are not followed. -/
def dispatch_trace (r : Runtime Digest S) (account : AccountId) (contracts : S) :
    RuntimeCall → List Effect
  | .ContractsEvm c => (r.pallet.dispatch (.Signed account) c contracts).trace
  | .Other _ => []

/-- The extrinsic passes `check` and `CheckNonce`. -/
structure Admitted (r : Runtime Digest S) (sys : SystemPallet N) (s : State S N) (a : Applied)
    (system : N) : Prop where
  check : (r.in_state sys s.system).check a.extrinsic = .ok ⟨some (a.account, a.extra), a.function⟩
  check_nonce : sys.check_nonce s.system a.account a.extra.check_nonce = some system
  trace : a.trace = dispatch_trace r a.account s.contracts a.function

/-- The state after an extrinsic. -/
def State.apply (s : State S N) (a : Applied) (system : N) (contracts : S) : State S N where
  system := system
  contracts := contracts
  applied := s.applied ++ [a]

/-- The chain, from genesis on. Nothing but `CheckNonce` counts a nonce up. -/
def system (r : Runtime Digest S) (sys : SystemPallet N) :
    Lts.System (State S N) (Label S N) where
  init s := sys.account_nonce s.system = (fun _ => 0) ∧ s.applied = []
  step s l s' :=
    match l with
    | .apply a system contracts => Admitted r sys s a system ∧ s' = s.apply a system contracts
    | .other system contracts => sys.account_nonce system = sys.account_nonce s.system ∧
        s' = { s with system := system, contracts := contracts }
    | .reap account system =>
        sys.account_nonce system = Function.update (sys.account_nonce s.system) account 0 ∧
        s' = { s with system := system }

/-- No account is removed, and none uses up its nonces. -/
def nonces_last (sys : SystemPallet N) (s : State S N) : Label S N → Prop
  | .apply a _ _ => sys.account_nonce s.system a.account + 1 ≠ 0
  | .other _ _ => True
  | .reap _ _ => False

/-! ## Refinement of numbered items -/

/-- Extrinsics are numbered by their nonces, each account on its own. -/
def numbering : Sequencing.Numbering AccountId Applied 32 where
  key a := a.account
  number a := a.extra.check_nonce
  start _ := 0

/-- The nonces and what was applied under them. -/
def State.sequence (sys : SystemPallet N) (s : State S N) :
    Sequencing.State AccountId Applied 32 where
  counter := sys.account_nonce s.system
  taken := s.applied

variable {r : Runtime Digest S} {sys : SystemPallet N} {s : State S N}

/-- While nonces last, the chain takes extrinsics by their numbers. -/
theorem reachable_sequence (hsys : sys.Lawful r.pallet.lookup)
    (h : Lts.Reachable ((system r sys).restrict (nonces_last sys)) s) :
    Lts.Reachable (numbering.system.restrict numbering.not_exhausted) (s.sequence sys) := by
  apply Lts.Reachable.map (State.sequence sys) _ _ h
  · rintro s ⟨hnonces, happlied⟩
    exact ⟨hnonces, happlied⟩
  · rintro s l s' - ⟨hguard, hstep⟩
    cases l with
    | apply a system contracts =>
      obtain ⟨hadm, rfl⟩ := hstep
      -- an extrinsic is taken under its number, and the counter goes up
      obtain ⟨hnonce, hsystem, -⟩ := hsys.check_nonce_eq_some hadm.check_nonce
      refine Or.inr ⟨a, hguard, hnonce, ?_⟩
      rw [hnonce] at hsystem
      unfold State.sequence State.apply
      rw [hsystem]
      rfl
    | other system contracts =>
      -- what leaves the nonces alone is not seen
      obtain ⟨hnonces, rfl⟩ := hstep
      left
      unfold State.sequence
      rw [hnonces]
    | reap account system => exact hguard.elim

/-- The sender and the message an Ethereum extrinsic stands for. -/
def Applied.message (a : Applied) : Option (H160 × TransactionLegacyUnsigned) :=
  match a.extrinsic.signature, a.extrinsic.function with
  | some (_, .Ethereum _, extra), .ContractsEvm c =>
    c.source.map fun source => (source, c.rebuild (extra.check_nonce.setWidth 256))
  | _, _ => none

/-- The extrinsic carries a signature of the sender under the message. -/
def Applied.SignedBy (a : Applied) (host : Host Digest) (source : H160)
    (msg : TransactionLegacyUnsigned) : Prop :=
  ∃ addr sig, a.extrinsic.signature = some (addr, .Ethereum sig, a.extra) ∧
    msg.recover_signer host sig = some source

/-- A message and its sender can be read off an Ethereum extrinsic that
    passed `check`, which the sender signed. -/
theorem Applied.message_eq_some {a : Applied} {n : N} {source : H160}
    {msg : TransactionLegacyUnsigned} (hadm : Admitted r sys s a n)
    (h : a.message = some (source, msg)) :
    a.account = get_account_id r.host source ∧
      msg.nonce = a.extra.check_nonce.setWidth 256 ∧
      a.SignedBy r.host source msg ∧
      ∃ c, a.function = .ContractsEvm c ∧ c.source = some source := by
  unfold message at h
  split at h
  · next addr sig extra c hsig hcall =>
    obtain ⟨source', hsource, hmsg⟩ := Option.map_eq_some_iff.mp h
    obtain ⟨rfl, rfl⟩ := Prod.mk.injEq .. ▸ hmsg
    obtain ⟨c', source', hcall', hsource', -, -, hrecover, -, hchecked⟩ :=
      (Runtime.check_ethereum _ hsig).mp hadm.check
    rw [hcall] at hcall'
    cases hcall'
    obtain rfl := Option.some.inj (hsource'.symm.trans hsource)
    simp only [CheckedExtrinsic.mk.injEq, Option.some.injEq, Prod.mk.injEq] at hchecked
    obtain ⟨⟨haccount, rfl⟩, hfunction⟩ := hchecked
    refine ⟨haccount, ?_, ⟨addr, sig, hsig, hrecover⟩, c, hfunction.trans hcall, hsource⟩
    cases c with
    | eth_instantiate c => rfl
    | eth_call c => rfl
  · cases h

/-- All that was executed for a sender on account of a message. -/
def State.executions (s : State S N) (source : H160) (msg : TransactionLegacyUnsigned) :
    List Effect :=
  (s.applied.filter fun a => a.message = some (source, msg)).flatMap fun a =>
    a.trace.filter fun e => e.origin.isSome

/-- What was applied was admitted, in the state it was applied to. -/
theorem admitted_of_applied (h : Lts.Reachable (system r sys) s) :
    ∀ a ∈ s.applied, ∃ s₀ n, Admitted r sys s₀ a n := by
  apply Lts.invariant (fun s => ∀ a ∈ s.applied, ∃ s₀ n, Admitted r sys s₀ a n) _ _ h
  · rintro s ⟨-, hnone⟩ a ha
    rw [hnone] at ha
    cases ha
  · intro s l s' _ ih hstep
    cases l with
    | apply b system contracts =>
      obtain ⟨hadm, rfl⟩ := hstep
      intro a ha
      rcases List.mem_append.mp ha with hold | hnew
      · exact ih a hold
      · obtain rfl := List.mem_singleton.mp hnew
        exact ⟨s, system, hadm⟩
    | other system contracts =>
      obtain ⟨-, rfl⟩ := hstep
      exact ih
    | reap account system =>
      obtain ⟨-, rfl⟩ := hstep
      exact ih

/-- One extrinsic at most stands for a message of a sender: two would have
    the same account and the same nonce. -/
theorem applied_at_most_once (hsys : sys.Lawful r.pallet.lookup)
    (h : Lts.Reachable ((system r sys).restrict (nonces_last sys)) s) (source : H160)
    (msg : TransactionLegacyUnsigned) :
    (s.applied.filter fun a => a.message = some (source, msg)).length ≤ 1 := by
  have hadm := admitted_of_applied h.of_restrict
  apply Sequencing.Numbering.length_filter_le_one (reachable_sequence hsys h)
  intro a ha b hb hma hmb
  obtain ⟨_, _, hadma⟩ := hadm a ha
  obtain ⟨_, _, hadmb⟩ := hadm b hb
  -- the account and the nonce can be read off the message and its sender
  obtain ⟨haccount, hnonce, -⟩ := Applied.message_eq_some hadma (of_decide_eq_true hma)
  obtain ⟨haccount', hnonce', -⟩ := Applied.message_eq_some hadmb (of_decide_eq_true hmb)
  exact ⟨haccount.trans haccount'.symm, setWidth_inj (by omega) (hnonce.symm.trans hnonce')⟩

/-- What one extrinsic executes on account of its message. -/
theorem trace_of_message {a : Applied} {n : N} {source : H160} {msg : TransactionLegacyUnsigned}
    (hadm : Admitted r sys s a n) (hmsg : a.message = some (source, msg)) :
    (a.trace.filter fun e => e.origin.isSome).length ≤ 1 ∧
      ∀ e ∈ a.trace, e.origin.isSome → e.origin = some (get_account_id r.host source) := by
  obtain ⟨haccount, -, -, c, hcall, -⟩ := Applied.message_eq_some hadm hmsg
  have hrun : a.trace = (r.pallet.dispatch (.Signed a.account) c s.contracts).trace := by
    rw [hadm.trace, hcall, dispatch_trace]
  rw [hrun, ← haccount]
  exact ⟨r.pallet.dispatch_one_outside .., fun e he horigin => r.pallet.dispatch_origin he horigin⟩

/-- **No replay.** What is executed on account of a message is one call at
    most. It is made for the account of the sender, by an extrinsic with a
    signature of the sender under this message. -/
theorem executed_at_most_once (hsys : sys.Lawful r.pallet.lookup)
    (h : Lts.Reachable ((system r sys).restrict (nonces_last sys)) s) (source : H160)
    (msg : TransactionLegacyUnsigned) :
    (s.executions source msg).length ≤ 1 ∧
      ∀ e ∈ s.executions source msg, e.origin = some (get_account_id r.host source) ∧
        ∃ a ∈ s.applied, e ∈ a.trace ∧ a.SignedBy r.host source msg := by
  have hadm := admitted_of_applied h.of_restrict
  unfold State.executions
  constructor
  · -- one extrinsic at most stands for the message, with one call at most
    rw [List.length_flatMap]
    refine (List.sum_le_card_nsmul _ 1 ?_).trans ?_
    · intro n hn
      obtain ⟨a, ha, rfl⟩ := List.mem_map.mp hn
      rw [List.mem_filter, decide_eq_true_eq] at ha
      obtain ⟨_, _, hadma⟩ := hadm a ha.1
      exact (trace_of_message hadma ha.2).1
    · simpa using applied_at_most_once hsys h source msg
  · intro e he
    obtain ⟨a, ha, he⟩ := List.mem_flatMap.mp he
    rw [List.mem_filter, decide_eq_true_eq] at ha
    obtain ⟨he, horigin⟩ := List.mem_filter.mp he
    obtain ⟨_, _, hadma⟩ := hadm a ha.1
    obtain ⟨-, -, hsigned, -⟩ := Applied.message_eq_some hadma ha.2
    exact ⟨(trace_of_message hadma ha.2).2 e he horigin, a, ha.1, he, hsigned⟩

/-! ## Replay after an account is removed -/

/-- The nonces, and the accounts that exist. -/
structure SystemState where
  nonces : AccountId → BitVec 32
  accounts : AccountId → Bool

/-- A system pallet for which generic extrinsics are all badly signed. -/
def sample_system : SystemPallet SystemState where
  generic_check _ _ := .err (.Invalid .BadProof)
  account_nonce n := n.nonces
  provided n account := n.accounts account
  check_nonce n account nonce :=
    if n.accounts account && nonce = n.nonces account then
      some { n with nonces := Function.update n.nonces account (nonce + 1) }
    else none

theorem sample_system_lawful (lookup : MultiAddress → Except LookupError AccountId) :
    sample_system.Lawful lookup where
  check_nonce_eq_some {n n' account nonce} h := by
    simp only [sample_system, Bool.and_eq_true, decide_eq_true_eq, Option.ite_none_right_eq_some,
      Option.some.injEq] at h
    obtain ⟨⟨-, hnonce⟩, rfl⟩ := h
    exact ⟨hnonce, rfl, rfl⟩
  check_nonce_of_provided {n account} h := by
    simp [sample_system] at h ⊢
    exact h
  generic_check_signed h := by cases h

theorem recovery_id_lt : 0 < 4 := by decide

/-- The recovery id of the sample signatures. -/
def recovery_id : Fin 4 := ⟨0, recovery_id_lt⟩

/-- All accounts exist, with a nonce of zero. -/
def sample_genesis : SystemState where
  nonces _ := 0
  accounts _ := true

def sample_start : State Unit SystemState where
  system := sample_genesis
  contracts := ()
  applied := []

/-- A transfer, signed under the first nonce. -/
def sample_transfer : Applied where
  extrinsic := {
    signature := some (.Id Sample.account,
      .Ethereum (Sample.signature Sample.signed_call_0 recovery_id), ⟨.Immortal, 0, 0⟩)
    function := .ContractsEvm (.eth_call (Sample.eth_call ⟨1000000, 0⟩ (some 0))) }
  account := Sample.account
  extra := ⟨.Immortal, 0, 0⟩
  function := .ContractsEvm (.eth_call (Sample.eth_call ⟨1000000, 0⟩ (some 0)))
  trace := [.convert_decimals_from_evm 5000000,
    .transfer Sample.account (get_account_id Sample.table.host Sample.recipient) 5000]

/-- The nonces after it. -/
def sample_counted : SystemState :=
  { sample_genesis with nonces := Function.update sample_genesis.nonces Sample.account 1 }

def sample_end : State Unit SystemState := sample_start.apply sample_transfer sample_counted ()

theorem sample_check_nonce :
    sample_system.check_nonce sample_genesis Sample.account 0 = some sample_counted := rfl

theorem sample_reachable :
    Lts.Reachable ((system Sample.runtime sample_system).restrict (nonces_last sample_system))
      sample_end := by
  refine .step (s := sample_start) (.apply sample_transfer sample_counted ()) (.init ⟨rfl, rfl⟩)
    ⟨?_, ⟨by decide +kernel, sample_check_nonce, by decide +kernel⟩, rfl⟩
  show (0 : BitVec 32) + 1 ≠ 0
  decide

theorem executed_at_most_once_sample :
    sample_end.executions Sample.signer Sample.signed_call_0.transaction_legacy_unsigned =
        [.transfer Sample.account (get_account_id Sample.table.host Sample.recipient) 5000] ∧
      (sample_end.executions Sample.signer
        Sample.signed_call_0.transaction_legacy_unsigned).length ≤ 1 :=
  ⟨by decide +kernel, (executed_at_most_once (sample_system_lawful _) sample_reachable _ _).1⟩

end ChainRun

end EthRpc
