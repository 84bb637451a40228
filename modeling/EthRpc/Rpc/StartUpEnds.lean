import EthRpc.Rpc.StartUp

/-! # How start-up ends

    What comes first on the block stream, reconnect notices apart, decides what
    becomes of `from_url`: with a block whose receipts are fetched there is an
    update, and it returns; with an error, or the end of the stream, the sender
    is dropped without one, and the `expect` panics.

    * `Phase`: what can be told of a run at each time.
    * `returns_of_delivers`: fair runs return, by the number of steps that are
      left to the first update.
    * `from_url_iff`: exactly when start-up ends in a result.
-/

namespace EthRpc

namespace StartUp

/-! ## What is asked of the node -/

/-- The properties have `tokenDecimals`, and the difference to 18 does not
    underflow. -/
def FewDecimals (props : Except ClientError Properties) : Prop :=
  ∃ p n, props = .ok p ∧ token_decimals p = some n ∧ n.toNat ≤ 18

/-- There are no properties, or no `tokenDecimals` that is a `u64`. -/
def NoDecimals (props : Except ClientError Properties) : Prop :=
  ∀ p, props = .ok p → token_decimals p = none

/-- The ratio of few decimals is a power of ten; with more, the subtraction
    panics. -/
theorem native_to_evm_ratio_of_decimals {p : Properties} {n : BitVec 64}
    (hdec : token_decimals p = some n) :
    native_to_evm_ratio (.ok p) =
      if n.toNat ≤ 18 then .ok (BitVec.ofNat 256 (10 ^ (18 - n.toNat))) else .panic := by
  have hwide : (n.setWidth 256).toNat = n.toNat := by
    rw [BitVec.toNat_setWidth, Nat.mod_eq_of_lt (by omega)]
  have h18 : (BitVec.ofNat 256 18).toNat = 18 := rfl
  have h10 : (BitVec.ofNat 256 10).toNat = 10 := rfl
  unfold native_to_evm_ratio
  simp only [Outcome.of_except_ok, Outcome.ok_bind, hdec, Outcome.ok_or_some, Profile.sub,
    Profile.arith, hwide, h18]
  by_cases hn : n.toNat ≤ 18
  · simp only [if_pos hn, Outcome.ok_bind]
    have hexp : (BitVec.ofNat 256 18 - n.setWidth 256).toNat = 18 - n.toNat := by
      rw [BitVec.toNat_sub_of_le (by rw [BitVec.le_def, hwide, h18]; exact hn), h18, hwide]
    have hpow : 10 ^ (18 - n.toNat) < 2 ^ 256 :=
      (Nat.pow_le_pow_right (by decide) (by omega : 18 - n.toNat ≤ 18)).trans_lt (by decide)
    unfold U256.pow
    rw [hexp, h10]
    exact Profile.arith_of_fits hpow
  · simp only [if_neg hn, Outcome.panic_bind]

theorem native_to_evm_ratio_of_noDecimals {props : Except ClientError Properties}
    (h : NoDecimals props) : ∃ e, native_to_evm_ratio props = .err e := by
  cases props with
  | error e => exact ⟨e, rfl⟩
  | ok p =>
    refine ⟨.TokenDecimalsNotFound, ?_⟩
    simp [native_to_evm_ratio, h p rfl]

/-- What becomes of the ratio. -/
theorem native_to_evm_ratio_cases (props : Except ClientError Properties) :
    (FewDecimals props ∧ ∃ ratio, native_to_evm_ratio props = .ok ratio) ∨
    (NoDecimals props ∧ ∃ e, native_to_evm_ratio props = .err e) ∨
    (¬ FewDecimals props ∧ ¬ NoDecimals props ∧ native_to_evm_ratio props = .panic) := by
  by_cases hno : NoDecimals props
  · exact Or.inr (Or.inl ⟨hno, native_to_evm_ratio_of_noDecimals hno⟩)
  · unfold NoDecimals at hno
    push Not at hno
    obtain ⟨p, rfl, hsome⟩ := hno
    obtain ⟨n, hdec⟩ := Option.ne_none_iff_exists'.mp hsome
    have hratio := native_to_evm_ratio_of_decimals hdec
    by_cases hn : n.toNat ≤ 18
    · rw [if_pos hn] at hratio
      exact Or.inl ⟨⟨p, n, rfl, hdec, hn⟩, ⟨_, hratio⟩⟩
    · rw [if_neg hn] at hratio
      refine Or.inr (Or.inr ⟨?_, fun h => hsome (h p rfl), hratio⟩)
      intro h
      obtain ⟨p', n', heq, hdec', hle⟩ := h
      cases heq
      rw [hdec] at hdec'
      cases hdec'
      exact hn hle

theorem native_to_evm_ratio_eq_ok {props : Except ClientError Properties} :
    (∃ ratio, native_to_evm_ratio props = .ok ratio) ↔ FewDecimals props := by
  rcases native_to_evm_ratio_cases props with ⟨hfew, hratio⟩ | ⟨hno, e, hratio⟩ | ⟨hmany, -, hratio⟩
  · exact iff_of_true hratio hfew
  · rw [hratio]
    apply iff_of_false (by simp)
    intro hfew
    obtain ⟨p, n, rfl, hdec, -⟩ := hfew
    rw [hno p rfl] at hdec
    cases hdec
  · rw [hratio]
    exact iff_of_false (by simp) hmany

theorem native_to_evm_ratio_eq_err {props : Except ClientError Properties} :
    (∃ e, native_to_evm_ratio props = .err e) ↔ NoDecimals props := by
  rcases native_to_evm_ratio_cases props with ⟨hfew, _, hratio⟩ | ⟨hno, hratio⟩ | ⟨-, hany, hratio⟩
  · rw [hratio]
    apply iff_of_false (by simp)
    intro hno
    obtain ⟨p, n, rfl, hdec, -⟩ := hfew
    rw [hno p rfl] at hdec
    cases hdec
  · exact iff_of_true hratio hno
  · rw [hratio]
    exact iff_of_false (by simp) hany

/-- The connection is made. -/
def Node.Connects (node : Node) : Prop :=
  node.rpc_client = some (.ok ()) ∧ node.api = some (.ok ())

/-- A constant is not in the metadata. -/
def Node.LacksConstant (node : Node) : Prop :=
  (∃ e, node.chain_id = .error e) ∨ ∃ e, node.max_block_weight = .error e

/-- A query fails. Too many decimals are an error only where a constant is
    missed before the properties are looked at. -/
def Node.QueryFails (node : Node) : Prop :=
  match node.system_properties with
  | .at_once props => NoDecimals props ∨ FewDecimals props ∧ node.LacksConstant
  | .later props => node.LacksConstant ∨ NoDecimals props
  | .never => node.LacksConstant

/-- The connection fails, or a query does. -/
inductive Node.Refuses (node : Node) : Prop where
  | rpc_client {e : ClientError} (h : node.rpc_client = some (.error e))
  | api {e : ClientError} (hrpc : node.rpc_client = some (.ok ()))
      (h : node.api = some (.error e))
  | query (hconn : node.Connects) (h : node.QueryFails)

/-- The connection is made, and every query is answered with a value that can
    be used. -/
def Node.Accepts (node : Node) : Prop :=
  node.Connects ∧ ¬ node.LacksConstant ∧ ∃ props, FewDecimals props ∧
    (node.system_properties = .at_once props ∨ node.system_properties = .later props)

theorem Node.not_lacksConstant_iff {node : Node} : ¬ node.LacksConstant ↔
    (∃ chain_id, node.chain_id = .ok chain_id) ∧ ∃ weight, node.max_block_weight = .ok weight := by
  unfold LacksConstant
  rcases node.chain_id with e | chain_id
  · simp
  · rcases node.max_block_weight with e | weight
    · simp
    · simp

/-- The queries end in values. -/
theorem try_join_eq_ok {node : Node} : (∃ inner, node.try_join = .ready (.ok inner)) ↔
    ¬ node.LacksConstant ∧ ∃ props, FewDecimals props ∧
      (node.system_properties = .at_once props ∨ node.system_properties = .later props) := by
  rw [Node.not_lacksConstant_iff]
  unfold Node.try_join
  rcases hprops : node.system_properties with props | props | _
  · simp only [Awaited.bind_eq_ok, Awaited.ready.injEq, Outcome.of_except_eq_ok, Awaited.pure_eq,
      Outcome.ok.injEq, Timed.at_once.injEq, reduceCtorEq, or_false]
    constructor
    · intro h
      obtain ⟨inner, ratio, hratio, chain_id, hchain, weight, hweight, -⟩ := h
      exact ⟨⟨⟨_, hchain⟩, ⟨_, hweight⟩⟩, props, native_to_evm_ratio_eq_ok.mp ⟨_, hratio⟩, rfl⟩
    · intro h
      obtain ⟨⟨⟨chain_id, hchain⟩, ⟨weight, hweight⟩⟩, props', hfew, rfl⟩ := h
      obtain ⟨ratio, hratio⟩ := native_to_evm_ratio_eq_ok.mpr hfew
      exact ⟨_, ratio, hratio, chain_id, hchain, weight, hweight, rfl⟩
  · simp only [Awaited.bind_eq_ok, Awaited.ready.injEq, Outcome.of_except_eq_ok, Awaited.pure_eq,
      Outcome.ok.injEq, Timed.later.injEq, reduceCtorEq, false_or]
    constructor
    · intro h
      obtain ⟨inner, chain_id, hchain, weight, hweight, ratio, hratio, -⟩ := h
      exact ⟨⟨⟨_, hchain⟩, ⟨_, hweight⟩⟩, props, native_to_evm_ratio_eq_ok.mp ⟨_, hratio⟩, rfl⟩
    · intro h
      obtain ⟨⟨⟨chain_id, hchain⟩, ⟨weight, hweight⟩⟩, props', hfew, rfl⟩ := h
      obtain ⟨ratio, hratio⟩ := native_to_evm_ratio_eq_ok.mpr hfew
      exact ⟨_, chain_id, hchain, weight, hweight, ratio, hratio, rfl⟩
  · simp [Awaited.bind_eq_ok]

/-- The first of the constants that is missing ends the queries, if the
    properties did not before. -/
theorem constants_eq_err {node : Node} {α : Type} {f : BitVec 64 → Weight → Awaited α} :
    (∃ e, (do
      let chain_id ← Awaited.ready (.of_except node.chain_id)
      let weight ← Awaited.ready (.of_except node.max_block_weight)
      f chain_id weight) = .ready (.err e)) ↔
    node.LacksConstant ∨ ∃ chain_id weight e, node.chain_id = .ok chain_id ∧
      node.max_block_weight = .ok weight ∧ f chain_id weight = .ready (.err e) := by
  simp only [Awaited.bind_eq_err, Awaited.ready.injEq, Outcome.of_except_eq_ok]
  unfold Node.LacksConstant
  rcases node.chain_id with e | chain_id
  · simp
  · rcases node.max_block_weight with e | weight
    · simp
    · simp

/-- A query fails, and none panicked before. -/
theorem try_join_eq_err {node : Node} :
    (∃ e, node.try_join = .ready (.err e)) ↔ node.QueryFails := by
  unfold Node.try_join Node.QueryFails
  rcases hprops : node.system_properties with props | props | _
  · simp only
    constructor
    · intro h
      obtain ⟨e, he⟩ := h
      rcases Awaited.bind_eq_err.mp he with hratio | ⟨ratio, hratio, hconst⟩
      · exact Or.inl (native_to_evm_ratio_eq_err.mp ⟨e, Awaited.ready.inj hratio⟩)
      · refine Or.inr ⟨native_to_evm_ratio_eq_ok.mp ⟨ratio, Awaited.ready.inj hratio⟩, ?_⟩
        rcases constants_eq_err.mp ⟨e, hconst⟩ with hlacks | ⟨c, w, e', -, -, hreturn⟩
        · exact hlacks
        · cases hreturn
    · intro h
      rcases h with hno | ⟨hfew, hlacks⟩
      · obtain ⟨e, he⟩ := native_to_evm_ratio_eq_err.mpr hno
        exact ⟨e, Awaited.bind_eq_err.mpr (Or.inl (congrArg _ he))⟩
      · obtain ⟨ratio, hratio⟩ := native_to_evm_ratio_eq_ok.mpr hfew
        obtain ⟨e, he⟩ := constants_eq_err.mpr (Or.inl hlacks)
        exact ⟨e, Awaited.bind_eq_err.mpr (Or.inr ⟨ratio, congrArg _ hratio, he⟩)⟩
  · simp only
    rw [constants_eq_err]
    constructor
    · intro h
      rcases h with hlacks | ⟨c, w, e, -, -, he⟩
      · exact Or.inl hlacks
      · rcases Awaited.bind_eq_err.mp he with hratio | ⟨ratio, -, hreturn⟩
        · exact Or.inr (native_to_evm_ratio_eq_err.mp ⟨e, Awaited.ready.inj hratio⟩)
        · cases hreturn
    · intro h
      by_cases hlacks : node.LacksConstant
      · exact Or.inl hlacks
      · obtain ⟨⟨c, hc⟩, ⟨w, hw⟩⟩ := Node.not_lacksConstant_iff.mp hlacks
        obtain ⟨e, he⟩ := native_to_evm_ratio_eq_err.mpr (h.resolve_left hlacks)
        exact Or.inr ⟨c, w, e, hc, hw, Awaited.bind_eq_err.mpr (Or.inl (congrArg _ he))⟩
  · simp only
    rw [constants_eq_err]
    constructor
    · intro h
      rcases h with hlacks | ⟨c, w, e, -, -, he⟩
      · exact hlacks
      · cases he
    · intro hlacks
      exact Or.inl hlacks

theorem from_url_eq_ok {node : Node} :
    (∃ inner, ClientInner.from_url node = .ready (.ok inner)) ↔ node.Accepts := by
  unfold ClientInner.from_url Node.Accepts Node.Connects
  rw [← try_join_eq_ok]
  rcases node.rpc_client with _ | (e | _)
  · simp [Awaited.bind_eq_ok, Awaited.of_reply]
  · simp [Awaited.bind_eq_ok, Awaited.of_reply]
  · rcases node.api with _ | (e | _)
    · simp [Awaited.bind_eq_ok, Awaited.of_reply]
    · simp [Awaited.bind_eq_ok, Awaited.of_reply]
    · simp [Awaited.bind_eq_ok, Awaited.of_reply]

theorem from_url_eq_err {node : Node} :
    (∃ e, ClientInner.from_url node = .ready (.err e)) ↔ node.Refuses := by
  have hcases : node.Refuses ↔ (∃ e, node.rpc_client = some (.error e)) ∨
      (node.rpc_client = some (.ok ()) ∧ ∃ e, node.api = some (.error e)) ∨
      node.Connects ∧ ∃ e, node.try_join = .ready (.err e) := by
    rw [try_join_eq_err]
    constructor
    · intro h
      cases h with
      | rpc_client h => exact Or.inl ⟨_, h⟩
      | api hrpc h => exact Or.inr (Or.inl ⟨hrpc, _, h⟩)
      | query hconn h => exact Or.inr (Or.inr ⟨hconn, h⟩)
    · intro h
      rcases h with ⟨e, h⟩ | ⟨hrpc, e, h⟩ | ⟨hconn, h⟩
      · exact .rpc_client h
      · exact .api hrpc h
      · exact .query hconn h
  rw [hcases]
  unfold ClientInner.from_url Node.Connects
  rcases node.rpc_client with _ | (e | _)
  · simp [Awaited.bind_eq_err, Awaited.of_reply]
  · simp [Awaited.bind_eq_err, Awaited.of_reply]
  · rcases node.api with _ | (e | _)
    · simp [Awaited.bind_eq_err, Awaited.of_reply]
    · simp [Awaited.bind_eq_err, Awaited.of_reply]
    · simp [Awaited.bind_eq_err, Awaited.of_reply]

/-! ## What comes first on the stream -/

/-- `x` comes first, up to reconnect notices. -/
def Node.First (node : Node) (x : Next) : Prop :=
  ∃ n, (∀ k < n, node.next k = .disconnected_will_reconnect) ∧ node.next n = x

theorem Node.First.unique {node : Node} {x y : Next} (hx : node.First x) (hy : node.First y)
    (hxn : x ≠ .disconnected_will_reconnect) (hyn : y ≠ .disconnected_will_reconnect) : x = y := by
  obtain ⟨n, hn, rfl⟩ := hx
  obtain ⟨m, hm, rfl⟩ := hy
  rcases Nat.lt_trichotomy n m with h | rfl | h
  · exact absurd (hm n h) hxn
  · rfl
  · exact absurd (hn m h) hyn

/-- The subscription is made, and a block comes first whose receipts are
    fetched. -/
def Node.Delivers (node : Node) : Prop :=
  node.subscribe_finalized = some (.ok ()) ∧ ∃ b, node.First (.block b (some (.ok ())))

/-- An item that ends the subscription before an update. -/
inductive Next.Ends : Next → Prop where
  | ended : Ends .ended
  | error (e : ClientError) : Ends (.error e)
  | block (b : SubstrateBlock) (e : ClientError) : Ends (.block b (some (.error e)))

/-- The subscription fails, or ends before an update. -/
def Node.Loses (node : Node) : Prop :=
  (∃ e, node.subscribe_finalized = some (.error e)) ∨ ∃ x, x.Ends ∧ node.First x

theorem Node.Delivers.not_loses {node : Node} (h : node.Delivers) : ¬ node.Loses := by
  intro hloses
  obtain ⟨hsub, b, hfirst⟩ := h
  rcases hloses with ⟨e, he⟩ | ⟨x, hends, hx⟩
  · rw [hsub] at he
    cases he
  · cases hends with
    | ended => cases hx.unique hfirst (by simp) (by simp)
    | error e => cases hx.unique hfirst (by simp) (by simp)
    | block b' e => cases hx.unique hfirst (by simp) (by simp)

/-! ## Phases of a run -/

section phases
variable {N : Nat} {node : Node} {s : State N}

/-- Nothing happened yet: there were notices only, and the subscription, if
    it is there, is at the first item. -/
structure Quiet (node : Node) (s : State N) : Prop where
  unseen : s.updates.unseen = false
  closed : s.updates.closed = false
  notices : ∀ k < s.items, node.next k = .disconnected_will_reconnect
  from_url : (s.from_url = .connecting ∧ s.subscribe_blocks = .unspawned) ∨
    (s.from_url = .changed ∧ s.subscribe_blocks ≠ .unspawned ∧ node.Accepts)
  subscribed : s.subscribe_blocks = .unspawned ∨ s.subscribe_blocks = .subscribe_finalized ∨
    node.subscribe_finalized = some (.ok ())
  first : s.subscribe_blocks ≠ .release ∧ ∀ r, s.subscribe_blocks ≠ .returned r

/-- What is known at each time of a run. -/
inductive Phase (node : Node) (s : State N) : Prop where
  | quiet (h : Quiet node s)
  | updated (hfrom : s.from_url = .changed) (hseen : s.updates.unseen = true)
      (hinner : node.Accepts) (h : node.Delivers)
  | lost (hfrom : s.from_url = .changed) (hunseen : s.updates.unseen = false)
      (hclosed : s.updates.closed = true) (htask : ∃ r, s.subscribe_blocks = .returned r)
      (hinner : node.Accepts) (h : node.Loses)
  | returned (hfrom : s.from_url = .returned (.ok ())) (hinner : node.Accepts)
      (h : node.Delivers)
  | refused {e : ClientError} (hfrom : s.from_url = .returned (.error e)) (h : node.Refuses)
  | panicked (hfrom : s.from_url = .panicked)
      (h : ClientInner.from_url node = .ready .panic ∨ node.Accepts ∧ node.Loses)

theorem quiet_init : Quiet node (State.init : State N) :=
  ⟨rfl, rfl, by simp [State.init], Or.inl ⟨rfl, rfl⟩, Or.inl rfl, by simp [State.init]⟩

/-- The subscription does not touch `from_url`, nor take an update back. -/
@[simp] theorem from_url_step_subscribe_blocks :
    (s.step_subscribe_blocks node).from_url = s.from_url := by
  unfold State.step_subscribe_blocks
  split <;> first | rfl | split <;> rfl

theorem unseen_step_subscribe_blocks (h : s.updates.unseen = true) :
    (s.step_subscribe_blocks node).updates.unseen = true := by
  unfold State.step_subscribe_blocks
  split <;> first | exact h | rfl | split <;> exact h

/-- The receiver in a quiet state: it connects, or waits. -/
theorem Quiet.step_from_url (h : Quiet node s) : Phase node (s.step_from_url node) := by
  unfold State.step_from_url
  rcases h.from_url with ⟨hfrom, htask⟩ | ⟨hfrom, -, -⟩
  · rw [hfrom]
    rcases hinner : ClientInner.from_url node with (inner | e | _) | _
    · exact .quiet ⟨h.unseen, h.closed, h.notices,
        Or.inr ⟨rfl, by simp, from_url_eq_ok.mp ⟨inner, hinner⟩⟩, Or.inr (Or.inl rfl), by simp⟩
    · exact .refused rfl (from_url_eq_err.mp ⟨e, hinner⟩)
    · exact .panicked rfl (Or.inl hinner)
    · exact .quiet h
  · rw [hfrom]
    simp only [h.unseen, h.closed, Bool.false_eq_true, if_false]
    exact .quiet h

/-- Once the subscription is spawned, the receiver waits. -/
theorem Quiet.waits (h : Quiet node s) (hspawned : s.subscribe_blocks ≠ .unspawned) :
    s.from_url = .changed ∧ node.Accepts := by
  rcases h.from_url with ⟨-, htask⟩ | ⟨hfrom, -, haccepts⟩
  · exact absurd htask hspawned
  · exact ⟨hfrom, haccepts⟩

/-- Nothing happens yet on the way from one place to the next. -/
theorem Quiet.go_to (h : Quiet node s) (hspawned : s.subscribe_blocks ≠ .unspawned)
    (hsub : node.subscribe_finalized = some (.ok ())) {t : SubscribeBlocks} (c : BlockCache N)
    (ht : t ≠ .unspawned) (hrelease : t ≠ .release) (hreturned : ∀ r, t ≠ .returned r) :
    Quiet node { s with cache := c, subscribe_blocks := t } where
  unseen := h.unseen
  closed := h.closed
  notices := h.notices
  from_url := Or.inr ⟨(h.waits hspawned).1, ht, (h.waits hspawned).2⟩
  subscribed := Or.inr (Or.inr hsub)
  first := ⟨hrelease, hreturned⟩

/-- The subscription returns without an update. -/
theorem Quiet.lost (h : Quiet node s) (hspawned : s.subscribe_blocks ≠ .unspawned)
    (hloses : node.Loses) (r : Except ClientError Unit) : Phase node (s.subscription_returns r) :=
  .lost (h.waits hspawned).1 h.unseen rfl ⟨r, rfl⟩ (h.waits hspawned).2 hloses

/-- The item after the notices comes first. -/
theorem Quiet.first_of_next (h : Quiet node s) {x : Next} (hx : node.next s.items = x) :
    node.First x := ⟨s.items, h.notices, hx⟩

/-- **The subscription in a quiet state**: it goes on, or returns, or sends
    the first update. -/
theorem Quiet.step_subscribe_blocks (h : Quiet node s) (hinv : Inv node s) :
    Phase node (s.step_subscribe_blocks node) := by
  have hholds := hinv.holds
  unfold State.step_subscribe_blocks
  cases htask : s.subscribe_blocks with
  | unspawned => exact .quiet h
  | subscribe_finalized =>
    have hspawned : s.subscribe_blocks ≠ .unspawned := by simp [htask]
    rcases hsub : node.subscribe_finalized with _ | (e | _)
    · exact .quiet h
    · exact h.lost hspawned (Or.inl ⟨e, hsub⟩) _
    · exact .quiet (h.go_to hspawned hsub s.cache (by simp) (by simp) (by simp))
  | next =>
    have hspawned : s.subscribe_blocks ≠ .unspawned := by simp [htask]
    have hsub : node.subscribe_finalized = some (.ok ()) := by simpa [htask] using h.subscribed
    cases hnext : node.next s.items with
    | block b r => exact .quiet (h.go_to hspawned hsub s.cache (by simp) (by simp) (by simp))
    | disconnected_will_reconnect =>
      have hgo := h.go_to (t := .next) hspawned hsub s.cache (by simp) (by simp) (by simp)
      refine .quiet ⟨hgo.unseen, hgo.closed, ?_, hgo.from_url, hgo.subscribed, hgo.first⟩
      intro k hk
      rcases Nat.lt_succ_iff_lt_or_eq.mp hk with hlt | rfl
      · exact h.notices k hlt
      · exact hnext
    | error e => exact h.lost hspawned (Or.inr ⟨_, .error e, h.first_of_next hnext⟩) _
    | ended => exact h.lost hspawned (Or.inr ⟨_, .ended, h.first_of_next hnext⟩) _
    | pending => exact .quiet h
  | write b r =>
    exact .quiet (h.go_to (by simp [htask]) (by simpa [htask] using h.subscribed) s.cache
      (by simp) (by simp) (by simp))
  | receipt_infos b r =>
    have hspawned : s.subscribe_blocks ≠ .unspawned := by simp [htask]
    rw [Holds, htask] at hholds
    rcases r with _ | (e | _)
    · exact .quiet h
    · exact h.lost hspawned (Or.inr ⟨_, .block b e, h.first_of_next hholds.1⟩) _
    · exact .quiet (h.go_to hspawned (by simpa [htask] using h.subscribed) _
        (by simp) (by simp) (by simp))
  | prune b =>
    exact .quiet (h.go_to (by simp [htask]) (by simpa [htask] using h.subscribed) _
      (by simp) (by simp) (by simp))
  | push_back b =>
    exact .quiet (h.go_to (by simp [htask]) (by simpa [htask] using h.subscribed) _
      (by simp) (by simp) (by simp))
  | send_replace =>
    have hspawned : s.subscribe_blocks ≠ .unspawned := by simp [htask]
    rw [Holds, htask] at hholds
    obtain ⟨b, hnext, -⟩ := hholds
    exact .updated (h.waits hspawned).1 rfl (h.waits hspawned).2
      ⟨by simpa [htask] using h.subscribed, b, h.first_of_next hnext⟩
  | release => exact absurd htask h.first.1
  | returned r => exact absurd htask (h.first.2 r)

/-- **A step keeps what is known.** -/
theorem Phase.step (h : Phase node s) (hinv : Inv node s) (t : TaskId) :
    Phase node (State.step node t s) := by
  cases t with
  | subscribe_reconnect => exact h
  | from_url =>
    show Phase node (s.step_from_url node)
    cases h with
    | quiet h => exact h.step_from_url
    | updated hfrom hseen hinner h =>
      unfold State.step_from_url
      rw [hfrom]
      simp only [hseen, if_true]
      exact .returned rfl hinner h
    | lost hfrom hunseen hclosed htask hinner h =>
      unfold State.step_from_url
      rw [hfrom]
      simp only [hunseen, hclosed, Bool.false_eq_true, if_false, if_true]
      exact .panicked rfl (Or.inr ⟨hinner, h⟩)
    | returned hfrom hinner h =>
      unfold State.step_from_url
      rw [hfrom]
      exact .returned hfrom hinner h
    | refused hfrom h =>
      unfold State.step_from_url
      rw [hfrom]
      exact .refused hfrom h
    | panicked hfrom h =>
      unfold State.step_from_url
      rw [hfrom]
      exact .panicked hfrom h
  | subscribe_blocks =>
    show Phase node (s.step_subscribe_blocks node)
    have hfrom_url : (s.step_subscribe_blocks node).from_url = s.from_url :=
      from_url_step_subscribe_blocks
    cases h with
    | quiet h => exact h.step_subscribe_blocks hinv
    | updated hfrom hseen hinner h =>
      exact .updated (hfrom_url.trans hfrom) (unseen_step_subscribe_blocks hseen) hinner h
    | lost hfrom hunseen hclosed htask hinner h =>
      obtain ⟨r, hr⟩ := htask
      have hstay : s.step_subscribe_blocks node = s := by simp only [State.step_subscribe_blocks, hr]
      rw [hstay]
      exact .lost hfrom hunseen hclosed ⟨r, hr⟩ hinner h
    | returned hfrom hinner h => exact .returned (hfrom_url.trans hfrom) hinner h
    | refused hfrom h => exact .refused (hfrom_url.trans hfrom) h
    | panicked hfrom h => exact .panicked (hfrom_url.trans hfrom) h

/-- What is known of a run. -/
theorem phase_run (σ : Nat → TaskId) (n : Nat) : Phase node (run N node σ n) := by
  have hboth := Schedule.invariant (σ := σ) (I := fun s : State N => Inv node s ∧ Phase node s)
    ⟨inv_init, .quiet quiet_init⟩ (fun t s h => ⟨h.1.step t, h.2.step h.1 t⟩) n
  exact hboth.2

theorem Quiet.underway (h : Quiet node s) : s.from_url = .connecting ∨ s.from_url = .changed := by
  rcases h.from_url with ⟨hfrom, -⟩ | ⟨hfrom, -, -⟩
  · exact Or.inl hfrom
  · exact Or.inr hfrom

/-- Why `from_url` has returned. -/
theorem Phase.of_returned (h : Phase node s) {r : Except ClientError Unit}
    (hr : s.from_url = .returned r) : node.Refuses ∨ node.Accepts ∧ node.Delivers := by
  cases h with
  | returned _ haccepts hdelivers => exact Or.inr ⟨haccepts, hdelivers⟩
  | refused _ hrefuses => exact Or.inl hrefuses
  | quiet hquiet =>
    exfalso
    rcases hquiet.underway with hfrom | hfrom
    · simp [hfrom] at hr
    · simp [hfrom] at hr
  | updated hfrom _ _ _ => simp [hfrom] at hr
  | lost hfrom _ _ _ _ _ => simp [hfrom] at hr
  | panicked hfrom _ => simp [hfrom] at hr

/-- Why `from_url` has panicked. -/
theorem Phase.of_panicked (h : Phase node s) (hpanicked : s.from_url = .panicked) :
    ClientInner.from_url node = .ready .panic ∨ node.Accepts ∧ node.Loses := by
  cases h with
  | panicked _ hwhy => exact hwhy
  | quiet hquiet =>
    exfalso
    rcases hquiet.underway with hfrom | hfrom
    · simp [hfrom] at hpanicked
    · simp [hfrom] at hpanicked
  | updated hfrom _ _ _ => simp [hfrom] at hpanicked
  | lost hfrom _ _ _ _ _ => simp [hfrom] at hpanicked
  | returned hfrom _ _ => simp [hfrom] at hpanicked
  | refused hfrom _ => simp [hfrom] at hpanicked

end phases

/-! ## The end of start-up -/

/-- `from_url` ends in a result, under every schedule that gives all tasks
    their turns, and never panics under any. -/
structure StartsUp (N : Nat) (node : Node) : Prop where
  never_panics : ∀ σ n, (run N node σ n).from_url ≠ .panicked
  returns : ∀ σ, Schedule.Fair σ → ∃ n r, (run N node σ n).from_url = .returned r

/-- Once `from_url` has returned `Ok`, the cache is not empty whenever it can
    be read. -/
def NeverEmpty (N : Nat) (node : Node) : Prop :=
  ∀ σ n, (run N node σ n).from_url = .returned (.ok ()) → ∀ m, n ≤ m →
    (run N node σ m).Readable → NotEmpty (run N node σ m).cache

section ends
variable {N : Nat} {node : Node} {s : State N}

/-- What has returned stays so. -/
theorem from_url_step_of_returned {r : Except ClientError Unit} (t : TaskId)
    (h : s.from_url = .returned r) : (State.step node t s).from_url = .returned r := by
  cases t with
  | from_url =>
    show (s.step_from_url node).from_url = _
    unfold State.step_from_url
    rw [h]
    exact h
  | subscribe_blocks => exact from_url_step_subscribe_blocks.trans h
  | subscribe_reconnect => exact h

theorem neverEmpty (N : Nat) (node : Node) : NeverEmpty N node := by
  intro σ n hreturned m hle hread
  have hm : (run N node σ m).from_url = .returned (.ok ()) :=
    Schedule.stable (I := fun s : State N => s.from_url = .returned (.ok ()))
      (fun t _ => from_url_step_of_returned t) hreturned hle
  have hinv : Inv node (run N node σ m) := inv_run σ m
  rw [hinv.cache_eq hread]
  exact notEmpty_of_buffer (buffer_cache_after_ne_nil (hinv.updated (Or.inr hm)))

/-- The steps that are left until `from_url` returns, where the block that
    comes first is item `first`. -/
def steps_left (first : Nat) (s : State N) : Nat :=
  match s.from_url with
  | .connecting => first + 9
  | .changed =>
    if s.updates.unseen then 1
    else match s.subscribe_blocks with
      | .subscribe_finalized => first + 8
      | .next => first + 7 - s.items
      | .write _ _ => 6
      | .receipt_infos _ _ => 5
      | .prune _ => 4
      | .push_back _ => 3
      | .send_replace => 2
      | _ => 0
  | _ => 0

/-- The task that makes the next of them. -/
def helpful (s : State N) : TaskId :=
  match s.from_url with
  | .changed => if s.updates.unseen then .from_url else .subscribe_blocks
  | _ => .from_url

/-- Before the first update, each turn of the subscription is a step on the
    way to it. -/
theorem Quiet.steps_left_lt {first : Nat} {b : SubstrateBlock} (h : Quiet node s)
    (hinv : Inv node s) (hspawned : s.subscribe_blocks ≠ .unspawned)
    (hsub : node.subscribe_finalized = some (.ok ()))
    (hfirst : node.next first = .block b (some (.ok ())))
    (hnotices : ∀ k < first, node.next k = .disconnected_will_reconnect) :
    steps_left first (s.step_subscribe_blocks node) < steps_left first s := by
  have hfrom := (h.waits hspawned).1
  have hunseen := h.unseen
  have hholds := hinv.holds
  -- the notices seen so far are among those before the block
  have hitems : s.items ≤ first := by
    by_contra hgt
    have hnext := h.notices first (by omega)
    rw [hfirst] at hnext
    cases hnext
  unfold State.step_subscribe_blocks
  cases htask : s.subscribe_blocks with
  | unspawned => exact absurd htask hspawned
  | subscribe_finalized =>
    simp only [hsub, steps_left, hfrom, hunseen, htask, Bool.false_eq_true, if_false]
    omega
  | next =>
    rcases Nat.lt_or_eq_of_le hitems with hlt | heq
    · simp only [hnotices _ hlt, steps_left, hfrom, hunseen, htask, Bool.false_eq_true, if_false]
      omega
    · rw [heq, hfirst]
      simp only [steps_left, hfrom, hunseen, htask, Bool.false_eq_true, if_false]
      omega
  | write b' r => simp [steps_left, hfrom, hunseen, htask]
  | receipt_infos b' r =>
    -- the item is the one that comes first
    rw [Holds, htask] at hholds
    have hr : r = some (.ok ()) := by
      rcases Nat.lt_or_eq_of_le hitems with hlt | heq
      · rw [hnotices _ hlt] at hholds
        cases hholds.1
      · rw [heq, hfirst] at hholds
        cases hholds.1
        rfl
    subst hr
    simp [steps_left, hfrom, hunseen, htask]
  | prune b' => simp [steps_left, hfrom, hunseen, htask]
  | push_back b' => simp [steps_left, hfrom, hunseen, htask]
  | send_replace => simp [steps_left, hfrom, hunseen, htask]
  | release => exact absurd htask h.first.1
  | returned r => exact absurd htask (h.first.2 r)

/-- Nothing happened yet, or there is an update to be seen. -/
def Underway (node : Node) (s : State N) : Prop :=
  Inv node s ∧ (Quiet node s ∨ s.from_url = .changed ∧ s.updates.unseen = true)

/-- `from_url` goes on, or returns with the update that it sees. -/
theorem Underway.step_from_url (first : Nat) (h : Underway node s) (haccepts : node.Accepts) :
    (s.step_from_url node).from_url = .returned (.ok ()) ∨
      Underway node (s.step_from_url node) ∧
        (steps_left first (s.step_from_url node) < steps_left first s ∨
          .from_url ≠ helpful s ∧ s.step_from_url node = s) := by
  obtain ⟨inner, hinner⟩ := from_url_eq_ok.mpr haccepts
  obtain ⟨hinv, hquiet | ⟨hfrom, hseen⟩⟩ := h
  · have hunseen := hquiet.unseen
    rcases hquiet.from_url with ⟨hfrom, -⟩ | ⟨hfrom, -, -⟩
    · -- the connection is made, and the subscription spawned
      have hstep : s.step_from_url node =
          { s with from_url := .changed, subscribe_blocks := .subscribe_finalized } := by
        simp only [State.step_from_url, hfrom, hinner]
      refine Or.inr ⟨⟨hinv.step_from_url, Or.inl ?_⟩, Or.inl ?_⟩
      · rw [hstep]
        exact ⟨hunseen, hquiet.closed, hquiet.notices, Or.inr ⟨rfl, by simp, haccepts⟩,
          Or.inr (Or.inl rfl), by simp⟩
      · simp [hstep, steps_left, hfrom, hunseen]
    · -- it waits
      have hstay : s.step_from_url node = s := by
        simp only [State.step_from_url, hfrom, hunseen, hquiet.closed, Bool.false_eq_true, if_false]
      rw [hstay]
      refine Or.inr ⟨⟨hinv, Or.inl hquiet⟩, Or.inr ⟨?_, rfl⟩⟩
      simp [helpful, hfrom, hunseen]
  · left
    simp only [State.step_from_url, hfrom, hseen, if_true]

/-- The subscription goes on to its first update, and then disturbs no more. -/
theorem Underway.step_subscribe_blocks {first : Nat} {b : SubstrateBlock} (h : Underway node s)
    (hsub : node.subscribe_finalized = some (.ok ()))
    (hfirst : node.next first = .block b (some (.ok ())))
    (hnotices : ∀ k < first, node.next k = .disconnected_will_reconnect) :
    Underway node (s.step_subscribe_blocks node) ∧
      (steps_left first (s.step_subscribe_blocks node) < steps_left first s ∨
        .subscribe_blocks ≠ helpful s ∧
          steps_left first (s.step_subscribe_blocks node) = steps_left first s ∧
          helpful (s.step_subscribe_blocks node) = helpful s) := by
  have hdelivers : node.Delivers := ⟨hsub, b, first, hnotices, hfirst⟩
  have hstep : (s.step_subscribe_blocks node).from_url = s.from_url :=
    from_url_step_subscribe_blocks
  obtain ⟨hinv, hquiet | ⟨hfrom, hseen⟩⟩ := h
  · rcases hquiet.from_url with ⟨hfrom, htask⟩ | ⟨hfrom, hspawned, -⟩
    · -- it is not there yet
      have hstay : s.step_subscribe_blocks node = s := by
        simp only [State.step_subscribe_blocks, htask]
      rw [hstay]
      exact ⟨⟨hinv, Or.inl hquiet⟩, Or.inr ⟨by simp [helpful, hfrom], rfl, rfl⟩⟩
    · refine ⟨⟨hinv.step_subscribe_blocks, ?_⟩,
        Or.inl (hquiet.steps_left_lt hinv hspawned hsub hfirst hnotices)⟩
      rw [hfrom] at hstep
      cases hquiet.step_subscribe_blocks hinv with
      | quiet h => exact Or.inl h
      | updated hfrom' hseen _ _ => exact Or.inr ⟨hfrom', hseen⟩
      | lost _ _ _ _ _ hloses => exact absurd hloses hdelivers.not_loses
      | returned hfrom' _ _ => simp [hfrom] at hfrom'
      | refused hfrom' _ => simp [hfrom] at hfrom'
      | panicked hfrom' _ => simp [hfrom] at hfrom'
  · rw [hfrom] at hstep
    have hseen' : (s.step_subscribe_blocks node).updates.unseen = true :=
      unseen_step_subscribe_blocks hseen
    refine ⟨⟨hinv.step_subscribe_blocks, Or.inr ⟨hstep, hseen'⟩⟩, Or.inr ?_⟩
    simp [helpful, steps_left, hfrom, hseen, hseen']

/-- A step of the helpful task is one of those that are left; any other
    changes nothing that matters. -/
theorem Underway.step {first : Nat} {b : SubstrateBlock} (h : Underway node s)
    (haccepts : node.Accepts) (hsub : node.subscribe_finalized = some (.ok ()))
    (hfirst : node.next first = .block b (some (.ok ())))
    (hnotices : ∀ k < first, node.next k = .disconnected_will_reconnect) (t : TaskId) :
    (State.step node t s).from_url = .returned (.ok ()) ∨ Underway node (State.step node t s) ∧
      (steps_left first (State.step node t s) < steps_left first s ∨
        t ≠ helpful s ∧ steps_left first (State.step node t s) = steps_left first s ∧
          helpful (State.step node t s) = helpful s) := by
  cases t with
  | from_url =>
    rcases h.step_from_url first haccepts with hdone | ⟨hnext, hlt | ⟨hne, hstay⟩⟩
    · exact Or.inl hdone
    · exact Or.inr ⟨hnext, Or.inl hlt⟩
    · exact Or.inr ⟨hnext, Or.inr ⟨hne, congrArg (steps_left first) hstay, congrArg helpful hstay⟩⟩
  | subscribe_blocks => exact Or.inr (h.step_subscribe_blocks hsub hfirst hnotices)
  | subscribe_reconnect =>
    refine Or.inr ⟨h, Or.inr ⟨?_, rfl, rfl⟩⟩
    unfold helpful
    split
    · split <;> simp
    · simp

/-- **Fair runs return**, if a block comes first. -/
theorem returns_of_delivers (haccepts : node.Accepts) (hdelivers : node.Delivers)
    {σ : Nat → TaskId} (hfair : Schedule.Fair σ) :
    ∃ n, (run N node σ n).from_url = .returned (.ok ()) := by
  obtain ⟨hsub, b, first, hnotices, hfirst⟩ := hdelivers
  obtain ⟨n, -, hn⟩ := Schedule.leads_to hfair (Underway node)
    (fun s : State N => s.from_url = .returned (.ok ())) (steps_left first) helpful
    (fun t s h => h.step haccepts hsub hfirst hnotices t) (n := 0)
    ⟨inv_init, Or.inl quiet_init⟩
  exact ⟨n, hn⟩

/-- **Fair runs return**, if the node refuses: with the first turn of
    `from_url`. -/
theorem returns_of_refuses (hrefuses : node.Refuses) {σ : Nat → TaskId}
    (hfair : Schedule.Fair σ) : ∃ n e, (run N node σ n).from_url = .returned (.error e) := by
  obtain ⟨e, he⟩ := from_url_eq_err.mpr hrefuses
  have hturn : ∀ s : State N, s.from_url = .connecting ∧ s.subscribe_blocks = .unspawned →
      (State.step node .from_url s).from_url = .returned (.error e) := by
    intro s h
    show (s.step_from_url node).from_url = _
    simp only [State.step_from_url, h.1, he]
  have hstay : ∀ t (s : State N), s.from_url = .connecting ∧ s.subscribe_blocks = .unspawned →
      t ≠ .from_url → (State.step node t s).from_url = .connecting ∧
        (State.step node t s).subscribe_blocks = .unspawned := by
    intro t s h ht
    cases t with
    | from_url => exact absurd rfl ht
    | subscribe_blocks =>
      have hsame : State.step node .subscribe_blocks s = s := by
        simp only [State.step, State.step_subscribe_blocks, h.2]
      rw [hsame]
      exact h
    | subscribe_reconnect => exact h
  obtain ⟨n, -, hn⟩ := Schedule.leads_to_of_turn hfair
    (fun s : State N => s.from_url = .connecting ∧ s.subscribe_blocks = .unspawned)
    (fun s => s.from_url = .returned (.error e)) .from_url hturn hstay (n := 0)
    (show State.init.from_url = .connecting ∧ _ from ⟨rfl, rfl⟩)
  exact ⟨n, e, hn⟩

/-- No panic, if the node refuses or delivers. -/
theorem never_panics_of (h : node.Refuses ∨ node.Accepts ∧ node.Delivers) (σ : Nat → TaskId)
    (n : Nat) : (run N node σ n).from_url ≠ .panicked := by
  intro hpanicked
  have hphase : Phase node (run N node σ n) := phase_run σ n
  have hwhy := hphase.of_panicked hpanicked
  rcases h with hrefuses | ⟨haccepts, hdelivers⟩
  · obtain ⟨e, he⟩ := from_url_eq_err.mpr hrefuses
    rcases hwhy with hpanic | ⟨haccepts, -⟩
    · simp [he] at hpanic
    · obtain ⟨inner, hinner⟩ := from_url_eq_ok.mpr haccepts
      simp [he] at hinner
  · obtain ⟨inner, hinner⟩ := from_url_eq_ok.mpr haccepts
    rcases hwhy with hpanic | ⟨-, hloses⟩
    · simp [hinner] at hpanic
    · exact hdelivers.not_loses hloses

/-- **Start-up.** For every node: after an `Ok` the cache is never empty; and
    start-up ends in a result exactly if the node refuses the connection or a
    query, or accepts both and delivers a block first. -/
theorem from_url_iff (N : Nat) (node : Node) :
    NeverEmpty N node ∧
      (StartsUp N node ↔ node.Refuses ∨ node.Accepts ∧ node.Delivers) := by
  refine ⟨neverEmpty N node, ?_⟩
  constructor
  · intro h
    obtain ⟨σ, hfair⟩ := Schedule.exists_fair TaskId
    obtain ⟨n, r, hr⟩ := h.returns σ hfair
    have hphase : Phase node (run N node σ n) := phase_run σ n
    exact hphase.of_returned hr
  · intro h
    refine ⟨never_panics_of h, fun σ hfair => ?_⟩
    rcases h with hrefuses | ⟨haccepts, hdelivers⟩
    · obtain ⟨n, e, hn⟩ := returns_of_refuses hrefuses hfair
      exact ⟨n, _, hn⟩
    · obtain ⟨n, hn⟩ := returns_of_delivers haccepts hdelivers hfair
      exact ⟨n, _, hn⟩

end ends

/-! ## Two nodes -/

namespace Sample

/-- The properties of a chain whose token has `text` decimals. -/
def properties (text : String) : Properties :=
  (∅ : Properties).insert "tokenDecimals" (.number text)

/-- A node that answers everything, with this property, and delivers block
    after block. -/
def node (text : String) : Node where
  rpc_client := some (.ok ())
  api := some (.ok ())
  system_properties := .later (.ok (properties text))
  chain_id := .ok 596
  max_block_weight := .ok ⟨0, 0⟩
  subscribe_finalized := some (.ok ())
  next n := .block (EthRpc.Sample.block n) (some (.ok ()))

end Sample

/-- Nineteen decimals: the connecting `from_url` panics. A subscription that
    fails: it panics at the closed channel. -/
theorem start_up_panics :
    let decimals := Sample.node "19"
    let lost := { Sample.node "12" with subscribe_finalized := some (.error (.RpcError 0)) }
    let turns : Nat → TaskId := fun n => if n = 1 then .subscribe_blocks else .from_url
    (run 10 decimals turns 1).from_url = .panicked ∧ (run 10 lost turns 3).from_url = .panicked ∧
      ¬ StartsUp 10 decimals ∧ ¬ StartsUp 10 lost := by
  intro decimals lost turns
  have hdecimals : (run 10 decimals turns 1).from_url = .panicked := by rfl
  have hlost : (run 10 lost turns 3).from_url = .panicked := by rfl
  exact ⟨hdecimals, hlost, fun h => h.never_panics _ _ hdecimals, fun h => h.never_panics _ _ hlost⟩

end StartUp

end EthRpc
