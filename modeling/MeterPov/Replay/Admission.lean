import MeterPov.Replay.Invariant

/-! What was compared when a transaction or a block passed: with the stored chain through the entries of its transactions,
and with the drafts between through a walk down from the parent. -/

set_option autoImplicit false

namespace MeterPov.Replay

open Lib Blocks Chains KBlock Consensus Auction List Block

variable {Digest State Receipt : Type} [DecidableEq Digest] {env : ReplayEnv Digest State Receipt}
  {ledger : Ledger Digest Address Transaction} {added : List (Block Digest Address Transaction)}
  {drafts : List (Draft Digest)} {draft : Draft Digest} {tx : Transaction} {block parent : Block Digest Address Transaction}
  {number : Nat} {name : BlockID Digest}

/-! ## The walk down the drafts -/

theorem findDraft_spec (found : findDraft env drafts name = some draft) : draft ∈ drafts ∧ draft.block.id env.hashing = name := by
  have holds := List.find?_some found
  simp only [decide_eq_true_eq] at holds
  exact ⟨mem_of_find?_eq_some found, holds.2⟩

theorem exists_findDraft (listed : Listed env drafts name) : ∃ draft, findDraft env drafts name = some draft := by
  apply Option.isSome_iff_exists.mp
  unfold findDraft
  rw [List.find?_isSome]
  obtain ⟨draft, among, isListed, named⟩ := listed
  exact ⟨draft, among, by simp [isListed, named]⟩

theorem getDraft_spec (found : getDraft env ledger drafts name = some draft) :
    (draft ∈ drafts ∨ draft.block ∈ ledger.chain.blocks) ∧ draft.block.id env.hashing = name := by
  unfold getDraft at found
  split at found
  next other here =>
    cases found
    obtain ⟨among, named⟩ := findDraft_spec here
    exact ⟨.inl among, named⟩
  · obtain ⟨block, stored, rfl⟩ := Option.map_eq_some_iff.mp found
    obtain ⟨among, named⟩ := Chains.Chain.mem_of_getBlock stored
    exact ⟨.inr among, named⟩

/-- A bound for the walk: the drafts between the best block and the one it is at. -/
def between (best : Nat) (drafts : List (Draft Digest)) (top : Nat) : Nat :=
  drafts.countP fun draft => best < draft.block.number ∧ draft.block.number < top

omit [DecidableEq Digest] in
theorem between_lt {best top : Nat} (listed : draft ∈ drafts) (high : best < draft.block.number) (below : draft.block.number < top) :
    between best drafts draft.block.number < between best drafts top := by
  unfold between
  induction drafts with
  | nil => cases listed
  | cons first rest ih =>
    have grows : rest.countP (fun other => best < other.block.number ∧ other.block.number < draft.block.number) ≤
        rest.countP (fun other => best < other.block.number ∧ other.block.number < top) := by
      apply countP_mono_left
      intro other _ known
      simp only [decide_eq_true_eq] at known ⊢
      omega
    rcases mem_cons.mp listed with rfl | deeper
    · rw [countP_cons_of_neg (by simp), countP_cons_of_pos (by simp [high, below])]
      omega
    · have fewer := ih deeper
      simp only [countP_cons, decide_eq_true_eq]
      split <;> split <;> omega

/-- A transaction that is found neither in the chain nor on the walk is clear of all that is below. -/
theorem clear_of_walk (free : env.CollisionFree) (recorded : Recorded env ledger added)
    (kept : ∀ draft ∈ drafts, DraftKept env added ledger.chain.bestBlock.number drafts draft) (fresh : Fresh env number tx)
    (above : ledger.chain.bestBlock.number < number) {headID}
    (notFound : ledger.getTransactionMeta (id env.toTxEnv tx) headID = none) {hops : Nat}
    (known : draft ∈ drafts ∨ draft.block.number ≤ ledger.chain.bestBlock.number) (below : draft.block.number ≤ headID.number)
    (enough : between ledger.chain.bestBlock.number drafts draft.block.number < hops)
    (absent : id env.toTxEnv tx ∉ txsInCache env ledger drafts hops (some draft)) :
    Clear env added ledger.chain.bestBlock.number tx (draft.block.id env.hashing) := by
  induction hops generalizing draft with
  | zero => omega
  | succ hops ih =>
    by_cases low : draft.block.number ≤ ledger.chain.bestBlock.number
    · apply recorded.clear_of_le free fresh above notFound
      · rwa [id_number]
      · rwa [id_number]
    have high := Nat.lt_of_not_le low
    have draftKept := kept draft (known.resolve_right low)
    have ready := draftKept.ready high
    have pending : draft.committed = false := Bool.eq_false_iff.mpr fun committed => low (draftKept.low committed)
    simp only [txsInCache, pending, Bool.false_eq_true, if_false, mem_append, not_or] at absent
    have apart : Apart env tx draft.block := by
      intro other among same
      rw [fresh.identity_eq, (ready.fresh other among).identity_eq] at same
      exact absent.1 (mem_map.mpr ⟨other, among, same.symm⟩)
    refine .pending ready.toWellBuilt apart ?_
    have next : draft.block.number = (draft.block.parentID.number + 1) % 2 ^ 32 := rfl
    by_cases lowParent : draft.block.parentID.number ≤ ledger.chain.bestBlock.number
    · exact recorded.clear_of_le free fresh above notFound lowParent (by omega)
    -- the draft below is listed, so the walk goes on there
    have highParent := Nat.lt_of_not_le lowParent
    obtain ⟨parent, found⟩ := exists_findDraft (draftKept.parent highParent high)
    obtain ⟨among, named⟩ := findDraft_spec found
    have parentNumber : parent.block.number = draft.block.parentID.number := by rw [← named, id_number]
    have bound : parent.block.number < 2 ^ 32 := Nat.mod_lt _ (by decide)
    have deeper : Clear env added ledger.chain.bestBlock.number tx (parent.block.id env.hashing) := by
      apply ih (.inl among)
      · omega
      · have down : parent.block.number < draft.block.number := by omega
        have fewer := between_lt among (show ledger.chain.bestBlock.number < parent.block.number by omega) down
        omega
      · simpa [getDraft, found] using absent.2
    rwa [named] at deeper

theorem Intact.clear_of_cached (free : env.CollisionFree) {node} (intact : Intact env node)
    (fresh : Fresh env number tx) (above : node.ledger.chain.bestBlock.number < number)
    (known : draft ∈ node.drafts ∨ draft.block ∈ node.ledger.chain.blocks)
    (notFound : node.ledger.getTransactionMeta (id env.toTxEnv tx) (draft.block.id env.hashing) = none)
    (absent : id env.toTxEnv tx ∉ node.cached env draft) :
    Clear env node.added node.ledger.chain.bestBlock.number tx (draft.block.id env.hashing) := by
  refine clear_of_walk free intact.recorded intact.drafts fresh above notFound ?_ (by rw [id_number]) ?_ absent
  · exact known.imp_right fun stored => intact.recorded.number_le (intact.recorded.blocks _ stored)
  · have bound : between node.ledger.chain.bestBlock.number node.drafts draft.block.number ≤ node.drafts.length :=
      countP_le_length
    omega

/-! ## What passes validation -/

/-- What is known of a block that passed, and of its parent. -/
structure Passed (env : ReplayEnv Digest State Receipt) (ledger : Ledger Digest Address Transaction)
    (block parent : Block Digest Address Transaction) (forced : Bool) : Prop extends WellBuilt env block where
  score : parent.header.totalScore < block.header.totalScore
  signed : ∀ tx ∈ block.txs, ∃ addr, signer env.toTxEnv tx = .ok addr
  window : ∀ tx ∈ block.txs, tx.isExpired block.number = false
  reversed : forced = true → ∀ tx ∈ block.txs, isWrapped tx = true → reverseTx env.toTxEnv tx = .ok ()
  notFound : ∀ tx ∈ block.txs, ledger.getTransactionMeta (id env.toTxEnv tx) block.parentID = none

omit [DecidableEq Digest] in
@[simp] theorem accepts_returned {α result} {value : α} :
    Accepts (returned result) value ↔ result = .ok value := by
  constructor
  · intro accepted
    exact Except.ok.inj accepted
  · rintro rfl
    rfl

theorem recoverable_of_validateProposer (passed : Consensus.validateProposer (validateEnv env ledger) block.header = .ok ()) :
    block.Recoverable env.hashing := by
  unfold Consensus.validateProposer at passed
  split at passed
  · cases passed
  next signer recovered => exact ⟨signer, recovered⟩

omit [DecidableEq Digest] in
theorem isExpired_of_reference {bodyEnv : KBlock.BodyEnv Digest} (accepted : Accepts (KBlock.validateReference bodyEnv number tx) ()) :
    tx.isExpired number = false := by
  simp only [KBlock.validateReference, KBlock.accepts_guard] at accepted
  exact Bool.eq_false_iff.mpr accepted.2.2.1

theorem reverseTx_of_ethTxValidate (accepted : Accepts (KBlock.ethTxValidate (bodyEnv env) tx) ()) (wrapped : isWrapped tx = true) :
    reverseTx env.toTxEnv tx = .ok () := by
  have mark : isEthTx tx = .ok true := by
    unfold isWrapped at wrapped
    split at wrapped
    next marked read => rw [read, wrapped]
    · cases wrapped
  obtain ⟨marked, read, rest⟩ := accepts_bind.mp accepted
  rw [accepts_lift, mark] at read
  cases read
  simp only [if_true] at rest
  split at rest
  next passed => exact passed
  · exact absurd rest KBlock.not_accepts_throw

omit [DecidableEq Digest] in
theorem admissible_of_validateTx {bodyEnv hashs after} (accepted : Accepts (KBlock.validateTx bodyEnv block hashs tx) after) : KBlock.Admissible bodyEnv block.number tx := by
  unfold KBlock.validateTx at accepted
  split at accepted
  · exact absurd accepted KBlock.not_accepts_throw
  next addr signed =>
    simp only [accepts_bind] at accepted
    obtain ⟨_, ethTx, _, -, _, reference, -⟩ := accepted
    exact ⟨⟨addr, signed⟩, ethTx, reference⟩

omit [DecidableEq Digest] in
theorem admissible_of_loop {bodyEnv : KBlock.BodyEnv Digest} {hashs after : KBlock.UniteHashs} {txs : List Transaction}
    (accepted : Accepts (txs.foldlM (KBlock.validateTx bodyEnv block) hashs) after) :
    ∀ tx ∈ txs, KBlock.Admissible bodyEnv block.number tx := by
  induction txs generalizing hashs with
  | nil => nofun
  | cons first rest ih =>
    rw [foldlM_cons, accepts_bind] at accepted
    obtain ⟨next, passed, others⟩ := accepted
    exact forall_mem_cons.mpr ⟨admissible_of_validateTx passed, ih others⟩

theorem synced_body {bestStateRoot} (passed : Consensus.validateBlockBody (validateEnv env ledger) bestStateRoot block = .ok ()) :
    block.header.txsRoot = env.txsRoot block.txs ∧
      ∀ tx ∈ block.txs, (∃ addr, signer env.toTxEnv tx = .ok addr) ∧ tx.isExpired block.number = false := by
  unfold Consensus.validateBlockBody at passed
  split at passed
  · cases passed
  next root =>
    split at passed
    · cases passed
    refine ⟨not_not.mp root, ?_⟩
    have loop : block.txs.forM (Consensus.validateTx (validateEnv env ledger) block) = .ok () := by
      split at passed
      · split at passed
        · cases passed
        · exact passed
      · exact passed
    intro tx listed
    have checked := Consensus.forM_eq_ok.mp loop tx listed
    unfold Consensus.validateTx at checked
    split at checked
    · cases checked
    next addr signed =>
      refine ⟨⟨addr, signed⟩, ?_⟩
      split at checked
      · cases checked
      split at checked
      · cases checked
      split at checked
      · cases checked
      split at checked
      · cases checked
      next open_ => exact Bool.eq_false_iff.mpr open_

variable {receipts : List Receipt}

theorem passed_of_validate {state now force} (accepted : Accepts (validate env ledger state block parent now force) receipts) :
    Passed env ledger block parent force.isSome := by
  unfold validate at accepted
  simp only [accepts_bind, accepts_returned] at accepted
  obtain ⟨epoch, -, _, header, _, proposer, _, body, verified⟩ := accepted
  obtain ⟨-, -, -, -, score, -⟩ := validateBlockHeader_iff.mp header
  have recoverable := recoverable_of_validateProposer proposer
  obtain ⟨_, _, run⟩ := verified_of_verifyBlock verified
  have notFound : ∀ tx ∈ block.txs, ledger.getTransactionMeta (id env.toTxEnv tx) block.parentID = none := by
    intro tx listed
    have absent := run.fresh tx listed
    simpa [validateEnv] using absent
  cases force with
  | none =>
    obtain ⟨root, txs⟩ := synced_body (accepts_returned.mp body)
    exact ⟨⟨recoverable, root⟩, score, fun tx listed => (txs tx listed).1, fun tx listed => (txs tx listed).2, nofun, notFound⟩
  | some force =>
    obtain ⟨_, body, -⟩ := accepts_bind.mp body
    have forcedBody : block.header.txsRoot = env.txsRoot block.txs ∧ ∀ tx ∈ block.txs, KBlock.Admissible (bodyEnv env)
        block.number tx := by
      simp only [KBlock.validateBlockBody, KBlock.accepts_guard, accepts_bind] at body
      obtain ⟨root, -, _, loop, -⟩ := body
      exact ⟨not_not.mp root, admissible_of_loop loop⟩
    obtain ⟨root, txs⟩ := forcedBody
    refine ⟨⟨recoverable, root⟩, score, fun tx listed => (txs tx listed).signed,
      fun tx listed => isExpired_of_reference (txs tx listed).reference, fun _ tx listed => ?_, notFound⟩
    exact reverseTx_of_ethTxValidate (txs tx listed).ethTx

theorem passed_of_processProposedBlock {now force}
    (accepted : Accepts (processProposedBlock env ledger parent block now force) (some receipts)) :
    Passed env ledger block parent true := by
  unfold processProposedBlock at accepted
  split at accepted
  · cases accepted
  split at accepted
  · exact absurd accepted KBlock.not_accepts_throw
  · obtain ⟨_, validated, -⟩ := accepts_bind.mp accepted
    exact passed_of_validate validated

theorem passed_of_processSyncedBlock {now} (accepted : Accepts (processSyncedBlock env ledger block now) receipts) :
    ∃ parent, ledger.chain.getBlock env.hashing block.parentID = some parent ∧ Passed env ledger block parent false := by
  obtain ⟨-, accepted⟩ := KBlock.accepts_guard.mp accepted
  split at accepted
  · exact absurd accepted KBlock.not_accepts_throw
  next parent found =>
    split at accepted
    · exact absurd accepted KBlock.not_accepts_throw
    · exact ⟨parent, found, passed_of_validate accepted⟩

theorem Passed.fresh {forced} (free : env.CollisionFree) (passed : Passed env ledger block parent forced)
    (tesla : forced = false → ∀ tx ∈ block.txs, isWrapped tx = true → env.isTesla tx.refNumber = true) :
    ∀ tx ∈ block.txs, Fresh env block.number tx := by
  intro tx listed
  refine ⟨passed.signed tx listed, ?_, passed.window tx listed⟩
  cases forced with
  | false => exact identity_of_tesla env.toTxEnv (tesla rfl tx listed)
  | true => exact identity_of_reverseTx free.toCollisionFree (passed.reversed rfl tx listed)

end MeterPov.Replay
