import MeterPov.Replay.Admission

/-! When no transaction is executed twice.

The entries of a transaction may be deleted once it cannot be included any more. The pruner deletes them after a number of
blocks, whatever the transactions are: a wrapped Ethereum transaction does not expire, since a new wrapper can refer to a
newer block. -/

set_option autoImplicit false

namespace MeterPov.Replay

open Lib Blocks Chains KBlock Auction List Block

variable {Digest State Receipt : Type} [DecidableEq Digest] {env : ReplayEnv Digest State Receipt}
  {node after : NodeState Digest State Receipt} {added : List (Block Digest Address Transaction)} {best : Nat}
  {drafts drafts' : List (Draft Digest)} {draft draft' : Draft Digest} {block : Block Digest Address Transaction}
  {name : BlockID Digest}

/-! ## The chain grows -/

omit [DecidableEq Digest] in
theorem Ready.extend {next} (ready : Ready env added best block) (follows : next.number = best + 1) :
    Ready env (next :: added) (best + 1) block :=
  { ready with
    clear := fun tx listed => (ready.clear tx listed).extend (by rw [id_number]; exact follows) }

omit [DecidableEq Digest] in
theorem DraftKept.extend (kept : DraftKept env added best drafts draft) (follows : block.number = best + 1) :
    DraftKept env (block :: added) (best + 1) drafts draft where
  recoverable := kept.recoverable
  low committed := Nat.le_succ_of_le (kept.low committed)
  listed high := kept.listed (by omega)
  parent highParent high := kept.parent (by omega) (by omega)
  ready high := (kept.ready (by omega)).extend follows

variable {executed : Executed Digest Address Transaction} {ledger : Ledger Digest Address Transaction}
  {parent : Block Digest Address Transaction} {flow : Flow Digest State Receipt} {header : Header Digest Address}
  {escortQC : QuorumCert Digest} {receipts : List Receipt} {tx : Transaction} {force : Force} {now : Nat}

omit [DecidableEq Digest] in
theorem FlowKept.extend (kept : FlowKept env added best flow parent) (follows : block.number = best + 1) :
    FlowKept env (block :: added) (best + 1) flow parent where
  fresh := kept.fresh
  clear entry listed high := (kept.clear entry listed (by omega)).extend (by rw [id_number]; exact follows)

omit [DecidableEq Digest] in
theorem Intact.extend (intact : Intact env node) (recorded : Recorded env ledger (block :: node.added))
    (isBest : ledger.chain.bestBlock = block) (follows : block.number = node.ledger.chain.bestBlock.number + 1) :
    Intact env { node with ledger := ledger, added := block :: node.added } := by
  have number : ledger.chain.bestBlock.number = node.ledger.chain.bestBlock.number + 1 := by rw [isBest, follows]
  refine ⟨recorded, ?_, ?_, ?_⟩
  · intro draft listed
    simp only [number]
    exact (intact.drafts draft listed).extend follows
  · intro flow isOpen
    obtain ⟨parent, found, kept⟩ := intact.flow flow isOpen
    simp only [number]
    exact ⟨parent, found, kept.extend follows⟩
  · intro other listed
    obtain ⟨known, spent⟩ := intact.spent other listed
    exact ⟨mem_cons_of_mem _ known, spent.mono (by simp only [number]; omega)⟩

/-! ## The drafts change -/

omit [DecidableEq Digest] in
theorem DraftKept.moved (kept : DraftKept env added best drafts draft)
    (stay : ∀ name : BlockID Digest, best < name.number → Listed env drafts name → Listed env drafts' name)
    (same : draft'.block = draft.block) (low : draft'.committed = true → draft.committed = true ∨ draft.block.number ≤ best) :
    DraftKept env added best drafts' draft' where
  recoverable := same ▸ kept.recoverable
  low committed := by
    rw [same]
    rcases low committed with known | low
    · exact kept.low known
    · exact low
  listed high := by
    rw [same] at high ⊢
    exact stay _ (by rwa [id_number]) (kept.listed high)
  parent highParent high := by
    rw [same] at high highParent ⊢
    exact stay _ highParent (kept.parent highParent high)
  ready high := by
    rw [same] at high ⊢
    exact kept.ready high

omit [DecidableEq Digest] in
theorem Intact.withDrafts (intact : Intact env node) (change : Draft Digest → Draft Digest) (more : List (Draft Digest))
    (same : ∀ draft, (change draft).block = draft.block)
    (low : ∀ draft, (change draft).committed = true → draft.committed = true ∨ draft.block.number ≤ node.ledger.chain.bestBlock.number)
    (stay : ∀ name : BlockID Digest, node.ledger.chain.bestBlock.number < name.number → Listed env node.drafts name →
      Listed env (node.drafts.map change ++ more) name)
    (others : ∀ draft ∈ more,
      DraftKept env node.added node.ledger.chain.bestBlock.number (node.drafts.map change ++ more) draft) :
    Intact env { node with drafts := node.drafts.map change ++ more } := by
  refine ⟨intact.recorded, ?_, ?_, intact.spent⟩
  · intro draft listed
    rcases mem_append.mp listed with changed | new
    · obtain ⟨old, among, rfl⟩ := mem_map.mp changed
      exact (intact.drafts old among).moved stay (same old) (low old)
    · exact others draft new
  · intro flow isOpen
    obtain ⟨parent, found, kept⟩ := intact.flow flow isOpen
    refine ⟨change parent, ?_, ?_⟩
    · rw [List.getElem?_append_left, List.getElem?_map, found]
      · rfl
      · rw [length_map]
        exact (List.getElem?_eq_some_iff.mp found).1
    · rw [same parent]
      exact kept

omit [DecidableEq Digest] in
theorem Listed.append (listed : Listed env drafts name) (more : List (Draft Digest)) : Listed env (drafts ++ more) name := by
  obtain ⟨draft, among, known⟩ := listed
  exact ⟨draft, mem_append_left _ among, known⟩

theorem Listed.addDraft (listed : Listed env drafts name) (draft : Draft Digest) : Listed env (addDraft env drafts draft) name := by
  obtain ⟨old, among, isListed, named⟩ := listed
  by_cases replaced : old.block.id env.hashing = draft.block.id env.hashing
  · exact ⟨{ draft with listed := true }, mem_append_right _ mem_cons_self, rfl, replaced.symm.trans named⟩
  · refine ⟨old, mem_append_left _ (mem_map.mpr ⟨old, among, ?_⟩), isListed, named⟩
    rw [if_neg replaced]

theorem Listed.pruneUpTo (listed : Listed env drafts name) (high : block.number < name.number) :
    Listed env (pruneUpTo env drafts block) name := by
  obtain ⟨draft, among, isListed, named⟩ := listed
  refine ⟨draft, mem_map.mpr ⟨draft, among, ?_⟩, isListed, named⟩
  have number : draft.block.number = name.number := by rw [← named, id_number]
  simp [isListed, show ¬ draft.block.number < block.number by omega, show ¬ draft.block.number = block.number by omega]

theorem Intact.pruneUpTo (intact : Intact env node) (low : block.number ≤ node.ledger.chain.bestBlock.number) :
    Intact env { node with drafts := pruneUpTo env node.drafts block } := by
  have unchanged : node.drafts.map _ ++ [] = Replay.pruneUpTo env node.drafts block := append_nil _
  rw [← unchanged]
  apply intact.withDrafts
  · intro draft
    split_ifs <;> rfl
  · intro draft committed
    split_ifs at committed with _ _ atBlock
    all_goals first
      | exact .inl committed
      | exact .inr (by omega)
  · intro name high listed
    rw [unchanged]
    exact listed.pruneUpTo (by omega)
  · nofun

/-- A new draft replaces the one with its ID. -/
theorem Intact.addDraft (intact : Intact env node) (recoverable : draft.block.Recoverable env.hashing)
    (low : draft.committed = true → draft.block.number ≤ node.ledger.chain.bestBlock.number)
    (parent : node.ledger.chain.bestBlock.number < draft.block.parentID.number →
      node.ledger.chain.bestBlock.number < draft.block.number → Listed env node.drafts draft.block.parentID)
    (ready : node.ledger.chain.bestBlock.number < draft.block.number →
      Ready env node.added node.ledger.chain.bestBlock.number draft.block) :
    Intact env { node with drafts := addDraft env node.drafts draft } := by
  apply intact.withDrafts
  · intro other
    split <;> rfl
  · intro other committed
    left
    split at committed <;> exact committed
  · intro name _ listed
    exact listed.addDraft draft
  · intro other isNew
    rw [mem_singleton.mp isNew]
    exact ⟨recoverable, low, fun _ => ⟨_, mem_append_right _ mem_cons_self, rfl, rfl⟩,
      fun highParent high => (parent highParent high).addDraft draft, ready⟩

/-! ## Events -/

variable (env) in
/-- When a step keeps the chain free of repeated transactions. -/
def Meets (node : NodeState Digest State Receipt) : Event Digest → Prop
  | .adopt tx => ∀ flow ∈ node.flow, flow.slot.blockType = .kBlock → ∀ parent ∈ node.drafts[flow.parent]?,
      id env.toTxEnv tx ∉ node.cached env parent
  | .pack => ∀ flow ∈ node.flow, ∀ parent ∈ node.drafts[flow.parent]?, parent.block.header.totalScore + 1 < 2 ^ 64
  | .commit ref _ => ∀ draft ∈ node.drafts[ref]?, node.ledger.chain.bestBlock.number < draft.block.number →
      (node.ledger.chain.getBlock env.hashing draft.block.parentID).isSome
  | .sync block _ _ => node.ledger.chain.bestBlock.number + 1 < 2 ^ 32 ∧
      ∀ tx ∈ block.txs, isWrapped tx = true → env.isTesla tx.refNumber = true
  | .pruneNext => ∀ round ∈ node.pruner.round, ∀ trunk ∈ node.ledger.chain.getTrunkBlock env.hashing round.1,
      Spent node.ledger.chain.bestBlock.number trunk
  | _ => True

omit [DecidableEq Digest] in
theorem Intact.recoverable_of_known (intact : Intact env node) (known : draft ∈ node.drafts ∨ draft.block ∈ node.ledger.chain.blocks) :
    draft.block.Recoverable env.hashing := by
  rcases known with among | stored
  · exact (intact.drafts draft among).recoverable
  · exact (intact.recorded.wellBuilt _ (intact.recorded.blocks _ stored)).recoverable

omit [DecidableEq Digest] in
/-- The parent of a draft is listed, unless it is stored. -/
theorem Intact.listed_of_known (intact : Intact env node) (known : draft ∈ node.drafts ∨ draft.block ∈ node.ledger.chain.blocks)
    (high : node.ledger.chain.bestBlock.number < draft.block.number) : Listed env node.drafts (draft.block.id env.hashing) := by
  rcases known with among | stored
  · exact (intact.drafts draft among).listed high
  · have low := intact.recorded.number_le (intact.recorded.blocks _ stored)
    omega

theorem Intact.ready_of_passed (free : env.CollisionFree) (intact : Intact env node) {parent : Draft Digest}
    (found : getDraft env node.ledger node.drafts block.parentID = some parent)
    (passed : Passed env node.ledger block parent.block true) (high : node.ledger.chain.bestBlock.number < block.number)
    (absent : ∀ tx ∈ block.txs, id env.toTxEnv tx ∉ node.cached env parent) :
    Ready env node.added node.ledger.chain.bestBlock.number block := by
  obtain ⟨known, named⟩ := getDraft_spec found
  have fresh := passed.fresh free nofun
  refine ⟨passed.toWellBuilt, fresh, fun tx listed => ?_, parent.block, intact.recoverable_of_known known, named, passed.score⟩
  have notFound := passed.notFound tx listed
  rw [← named] at notFound ⊢
  exact intact.clear_of_cached free (fresh tx listed) high known notFound (absent tx listed)

theorem stored_of_processProposedBlock (accepted : Accepts (processProposedBlock env ledger parent block now force) none) :
    ∃ stored ∈ ledger.chain.blocks, stored.id env.hashing = block.id env.hashing := by
  unfold processProposedBlock at accepted
  split at accepted
  next known =>
    obtain ⟨stored, found⟩ := Option.isSome_iff_exists.mp known
    exact ⟨stored, Chains.Chain.mem_of_getBlock found⟩
  split at accepted
  · exact absurd accepted KBlock.not_accepts_throw
  · obtain ⟨_, -, returned⟩ := KBlock.accepts_bind.mp accepted
    cases returned

theorem validateProposal_intact (free : env.CollisionFree) (intact : Intact env node)
    (proposed : validateProposal env node block now force = .ok after) : Intact env after := by
  unfold validateProposal at proposed
  split at proposed
  · cases proposed
    exact intact
  next parent found =>
  obtain ⟨known, named⟩ := getDraft_spec found
  split at proposed
  · cases proposed
    exact intact
  split at proposed
  · cases proposed
    exact intact
  next absent =>
  have absent : ∀ tx ∈ block.txs, id env.toTxEnv tx ∉ node.cached env parent := by simpa using absent
  obtain ⟨result, ran, proposed⟩ := Lib.Exec.bind_eq_ok.mp proposed
  split at proposed
  · cases proposed
    exact intact
  split at proposed
  · cases proposed
    exact intact
  cases proposed
  next receipts _ =>
  cases receipts with
  | none =>
    -- a block of the chain, with whatever transactions the proposal has
    obtain ⟨stored, among, same⟩ := stored_of_processProposedBlock ran
    have known := intact.recorded.blocks stored among
    obtain ⟨recoverable, -⟩ := free.header stored block (intact.recorded.wellBuilt stored known).recoverable same
    have low : block.number ≤ node.ledger.chain.bestBlock.number := by
      rw [← id_number block env.hashing, ← same, id_number]
      exact intact.recorded.number_le known
    apply intact.addDraft recoverable (by rintro ⟨⟩)
    · intro _ high
      exact absurd low (not_le.mpr high)
    · intro high
      exact absurd low (not_le.mpr high)
  | some receipts =>
    have passed := passed_of_processProposedBlock ran
    apply intact.addDraft passed.recoverable (by rintro ⟨⟩)
    · intro highParent _
      change node.ledger.chain.bestBlock.number < block.parentID.number at highParent
      change Listed env node.drafts block.parentID
      rw [← named] at highParent ⊢
      exact intact.listed_of_known known (by rwa [id_number] at highParent)
    · intro high
      exact intact.ready_of_passed free found passed high absent

/-! ## Packing -/

omit [DecidableEq Digest] in
theorem Intact.appendStored (intact : Intact env node) (stored : block ∈ node.ledger.chain.blocks) :
    Intact env { node with drafts := node.drafts ++ [committedDraft block] } := by
  have known := intact.recorded.blocks block stored
  have low := intact.recorded.number_le known
  have changed : Intact env { node with drafts := node.drafts.map (fun draft => draft) ++ [committedDraft block] } := by
    apply intact.withDrafts _ _ (fun _ => rfl) (fun _ committed => .inl committed)
    · intro name _ listed
      rw [map_id']
      exact listed.append _
    · intro draft isNew
      rw [mem_singleton.mp isNew]
      exact ⟨(intact.recorded.wellBuilt block known).recoverable, fun _ => low, fun high => absurd low (not_le.mpr high),
        fun _ high => absurd low (not_le.mpr high), fun high => absurd low (not_le.mpr high)⟩
  rwa [map_id'] at changed

theorem openFlow_intact (intact : Intact env node) (ref : ParentRef Digest) (slot : Slot Digest) : Intact env (openFlow env node ref slot) := by
  unfold openFlow
  split
  next ref =>
    split
    · exact intact
    next parent found =>
      split
      · exact intact
      · refine { intact with flow := fun flow isOpen => ?_ }
        cases isOpen
        exact ⟨parent, found, by simp, by simp⟩
  next blockID =>
    split
    · exact intact
    next stored found =>
      split
      · exact intact
      · obtain ⟨among, -⟩ := Chains.Chain.mem_of_getBlock found
        refine { intact.appendStored among with flow := fun flow isOpen => ?_ }
        cases isOpen
        exact ⟨committedDraft stored, by simp, by simp, by simp⟩

theorem adoptable_ok (passed : adoptable env node flow header tx = .ok true) :
    tx.isExpired header.number = false ∧ (isWrapped tx = true → reverseTx env.toTxEnv tx = .ok ()) ∧
      node.ledger.getTransactionMeta (id env.toTxEnv tx) header.parentID = none := by
  unfold adoptable at passed
  obtain ⟨wrapped, read, passed⟩ := Lib.Exec.bind_eq_ok.mp passed
  have checks := Except.ok.inj passed
  simp only [Bool.and_eq_true, Bool.not_eq_true', Bool.or_eq_true, decide_eq_true_eq] at checks
  obtain ⟨⟨⟨⟨⟨⟨-, -⟩, window⟩, -⟩, reversed⟩, notFound⟩, -⟩ := checks
  refine ⟨window, fun marked => reversed.resolve_left ?_, ?_⟩
  · have known : isWrapped tx = wrapped := by simp [isWrapped, read]
    simp [← known, marked]
  · have absent := (Consensus.findTx_eq_none notFound).2
    simpa [validateEnv] using absent

omit [DecidableEq Digest] in
theorem signed_of_execute {state next receipt} (executed : execute env header state tx = .ok (next, receipt)) : ∃ addr, signer env.toTxEnv tx = .ok addr := by
  unfold execute at executed
  split at executed
  · cases executed
  next addr signed => exact ⟨addr, signed⟩

theorem adopt_intact (free : env.CollisionFree) (intact : Intact env node) (meets : Meets env node (.adopt tx))
    (adopted : adopt env node tx = .ok after) : Intact env after := by
  unfold adopt at adopted
  split at adopted
  · cases adopted
    exact intact
  next flow isOpen =>
  split at adopted
  · cases adopted
    exact intact
  next parent found =>
  split at adopted
  · cases adopted
    exact intact
  next uncached =>
  obtain ⟨passes, checked, adopted⟩ := Lib.Exec.bind_eq_ok.mp adopted
  cases passes with
  | false =>
    cases adopted
    exact intact
  | true =>
  simp only [if_true] at adopted
  split at adopted
  · cases adopted
    exact intact
  next state receipt executed =>
  cases adopted
  obtain ⟨window, reversed, notFound⟩ := adoptable_ok checked
  have fresh : Fresh env (contextHeader env flow.slot parent.block).number tx :=
    ⟨signed_of_execute executed, identity_of_reverseTx free.toCollisionFree reversed, window⟩
  have absent : id env.toTxEnv tx ∉ node.cached env parent := by
    by_cases kblock : flow.slot.blockType = .kBlock
    · exact meets flow isOpen kblock parent found
    · exact fun listed => uncached ⟨kblock, listed⟩
  obtain ⟨parent', found', kept⟩ := intact.flow flow isOpen
  obtain rfl : parent' = parent := Option.some.inj (found'.symm.trans found)
  refine { intact with flow := fun flow' isOpen' => ?_ }
  cases isOpen'
  refine ⟨parent', found, ?_, ?_⟩
  · intro entry listed
    rcases mem_append.mp listed with earlier | here
    · exact kept.fresh entry earlier
    · rw [mem_singleton.mp here]
      exact fresh
  · intro entry listed high
    rcases mem_append.mp listed with earlier | here
    · exact kept.clear entry earlier high
    · rw [mem_singleton.mp here]
      exact intact.clear_of_cached free fresh high (.inl (mem_of_getElem? found)) notFound absent

omit [DecidableEq Digest] in
theorem packedBlock_recoverable (free : env.CollisionFree) (flow : Flow Digest State Receipt) (parent : Block Digest Address Transaction)
    (root : Digest) : (packedBlock env flow parent root).Recoverable env.hashing := by
  unfold Block.Recoverable Header.signer
  split
  · exact ⟨_, rfl⟩
  · exact free.sign _

theorem pack_intact (free : env.CollisionFree) (intact : Intact env node) (meets : Meets env node .pack) : Intact env (pack env node) := by
  unfold pack
  split
  · exact intact
  next flow isOpen =>
  split
  · exact intact
  next parent found =>
  split
  · exact intact
  next root computed =>
  have among := mem_of_getElem? found
  have recoverable := packedBlock_recoverable free flow parent.block root
  obtain ⟨parent', found', kept⟩ := intact.flow flow isOpen
  obtain rfl : parent' = parent := Option.some.inj (found'.symm.trans found)
  have adopted : ∀ tx ∈ (packedBlock env flow parent'.block root).txs, ∃ receipt, (tx, receipt) ∈ flow.adopted := by
    intro tx listed
    unfold packedBlock at listed
    dsimp only at listed
    split at listed
    · cases listed
    · obtain ⟨⟨_, receipt⟩, inside, rfl⟩ := mem_map.mp listed
      exact ⟨receipt, inside⟩
  apply intact.addDraft recoverable (by rintro ⟨⟩)
  · intro highParent _
    apply (intact.drafts parent' among).listed
    rwa [← id_number parent'.block env.hashing]
  · intro high
    refine ⟨⟨recoverable, rfl⟩, fun tx listed => ?_, fun tx listed => ?_, parent'.block, (intact.drafts parent' among).recoverable, rfl, ?_⟩
    · obtain ⟨receipt, inside⟩ := adopted tx listed
      exact kept.fresh _ inside
    · obtain ⟨receipt, inside⟩ := adopted tx listed
      exact kept.clear _ inside high
    · have small := meets flow isOpen parent' found
      change parent'.block.header.totalScore < (parent'.block.header.totalScore + 1) % 2 ^ 64
      omega

/-! ## Adding blocks -/

omit [DecidableEq Digest] in
theorem executedBlock_ok {reverted} (made : executedBlock block reverted = .ok executed) : executed.block = block := by
  unfold executedBlock at made
  split at made
  · cases made
    rfl
  · cases made

theorem commitBlock_intact (free : env.CollisionFree) (intact : Intact env node)
    (ready : node.ledger.chain.bestBlock.number < executed.block.number →
      Ready env node.added node.ledger.chain.bestBlock.number executed.block ∧
        (node.ledger.chain.getBlock env.hashing executed.block.parentID).isSome) :
    Intact env (commitBlock env node executed escortQC) := by
  unfold commitBlock
  by_cases low : executed.block.number ≤ node.ledger.chain.bestBlock.number
  · rw [if_pos low]
    exact intact.pruneUpTo low
  rw [if_neg low]
  obtain ⟨isReady, stored⟩ := ready (Nat.lt_of_not_le low)
  obtain ⟨ledger, ran, recorded, isBest, follows⟩ := intact.recorded.addBlock escortQC free isReady (Nat.lt_of_not_le low) stored
  simp only [ran, isEmpty_nil, if_true]
  have grown := intact.extend recorded isBest follows
  exact grown.pruneUpTo (by simp only [isBest]; exact le_refl _)

theorem onCommit_intact (free : env.CollisionFree) (intact : Intact env node) {ref : Nat}
    (meets : Meets env node (.commit ref escortQC)) (committed : onCommit env node ref escortQC = .ok after) :
    Intact env after := by
  unfold onCommit at committed
  split at committed
  · cases committed
    exact intact
  next draft found =>
  split at committed
  · cases committed
    exact intact
  split at committed
  · cases committed
    exact intact
  obtain ⟨executed, made, committed⟩ := Lib.Exec.bind_eq_ok.mp committed
  cases committed
  apply commitBlock_intact free intact
  rw [executedBlock_ok made]
  intro high
  exact ⟨(intact.drafts draft (mem_of_getElem? found)).ready high, meets draft found high⟩

/-- A block from a peer is compared with the chain only: it is on its head. -/
theorem processBlock_intact (free : env.CollisionFree) (intact : Intact env node) (meets : Meets env node (.sync block escortQC now))
    (processed : processBlock env node block escortQC now = .ok after) : Intact env after := by
  unfold processBlock at processed
  split at processed
  · cases processed
    exact intact
  next onHead =>
  have parentID : block.parentID = node.ledger.chain.bestBlock.id env.hashing := (not_not.mp onHead).symm
  obtain ⟨result, ran, processed⟩ := Lib.Exec.bind_eq_ok.mp processed
  split at processed
  · cases processed
    exact intact
  next receipts =>
  obtain ⟨executed, made, processed⟩ := Lib.Exec.bind_eq_ok.mp processed
  obtain rfl := executedBlock_ok made
  have follows : executed.block.number = node.ledger.chain.bestBlock.number + 1 := by
    have small := meets.1
    change (executed.block.parentID.number + 1) % 2 ^ 32 = _
    rw [parentID, id_number]
    omega
  have high : node.ledger.chain.bestBlock.number < executed.block.number := by omega
  obtain ⟨parent, found, passed⟩ := passed_of_processSyncedBlock ran
  obtain ⟨stored, named⟩ := Chains.Chain.mem_of_getBlock found
  have fresh := passed.fresh free fun _ => meets.2
  have ready : Ready env node.added node.ledger.chain.bestBlock.number executed.block := by
    refine ⟨passed.toWellBuilt, fresh, fun tx listed => ?_, parent, ?_, named, passed.score⟩
    · apply intact.recorded.clear_of_le free (fresh tx listed) high (passed.notFound tx listed) _ (le_refl _)
      rw [parentID, id_number]
    · exact (intact.recorded.wellBuilt parent (intact.recorded.blocks parent stored)).recoverable
  obtain ⟨ledger, ran, recorded, isBest, -⟩ :=
    intact.recorded.addBlock escortQC free ready high (Option.isSome_iff_exists.mpr ⟨parent, found⟩)
  rw [ran] at processed
  cases processed
  exact intact.extend recorded isBest follows

/-! ## Pruning -/

theorem pruneNext_intact (intact : Intact env node) (meets : Meets env node .pruneNext) : Intact env (pruneNext env node) := by
  unfold pruneNext
  split
  · exact intact
  next next last inRound =>
  split
  · exact intact
  split
  · exact { intact with }
  next trunk found =>
  split
  · exact { intact with }
  next block taken =>
  -- the block that is read again has the ID of the trunk block, so it is the trunk block
  have stored := intact.recorded.blocks trunk (Chains.Chain.mem_of_getTrunkBlock found)
  have same : block = trunk := by
    unfold Ledger.pruneBlock at taken
    split at taken
    · cases taken
    next read =>
      split at taken
      · cases taken
      cases taken
      obtain ⟨among, named⟩ := Chains.Chain.mem_of_getBlock read
      apply intact.recorded.linked.eq_of_height (intact.recorded.blocks _ among) stored
      rw [named]
  subst same
  refine { intact with spent := fun other listed => ?_ }
  simp only [append_assoc, mem_append, mem_singleton] at listed
  rcases listed with waiting | rfl | gone
  · exact intact.spent other (mem_append_left _ waiting)
  · exact ⟨stored, meets _ inRound other found⟩
  · exact intact.spent other (mem_append_right _ gone)

theorem bestBlock_deleteBatch (batch : List (Block Digest Address Transaction)) (ledger : Ledger Digest Address Transaction) :
    (batch.foldl (fun ledger block => ledger.deleteTxMetas (id env.toTxEnv) block) ledger).chain = ledger.chain := by
  induction batch generalizing ledger with
  | nil => rfl
  | cons block rest ih => exact ih _

theorem writeBatch_intact (intact : Intact env node) : Intact env (writeBatch env node) := by
  unfold writeBatch
  split
  · exact intact
  have recorded := intact.recorded.deleteBatch fun block waiting => intact.spent block (mem_append_left _ waiting)
  refine ⟨recorded, ?_, ?_, ?_⟩
  · simp only [bestBlock_deleteBatch]
    exact intact.drafts
  · simp only [bestBlock_deleteBatch]
    exact intact.flow
  · simp only [bestBlock_deleteBatch, nil_append]
    exact intact.spent

theorem step_intact (free : env.CollisionFree) (intact : Intact env node) {event : Event Digest} (meets : Meets env node event)
    (taken : step env node event = .ok after) : Intact env after := by
  cases event with
  | propose block now force => exact validateProposal_intact free intact taken
  | openFlow ref slot =>
    cases taken
    exact openFlow_intact intact ref slot
  | adopt tx => exact adopt_intact free intact meets taken
  | pack =>
    cases taken
    exact pack_intact free intact meets
  | commit ref escortQC => exact onCommit_intact free intact meets taken
  | regulate blockID =>
    simp only [step] at taken
    split at taken
    · cases taken
      exact intact
    next block found =>
      cases taken
      have stored := intact.recorded.blocks block (Chains.Chain.mem_of_getBlock found).1
      have low := intact.recorded.number_le stored
      exact intact.addDraft (intact.recorded.wellBuilt block stored).recoverable (fun _ => low)
        (fun _ high => absurd low (not_le.mpr high)) (fun high => absurd low (not_le.mpr high))
  | sync block escortQC now => exact processBlock_intact free intact meets taken
  | beginRound =>
    cases taken
    unfold beginRound
    dsimp only
    split
    · exact intact
    split
    · exact intact
    · exact { intact with }
  | pruneNext =>
    cases taken
    exact pruneNext_intact intact meets
  | writeBatch =>
    cases taken
    exact writeBatch_intact intact
  | dropBlock blockID =>
    simp only [step] at taken
    split at taken
    · cases taken
      exact { intact with recorded := intact.recorded.dropBlock blockID }
    · cases taken
      exact intact
  | dropHash number =>
    simp only [step] at taken
    split at taken
    next gone =>
      cases taken
      obtain ⟨block, listed, same⟩ := any_eq_true.mp gone
      obtain ⟨known, spent⟩ := intact.spent block (mem_append_right _ listed)
      have recorded := intact.recorded.dropHash known spent
      rw [of_decide_eq_true same] at recorded
      exact { intact with recorded := recorded }
    · cases taken
      exact intact
  | restart =>
    cases taken
    exact ⟨intact.recorded, nofun, nofun, fun block listed => intact.spent block (mem_append_right _ listed)⟩

omit [DecidableEq Digest] in
theorem Genesis.intact (genesis : Genesis env) : Intact env genesis.start := by
  have first : genesis.block.header.number = 0 := genesis.number_eq
  have wellBuilt : WellBuilt env genesis.block :=
    ⟨⟨env.hashing.zeroAddress, by simp [Header.signer, first]⟩, by rw [genesis.txs_eq, genesis.txsRoot_eq]⟩
  refine ⟨⟨rfl, .root _, ?_, fun _ listed => listed, ?_, ?_, by simp [Genesis.start]⟩, nofun, nofun, nofun⟩
  · simpa [Genesis.start] using wellBuilt
  · simp [Genesis.start, genesis.txs_eq]
  · simp [Genesis.start, Spent, genesis.txs_eq]

end MeterPov.Replay
