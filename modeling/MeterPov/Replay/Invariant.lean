import MeterPov.Lib.HashChain
import MeterPov.Replay.Node

/-! What holds of a node that never executes a transaction twice.

Of each block that was added, the transactions are found by their IDs, or can no longer be included. A draft that is not on
the chain yet was compared with all that is below it. -/

set_option autoImplicit false

namespace MeterPov.Replay

open Lib Blocks Chains KBlock Auction List Block

variable {Digest State Receipt : Type} [DecidableEq Digest] (env : ReplayEnv Digest State Receipt)

/-- The hash functions do not collide, and the signer of what is signed can be recovered. -/
structure ReplayEnv.CollisionFree : Prop extends env.toTxEnv.CollisionFree where
  header : ∀ first second : Block Digest Address Transaction, first.Recoverable env.hashing →
    first.id env.hashing = second.id env.hashing → second.Recoverable env.hashing ∧ first.parentID = second.parentID ∧
      first.header.totalScore = second.header.totalScore ∧ first.header.txsRoot = second.header.txsRoot
  txsRoot : Function.Injective env.txsRoot
  sign : ∀ header : Header Digest Address, ∃ signer, env.hashing.sigToPub
    (env.hashing.signingHash { header with signature := env.sign header }) (env.sign header) = .ok signer

/-! ## Blocks and transactions -/

/-- The contents of a block are those its ID stands for. -/
structure WellBuilt (block : Block Digest Address Transaction) : Prop where
  recoverable : block.Recoverable env.hashing
  txsRoot : block.header.txsRoot = env.txsRoot block.txs

def Apart (tx : Transaction) (block : Block Digest Address Transaction) : Prop :=
  ∀ other ∈ block.txs, identity env.toTxEnv tx ≠ identity env.toTxEnv other

/-- A transaction that passed the checks of a block of the given number. -/
structure Fresh (number : Nat) (tx : Transaction) : Prop where
  signed : ∃ addr, signer env.toTxEnv tx = .ok addr
  identity_eq : identity env.toTxEnv tx = id env.toTxEnv tx
  window : tx.isExpired number = false

/-- No transaction of the block can be in a block above the given number. -/
def Spent (number : Nat) (block : Block Digest Address Transaction) : Prop :=
  ∀ tx ∈ block.txs, isWrapped tx = false ∧ tx.isExpired (number + 1) = true

/-- The transactions of the block are found by their IDs. -/
structure Kept (ledger : Ledger Digest Address Transaction) (block : Block Digest Address Transaction) : Prop where
  hash : ledger.chain.blockHashes.lookup block.number = some (block.id env.hashing)
  metas : ∀ tx ∈ block.txs, ∃ txMeta ∈ ledger.txMetas (id env.toTxEnv tx), txMeta.blockID = block.id env.hashing

/-- The chain of all blocks added so far. -/
structure Recorded (ledger : Ledger Digest Address Transaction) (added : List (Block Digest Address Transaction)) : Prop where
  head : added.head? = some ledger.chain.bestBlock
  linked : Linked (fun block : Block Digest Address Transaction => block.id env.hashing) Block.parentID BlockID.number added
  wellBuilt : ∀ block ∈ added, WellBuilt env block
  blocks : ∀ block ∈ ledger.chain.blocks, block ∈ added
  fresh : ∀ block ∈ added, ∀ tx ∈ block.txs, Fresh env block.number tx
  kept : ∀ block ∈ added, Kept env ledger block ∨ Spent ledger.chain.bestBlock.number block
  apart : added.Pairwise fun later earlier => ∀ tx ∈ later.txs, Apart env tx earlier

/-- What lies below the given ID has no such transaction, or is not on the chain and never will be. -/
abbrev Clear (added : List (Block Digest Address Transaction)) (best : Nat) (tx : Transaction) (blockID : BlockID Digest) : Prop :=
  Cleared (fun block : Block Digest Address Transaction => block.id env.hashing) Block.parentID BlockID.number (WellBuilt env)
    (Apart env tx) added best blockID

/-- A draft that may become the next block. -/
structure Ready (added : List (Block Digest Address Transaction)) (best : Nat) (block : Block Digest Address Transaction) : Prop
    extends WellBuilt env block where
  fresh : ∀ tx ∈ block.txs, Fresh env block.number tx
  clear : ∀ tx ∈ block.txs, Clear env added best tx block.parentID
  score : ∃ parent : Block Digest Address Transaction, parent.Recoverable env.hashing ∧ parent.id env.hashing = block.parentID ∧
    parent.header.totalScore < block.header.totalScore

def Listed (drafts : List (Draft Digest)) (name : BlockID Digest) : Prop :=
  ∃ draft ∈ drafts, draft.listed = true ∧ draft.block.id env.hashing = name

/-- A draft above the best block is not committed, and found by its ID like the draft below it. -/
structure DraftKept (added : List (Block Digest Address Transaction)) (best : Nat) (drafts : List (Draft Digest)) (draft : Draft Digest) :
    Prop where
  recoverable : draft.block.Recoverable env.hashing
  low : draft.committed = true → draft.block.number ≤ best
  listed : best < draft.block.number → Listed env drafts (draft.block.id env.hashing)
  parent : best < draft.block.parentID.number → best < draft.block.number → Listed env drafts draft.block.parentID
  ready : best < draft.block.number → Ready env added best draft.block

/-- What is packed was compared like a draft. -/
structure FlowKept (added : List (Block Digest Address Transaction)) (best : Nat) (flow : Flow Digest State Receipt)
    (parent : Block Digest Address Transaction) : Prop where
  fresh : ∀ entry ∈ flow.adopted, Fresh env (contextHeader env flow.slot parent).number entry.1
  clear : ∀ entry ∈ flow.adopted, best < (contextHeader env flow.slot parent).number →
    Clear env added best entry.1 (parent.id env.hashing)

structure Intact (node : NodeState Digest State Receipt) : Prop where
  recorded : Recorded env node.ledger node.added
  drafts : ∀ draft ∈ node.drafts, DraftKept env node.added node.ledger.chain.bestBlock.number node.drafts draft
  flow : ∀ flow ∈ node.flow, ∃ parent, node.drafts[flow.parent]? = some parent ∧
    FlowKept env node.added node.ledger.chain.bestBlock.number flow parent.block
  spent : ∀ block ∈ node.pruner.batch ++ node.pruned, block ∈ node.added ∧ Spent node.ledger.chain.bestBlock.number block

variable {env} {ledger : Ledger Digest Address Transaction} {added : List (Block Digest Address Transaction)}
  {drafts : List (Draft Digest)} {tx : Transaction} {block parent : Block Digest Address Transaction} {number : Nat}

omit [DecidableEq Digest] in
theorem isExpired_mono {low high} (above : low ≤ high) (expired : tx.isExpired low = true) : tx.isExpired high = true := by
  unfold Transaction.isExpired at *
  simp only [decide_eq_true_eq] at *
  omega

omit [DecidableEq Digest] in
theorem Spent.mono {low high} (spent : Spent low block) (above : low ≤ high) : Spent high block := by
  intro tx listed
  obtain ⟨native, expired⟩ := spent tx listed
  exact ⟨native, isExpired_mono (by omega) expired⟩

omit [DecidableEq Digest] in
theorem WellBuilt.agree (free : env.CollisionFree) {first second} (left : WellBuilt env first)
    (right : WellBuilt env second) (same : first.id env.hashing = second.id env.hashing) :
    first.txs = second.txs ∧ first.parentID = second.parentID ∧ first.header.totalScore = second.header.totalScore := by
  obtain ⟨-, parents, scores, roots⟩ := free.header first second left.recoverable same
  refine ⟨free.txsRoot ?_, parents, scores⟩
  rw [← left.txsRoot, ← right.txsRoot, roots]

namespace Recorded

omit [DecidableEq Digest] in
theorem number_le (recorded : Recorded env ledger added) (listed : block ∈ added) : block.number ≤ ledger.chain.bestBlock.number := by
  have head := recorded.head
  have linked := recorded.linked
  cases added with
  | nil => cases listed
  | cons first rest =>
    obtain rfl := Option.some.inj head
    rcases mem_cons.mp listed with rfl | deeper
    · exact le_refl _
    · have lower := linked.height_lt deeper
      simp only [id_number] at lower
      omega

theorem apart_of_notFound (free : env.CollisionFree) (recorded : Recorded env ledger added) (fresh : Fresh env number tx)
    (above : ledger.chain.bestBlock.number < number) {headID}
    (notFound : ledger.getTransactionMeta (id env.toTxEnv tx) headID = none) (listed : block ∈ added)
    (below : block.number ≤ headID.number) : Apart env tx block := by
  intro other among same
  have otherFresh := recorded.fresh block listed other among
  rw [fresh.identity_eq, otherFresh.identity_eq] at same
  rcases recorded.kept block listed with kept | spent
  · obtain ⟨txMeta, stored, named⟩ := kept.metas other among
    have found : (ledger.getTransactionMeta (id env.toTxEnv tx) headID).isSome := by
      rw [same]
      have hash := kept.hash
      unfold Ledger.getTransactionMeta
      rw [List.find?_isSome]
      exact ⟨txMeta, stored, by simp [named, id_number, below, hash]⟩
    rw [notFound] at found
    cases found
  · obtain ⟨native, expired⟩ := spent other among
    obtain ⟨addr, signed⟩ := otherFresh.signed
    obtain ⟨ref, expiration⟩ := window_of_id free.toCollisionFree native signed same
    have window := fresh.window
    simp only [Transaction.isExpired, decide_eq_false_iff_not, decide_eq_true_eq] at window expired
    omega

theorem clear_of_le (free : env.CollisionFree) (recorded : Recorded env ledger added) (fresh : Fresh env number tx)
    (above : ledger.chain.bestBlock.number < number) {headID name}
    (notFound : ledger.getTransactionMeta (id env.toTxEnv tx) headID = none) (low : name.number ≤ ledger.chain.bestBlock.number)
    (below : name.number ≤ headID.number) : Clear env added ledger.chain.bestBlock.number tx name := by
  by_cases known : ∃ block ∈ added, block.id env.hashing = name
  · obtain ⟨block, listed, rfl⟩ := known
    obtain ⟨front, rest, split⟩ := append_of_mem listed
    apply Cleared.onChain split
    intro lower among
    have tail : Linked (fun block : Block Digest Address Transaction => block.id env.hashing) Block.parentID BlockID.number
        (block :: rest) := (split ▸ recorded.linked).of_append
    have lowerListed : lower ∈ added := by
      rw [split]
      exact mem_append_right front among
    apply recorded.apart_of_notFound free fresh above notFound lowerListed
    rw [id_number] at below
    rcases mem_cons.mp among with rfl | deeper
    · exact below
    · have height := tail.height_lt deeper
      simp only [id_number] at height
      omega
  · push Not at known
    exact Cleared.missing known low

omit [DecidableEq Digest] in
theorem apart_of_clear (free : env.CollisionFree) (recorded : Recorded env ledger added)
    (clear : Clear env added ledger.chain.bestBlock.number tx (ledger.chain.bestBlock.id env.hashing)) (listed : block ∈ added) :
    Apart env tx block := by
  obtain ⟨rest, rfl⟩ := List.head?_eq_some_iff.mp recorded.head
  refine Cleared.apart_of_split recorded.linked ?_ clear (nil_append _).symm rfl block listed
  intro first second wellBuilt among same
  obtain ⟨txs, parents, -⟩ := wellBuilt.agree free (recorded.wellBuilt second among) same
  refine ⟨parents, fun apart => ?_⟩
  unfold Apart at apart ⊢
  rw [← txs]
  exact apart

/-! ## The next block -/

omit [DecidableEq Digest] in

theorem eq_best (recorded : Recorded env ledger added) (listed : block ∈ added)
    (same : block.number = ledger.chain.bestBlock.number) : block = ledger.chain.bestBlock := by
  apply recorded.linked.eq_of_height listed (mem_of_head? recorded.head)
  rw [id_number, id_number]
  exact same

theorem parentID_of_stored (recorded : Recorded env ledger added) (above : ledger.chain.bestBlock.number < block.number)
    (stored : (ledger.chain.getBlock env.hashing block.parentID).isSome) :
    block.parentID = ledger.chain.bestBlock.id env.hashing := by
  obtain ⟨parent, found⟩ := Option.isSome_iff_exists.mp stored
  obtain ⟨listed, named⟩ := Chains.Chain.mem_of_getBlock found
  have known := recorded.blocks parent listed
  have low := recorded.number_le known
  have number : block.number = (block.parentID.number + 1) % 2 ^ 32 := rfl
  rw [← named, id_number] at number
  rw [← recorded.eq_best known (by omega), named]

variable {executed : Executed Digest Address Transaction} (escortQC : Blocks.QuorumCert Digest)

theorem chain_addBlock (recorded : Recorded env ledger added) (free : env.CollisionFree)
    (ready : Ready env added ledger.chain.bestBlock.number block) (above : ledger.chain.bestBlock.number < block.number)
    (stored : (ledger.chain.getBlock env.hashing block.parentID).isSome) :
    ledger.chain.addBlock env.hashing env.idLess block escortQC =
      .ok (⟨block :: ledger.chain.blocks, (block.number, block.id env.hashing) :: ledger.chain.blockHashes, block, escortQC⟩,
        ⟨ledger.chain.bestBlock, [block], []⟩) := by
  have parentID := recorded.parentID_of_stored above stored
  obtain ⟨parent, found⟩ := Option.isSome_iff_exists.mp stored
  obtain ⟨listed, named⟩ := Chains.Chain.mem_of_getBlock found
  have isBest : parent = ledger.chain.bestBlock := by
    apply recorded.eq_best (recorded.blocks parent listed)
    rw [← id_number parent env.hashing, named, parentID, id_number]
  rw [isBest] at found
  apply Chains.Chain.addBlock_next env.idLess escortQC found _ above
  · obtain ⟨parent, recoverable, sameID, lower⟩ := ready.score
    obtain ⟨-, -, scores, -⟩ := free.header parent ledger.chain.bestBlock recoverable (sameID.trans parentID)
    omega
  · exact fun stored among => recorded.number_le (recorded.blocks stored among)

omit [DecidableEq Digest] in
theorem number_of_next (above : number < block.number) (low : block.parentID.number = number) : block.number = number + 1 := by
  have value : block.number = (block.parentID.number + 1) % 2 ^ 32 := rfl
  omega

theorem addBlock (recorded : Recorded env ledger added) (free : env.CollisionFree)
    (ready : Ready env added ledger.chain.bestBlock.number executed.block)
    (above : ledger.chain.bestBlock.number < executed.block.number)
    (stored : (ledger.chain.getBlock env.hashing executed.block.parentID).isSome) :
    ∃ after, ledger.addBlock env.hashing env.idLess (id env.toTxEnv) executed escortQC =
        .ok (after, ⟨ledger.chain.bestBlock, [executed.block], []⟩) ∧
      Recorded env after (executed.block :: added) ∧ after.chain.bestBlock = executed.block ∧
      executed.block.number = ledger.chain.bestBlock.number + 1 := by
  have parentID := recorded.parentID_of_stored above stored
  have next : executed.block.number = ledger.chain.bestBlock.number + 1 := by
    apply number_of_next above
    rw [parentID, id_number]
  refine ⟨_, by rw [Ledger.addBlock, recorded.chain_addBlock escortQC free ready above stored], ?_, rfl, next⟩
  constructor
  case head => rfl
  case linked =>
    obtain ⟨rest, rfl⟩ := List.head?_eq_some_iff.mp recorded.head
    apply Linked.child recorded.linked parentID
    rw [id_number, id_number]
    exact next
  case wellBuilt => exact forall_mem_cons.mpr ⟨ready.toWellBuilt, recorded.wellBuilt⟩
  case blocks =>
    intro other listed
    rcases mem_cons.mp listed with rfl | earlier
    · exact mem_cons_self
    · exact mem_cons_of_mem _ (recorded.blocks other earlier)
  case fresh => exact forall_mem_cons.mpr ⟨ready.fresh, recorded.fresh⟩
  case kept =>
    intro other listed
    rcases mem_cons.mp listed with rfl | listed
    · refine .inl ⟨by simp, fun tx among => ?_⟩
      apply Ledger.exists_mem_saveTxMetas
      right
      have names : (((executed.block.txs.map (id env.toTxEnv)).zip executed.reverted).zipIdx.map fun entry => entry.1.1) =
          executed.block.txs.map (id env.toTxEnv) := by
        rw [← Function.comp_def, ← map_map, zipIdx_map_fst, map_fst_zip (by simp [executed.length_eq])]
      rw [names]
      exact mem_map_of_mem among
    · have low := recorded.number_le listed
      rcases recorded.kept other listed with kept | spent
      · refine .inl ⟨?_, fun tx among => ?_⟩
        · have distinct : (other.number == executed.block.number) = false := by
            simp only [beq_eq_false_iff_ne]
            omega
          rw [lookup_cons, distinct]
          exact kept.hash
        · obtain ⟨txMeta, found, named⟩ := kept.metas tx among
          exact ⟨txMeta, Ledger.saveTxMetas_subset (fun _ => List.Subset.refl _) _ found, named⟩
      · exact .inr (spent.mono (by simp only; omega))
  case apart =>
    apply List.Pairwise.cons
    · intro earlier listed tx among
      have clear := ready.clear tx among
      rw [parentID] at clear
      exact recorded.apart_of_clear free clear listed
    · exact recorded.apart

/-! ## Pruning -/

omit [DecidableEq Digest] in
theorem apart_symm : Std.Symm fun later earlier : Block Digest Address Transaction => ∀ tx ∈ later.txs, Apart env tx earlier := by
  constructor
  intro first second apart tx listed other among same
  exact apart other among tx listed same.symm

/-- The transactions of a spent block are in no other block, so the entries of the others stay. -/
theorem deleteTxMetas (recorded : Recorded env ledger added) (listed : block ∈ added)
    (spent : Spent ledger.chain.bestBlock.number block) : Recorded env (ledger.deleteTxMetas (id env.toTxEnv) block) added := by
  refine { recorded with kept := fun other among => ?_ }
  by_cases same : other = block
  · rw [same]
    exact .inr spent
  rcases recorded.kept other among with kept | otherSpent
  · refine .inl ⟨kept.hash, fun tx inside => ?_⟩
    have unaffected : id env.toTxEnv tx ∉ block.txs.map (id env.toTxEnv) := by
      intro deleted
      obtain ⟨gone, inBlock, sameID⟩ := mem_map.mp deleted
      have symm : Std.Symm fun later earlier : Block Digest Address Transaction => ∀ tx ∈ later.txs, Apart env tx earlier := apart_symm
      apply recorded.apart.forall among listed same tx inside gone inBlock
      rw [(recorded.fresh other among tx inside).identity_eq, (recorded.fresh block listed gone inBlock).identity_eq, sameID]
    simp only [Ledger.deleteTxMetas, if_neg unaffected]
    exact kept.metas tx inside
  · exact .inr otherSpent

theorem deleteBatch (recorded : Recorded env ledger added) {batch : List (Block Digest Address Transaction)}
    (spent : ∀ block ∈ batch, block ∈ added ∧ Spent ledger.chain.bestBlock.number block) :
    Recorded env (batch.foldl (fun ledger block => ledger.deleteTxMetas (id env.toTxEnv) block) ledger) added := by
  induction batch generalizing ledger with
  | nil => exact recorded
  | cons block rest ih =>
    obtain ⟨⟨listed, here⟩, others⟩ := forall_mem_cons.mp spent
    exact ih (recorded.deleteTxMetas listed here) others

theorem dropBlock (recorded : Recorded env ledger added) (name : BlockID Digest) :
    Recorded env (ledger.dropBlock env.hashing name) added :=
  { recorded with
    blocks := fun block listed => recorded.blocks block (mem_filter.mp listed).1
    kept := fun block listed => (recorded.kept block listed).imp_left fun kept => ⟨kept.hash, kept.metas⟩ }

omit [DecidableEq Digest] in
theorem dropHash (recorded : Recorded env ledger added) (listed : block ∈ added)
    (spent : Spent ledger.chain.bestBlock.number block) : Recorded env (ledger.dropHash block.number) added := by
  refine { recorded with kept := fun other among => ?_ }
  by_cases same : other.number = block.number
  · have equal : other = block := by
      apply recorded.linked.eq_of_height among listed
      rw [id_number, id_number]
      exact same
    rw [equal]
    exact .inr spent
  refine (recorded.kept other among).imp_left fun kept => ⟨?_, kept.metas⟩
  rw [← kept.hash]
  exact Ledger.lookup_filter_ne same

end Recorded

end MeterPov.Replay
