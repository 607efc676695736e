import MeterPov.Blocks.Block

/-! The block store and its head (`chain/chain.go`). Failures of the database are left out. -/

set_option autoImplicit false

namespace MeterPov.Chains

open Blocks List

variable {Digest Address Tx : Type} [DecidableEq Digest]

/-- The stored blocks and the index from numbers to block IDs, both with the latest entry first. -/
structure Chain (Digest Address Tx : Type) where
  blocks : List (Block Digest Address Tx)
  blockHashes : List (Nat × BlockID Digest)
  bestBlock : Block Digest Address Tx
  bestQC : QuorumCert Digest

structure Fork (Digest Address Tx : Type) where
  ancestor : Block Digest Address Tx
  trunk : List (Block Digest Address Tx)
  branch : List (Block Digest Address Tx)

inductive AddBlockError where
  | blockExist
  | parentMissing
  | notFound
  deriving DecidableEq, Repr

namespace Chain

variable (chain : Chain Digest Address Tx) (hashing : Hashing Digest Address)

def getBlock (id : BlockID Digest) : Option (Block Digest Address Tx) :=
  chain.blocks.find? fun block => block.id hashing = id

/-- The index is written for every added block, on the trunk or not. -/
def getTrunkBlock (number : Nat) : Option (Block Digest Address Tx) :=
  match chain.blockHashes.lookup number with
  | none => none
  | some id => chain.getBlock hashing id

def isBlockFinalized (id : BlockID Digest) : Bool := id.number ≤ chain.bestBlock.number

-- A stored block may be stored once more, unless it differs or is finalized.
def alreadyThere (block : Block Digest Address Tx) : Bool :=
  match chain.getBlock hashing (block.id hashing) with
  | none => false
  | some stored =>
    if stored.number = block.number ∧ stored.parentID = block.parentID ∧ stored.header.signature = block.header.signature ∧
        stored.header.receiptsRoot = block.header.receiptsRoot ∧ stored.timestamp = block.timestamp ∧
        chain.isBlockFinalized stored.parentID = true then
      chain.isBlockFinalized (block.id hashing)
    else true

def isTrunk (idLess : BlockID Digest → BlockID Digest → Bool) (block : Block Digest Address Tx) : Bool :=
  let best := chain.bestBlock
  if block.header.totalScore < best.header.totalScore then false
  else if best.header.totalScore < block.header.totalScore then true
  else idLess (block.id hashing) (best.id hashing)

/-- The paths from the latest common ancestor to two blocks. Each round moves one of the two blocks
down by one, so that the sum of their numbers and one more round are enough. -/
def buildFork : Nat → Block Digest Address Tx → Block Digest Address Tx → List (Block Digest Address Tx) →
    List (Block Digest Address Tx) → Option (Fork Digest Address Tx)
  | 0, _, _, _, _ => none
  | rounds + 1, b1, b2, trunk, branch =>
    if b2.number < b1.number then
      match chain.getBlock hashing b1.parentID with
      | none => none
      | some parent => buildFork rounds parent b2 (b1 :: trunk) branch
    else if b1.number < b2.number then
      match chain.getBlock hashing b2.parentID with
      | none => none
      | some parent => buildFork rounds b1 parent trunk (b2 :: branch)
    else if b1.id hashing = b2.id hashing then some ⟨b1, trunk, branch⟩
    else
      match chain.getBlock hashing b1.parentID, chain.getBlock hashing b2.parentID with
      | some parent1, some parent2 => buildFork rounds parent1 parent2 (b1 :: trunk) (b2 :: branch)
      | _, _ => none

def addBlock (idLess : BlockID Digest → BlockID Digest → Bool) (block : Block Digest Address Tx)
    (escortQC : QuorumCert Digest) : Except AddBlockError (Chain Digest Address Tx × Fork Digest Address Tx) :=
  if chain.alreadyThere hashing block then .error .blockExist
  else
    match chain.getBlock hashing block.parentID with
    | none => .error .parentMissing
    | some parent =>
      let blockHashes := (block.number, block.id hashing) :: chain.blockHashes
      if chain.isTrunk hashing idLess block then
        match chain.buildFork hashing (block.number + chain.bestBlock.number + 1) block chain.bestBlock [] [] with
        | none => .error .notFound
        | some fork => .ok (⟨block :: chain.blocks, blockHashes, block, escortQC⟩, fork)
      else
        .ok (⟨block :: chain.blocks, blockHashes, chain.bestBlock, chain.bestQC⟩, ⟨parent, [], [block]⟩)

/-- Whether a block is stored does not depend on the certificate stored with it. -/
theorem addBlock_cases (idLess : BlockID Digest → BlockID Digest → Bool) (block : Block Digest Address Tx) :
    (∃ reason, ∀ qc, chain.addBlock hashing idLess block qc = .error reason) ∨
    ∃ fork, ∀ qc, ∃ head headQC, chain.addBlock hashing idLess block qc =
      .ok (⟨block :: chain.blocks, (block.number, block.id hashing) :: chain.blockHashes, head, headQC⟩, fork) := by
  unfold addBlock
  split
  · exact .inl ⟨_, fun _ => rfl⟩
  · split
    · exact .inl ⟨_, fun _ => rfl⟩
    · split
      · split
        · exact .inl ⟨_, fun _ => rfl⟩
        · exact .inr ⟨_, fun qc => ⟨_, _, rfl⟩⟩
      · exact .inr ⟨_, fun qc => ⟨_, _, rfl⟩⟩

variable {block : Block Digest Address Tx}

variable {chain : Chain Digest Address Tx} {hashing : Hashing Digest Address}

theorem mem_of_getBlock {id} (found : chain.getBlock hashing id = some block) : block ∈ chain.blocks ∧ block.id hashing = id :=
  ⟨mem_of_find?_eq_some found, by simpa using List.find?_some found⟩

theorem mem_of_getTrunkBlock {number} (found : chain.getTrunkBlock hashing number = some block) : block ∈ chain.blocks := by
  unfold getTrunkBlock at found
  split at found
  · contradiction
  · exact (mem_of_getBlock found).1

theorem addBlock_next (idLess : BlockID Digest → BlockID Digest → Bool) (escortQC : QuorumCert Digest)
    (found : chain.getBlock hashing block.parentID = some chain.bestBlock)
    (low : ∀ stored ∈ chain.blocks, stored.number ≤ chain.bestBlock.number)
    (above : chain.bestBlock.number < block.number)
    (score : chain.bestBlock.header.totalScore < block.header.totalScore) :
    chain.addBlock hashing idLess block escortQC =
      .ok (⟨block :: chain.blocks, (block.number, block.id hashing) :: chain.blockHashes, block, escortQC⟩,
        ⟨chain.bestBlock, [block], []⟩) := by
  -- nothing above the best block is stored
  have new : chain.getBlock hashing (block.id hashing) = none := by
    apply Option.eq_none_iff_forall_ne_some.mpr
    intro other known
    obtain ⟨among, same⟩ := mem_of_getBlock known
    have lower := low other among
    rw [← Block.id_number other hashing, same, Block.id_number] at lower
    omega
  have notThere : chain.alreadyThere hashing block = false := by simp [alreadyThere, new]
  have trunk : chain.isTrunk hashing idLess block = true := by
    simp [isTrunk, score, not_lt.mpr (le_of_lt score)]
  have fork : chain.buildFork hashing (block.number + chain.bestBlock.number + 1) block chain.bestBlock [] [] =
      some ⟨chain.bestBlock, [block], []⟩ := by
    obtain ⟨rounds, enough⟩ : ∃ rounds, block.number + chain.bestBlock.number = rounds + 1 :=
      ⟨block.number + chain.bestBlock.number - 1, by omega⟩
    rw [enough]
    simp [buildFork, above, found]
  unfold addBlock
  simp [notThere, found, trunk, fork]

end Chain

/-! Where the transactions of the chain are, and how blocks are pruned (`chain/chain.go`).

What is deleted from the database may be found in a cache for a while, so a pruned block and its number leave the chain by
steps of their own. -/

structure TxMeta (Digest : Type) where
  blockID : BlockID Digest
  index : Nat
  reverted : Bool

/-- A block with a flag for each of its transactions, from the receipts of its execution. -/
structure Executed (Digest Address Tx : Type) where
  block : Block Digest Address Tx
  reverted : List Bool
  length_eq : reverted.length = block.txs.length

structure Ledger (Digest Address Tx : Type) where
  chain : Chain Digest Address Tx
  txMetas : Digest → List (TxMeta Digest)
  /-- The number of the last block from before the flat index. -/
  flattern : Nat

namespace Ledger

/-- The metadata of a transaction on the chain: its block is not above the head, and has its number in the index. -/
def getTransactionMeta (ledger : Ledger Digest Address Tx) (txID : Digest) (headBlockID : BlockID Digest) : Option (TxMeta Digest) :=
  (ledger.txMetas txID).find? fun txMeta =>
    txMeta.blockID.number ≤ headBlockID.number ∧
      ledger.chain.blockHashes.lookup txMeta.blockID.number = some txMeta.blockID

/-- Each entry is appended to what was stored before the block, so of two with one ID the later one stays. -/
def saveTxMetas (before : Digest → List (TxMeta Digest)) (blockID : BlockID Digest) :
    List ((Digest × Bool) × Nat) → (Digest → List (TxMeta Digest)) → Digest → List (TxMeta Digest)
  | [], metas => metas
  | ((txID, reverted), index) :: rest, metas =>
    saveTxMetas before blockID rest (Function.update metas txID (before txID ++ [⟨blockID, index, reverted⟩]))

section

variable (ledger : Ledger Digest Address Tx) (hashing : Hashing Digest Address)
  (idLess : BlockID Digest → BlockID Digest → Bool) (txID : Tx → Digest)

def addBlock (executed : Executed Digest Address Tx) (escortQC : QuorumCert Digest) :
    Except AddBlockError (Ledger Digest Address Tx × Fork Digest Address Tx) :=
  match ledger.chain.addBlock hashing idLess executed.block escortQC with
  | .error reason => .error reason
  | .ok (chain, fork) =>
    let entries := (executed.block.txs.map txID).zip executed.reverted
    let txMetas := saveTxMetas ledger.txMetas (executed.block.id hashing) entries.zipIdx ledger.txMetas
    .ok (⟨chain, txMetas, ledger.flattern⟩, fork)

/-- The block whose entries go into a batch of deletions. -/
def pruneBlock (blockID : BlockID Digest) : Option (Block Digest Address Tx) :=
  match ledger.chain.getBlock hashing blockID with
  | none => none
  | some block => if block.number = ledger.flattern then none else some block

def deleteTxMetas (block : Block Digest Address Tx) : Ledger Digest Address Tx :=
  { ledger with txMetas := fun id => if id ∈ block.txs.map txID then [] else ledger.txMetas id }

def dropBlock (blockID : BlockID Digest) : Ledger Digest Address Tx :=
  { ledger with chain := { ledger.chain with blocks := ledger.chain.blocks.filter fun block => block.id hashing ≠ blockID } }

def dropHash (number : Nat) : Ledger Digest Address Tx :=
  { ledger with chain := { ledger.chain with blockHashes := ledger.chain.blockHashes.filter fun entry => entry.1 ≠ number } }

end

/-! ## What is found -/

variable {before metas : Digest → List (TxMeta Digest)} {entries : List ((Digest × Bool) × Nat)}
  {blockID : BlockID Digest}

theorem saveTxMetas_subset (kept : ∀ txID, before txID ⊆ metas txID) (txID : Digest) :
    before txID ⊆ saveTxMetas before blockID entries metas txID := by
  induction entries generalizing metas with
  | nil => exact kept txID
  | cons entry rest ih =>
    obtain ⟨⟨saved, reverted⟩, index⟩ := entry
    apply ih
    intro other
    by_cases here : other = saved
    · subst here
      simp
    · rw [Function.update_of_ne here]
      exact kept other

theorem exists_mem_saveTxMetas {txID}
    (saved : (∃ txMeta ∈ metas txID, txMeta.blockID = blockID) ∨ txID ∈ entries.map fun entry => entry.1.1) :
    ∃ txMeta ∈ saveTxMetas before blockID entries metas txID, txMeta.blockID = blockID := by
  induction entries generalizing metas with
  | nil => exact saved.resolve_right (by simp)
  | cons entry rest ih =>
    obtain ⟨⟨first, reverted⟩, index⟩ := entry
    apply ih
    by_cases here : txID = first
    · subst here
      exact .inl ⟨⟨blockID, index, reverted⟩, by simp, rfl⟩
    · simpa [here] using saved

omit [DecidableEq Digest] in
theorem lookup_filter_ne {entries : List (Nat × BlockID Digest)} {number dropped} (other : number ≠ dropped) :
    (entries.filter fun entry => entry.1 ≠ dropped).lookup number = entries.lookup number := by
  induction entries with
  | nil => rfl
  | cons entry rest ih =>
    obtain ⟨key, value⟩ := entry
    by_cases here : key = dropped
    · subst here
      have distinct : (number == key) = false := beq_false_of_ne other
      rw [filter_cons_of_neg (by simp), ih, lookup_cons, distinct]
    · rw [filter_cons_of_pos (by simpa using here), lookup_cons, lookup_cons, ih]

end Ledger

end MeterPov.Chains
