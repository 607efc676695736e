import MeterPov.Chains.Chain
import MeterPov.Lib.Action

/-! `AddBlock` over a database that may fail (`chain/chain.go`, `chain/ancestor_trie.go`).

Most writes go to a batch. The index from numbers to block IDs is written to its cache and straight to the database, and
the head is assigned in memory, before the batch is written. The LRU caches of blocks and receipts, which hold what is
stored, and the limit of the cache of the index are left out. -/

set_option autoImplicit false

namespace MeterPov.Chains

open Blocks Lib

structure ChainStore (Digest Address Tx Receipt : Type) where
  blocks : BlockID Digest → Option (Block Digest Address Tx)
  receipts : BlockID Digest → Option (List Receipt)
  txMetas : Digest → Option (List (TxMeta Digest))
  blockHashes : Nat → Option (BlockID Digest)
  savedBestBlockID : Option (BlockID Digest)
  savedBestQC : Option (QuorumCert Digest)
  savedBestPowNonce : Option Nat
  -- from here on in memory
  hashCache : Nat → Option (BlockID Digest)
  bestBlock : Block Digest Address Tx
  bestQC : Option (QuorumCert Digest)
  bestPowNonce : Nat

/-- The operations on the database that fail in a call. -/
structure Faults (Digest : Type) where
  loadBlock : BlockID Digest → Bool := fun _ => false
  saveBlockRaw : Bool := false
  saveBlockReceipts : Bool := false
  saveBlockHash : Bool := false
  /-- The old index, which is tried when the new one cannot be written. -/
  indexTrie : Bool := false
  loadTxMeta : Nat → Bool := fun _ => false
  saveTxMeta : Nat → Bool := fun _ => false
  saveBestBlockID : Bool := false
  saveBestQC : Bool := false
  saveBestPowNonce : Bool := false
  batchWrite : Bool := false

inductive StoreError where
  | blockExist
  | parentMissing
  | notFound
  | escortQCNil
  | storage
  deriving DecidableEq, Repr

/-- An entry of a batch. -/
inductive BatchPut (Digest Address Tx Receipt : Type) where
  | block (id : BlockID Digest) (block : Block Digest Address Tx)
  | receipts (id : BlockID Digest) (receipts : List Receipt)
  | txMeta (txID : Digest) (metas : List (TxMeta Digest))
  | bestBlockID (id : BlockID Digest)
  | bestQC (qc : QuorumCert Digest)
  | bestPowNonce (nonce : Nat)

structure StoreEnv (Digest Address Tx Receipt : Type) where
  hashing : Hashing Digest Address
  idLess : BlockID Digest → BlockID Digest → Bool
  txID : Tx → Digest
  reverted : Receipt → Bool

namespace ChainStore

variable {Digest Address Tx Receipt : Type} [DecidableEq Digest]

def put (store : ChainStore Digest Address Tx Receipt) : BatchPut Digest Address Tx Receipt → ChainStore Digest Address Tx Receipt
  | .block id block => { store with blocks := Function.update store.blocks id (some block) }
  | .receipts id receipts => { store with receipts := Function.update store.receipts id (some receipts) }
  | .txMeta txID metas => { store with txMetas := Function.update store.txMetas txID (some metas) }
  | .bestBlockID id => { store with savedBestBlockID := some id }
  | .bestQC qc => { store with savedBestQC := some qc }
  | .bestPowNonce nonce => { store with savedBestPowNonce := some nonce }

variable (env : StoreEnv Digest Address Tx Receipt) (faults : Faults Digest) (store : ChainStore Digest Address Tx Receipt)

def getBlockHeader (id : BlockID Digest) : Except StoreError (Block Digest Address Tx) :=
  if faults.loadBlock id then .error .storage
  else
    match store.blocks id with
    | none => .error .notFound
    | some block => .ok block

def isBlockFinalized (id : BlockID Digest) : Bool := id.number ≤ store.bestBlock.number

def storableAgain (stored block : Block Digest Address Tx) : Bool :=
  stored.number = block.number ∧ stored.parentID = block.parentID ∧ stored.header.signature = block.header.signature ∧
    stored.header.receiptsRoot = block.header.receiptsRoot ∧ stored.timestamp = block.timestamp ∧
    store.isBlockFinalized stored.parentID = true ∧ store.isBlockFinalized (block.id env.hashing) = false

variable (block : Block Digest Address Tx)

/-- What comes before the index is written. It returns the parent. -/
def admission : Except StoreError (Block Digest Address Tx) := do
  match store.getBlockHeader faults (block.id env.hashing) with
  | .error .notFound => pure ()
  | .error err => throw err
  | .ok stored => if store.storableAgain env stored block = false then throw .blockExist
  match store.getBlockHeader faults block.parentID with
  | .error .notFound => throw .parentMissing
  | .error err => throw err
  | .ok parent =>
    if faults.saveBlockRaw then throw .storage
    if faults.saveBlockReceipts then throw .storage
    return parent

/-- `put` of the cache of the index: the cache first, then the database. -/
def putHash (number : Nat) (id : BlockID Digest) : ChainStore Digest Address Tx Receipt :=
  { store with
    hashCache := Function.update store.hashCache number (some id)
    blockHashes := if faults.saveBlockHash then store.blockHashes else Function.update store.blockHashes number (some id) }

/-- Each entry is appended to what is stored; what the batch holds is not read. A missing receipt panics. -/
def txMetaPuts (blockID : BlockID Digest) (receipts : List Receipt) :
    List (Tx × Nat) → Exec (Except StoreError (List (BatchPut Digest Address Tx Receipt)))
  | [] => .ok (.ok [])
  | (tx, index) :: rest =>
    if faults.loadTxMeta index then .ok (.error .storage)
    else
      match receipts[index]? with
      | none => .error .outOfRange
      | some receipt =>
        if faults.saveTxMeta index then .ok (.error .storage)
        else
          match txMetaPuts blockID receipts rest with
          | .error fault => .error fault
          | .ok (.error err) => .ok (.error err)
          | .ok (.ok puts) =>
            let entry := ⟨blockID, index, env.reverted receipt⟩
            .ok (.ok (.txMeta (env.txID tx) ((store.txMetas (env.txID tx)).getD [] ++ [entry]) :: puts))

def isTrunk : Bool :=
  let best := store.bestBlock
  if block.header.totalScore < best.header.totalScore then false
  else if best.header.totalScore < block.header.totalScore then true
  else env.idLess (block.id env.hashing) (best.id env.hashing)

/-- The loop of `buildFork`; the sum of the numbers and one more round are enough. -/
def buildFork : Nat → Block Digest Address Tx → Block Digest Address Tx → List (Block Digest Address Tx) →
    List (Block Digest Address Tx) → Except StoreError (Fork Digest Address Tx)
  | 0, _, _, _, _ => .error .notFound
  | rounds + 1, b1, b2, trunk, branch =>
    if b2.number < b1.number then do
      buildFork rounds (← store.getBlockHeader faults b1.parentID) b2 (b1 :: trunk) branch
    else if b1.number < b2.number then do
      buildFork rounds b1 (← store.getBlockHeader faults b2.parentID) trunk (b2 :: branch)
    else if b1.id env.hashing = b2.id env.hashing then .ok ⟨b1, trunk, branch⟩
    else do
      let parent1 ← store.getBlockHeader faults b1.parentID
      let parent2 ← store.getBlockHeader faults b2.parentID
      buildFork rounds parent1 parent2 (b1 :: trunk) (b2 :: branch)

/-- The fork of a block that becomes the best one, and of one that does not. -/
def forkOf (parent block : Block Digest Address Tx) : Except StoreError (Fork Digest Address Tx) :=
  if store.isTrunk env block then do
    let fork ← store.buildFork env faults (block.number + store.bestBlock.number + 1) block store.bestBlock [] []
    if faults.saveBestBlockID then throw .storage
    return fork
  else .ok ⟨parent, [], [block]⟩

/-- What may fail between the index and the head, none of which changes anything. -/
def collect (parent block : Block Digest Address Tx) (receipts : List Receipt) :
    Exec (Except StoreError (List (BatchPut Digest Address Tx Receipt) × Fork Digest Address Tx)) :=
  if faults.saveBlockHash && faults.indexTrie then .ok (.error .storage)
  else
    match store.txMetaPuts env faults (block.id env.hashing) receipts block.txs.zipIdx with
    | .error fault => .error fault
    | .ok (.error err) => .ok (.error err)
    | .ok (.ok puts) =>
      match store.forkOf env faults parent block with
      | .error err => .ok (.error err)
      | .ok fork => .ok (.ok (.block (block.id env.hashing) block :: .receipts (block.id env.hashing) receipts :: puts, fork))

/-- What the batch gets of a new head. An entry that cannot be made is left out. -/
def headPuts (escortQC : QuorumCert Digest) : List (BatchPut Digest Address Tx Receipt) :=
  [.bestBlockID (block.id env.hashing)] ++ (if faults.saveBestQC then [] else [.bestQC escortQC]) ++
    (if block.isKBlock && !faults.saveBestPowNonce then [.bestPowNonce block.kBlockNonce] else [])

def writeBatch (batch : List (BatchPut Digest Address Tx Receipt)) (fork : Fork Digest Address Tx) :
    Action (ChainStore Digest Address Tx Receipt) (Except StoreError (Fork Digest Address Tx)) := fun store =>
  if faults.batchWrite then .ok (.error .storage) store else .ok (.ok fork) (batch.foldl put store)

def addBlock (escortQC : Option (QuorumCert Digest)) (receipts : List Receipt) :
    Action (ChainStore Digest Address Tx Receipt) (Except StoreError (Fork Digest Address Tx)) := fun store =>
  match store.admission env faults block with
  | .error err => .ok (.error err) store
  | .ok parent =>
    let indexed := store.putHash faults block.number (block.id env.hashing)
    match store.collect env faults parent block receipts with
    | .error fault => .error fault indexed
    | .ok (.error err) => .ok (.error err) indexed
    | .ok (.ok (puts, fork)) =>
      if store.isTrunk env block then
        match escortQC with
        | none => .ok (.error .escortQCNil) { indexed with bestBlock := block }
        | some qc =>
          writeBatch faults (puts ++ headPuts env faults block qc) fork
            { indexed with
              bestBlock := block
              bestQC := some qc
              bestPowNonce := if block.isKBlock then block.kBlockNonce else indexed.bestPowNonce }
      else writeBatch faults puts fork indexed

/-! ## What a failed call leaves behind -/

section

variable (block : Block Digest Address Tx) (escortQC : Option (QuorumCert Digest)) (receipts : List Receipt)

/-- The index has the block where the call writes it. -/
def IndexHeld : Prop :=
  store.hashCache block.number = some (block.id env.hashing) ∧
    (faults.saveBlockHash = false → store.blockHashes block.number = some (block.id env.hashing))

/-- The head in memory is what the call assigns to it. -/
def HeadHeld : Prop :=
  store.bestBlock = block ∧
    ∀ qc, escortQC = some qc → store.bestQC = some qc ∧ (block.isKBlock = true → store.bestPowNonce = block.kBlockNonce)

/-- The call is refused before the index is written, or nothing can fail after it, or what is written before it fails is
there already. -/
def FailsClean : Prop :=
  match store.admission env faults block with
  | .error _ => True
  | .ok parent =>
    match store.collect env faults parent block receipts with
    | .error _ => True
    | .ok (.error _) => store.IndexHeld env faults block
    | .ok (.ok _) =>
      (faults.batchWrite = false ∧ (store.isTrunk env block = true → escortQC ≠ none)) ∨
        store.IndexHeld env faults block ∧ (store.isTrunk env block = true → store.HeadHeld block escortQC)

variable {env faults store block escortQC receipts}

omit [DecidableEq Digest] in
/-- What is written before the batch leaves the store as it was exactly when all of it was there. -/
theorem assigned_eq_iff (head : Block Digest Address Tx) (qc : Option (QuorumCert Digest)) (nonce : Nat) :
    { store.putHash faults block.number (block.id env.hashing) with bestBlock := head, bestQC := qc, bestPowNonce := nonce } = store ↔
      store.IndexHeld env faults block ∧ store.bestBlock = head ∧ store.bestQC = qc ∧ store.bestPowNonce = nonce := by
  have index : (if faults.saveBlockHash then store.blockHashes
      else Function.update store.blockHashes block.number (some (block.id env.hashing))) = store.blockHashes ↔
      (faults.saveBlockHash = false → store.blockHashes block.number = some (block.id env.hashing)) := by
    cases faults.saveBlockHash with
    | true => simp
    | false => simp [eq_comm]
  unfold putHash IndexHeld
  obtain ⟨blocks, storedReceipts, txMetas, blockHashes, savedBestBlockID, savedBestQC, savedBestPowNonce, hashCache, bestBlock, bestQC,
    bestPowNonce⟩ := store
  simp only [ChainStore.mk.injEq, true_and] at index ⊢
  rw [index, Function.update_eq_self_iff]
  constructor
  · rintro ⟨saved, cached, rfl, rfl, rfl⟩
    exact ⟨⟨cached.symm, saved⟩, rfl, rfl, rfl⟩
  · rintro ⟨⟨cached, saved⟩, rfl, rfl, rfl⟩
    exact ⟨saved, cached.symm, rfl, rfl, rfl⟩

omit [DecidableEq Digest] in
theorem putHash_eq_iff : store.putHash faults block.number (block.id env.hashing) = store ↔ store.IndexHeld env faults block := by
  have all := @assigned_eq_iff _ _ _ _ env faults store block store.bestBlock store.bestQC store.bestPowNonce
  exact all.trans ⟨fun held => held.1, fun held => ⟨held, rfl, rfl, rfl⟩⟩

omit [DecidableEq Digest] in
theorem forall_failed_iff {reason left} :
    (∀ err after, (.ok (.error reason) left : EStateM.Result Fault _ (Except StoreError (Fork Digest Address Tx))) =
      .ok (.error err) after → after = store) ↔ left = store := by
  constructor
  · intro all
    exact all reason left rfl
  · intro same err after failed
    cases failed
    exact same

/-- A call that fails leaves the store unchanged exactly when it fails clean. -/
theorem addBlock_unchanged_iff :
    (∀ err after, addBlock env faults block escortQC receipts store = .ok (.error err) after → after = store) ↔
      store.FailsClean env faults block escortQC receipts := by
  unfold addBlock FailsClean
  cases admitted : store.admission env faults block with
  | error err => simp
  | ok parent =>
    dsimp only
    cases collected : store.collect env faults parent block receipts with
    | error fault => simp
    | ok outcome =>
      cases outcome with
      | error err => exact forall_failed_iff.trans putHash_eq_iff
      | ok result =>
        unfold writeBatch HeadHeld
        cases trunk : store.isTrunk env block with
        | false =>
          cases written : faults.batchWrite with
          | false => simp
          | true =>
            refine (forall_failed_iff.trans putHash_eq_iff).trans ?_
            simp
        | true =>
          cases escortQC with
          | none =>
            refine (forall_failed_iff.trans (assigned_eq_iff block store.bestQC store.bestPowNonce)).trans ?_
            simp
          | some qc =>
            cases written : faults.batchWrite with
            | false => simp
            | true =>
              refine (forall_failed_iff.trans (assigned_eq_iff block (some qc) _)).trans ?_
              cases block.isKBlock with
              | false => simp [putHash]
              | true => simp

section

def sampleStoreEnv : StoreEnv (List Nat) Nat Unit Bool where
  hashing := listHashing
  idLess _ _ := false
  txID _ := []
  reverted flag := flag

/-- A K-block without transactions, signed by the member with the given number. -/
def kBlockOn (parentID : BlockID (List Nat)) (totalScore : Nat) (signer : UInt8) : Block (List Nat) Nat Unit where
  header := ⟨parentID, 10, 0, 0, .kBlock, 0, 0, totalScore, [], [], [], [], [signer]⟩
  txs := []
  qc := ⟨0, 0, 0, [], [], []⟩
  committeeEpoch := 0
  kBlockNonce := 77
  magic := 0

def storedBlock : Block (List Nat) Nat Unit := kBlockOn ⟨4, []⟩ 5 1

def addedBlock : Block (List Nat) Nat Unit := kBlockOn (storedBlock.id listHashing) 6 2

def sampleStore : ChainStore (List Nat) Nat Unit Bool where
  blocks := Function.update (fun _ => none) (storedBlock.id listHashing) (some storedBlock)
  receipts _ := none
  txMetas _ := none
  blockHashes := Function.update (fun _ => none) 5 (some (storedBlock.id listHashing))
  savedBestBlockID := some (storedBlock.id listHashing)
  savedBestQC := none
  savedBestPowNonce := none
  hashCache := Function.update (fun _ => none) 5 (some (storedBlock.id listHashing))
  bestBlock := storedBlock
  bestQC := none
  bestPowNonce := 0

-- a call without a certificate, and one whose batch is not written
theorem failed_calls_change_store :
    (∃ after, addBlock sampleStoreEnv {} addedBlock none [] sampleStore = .ok (.error .escortQCNil) after ∧
      sampleStore.bestBlock = storedBlock ∧ after.bestBlock = addedBlock ∧
      sampleStore.blockHashes 6 = none ∧ after.blockHashes 6 = some (addedBlock.id listHashing)) ∧
    ∃ after, addBlock sampleStoreEnv { batchWrite := true } addedBlock (some ⟨5, 0, 0, [], [], []⟩) [] sampleStore =
        .ok (.error .storage) after ∧
      after.bestBlock = addedBlock ∧ after.bestQC = some ⟨5, 0, 0, [], [], []⟩ ∧ after.bestPowNonce = 77 ∧
      after.blocks (addedBlock.id listHashing) = none := by
  constructor
  · exact ⟨_, rfl, rfl, rfl, rfl, rfl⟩
  · exact ⟨_, rfl, rfl, rfl, rfl, rfl⟩

end

end

end ChainStore
end MeterPov.Chains
