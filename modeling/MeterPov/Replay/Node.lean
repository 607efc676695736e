import MeterPov.KBlock.Comparison
import MeterPov.Chains.Chain
import MeterPov.Lib.Trace

/-! The ID of a transaction (`tx/transaction.go`).

A transaction that wraps an Ethereum one has the Ethereum hash as its ID, if it refers to a block after the Tesla fork. Any
other ID is the hash of what is signed and of the signer, and covers the block reference and the expiration. -/

set_option autoImplicit false

namespace MeterPov.Replay

open Lib KBlock Accounts Auction

structure EthTx (Digest : Type) where
  toAddr : Option Address
  value : Nat
  data : ClauseData
  gas : Nat
  nonce : Nat
  -- the values of the signature, without leading zeros
  r : Bytes
  s : Bytes
  v : Bytes
  raw : Bytes
  hash : Digest

/-- Decoding and hashing; the signer of a wrapper is read from it, that of another transaction is recovered. -/
structure TxEnv (Digest : Type) where
  chainTag : Nat
  decodeEthTx : Bytes → Except String (EthTx Digest)
  chainIdValidate : EthTx Digest → Except String Unit
  sender : EthTx Digest → Except String Address
  isOriginBlacklisted : Address → Bool
  addressBytes : Address → Bytes
  recoverSigner : Transaction → Except String Address
  isTesla : Nat → Bool
  /-- The hash of a transaction without its signature, and of the signer. -/
  idHash : Transaction → Address → Digest
  zeroDigest : Digest

variable {Digest : Type} (env : TxEnv Digest)

section

variable (tx : Transaction)

def signer : Except String Address := if tx.signature = [] then .ok 0 else env.recoverSigner tx

def unsigned : Transaction := { tx with signature := [] }

def meterID : Digest :=
  match signer env tx with
  | .error _ => env.zeroDigest
  | .ok signer => env.idHash (unsigned tx) signer

/-- A transaction whose mark cannot be read is never validated: reading it panics. -/
def isWrapped : Bool :=
  match isEthTx tx with
  | .ok wrapped => wrapped
  | .error _ => false

def getEthTx : Except String (EthTx Digest) :=
  if isWrapped tx then env.decodeEthTx (tx.reserved.getD 2 []) else .error "not a tx from ethereum"

def id : Digest :=
  if isWrapped tx && env.isTesla tx.refNumber then
    match getEthTx env tx with
    | .error _ => env.zeroDigest
    | .ok ethTx => ethTx.hash
  else meterID env tx

end

def pad32 (bytes : Bytes) : Bytes := List.replicate (32 - bytes.length) 0 ++ bytes

def wrap (ethTx : EthTx Digest) (sender : Address) (chainTag blockRef : Nat) : Transaction where
  chainTag := chainTag
  blockRef := blockRef
  expiration := 320
  clauses := [⟨if ethTx.toAddr = some 0 then none else ethTx.toAddr, ethTx.value, 0, ethTx.data⟩]
  gasPriceCoef := 0
  gas := ethTx.gas
  dependsOn := none
  nonce := ethTx.nonce
  reserved := [reservedMark, env.addressBytes sender, ethTx.raw]
  signature := pad32 ethTx.r ++ pad32 ethTx.s ++ ethTx.v

/-! ## What an ID stands for -/

/-- The Ethereum hash of a wrapped transaction, whatever block it refers to. -/
def identity (tx : Transaction) : Digest :=
  match getEthTx env tx with
  | .error _ => id env tx
  | .ok ethTx => ethTx.hash

variable {ethTx : EthTx Digest} {tx : Transaction}

theorem identity_of_native (native : isWrapped tx = false) : identity env tx = id env tx := by
  unfold identity getEthTx
  simp [native]

theorem identity_of_tesla (tesla : isWrapped tx = true → env.isTesla tx.refNumber = true) : identity env tx = id env tx := by
  cases wrapped : isWrapped tx with
  | false => exact identity_of_native env wrapped
  | true =>
    unfold identity
    cases decoded : getEthTx env tx with
    | error reason => rfl
    | ok ethTx => simp [id, wrapped, tesla wrapped, decoded]

/-- No two inputs of the hash functions collide, and no hash is zero. -/
structure TxEnv.CollisionFree : Prop where
  idHash : ∀ first second signer signer', env.idHash first signer = env.idHash second signer' → first = second
  idHash_ne_hash : ∀ tx signer raw ethTx, env.decodeEthTx raw = .ok ethTx → env.idHash tx signer ≠ ethTx.hash
  idHash_ne_zero : ∀ tx signer, env.idHash tx signer ≠ env.zeroDigest
  hash_ne_zero : ∀ raw ethTx, env.decodeEthTx raw = .ok ethTx → ethTx.hash ≠ env.zeroDigest

variable {env} {tx other : Transaction}

theorem decode_of_getEthTx (decoded : getEthTx env tx = .ok ethTx) : ∃ raw, env.decodeEthTx raw = .ok ethTx := by
  unfold getEthTx at decoded
  split at decoded
  · exact ⟨_, decoded⟩
  · cases decoded

theorem meterID_ne_hash (free : env.CollisionFree) (decoded : getEthTx env other = .ok ethTx) : meterID env tx ≠ ethTx.hash := by
  obtain ⟨raw, decoded⟩ := decode_of_getEthTx decoded
  unfold meterID
  split
  · exact (free.hash_ne_zero raw ethTx decoded).symm
  · exact free.idHash_ne_hash _ _ raw ethTx decoded

/-- What has the ID of a signed transaction that wraps nothing has its reference and its expiration. -/
theorem window_of_id (free : env.CollisionFree) (native : isWrapped other = false) {addr}
    (signed : signer env other = .ok addr) (same : id env tx = id env other) :
    tx.refNumber = other.refNumber ∧ tx.expiration = other.expiration := by
  have otherID : id env other = env.idHash (unsigned other) addr := by simp [id, meterID, native, signed]
  rw [otherID] at same
  unfold id at same
  split at same
  · split at same
    · exact absurd same.symm (free.idHash_ne_zero _ _)
    next ethTx decoded =>
      obtain ⟨raw, decoded⟩ := decode_of_getEthTx decoded
      exact absurd same.symm (free.idHash_ne_hash _ _ raw ethTx decoded)
  · unfold meterID at same
    split at same
    · exact absurd same.symm (free.idHash_ne_zero _ _)
    · have bodies : unsigned tx = unsigned other := free.idHash _ _ _ _ same
      have refs : (unsigned tx).refNumber = (unsigned other).refNumber := by rw [bodies]
      have expirations : (unsigned tx).expiration = (unsigned other).expiration := by rw [bodies]
      exact ⟨refs, expirations⟩

/-! ## The check of a wrapper -/

variable [DecidableEq Digest]

variable (env) in
def newTransactionFromEthTx (ethTx : EthTx Digest) (chainTag blockRef : Nat) : Except String Transaction := do
  let sender ← env.sender ethTx
  if env.isOriginBlacklisted sender then throw "blacklisted address, not allowed"
  let tx := wrap env ethTx sender chainTag blockRef
  if id env tx ≠ ethTx.hash then throw "tx.id not matching ethTx.Hash"
  return tx

variable (env) in
/-- The check of a wrapper, given that it is one. -/
def reverseTx (tx : Transaction) : Except String Unit := do
  let ethTx ← getEthTx env tx
  env.chainIdValidate ethTx
  let reverse ← newTransactionFromEthTx env ethTx tx.chainTag tx.blockRef
  if meterID env tx ≠ meterID env reverse then throw "reverseTx err"

theorem newTransactionFromEthTx_ok {chainTag blockRef built} (returned : newTransactionFromEthTx env ethTx chainTag blockRef = .ok built) :
    ∃ sender, env.sender ethTx = .ok sender ∧ built = wrap env ethTx sender chainTag blockRef ∧ id env built = ethTx.hash := by
  simp only [newTransactionFromEthTx, check_bind_eq_ok, guard_eq_ok] at returned
  obtain ⟨sender, sent, -, same, ⟨⟩⟩ := returned
  exact ⟨sender, sent, rfl, not_not.mp same⟩

/-- A wrapper that passes its check has the ID of the one built again from its contents. -/
theorem reverseTx_ok (passed : reverseTx env tx = .ok ()) : ∃ ethTx sender, getEthTx env tx = .ok ethTx ∧ env.sender ethTx = .ok sender ∧
      id env (wrap env ethTx sender tx.chainTag tx.blockRef) = ethTx.hash ∧
      meterID env tx = meterID env (wrap env ethTx sender tx.chainTag tx.blockRef) := by
  simp only [reverseTx, check_bind_eq_ok, guard_eq_unit] at passed
  obtain ⟨ethTx, decoded, _, -, _, built, same⟩ := passed
  obtain ⟨sender, sent, rfl, sameHash⟩ := newTransactionFromEthTx_ok built
  exact ⟨ethTx, sender, decoded, sent, sameHash, not_not.mp same⟩

/-- A wrapper that passes its check refers to a block after the fork: otherwise the transaction built again from its contents
would have another ID than the Ethereum hash. -/
theorem identity_of_reverseTx (free : env.CollisionFree) (passed : isWrapped tx = true → reverseTx env tx = .ok ()) :
    identity env tx = id env tx := by
  apply identity_of_tesla
  intro wrapped
  by_contra early
  obtain ⟨ethTx, sender, decoded, -, sameHash, -⟩ := reverseTx_ok (passed wrapped)
  have earlyToo : env.isTesla (wrap env ethTx sender tx.chainTag tx.blockRef).refNumber = false := by
    simpa [Transaction.refNumber, wrap] using early
  have meter : id env (wrap env ethTx sender tx.chainTag tx.blockRef) =
      meterID env (wrap env ethTx sender tx.chainTag tx.blockRef) := by simp [id, earlyToo]
  exact meterID_ne_hash free decoded (meter.symm.trans sameHash)

/-! A node that packs and validates blocks, adds them to its chain and prunes it.

Sources: `consensus/reactor_validate.go`, `consensus/pacemaker_assist.go`, `consensus/pacemaker_propose.go`,
`consensus/pacemaker_commit.go`, `packer/flow.go`, `chain/proposal_map.go` and the pruner of `cmd/meter/main.go`.

The database and the state of the best block can be read; what transactions do is a parameter. -/

open Lib Blocks Chains Consensus KBlock Auction

structure ReplayEnv (Digest State Receipt : Type) extends TxEnv Digest where
  hashing : Hashing Digest Address
  idLess : BlockID Digest → BlockID Digest → Bool
  /-- The ID of a transaction that another one depends on. -/
  dependency : Bytes32 → Digest
  txsRoot : List Transaction → Digest
  newState : Digest → Except String State
  executeTransaction : Header Digest Address → State → Transaction → Except String (State × Receipt)
  receiptGasUsed : Receipt → Nat
  receiptReverted : Receipt → Bool
  receiptsRoot : List Receipt → Digest
  stateRoot : State → Except String Digest
  sign : Header Digest Address → Blocks.Bytes
  preserveBlocks : Nat

/-! ## State -/

/-- A draft that was executed has a flag for each of its receipts; one that is listed is found by its ID. -/
structure Draft (Digest : Type) where
  block : Block Digest Address Transaction
  committed : Bool
  listed : Bool
  receipts : Option (List Bool)

structure Slot (Digest : Type) where
  blockType : BlockType
  timestamp : Nat
  gasLimit : Nat
  beneficiary : Address
  lastKBlockHeight : Nat
  qc : QuorumCert Digest
  committeeEpoch : Nat
  kBlockNonce : Nat

/-- A block that is being packed on a draft. -/
structure Flow (Digest State Receipt : Type) where
  parent : Nat
  slot : Slot Digest
  state : State
  processed : List (Digest × Bool)
  gasUsed : Nat
  adopted : List (Transaction × Receipt)

structure Pruner (Digest : Type) where
  head : Nat
  snapshot : Nat
  /-- The next number and the end of the round under way. -/
  round : Option (Nat × Nat)
  batch : List (Block Digest Address Transaction)

/-- Drafts are named by their position. The last two fields are not read by the program, except through caches. -/
structure NodeState (Digest State Receipt : Type) where
  ledger : Ledger Digest Address Transaction
  drafts : List (Draft Digest)
  flow : Option (Flow Digest State Receipt)
  pruner : Pruner Digest
  /-- Deleted from the database, but perhaps still cached. -/
  pruned : List (Block Digest Address Transaction)
  /-- Every block that was ever added, the latest first. -/
  added : List (Block Digest Address Transaction)

variable {Digest State Receipt : Type} [DecidableEq Digest] (env : ReplayEnv Digest State Receipt)

/-- A transaction is resolved before it is executed, so its signer is recovered. -/
def execute (header : Header Digest Address) (state : State) (tx : Transaction) : Except String (State × Receipt) :=
  match signer env.toTxEnv tx with
  | .error reason => .error reason
  | .ok _ => env.executeTransaction header state tx

/-! ## Validation -/

def validateEnv (ledger : Ledger Digest Address Transaction) : ValidateEnv Digest Address Transaction State Receipt where
  hashing := env.hashing
  chainTag := env.chainTag
  txID := id env.toTxEnv
  txSigner := signer env.toTxEnv
  txChainTag := Transaction.chainTag
  txBlockRef := Transaction.refNumber
  txExpiration := Transaction.expiration
  txDependsOn tx := tx.dependsOn.map env.dependency
  txsRoot := env.txsRoot
  newState := env.newState
  executeTransaction := execute env
  receiptGasUsed := env.receiptGasUsed
  receiptReverted := env.receiptReverted
  receiptsRoot := env.receiptsRoot
  stateRoot := env.stateRoot
  transactionMeta txID head := .ok ((ledger.getTransactionMeta txID head).map Chains.TxMeta.reverted)

def bodyEnv : BodyEnv Digest where
  chainTag := env.chainTag
  txsRoot := env.txsRoot
  recoverSigner := env.recoverSigner
  reverseTx := reverseTx env.toTxEnv

/-- What a proposal is validated against: the height of the last K-block, the K-block transactions built locally, and whether
the K-block passes. -/
structure Force where
  lastKBlockHeight : Nat
  local? : Option (List Transaction)
  kblockVerified : Bool

def returned {α : Type} (result : Except ValidateError α) : Check α := ExceptT.mk (pure result)

section

variable (ledger : Ledger Digest Address Transaction)

def validateBody (block : Block Digest Address Transaction) : Option Force → Check Unit
  | none => returned (Consensus.validateBlockBody (validateEnv env ledger) ledger.chain.bestBlock.header.stateRoot block)
  | some force => do
    KBlock.validateBlockBody (bodyEnv env) force.local? block
    if block.isKBlock && !force.kblockVerified then throw (.other "NPowBlockPerEpoch err")

def validate (state : State) (block parent : Block Digest Address Transaction)
    (now : Nat) (force : Option Force) : Check (List Receipt) := do
  let epoch ← (block.getBlockEpoch : Exec Nat)
  let lastKBlockHeight := (force.map Force.lastKBlockHeight).getD 0
  returned (Consensus.validateBlockHeader block.header parent.header now force.isSome epoch lastKBlockHeight)
  returned (Consensus.validateProposer (validateEnv env ledger) block.header)
  validateBody env ledger block force
  returned (Consensus.verifyBlock (validateEnv env ledger) block state)

def processSyncedBlock (block : Block Digest Address Transaction) (now : Nat) : Check (List Receipt) :=
  if (ledger.chain.getBlock env.hashing (block.id env.hashing)).isSome ∧ block.number ≤ ledger.chain.bestBlock.number then
    throw .knownBlock
  else
    match ledger.chain.getBlock env.hashing block.parentID with
    | none => throw .parentMissing
    | some parent =>
      match env.newState parent.header.stateRoot with
      | .error reason => throw (.other reason)
      | .ok state => validate env ledger state block parent now none

/-- Nothing is returned for a block that is stored (`errKnownBlock`). -/
def processProposedBlock (parent block : Block Digest Address Transaction) (now : Nat) (force : Force) : Check (Option (List Receipt)) :=
  if (ledger.chain.getBlock env.hashing (block.id env.hashing)).isSome then return none
  else
    match env.newState parent.header.stateRoot with
    | .error reason => throw (.other reason)
    | .ok state => do
      let receipts ← validate env ledger state block parent now (some force)
      return some receipts

end

/-! ## Drafts -/

def committedDraft (block : Block Digest Address Transaction) : Draft Digest := ⟨block, true, false, none⟩

def findDraft (drafts : List (Draft Digest)) (blockID : BlockID Digest) : Option (Draft Digest) :=
  drafts.find? fun draft => draft.listed ∧ draft.block.id env.hashing = blockID

/-- A draft that is not listed is read from the database, as a committed one. -/
def getDraft (ledger : Ledger Digest Address Transaction) (drafts : List (Draft Digest)) (blockID : BlockID Digest) :
    Option (Draft Digest) :=
  match findDraft env drafts blockID with
  | some draft => some draft
  | none => (ledger.chain.getBlock env.hashing blockID).map committedDraft

/-- The IDs of the transactions of a draft and of those below it that are not committed; the walk visits no draft twice. -/
def txsInCache (ledger : Ledger Digest Address Transaction) (drafts : List (Draft Digest)) : Nat → Option (Draft Digest) → List Digest
  | 0, _ => []
  | _ + 1, none => []
  | hops + 1, some draft =>
    if draft.committed then []
    else draft.block.txs.map (id env.toTxEnv) ++ txsInCache ledger drafts hops (getDraft env ledger drafts draft.block.parentID)

def addDraft (drafts : List (Draft Digest)) (draft : Draft Digest) : List (Draft Digest) :=
  drafts.map (fun other =>
    if other.block.id env.hashing = draft.block.id env.hashing then { other with listed := false } else other) ++
    [{ draft with listed := true }]

/-- Of the drafts at the number of the given one, only those with its ID stay, as committed ones. -/
def pruneUpTo (drafts : List (Draft Digest)) (lastCommitted : Block Digest Address Transaction) : List (Draft Digest) :=
  drafts.map fun draft =>
    if !draft.listed then draft
    else if draft.block.number < lastCommitted.number then { draft with listed := false }
    else if draft.block.number = lastCommitted.number then
      if draft.block.id env.hashing = lastCommitted.id env.hashing then { draft with committed := true }
      else { draft with listed := false }
    else draft

variable (node : NodeState Digest State Receipt)

def NodeState.cached (draft : Draft Digest) : List Digest :=
  txsInCache env node.ledger node.drafts (node.drafts.length + 1) (some draft)

/-- A proposal on a draft or on a block of the database. A known block becomes a draft too, but without receipts. -/
def validateProposal (block : Block Digest Address Transaction) (now : Nat) (force : Force) : Exec (NodeState Digest State Receipt) :=
  match getDraft env node.ledger node.drafts block.parentID with
  | none => .ok node
  | some parent =>
    if block.isSBlock ∧ ¬ parent.block.isKBlock ∧ ¬ parent.block.isSBlock then .ok node
    else if block.txs.any fun tx => id env.toTxEnv tx ∈ node.cached env parent then .ok node
    else do
      match ← (processProposedBlock env node.ledger parent.block block now force).run with
      | .error _ => .ok node
      | .ok receipts =>
        if (findDraft env node.drafts (block.id env.hashing)).isSome then .ok node
        else .ok { node with
          drafts := addDraft env node.drafts ⟨block, false, true, receipts.map (List.map env.receiptReverted)⟩ }

/-! ## Packing -/

/-- The header of a block that is packed, as far as it is known before its transactions are executed. -/
def contextHeader (slot : Slot Digest) (parent : Block Digest Address Transaction) : Header Digest Address where
  parentID := parent.id env.hashing
  timestamp := slot.timestamp
  gasLimit := slot.gasLimit
  lastKBlockHeight := slot.lastKBlockHeight
  blockType := slot.blockType
  beneficiary := slot.beneficiary
  gasUsed := 0
  totalScore := (parent.header.totalScore + 1) % 2 ^ 64
  txsRoot := env.zeroDigest
  stateRoot := env.zeroDigest
  receiptsRoot := env.zeroDigest
  evidenceDataRoot := env.zeroDigest
  signature := []

/-- A block is packed on a draft, or on a block that is read from the database. -/
inductive ParentRef (Digest : Type) where
  | draft (ref : Nat)
  | stored (blockID : BlockID Digest)

def openFlow (ref : ParentRef Digest) (slot : Slot Digest) : NodeState Digest State Receipt :=
  match ref with
  | .draft ref =>
    match node.drafts[ref]? with
    | none => node
    | some parent =>
      match env.newState parent.block.header.stateRoot with
      | .error _ => node
      | .ok state => { node with flow := some ⟨ref, slot, state, [], 0, []⟩ }
  | .stored blockID =>
    match node.ledger.chain.getBlock env.hashing blockID with
    | none => node
    | some block =>
      match env.newState block.header.stateRoot with
      | .error _ => node
      | .ok state =>
        { node with
          drafts := node.drafts ++ [committedDraft block]
          flow := some ⟨node.drafts.length, slot, state, [], 0, []⟩ }

/-- The transaction a pending one depends on is on the chain and was not reverted. -/
def dependencyHolds (flow : Flow Digest State Receipt) (parentID : BlockID Digest) (tx : Transaction) : Bool :=
  match tx.dependsOn with
  | none => true
  | some dep =>
    match Consensus.findTx (validateEnv env node.ledger) parentID flow.processed (env.dependency dep) with
    | .ok (some false) => true
    | _ => false

/-- Whether a transaction can be adopted before it is executed. -/
def adoptable (flow : Flow Digest State Receipt) (header : Header Digest Address) (tx : Transaction) : Exec Bool := do
  let wrapped ← isEthTx tx
  .ok (decide (tx.chainTag = env.chainTag) && decide (tx.refNumber ≤ header.number) && !tx.isExpired header.number &&
    decide ((flow.gasUsed + tx.gas) % 2 ^ 64 ≤ header.gasLimit) &&
    (!wrapped || decide (reverseTx env.toTxEnv tx = .ok ())) &&
    decide (Consensus.findTx (validateEnv env node.ledger) header.parentID flow.processed (id env.toTxEnv tx) = .ok none) &&
    dependencyHolds env node flow header.parentID tx)

/-- Of a K-block, the transactions are adopted without a look at the drafts below. -/
def adopt (tx : Transaction) : Exec (NodeState Digest State Receipt) :=
  match node.flow with
  | none => .ok node
  | some flow =>
    match node.drafts[flow.parent]? with
    | none => .ok node
    | some parent =>
      if flow.slot.blockType ≠ .kBlock ∧ id env.toTxEnv tx ∈ node.cached env parent then .ok node
      else do
        let header := contextHeader env flow.slot parent.block
        if ← adoptable env node flow header tx then
          match execute env header flow.state tx with
          | .error _ => .ok node
          | .ok (state, receipt) => .ok { node with flow := some { flow with
                state := state
                processed := (id env.toTxEnv tx, env.receiptReverted receipt) :: flow.processed
                gasUsed := (flow.gasUsed + env.receiptGasUsed receipt) % 2 ^ 64
                adopted := flow.adopted ++ [(tx, receipt)] } }
        else .ok node

def packedBlock (flow : Flow Digest State Receipt) (parent : Block Digest Address Transaction) (root : Digest) :
    Block Digest Address Transaction :=
  let txs := if flow.slot.blockType = .sBlock then [] else flow.adopted.map Prod.fst
  let header := { contextHeader env flow.slot parent with
    gasUsed := flow.gasUsed
    txsRoot := env.txsRoot txs
    stateRoot := root
    receiptsRoot := env.receiptsRoot (flow.adopted.map Prod.snd) }
  { header := { header with signature := env.sign header }
    txs := txs
    qc := flow.slot.qc
    committeeEpoch := flow.slot.committeeEpoch
    kBlockNonce := flow.slot.kBlockNonce
    magic := blockMagicVersion1 }

/-- The flow stays open: transactions may be added to it until the block is broadcast. -/
def pack : NodeState Digest State Receipt :=
  match node.flow with
  | none => node
  | some flow =>
    match node.drafts[flow.parent]? with
    | none => node
    | some parent =>
      match env.stateRoot flow.state with
      | .error _ => node
      | .ok root =>
        let reverted := flow.adopted.map fun entry => env.receiptReverted entry.2
        { node with drafts := addDraft env node.drafts ⟨packedBlock env flow parent.block root, false, true, some reverted⟩ }

/-! The steps of a node: proposals, commits, synced blocks and the pruner. -/

open Lib Blocks Chains KBlock

/-- The receipts are indexed by transactions. -/
def executedBlock (block : Block Digest Address Transaction) (reverted : List Bool) : Exec (Executed Digest Address Transaction) :=
  if same : reverted.length = block.txs.length then .ok ⟨block, reverted, same⟩ else .error .outOfRange

/-- After a restart there are no drafts, and what the pruner has not written is lost. -/
def restart (node : NodeState Digest State Receipt) : NodeState Digest State Receipt :=
  { node with
    drafts := []
    flow := none
    pruner := { node.pruner with round := none, batch := [] } }

/-! ## Blocks that are added -/

/-- A fork makes the node panic once the block is written. -/
def commitBlock (executed : Executed Digest Address Transaction) (escortQC : QuorumCert Digest) : NodeState Digest State Receipt :=
  let pruneDrafts (node : NodeState Digest State Receipt) := { node with drafts := pruneUpTo env node.drafts executed.block }
  if executed.block.number ≤ node.ledger.chain.bestBlock.number then pruneDrafts node
  else
    match node.ledger.addBlock env.hashing env.idLess (id env.toTxEnv) executed escortQC with
    | .error _ => pruneDrafts node
    | .ok (ledger, fork) =>
      let after := { node with ledger := ledger, added := executed.block :: node.added }
      if fork.branch.isEmpty then pruneDrafts after else restart after

/-- Drafts without receipts and stop-committee blocks are passed over. -/
def onCommit (ref : Nat) (escortQC : QuorumCert Digest) : Exec (NodeState Digest State Receipt) :=
  match node.drafts[ref]? with
  | none => .ok node
  | some draft =>
    match draft.receipts with
    | none => .ok node
    | some reverted =>
      if draft.block.isSBlock then .ok node
      else do
        let executed ← executedBlock draft.block reverted
        .ok (commitBlock env node executed escortQC)

/-- A block from a peer whose certificate is old or was accepted. -/
def processBlock (block : Block Digest Address Transaction) (escortQC : QuorumCert Digest) (now : Nat) :
    Exec (NodeState Digest State Receipt) :=
  if node.ledger.chain.bestBlock.id env.hashing ≠ block.parentID then .ok node
  else do
    match ← (processSyncedBlock env node.ledger block now).run with
    | .error _ => .ok node
    | .ok receipts =>
      let executed ← executedBlock block (receipts.map env.receiptReverted)
      match node.ledger.addBlock env.hashing env.idLess (id env.toTxEnv) executed escortQC with
      | .error _ => .ok node
      | .ok (ledger, _) => .ok { node with ledger := ledger, added := block :: node.added }

/-! ## The pruner -/

/-- Eight hours of blocks. -/
def minPruned : Nat := 16272

/-- Blocks with one state root are skipped. -/
def skipSameRoot (ledger : Ledger Digest Address Transaction) : Nat → Nat → Nat
  | 0, head => head
  | left + 1, head =>
    match ledger.chain.getTrunkBlock env.hashing head, ledger.chain.getTrunkBlock env.hashing (head + 1) with
    | some cur, some nxt => if cur.header.stateRoot = nxt.header.stateRoot then skipSameRoot ledger left (head + 1) else nxt.number
    | _, _ => head

def beginRound : NodeState Digest State Receipt :=
  let best := node.ledger.chain.bestBlock.number
  let target := best - env.preserveBlocks
  if node.pruner.round.isSome ∨ best < env.preserveBlocks ∨ target ≤ node.pruner.snapshot then node
  else
    let head := skipSameRoot env node.ledger (min best target - node.pruner.head) node.pruner.head
    if target < head ∨ target - head < minPruned then node
    else { node with pruner := { node.pruner with snapshot := target, round := some (head + 1, target) } }

/-- The entries of the next block are put into the batch. -/
def pruneNext : NodeState Digest State Receipt :=
  match node.pruner.round with
  | none => node
  | some (next, last) =>
    if last ≤ next then node
    else
      let after := { node with pruner := { node.pruner with round := some (next + 1, last) } }
      match node.ledger.chain.getTrunkBlock env.hashing next with
      | none => after
      | some trunk =>
        match node.ledger.pruneBlock env.hashing (trunk.id env.hashing) with
        | none => after
        | some block => { after with pruner := { after.pruner with batch := node.pruner.batch ++ [block] } }

def writeBatch : NodeState Digest State Receipt :=
  match node.pruner.round with
  | none => node
  | some (next, last) =>
    { node with
      ledger := node.pruner.batch.foldl (fun ledger block => ledger.deleteTxMetas (id env.toTxEnv) block) node.ledger
      pruned := node.pruner.batch ++ node.pruned
      pruner :=
        { node.pruner with
          head := if node.pruner.batch.isEmpty then node.pruner.head else next - 1
          batch := []
          round := if last ≤ next then none else some (next, last) } }

/-! ## Events -/

inductive Event (Digest : Type) where
  | propose (block : Block Digest Address Transaction) (now : Nat) (force : Force)
  | openFlow (parent : ParentRef Digest) (slot : Slot Digest)
  | adopt (tx : Transaction)
  | pack
  | commit (ref : Nat) (escortQC : QuorumCert Digest)
  -- the draft of a block of the database is listed when a committee starts
  | regulate (blockID : BlockID Digest)
  | sync (block : Block Digest Address Transaction) (escortQC : QuorumCert Digest) (now : Nat)
  | beginRound
  | pruneNext
  | writeBatch
  -- a pruned block, or the index entry of one, leaves the caches
  | dropBlock (blockID : BlockID Digest)
  | dropHash (number : Nat)
  | restart

def step : Event Digest → Exec (NodeState Digest State Receipt)
  | .propose block now force => validateProposal env node block now force
  | .openFlow parent slot => .ok (openFlow env node parent slot)
  | .adopt tx => adopt env node tx
  | .pack => .ok (pack env node)
  | .commit ref escortQC => onCommit env node ref escortQC
  | .regulate blockID =>
    match node.ledger.chain.getBlock env.hashing blockID with
    | none => .ok node
    | some block => .ok { node with drafts := addDraft env node.drafts (committedDraft block) }
  | .sync block escortQC now => processBlock env node block escortQC now
  | .beginRound => .ok (beginRound env node)
  | .pruneNext => .ok (pruneNext env node)
  | .writeBatch => .ok (writeBatch env node)
  | .dropBlock blockID =>
    if node.pruned.any fun block => block.id env.hashing = blockID then
      .ok { node with ledger := node.ledger.dropBlock env.hashing blockID }
    else .ok node
  | .dropHash number =>
    if node.pruned.any fun block => block.number = number then .ok { node with ledger := node.ledger.dropHash number }
    else .ok node
  | .restart => .ok (restart node)

/-- A genesis block has no transactions. -/
structure Genesis where
  block : Block Digest Address Transaction
  number_eq : block.number = 0
  txs_eq : block.txs = []
  txsRoot_eq : block.header.txsRoot = env.txsRoot []

variable {env}

def Genesis.start (genesis : Genesis env) : NodeState Digest State Receipt where
  ledger :=
    { chain := ⟨[genesis.block], [(0, genesis.block.id env.hashing)], genesis.block, genesis.block.qc⟩
      txMetas _ := []
      flattern := 0 }
  drafts := []
  flow := none
  pruner := ⟨0, 0, none, []⟩
  pruned := []
  added := [genesis.block]

end MeterPov.Replay
