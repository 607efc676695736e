import MeterPov.Replay.Runs

/-! A wrapped Ethereum transaction that is executed twice.

Its block is pruned, and its Ethereum transaction is wrapped again with a newer reference. -/

set_option autoImplicit false

namespace MeterPov.Replay

open Lib List
open Blocks (Block BlockID BlockType Hashing Header QuorumCert)
open Chains Consensus KBlock Auction Accounts

/-! ## A symbolic environment -/

/-- Digests as what they are digests of. -/
inductive Symbol where
  | zero
  | executed
  | txs (txs : List Transaction)
  | header (parentNumber : Nat) (parentTail : Symbol) (totalScore : Nat) (txsRoot : Symbol)
  | id (signingHash : Symbol) (signer : Address)
  | tx (tx : Transaction) (signer : Address)
  | ethTx (raw : Bytes)
  deriving DecidableEq

def symbolicHashing : Hashing Symbol Address where
  signingHash header := .header header.parentID.number header.parentID.tail header.totalScore header.txsRoot
  sigToPub _ signature := if signature = [] then .error "no signature" else .ok 1
  zeroAddress := 0
  zeroDigest := .zero
  idTail := .id
  votingDigest _ _ _ _ _ := .zero

/-- Any bytes decode, and all transactions are executed without an effect. -/
def symbolicEnv : ReplayEnv Symbol Unit Unit where
  chainTag := 1
  decodeEthTx raw := .ok ⟨some 2, 5, .plain [], 21000, 0, [1], [1], [27], raw, .ethTx raw⟩
  chainIdValidate _ := .ok ()
  sender _ := .ok 7
  isOriginBlacklisted _ := false
  addressBytes _ := []
  recoverSigner _ := .ok 7
  isTesla _ := true
  idHash := .tx
  zeroDigest := .zero
  hashing := symbolicHashing
  idLess _ _ := false
  dependency _ := .zero
  txsRoot := .txs
  newState _ := .ok ()
  executeTransaction _ _ _ := .ok ((), ())
  receiptGasUsed _ := 0
  receiptReverted _ := false
  receiptsRoot _ := .zero
  stateRoot _ := .ok .executed
  sign _ := [1]
  preserveBlocks := 1

theorem symbolicEnv_collisionFree : symbolicEnv.CollisionFree where
  idHash _ _ _ _ same := (Symbol.tx.inj same).1
  idHash_ne_hash tx signer raw ethTx decoded := by
    cases decoded
    simp [symbolicEnv]
  idHash_ne_zero _ _ := by simp [symbolicEnv]
  hash_ne_zero raw ethTx decoded := by
    cases decoded
    simp [symbolicEnv]
  txsRoot _ _ same := Symbol.txs.inj same
  sign _ := ⟨1, rfl⟩
  header first second := by
    rintro ⟨addr, recovered⟩ same
    cases other : second.header.signer symbolicEnv.hashing with
    | error reason =>
      simp only [Block.id, Header.id, recovered, other] at same
      simp [symbolicEnv, symbolicHashing] at same
    | ok addr' =>
      simp only [Block.id, Header.id, recovered, other, BlockID.mk.injEq] at same
      obtain ⟨hashes, -⟩ := Symbol.id.inj same.2
      obtain ⟨number, tail, score, root⟩ := Symbol.header.inj hashes
      exact ⟨⟨addr', other⟩, congrArg₂ BlockID.mk number tail, score, root⟩

/-! ## Blocks from a peer -/

def noQC : QuorumCert Symbol := ⟨0, 0, 0, [], .zero, []⟩

def child (parent : Block Symbol Address Transaction) (txs : List Transaction) : Block Symbol Address Transaction where
  header :=
    { parentID := parent.id symbolicHashing
      timestamp := parent.timestamp + 1
      gasLimit := 1000000
      lastKBlockHeight := 0
      blockType := .mBlock
      beneficiary := 0
      gasUsed := 0
      totalScore := parent.header.totalScore + 1
      txsRoot := .txs txs
      stateRoot := .executed
      receiptsRoot := .zero
      evidenceDataRoot := .zero
      signature := [1] }
  txs := txs
  qc := noQC
  committeeEpoch := 0
  kBlockNonce := 0
  magic := blockMagicVersion1

variable {node : NodeState Symbol Unit Unit} {count : Nat} {tx : Transaction} {tx? : Option Transaction}

/-- A node that only took blocks from a peer, up to the given number. -/
structure Plain (count : Nat) (node : NodeState Symbol Unit Unit) : Prop where
  head : node.added.head? = some node.ledger.chain.bestBlock
  linked : Linked (fun block : Block Symbol Address Transaction => block.id symbolicHashing) Block.parentID BlockID.number node.added
  blocks : node.ledger.chain.blocks = node.added
  hashes : node.ledger.chain.blockHashes = node.added.map fun block => (block.number, block.id symbolicHashing)
  number : node.ledger.chain.bestBlock.number = count
  timestamp : node.ledger.chain.bestBlock.timestamp = count
  score : node.ledger.chain.bestBlock.header.totalScore = count
  gasLimit : node.ledger.chain.bestBlock.header.gasLimit = 1000000
  lastKBlockHeight : node.ledger.chain.bestBlock.header.lastKBlockHeight = 0

/-- A signed transaction for the block of the given number, whose ID has no entry. -/
structure Sent (node : NodeState Symbol Unit Unit) (number : Nat) (tx : Transaction) : Prop where
  chainTag : tx.chainTag = 1
  signed : tx.signature ≠ []
  ref : tx.refNumber ≤ number
  window : tx.isExpired number = false
  dependsOn : tx.dependsOn = none
  new : node.ledger.txMetas (id symbolicEnv.toTxEnv tx) = []

def synced (node : NodeState Symbol Unit Unit) (tx? : Option Transaction) : NodeState Symbol Unit Unit :=
  let block := child node.ledger.chain.bestBlock tx?.toList
  let chain := node.ledger.chain
  let entries := (block.txs.map (id symbolicEnv.toTxEnv)).zip (block.txs.map fun _ => false)
  { node with
    ledger :=
      { chain := ⟨block :: chain.blocks, (block.number, block.id symbolicHashing) :: chain.blockHashes, block, noQC⟩
        txMetas := Ledger.saveTxMetas node.ledger.txMetas (block.id symbolicHashing) entries.zipIdx node.ledger.txMetas
        flattern := node.ledger.flattern }
    added := block :: node.added }

namespace Plain

theorem number_child (plain : Plain count node) (small : count + 1 < 2 ^ 32) (txs : List Transaction) :
    (child node.ledger.chain.bestBlock txs).number = count + 1 := by
  change ((node.ledger.chain.bestBlock.id symbolicHashing).number + 1) % 2 ^ 32 = count + 1
  rw [Block.id_number, plain.number]
  omega

theorem getBlock_best (plain : Plain count node) :
    node.ledger.chain.getBlock symbolicHashing (node.ledger.chain.bestBlock.id symbolicHashing) = some node.ledger.chain.bestBlock := by
  obtain ⟨rest, split⟩ := List.head?_eq_some_iff.mp plain.head
  simp [Chain.getBlock, plain.blocks, split]

variable {block : Block Symbol Address Transaction}

theorem number_le (plain : Plain count node) (listed : block ∈ node.added) : block.number ≤ node.ledger.chain.bestBlock.number := by
  obtain ⟨rest, split⟩ := List.head?_eq_some_iff.mp plain.head
  rw [split] at listed
  rcases mem_cons.mp listed with rfl | deeper
  · exact le_refl _
  · have lower := (split ▸ plain.linked).height_lt deeper
    simp only [Block.id_number] at lower
    omega

theorem after_sync (plain : Plain count node) (small : count + 1 < 2 ^ 32) : Plain (count + 1) (synced node tx?) where
  head := rfl
  linked := by
    obtain ⟨rest, split⟩ := List.head?_eq_some_iff.mp plain.head
    simp only [synced, split]
    refine .child (split ▸ plain.linked) rfl ?_
    rw [Block.id_number, plain.number_child small, Block.id_number, plain.number]
  blocks := by simp [synced, plain.blocks]
  hashes := by simp [synced, plain.hashes]
  number := plain.number_child small _
  timestamp := congrArg (· + 1) plain.timestamp
  score := congrArg (· + 1) plain.score
  gasLimit := rfl
  lastKBlockHeight := rfl

theorem getBlockEpoch_child (plain : Plain count node) (small : count + 1 < 2 ^ 32) (txs : List Transaction) :
    (child node.ledger.chain.bestBlock txs).getBlockEpoch = .ok 0 := by
  unfold Block.getBlockEpoch
  rw [plain.number_child small]
  by_cases first : count = 0
  · simp [first, child, Block.isKBlock]
  · have above : 1 < count + 1 := by omega
    simp [child, noQC, above]

theorem signer_child (parent : Block Symbol Address Transaction) (txs : List Transaction) :
    ∃ addr, (child parent txs).header.signer symbolicHashing = .ok addr := by
  unfold Header.signer
  split
  · exact ⟨_, rfl⟩
  · exact ⟨1, rfl⟩

theorem validateBlockHeader_child (plain : Plain count node) (small : count + 1 < 2 ^ 32) (txs : List Transaction) :
    Consensus.validateBlockHeader (child node.ledger.chain.bestBlock txs).header node.ledger.chain.bestBlock.header
      (count + 1) false 0 0 = .ok () := by
  rw [validateBlockHeader_iff]
  have time : (child node.ledger.chain.bestBlock txs).header.timestamp = count + 1 := congrArg (· + 1) plain.timestamp
  refine ⟨Nat.lt_succ_self _, ?_, ?_, Nat.zero_le _, Nat.lt_succ_self _, fun _ => ?_, nofun⟩
  · unfold Consensus.blockInterval
    omega
  · have same : (child node.ledger.chain.bestBlock txs).header.gasLimit = 1000000 := rfl
    rw [plain.gasLimit, same]
    decide
  · rw [plain.lastKBlockHeight]
    exact Nat.zero_le _

theorem validateBlockBody_child (plain : Plain count node) (small : count + 1 < 2 ^ 32) (sent : ∀ tx ∈ tx?, Sent node (count + 1) tx) :
    Consensus.validateBlockBody (validateEnv symbolicEnv node.ledger) node.ledger.chain.bestBlock.header.stateRoot
      (child node.ledger.chain.bestBlock tx?.toList) = .ok () := by
  have loop : (child node.ledger.chain.bestBlock tx?.toList).txs.forM
      (Consensus.validateTx (validateEnv symbolicEnv node.ledger) (child node.ledger.chain.bestBlock tx?.toList)) = .ok () := by
    rw [Consensus.forM_eq_ok]
    intro tx listed
    have good := sent tx (Option.mem_toList.mp listed)
    have signed : (validateEnv symbolicEnv node.ledger).txSigner tx = .ok 7 := by
      simp [validateEnv, signer, good.signed, symbolicEnv]
    have window : Consensus.isExpired (validateEnv symbolicEnv node.ledger) tx (count + 1) = false := good.window
    unfold Consensus.validateTx
    rw [signed, plain.number_child small, window]
    simp [validateEnv, symbolicEnv, symbolicHashing, good.chainTag, good.ref]
  have root : (child node.ledger.chain.bestBlock tx?.toList).header.txsRoot =
      (validateEnv symbolicEnv node.ledger).txsRoot (child node.ledger.chain.bestBlock tx?.toList).txs := rfl
  have magic : (child node.ledger.chain.bestBlock tx?.toList).magic = blockMagicVersion1 := rfl
  have notKBlock : (child node.ledger.chain.bestBlock tx?.toList).isKBlock = false := rfl
  unfold Consensus.validateBlockBody
  simp only [root, magic, notKBlock, loop, ne_eq, not_true, if_false, Bool.false_eq_true]

theorem verifyBlock_child (sent : ∀ tx ∈ tx?, Sent node (count + 1) tx) :
    Consensus.verifyBlock (validateEnv symbolicEnv node.ledger) (child node.ledger.chain.bestBlock tx?.toList) () =
      .ok (tx?.toList.map fun _ => ()) := by
  rw [verifyBlock_iff]
  cases tx? with
  | none => exact ⟨(), [], rfl, rfl, rfl, rfl⟩
  | some tx =>
    have good := sent tx rfl
    refine ⟨(), [(id symbolicEnv.toTxEnv tx, false)], ?_, rfl, rfl, rfl⟩
    have signed : signer symbolicEnv.toTxEnv tx = .ok 7 := by simp [signer, good.signed, symbolicEnv]
    have ran : Consensus.verifyTx (validateEnv symbolicEnv node.ledger) (child node.ledger.chain.bestBlock [tx]) ((), [], []) tx =
        .ok ((), [(id symbolicEnv.toTxEnv tx, false)], [()]) := by
      rw [Consensus.verifyTx_eq_ok]
      refine ⟨⟨⟨7, signed, by simp [validateEnv, symbolicEnv, symbolicHashing]⟩, ?_, ?_⟩, (), ?_, rfl, rfl⟩
      · simp [Consensus.findTx, validateEnv, Ledger.getTransactionMeta, good.new]
      · simp [Consensus.DependencyHolds, validateEnv, good.dependsOn]
      · simp only [validateEnv, execute, signed]
        rfl
    exact Lib.check_bind_eq_ok.mpr ⟨_, ran, rfl⟩

theorem validate_child (plain : Plain count node) (small : count + 1 < 2 ^ 32) (sent : ∀ tx ∈ tx?, Sent node (count + 1) tx) :
    Accepts (validate symbolicEnv node.ledger () (child node.ledger.chain.bestBlock tx?.toList) node.ledger.chain.bestBlock (count + 1) none)
      (tx?.toList.map fun _ => ()) := by
  unfold validate
  simp only [accepts_bind, accepts_lift, accepts_returned]
  refine ⟨0, plain.getBlockEpoch_child small _, (), plain.validateBlockHeader_child small _, (), ?_, (), ?_, verifyBlock_child sent⟩
  · obtain ⟨addr, recovered⟩ := signer_child node.ledger.chain.bestBlock tx?.toList
    unfold Consensus.validateProposer
    simp only [validateEnv, symbolicEnv, recovered]
  · exact accepts_returned.mpr (plain.validateBlockBody_child small sent)

theorem sync_child (plain : Plain count node) (small : count + 1 < 2 ^ 32) (tx? : Option Transaction)
    (sent : ∀ tx ∈ tx?, Sent node (count + 1) tx) :
    step symbolicEnv node (.sync (child node.ledger.chain.bestBlock tx?.toList) noQC (count + 1)) = .ok (synced node tx?) := by
  have above : node.ledger.chain.bestBlock.number < (child node.ledger.chain.bestBlock tx?.toList).number := by
    rw [plain.number_child small, plain.number]
    omega
  have accepted : Accepts (processSyncedBlock symbolicEnv node.ledger (child node.ledger.chain.bestBlock tx?.toList) (count + 1))
      (tx?.toList.map fun _ => ()) := by
    unfold processSyncedBlock
    rw [if_neg fun known => absurd known.2 (not_le.mpr above)]
    have found : node.ledger.chain.getBlock symbolicEnv.hashing (child node.ledger.chain.bestBlock tx?.toList).parentID =
        some node.ledger.chain.bestBlock := plain.getBlock_best
    simp only [found]
    exact plain.validate_child small sent
  have stored : node.ledger.chain.addBlock symbolicEnv.hashing symbolicEnv.idLess (child node.ledger.chain.bestBlock tx?.toList) noQC = _ :=
    Chains.Chain.addBlock_next symbolicEnv.idLess noQC plain.getBlock_best
      (fun stored listed => plain.number_le (plain.blocks ▸ listed)) above (Nat.lt_succ_self _)
  have lengths : ((tx?.toList.map fun _ => ()).map symbolicEnv.receiptReverted).length =
      (child node.ledger.chain.bestBlock tx?.toList).txs.length := by simp [child]
  have onHead : node.ledger.chain.bestBlock.id symbolicEnv.hashing = (child node.ledger.chain.bestBlock tx?.toList).parentID := rfl
  simp only [step, processBlock]
  rw [if_neg (not_not.mpr onHead)]
  refine Lib.Exec.bind_eq_ok.mpr ⟨_, accepted, Lib.Exec.bind_eq_ok.mpr ⟨_, dif_pos lengths, ?_⟩⟩
  simp only [Ledger.addBlock, stored]
  cases tx? <;> rfl

theorem meets_sync (plain : Plain count node) (small : count + 1 < 2 ^ 32) (block : Block Symbol Address Transaction) (now : Nat) :
    Meets symbolicEnv node (.sync block noQC now) := by
  refine ⟨?_, fun _ _ _ => rfl⟩
  rw [plain.number]
  exact small

theorem grow (plain : Plain count node) {start events}
    (run : Trace (fun node event next => step symbolicEnv node event = .ok next) start events node) (more : Nat)
    (small : count + more < 2 ^ 32) :
    ∃ events final, Trace (fun node event next => step symbolicEnv node event = .ok next) start events final ∧
      Plain (count + more) final ∧ final.pruner = node.pruner ∧ final.ledger.flattern = node.ledger.flattern ∧
      ∃ front, final.added = front ++ node.added := by
  induction more with
  | zero => exact ⟨events, node, run, plain, rfl, rfl, [], rfl⟩
  | succ more ih =>
    obtain ⟨events, final, run, grown, pruner, flattern, front, added⟩ := ih (by omega)
    refine ⟨_, _, run.snoc (grown.sync_child (by omega) none nofun), grown.after_sync (by omega), pruner, flattern,
      child final.ledger.chain.bestBlock [] :: front, ?_⟩
    simp only [synced, added, cons_append, Option.toList_none]

theorem eq_of_number (plain : Plain count node) {other}
    (first : block ∈ node.added) (second : other ∈ node.added) (same : block.number = other.number) :
    block = other := by
  apply plain.linked.eq_of_height first second
  rw [Block.id_number, Block.id_number]
  exact same

theorem getBlock_of_mem (plain : Plain count node) (listed : block ∈ node.added) :
    node.ledger.chain.getBlock symbolicHashing (block.id symbolicHashing) = some block := by
  cases found : node.ledger.chain.getBlock symbolicHashing (block.id symbolicHashing) with
  | none =>
    have absent := List.find?_eq_none.mp found block (plain.blocks ▸ listed)
    simp at absent
  | some other =>
    obtain ⟨among, named⟩ := Chain.mem_of_getBlock found
    rw [plain.blocks] at among
    rw [plain.eq_of_number among listed (by rw [← Block.id_number other symbolicHashing, named, Block.id_number])]

theorem getTrunkBlock_of_mem (plain : Plain count node) (listed : block ∈ node.added) :
    node.ledger.chain.getTrunkBlock symbolicHashing block.number = some block := by
  have indexed : node.ledger.chain.blockHashes.lookup block.number = some (block.id symbolicHashing) := by
    rw [plain.hashes]
    cases found : (node.added.map fun block => (block.number, block.id symbolicHashing)).lookup block.number with
    | none =>
      have absent := lookup_eq_none_iff.mp found _ (mem_map.mpr ⟨block, listed, rfl⟩)
      simp at absent
    | some name =>
      obtain ⟨before, others, split, -⟩ := lookup_eq_some_iff.mp found
      have among : (block.number, name) ∈ node.added.map fun block => (block.number, block.id symbolicHashing) := by simp [split]
      obtain ⟨other, known, same⟩ := mem_map.mp among
      obtain ⟨number, named⟩ := Prod.mk.inj same
      rw [← named, plain.eq_of_number known listed number]
  unfold Chain.getTrunkBlock
  rw [indexed]
  exact plain.getBlock_of_mem listed

end Plain

/-! ## The run -/

def symbolicGenesis : Genesis symbolicEnv where
  block :=
    { header :=
        { parentID := ⟨2 ^ 32 - 1, .zero⟩
          timestamp := 0
          gasLimit := 1000000
          lastKBlockHeight := 0
          blockType := .kBlock
          beneficiary := 0
          gasUsed := 0
          totalScore := 0
          txsRoot := .txs []
          stateRoot := .zero
          receiptsRoot := .zero
          evidenceDataRoot := .zero
          signature := [] }
      txs := []
      qc := noQC
      committeeEpoch := 0
      kBlockNonce := 0
      magic := blockMagicVersion1 }
  number_eq := by decide
  txs_eq := rfl
  txsRoot_eq := rfl

theorem symbolicGenesis_plain : Plain 0 symbolicGenesis.start where
  head := rfl
  linked := .root _
  blocks := rfl
  hashes := rfl
  number := rfl
  timestamp := rfl
  score := rfl
  gasLimit := rfl
  lastKBlockHeight := rfl

def ethTransfer : EthTx Symbol := ⟨some 2, 5, .plain [], 21000, 0, [1], [1], [27], [9], .ethTx [9]⟩

/-- One Ethereum transaction, wrapped with any reference. -/
def wrapped (ref : Nat) : Transaction := wrap symbolicEnv.toTxEnv ethTransfer 7 1 (ref * 2 ^ 32)

theorem id_wrapped (ref : Nat) : id symbolicEnv.toTxEnv (wrapped ref) = .ethTx [9] := rfl

theorem identity_wrapped (ref : Nat) : identity symbolicEnv.toTxEnv (wrapped ref) = .ethTx [9] := rfl

theorem sent_wrapped {ref} (new : node.ledger.txMetas (.ethTx [9]) = []) : Sent node (ref + 1) (wrapped ref) := by
  have number : (wrapped ref).refNumber = ref := Nat.mul_div_cancel ref (by decide)
  refine ⟨rfl, by simp [wrapped, wrap, ethTransfer], by omega, ?_, rfl, new⟩
  unfold Transaction.isExpired
  rw [number]
  simp [wrapped, wrap]

variable {front : List (Block Symbol Address Transaction)} {first second genesis : Block Symbol Address Transaction}

theorem beginRound_plain (plain : Plain 16274 node) (added : node.added = front ++ [second, first, genesis])
    (numbers : genesis.number = 0 ∧ first.number = 1) (roots : genesis.header.stateRoot ≠ first.header.stateRoot)
    (pruner : node.pruner = ⟨0, 0, none, []⟩) :
    beginRound symbolicEnv node = { node with pruner := ⟨0, 16273, some (2, 16273), []⟩ } := by
  have genesisListed : genesis ∈ node.added := by simp [added]
  have firstListed : first ∈ node.added := by simp [added]
  have found : node.ledger.chain.getTrunkBlock symbolicEnv.hashing 0 = some genesis := by
    rw [← numbers.1]
    exact plain.getTrunkBlock_of_mem genesisListed
  have found' : node.ledger.chain.getTrunkBlock symbolicEnv.hashing (0 + 1) = some first := by
    rw [zero_add, ← numbers.2]
    exact plain.getTrunkBlock_of_mem firstListed
  have head : skipSameRoot symbolicEnv node.ledger 16273 0 = 1 := by
    rw [skipSameRoot, found, found']
    simp only [if_neg roots, numbers.2]
  have preserve : symbolicEnv.preserveBlocks = 1 := rfl
  unfold beginRound
  simp only [plain.number, pruner, preserve, Nat.sub_zero]
  simp [head, minPruned]

theorem pruneNext_plain (plain : Plain 16274 node) (listed : second ∈ node.added) (number : second.number = 2)
    (flattern : node.ledger.flattern = 0) (pruner : node.pruner = ⟨0, 16273, some (2, 16273), []⟩) :
    pruneNext symbolicEnv node = { node with pruner := ⟨0, 16273, some (3, 16273), [second]⟩ } := by
  have found : node.ledger.chain.getTrunkBlock symbolicEnv.hashing 2 = some second := by
    rw [← number]
    exact plain.getTrunkBlock_of_mem listed
  have read : node.ledger.chain.getBlock symbolicEnv.hashing (second.id symbolicEnv.hashing) = some second := plain.getBlock_of_mem listed
  have taken : node.ledger.pruneBlock symbolicEnv.hashing (second.id symbolicEnv.hashing) = some second := by
    simp [Ledger.pruneBlock, read, number, flattern]
  unfold pruneNext
  simp [pruner, found, taken]

theorem prune_plain (plain : Plain 16274 node) (added : node.added = front ++ [second, first, genesis])
    (numbers : genesis.number = 0 ∧ first.number = 1 ∧ second.number = 2)
    (roots : genesis.header.stateRoot ≠ first.header.stateRoot) (pruner : node.pruner = ⟨0, 0, none, []⟩)
    (flattern : node.ledger.flattern = 0) (txs : second.txs = [wrapped 1]) {start events}
    (run : Trace (fun node event next => step symbolicEnv node event = .ok next) start events node) :
    ∃ events after, Trace (fun node event next => step symbolicEnv node event = .ok next) start events after ∧ Plain 16274 after ∧
      after.added = node.added ∧ after.ledger.txMetas (.ethTx [9]) = [] := by
  have listed : second ∈ node.added := by simp [added]
  have begun : step symbolicEnv node .beginRound = .ok { node with pruner := ⟨0, 16273, some (2, 16273), []⟩ } := by
    simp only [step]
    rw [beginRound_plain plain added ⟨numbers.1, numbers.2.1⟩ roots pruner]
  have waiting : Plain 16274 { node with pruner := ⟨0, 16273, some (2, 16273), []⟩ } := { plain with }
  have deleted : step symbolicEnv { node with pruner := ⟨0, 16273, some (2, 16273), []⟩ } .pruneNext =
      .ok { node with pruner := ⟨0, 16273, some (3, 16273), [second]⟩ } := by
    simp only [step]
    rw [pruneNext_plain waiting listed numbers.2.2 flattern rfl]
  have written : step symbolicEnv { node with pruner := ⟨0, 16273, some (3, 16273), [second]⟩ } .writeBatch =
      .ok (writeBatch symbolicEnv { node with pruner := ⟨0, 16273, some (3, 16273), [second]⟩ }) := rfl
  refine ⟨_, _, ((run.snoc begun).snoc deleted).snoc written, ?_, rfl, ?_⟩
  · exact { plain with }
  · simp [writeBatch, Ledger.deleteTxMetas, txs, id_wrapped]

/-- In a run whose steps all meet the conditions, the blocks added so far are one chain that ends in the best block, and no
two of them have a transaction in common. -/
theorem executed_once_of_meets {Digest State Receipt : Type} [DecidableEq Digest] {env : ReplayEnv Digest State Receipt}
    {node : NodeState Digest State Receipt} (free : env.CollisionFree) (genesis : Genesis env) {events : List (Event Digest)}
    (run : Trace (fun node event next => Meets env node event ∧ step env node event = .ok next) genesis.start events node) :
    node.added.head? = some node.ledger.chain.bestBlock ∧
      Linked (fun block : Block Digest Address Transaction => block.id env.hashing) Block.parentID BlockID.number node.added ∧
      node.added.Pairwise fun later earlier =>
        ∀ tx ∈ later.txs, ∀ other ∈ earlier.txs, identity env.toTxEnv tx ≠ identity env.toTxEnv other := by
  have intact : Intact env node :=
    run.invariant (Intact env) genesis.intact fun _ _ _ intact taken => step_intact free intact taken.1 taken.2
  exact ⟨intact.recorded.head, intact.recorded.linked, intact.recorded.apart⟩

theorem executed_once_of_two_blocks : (synced (synced symbolicGenesis.start (some (wrapped 0))) none).added.Pairwise fun later earlier =>
      ∀ tx ∈ later.txs, ∀ other ∈ earlier.txs, identity symbolicEnv.toTxEnv tx ≠ identity symbolicEnv.toTxEnv other := by
  have plain1 : Plain 1 (synced symbolicGenesis.start (some (wrapped 0))) := symbolicGenesis_plain.after_sync (by decide)
  have sent : ∀ tx ∈ some (wrapped 0), Sent symbolicGenesis.start 1 tx := by
    rintro _ ⟨⟩
    exact sent_wrapped rfl
  have first := symbolicGenesis_plain.sync_child (by decide) _ sent
  have second := plain1.sync_child (by decide) none nofun
  have run := executed_once_of_meets symbolicEnv_collisionFree symbolicGenesis
    ((Trace.nil.snoc ⟨symbolicGenesis_plain.meets_sync (by decide) _ _, first⟩).snoc ⟨plain1.meets_sync (by decide) _ _, second⟩)
  exact run.2.2

/-- A run after which two blocks of the chain have a transaction in common. -/
theorem executed_twice : symbolicEnv.CollisionFree ∧ ∃ events node,
      Trace (fun node event next => step symbolicEnv node event = .ok next) symbolicGenesis.start events node ∧
      node.added.head? = some node.ledger.chain.bestBlock ∧
      Linked (fun block : Block Symbol Address Transaction => block.id symbolicHashing) Block.parentID BlockID.number node.added ∧
      ¬ node.added.Pairwise fun later earlier =>
        ∀ tx ∈ later.txs, ∀ other ∈ earlier.txs, identity symbolicEnv.toTxEnv tx ≠ identity symbolicEnv.toTxEnv other := by
  refine ⟨symbolicEnv_collisionFree, ?_⟩
  -- an empty block, and one with the transaction
  have plain0 := symbolicGenesis_plain
  have plain1 : Plain 1 (synced symbolicGenesis.start none) := plain0.after_sync (by decide)
  have sent : ∀ tx ∈ some (wrapped 1), Sent (synced symbolicGenesis.start none) 2 tx := by
    rintro _ ⟨⟩
    exact sent_wrapped rfl
  have plain2 : Plain 2 (synced (synced symbolicGenesis.start none) (some (wrapped 1))) := plain1.after_sync (by decide)
  have start : Trace (fun node event next => step symbolicEnv node event = .ok next) symbolicGenesis.start [] symbolicGenesis.start := .nil
  have run := (start.snoc (plain0.sync_child (by decide) none nofun)).snoc (plain1.sync_child (by decide) _ sent)
  -- enough empty blocks for the pruner, which then deletes the entry of the transaction
  obtain ⟨events, node, run, plain, pruner, flattern, front, added⟩ := plain2.grow run 16272 (by decide)
  obtain ⟨events, node', run, plain', added', forgotten⟩ :=
    prune_plain plain added ⟨rfl, plain1.number, plain2.number⟩ nofun pruner flattern rfl run
  -- the transaction once more
  have again : ∀ tx ∈ some (wrapped 16274), Sent node' 16275 tx := by
    rintro _ ⟨⟩
    exact sent_wrapped forgotten
  have final : Plain 16275 (synced node' (some (wrapped 16274))) := plain'.after_sync (by decide)
  refine ⟨_, _, run.snoc (plain'.sync_child (by decide) _ again), final.head, final.linked, ?_⟩
  intro apart
  have among : child (child symbolicGenesis.block []) [wrapped 1] ∈ node'.added := by
    rw [added', added]
    exact mem_append_right _ mem_cons_self
  have differ := (pairwise_cons.mp apart).1 _ among (wrapped 16274) mem_cons_self (wrapped 1) mem_cons_self
  exact differ rfl

end MeterPov.Replay
