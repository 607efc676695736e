import MeterPov.Chains.Chain
import MeterPov.Consensus.VerifyBlock
import MeterPov.Consensus.ValidateQC

/-! Import of a block from a peer into the chain (`cmd/meter/node/node.go`).

The escort certificate is checked only while the block is younger than one block interval. -/

set_option autoImplicit false

namespace MeterPov.Node

open Lib Blocks Chains Consensus

variable {Digest Address Tx State Receipt Key Sig QCID : Type} [DecidableEq Digest] [DecidableEq Address]
  [DecidableEq QCID]

structure NodeState (Digest Address Tx QCID : Type) where
  chain : Chain Digest Address Tx
  validQCs : ValidQCs QCID

structure NodeEnv (Digest Address Tx State Receipt Key Sig QCID : Type) extends
    ValidateEnv Digest Address Tx State Receipt where
  bls : BlsCommon Key Sig Digest
  reactor : Reactor Key
  qcID : QuorumCert Digest → QCID
  /-- The byte order on block IDs. -/
  idLess : BlockID Digest → BlockID Digest → Bool

inductive NodeError where
  | cantExtendBestBlock
  | invalidQC
  | validate (reason : ValidateError)
  | addBlock (reason : AddBlockError)
  deriving DecidableEq, Repr

structure Outcome (Digest Address Tx QCID : Type) where
  node : NodeState Digest Address Tx QCID
  result : Except NodeError Bool

/-! ## Processing -/

variable (env : NodeEnv Digest Address Tx State Receipt Key Sig QCID)

def NodeEnv.validation (chain : Chain Digest Address Tx) : ValidationEnv Digest Address Key Sig QCID :=
  ⟨env.hashing, env.bls, env.reactor, chain.bestBlock.number, env.qcID⟩

/-- The checks of a synced block; reading its epoch may panic. -/
def processSyncedBlock (chain : Chain Digest Address Tx) (block : Block Digest Address Tx) (nowTimestamp : Nat) :
    Exec (Except ValidateError (List Receipt)) :=
  if (chain.getBlock env.hashing (block.id env.hashing)).isSome ∧ block.number ≤ chain.bestBlock.number then
    .ok (.error .knownBlock)
  else
    match chain.getBlock env.hashing block.parentID with
    | none => .ok (.error .parentMissing)
    | some parent =>
      match env.newState parent.header.stateRoot with
      | .error reason => .ok (.error (.other reason))
      | .ok state => do
        let epoch ← block.getBlockEpoch
        .ok do
          validateBlockHeader block.header parent.header nowTimestamp false epoch 0
          validateProposer env.toValidateEnv block.header
          validateBlockBody env.toValidateEnv chain.bestBlock.header.stateRoot block
          verifyBlock env.toValidateEnv block state

/-- A block younger than one interval has its certificate checked; the sum wraps at 64 bits. -/
def checksQC (block : Block Digest Address Tx) (now : Nat) : Bool :=
  now < (block.timestamp + blockInterval) % 2 ^ 64

section

variable (node : NodeState Digest Address Tx QCID) (now : Nat) (block : Block Digest Address Tx) (escortQC : QuorumCert Digest)

/-- What follows the check of the certificate. -/
def importBlock : Exec (Outcome Digest Address Tx QCID) := do
  match ← processSyncedBlock env node.chain block now with
  | .error reason => .ok ⟨node, if reason = .knownBlock then .ok false else .error (.validate reason)⟩
  | .ok _ =>
    match node.chain.addBlock env.hashing env.idLess block escortQC with
    | .error reason => .ok ⟨node, .error (.addBlock reason)⟩
    | .ok (chain, fork) => .ok ⟨{ node with chain := chain }, .ok (0 < fork.trunk.length)⟩

def processBlock : Exec (Outcome Digest Address Tx QCID) :=
  if node.chain.bestBlock.id env.hashing ≠ block.parentID then .ok ⟨node, .error .cantExtendBestBlock⟩
  else if checksQC block now then do
    let (valid, validQCs) ← validateQC (env.validation node.chain) node.validQCs block escortQC
    if valid then importBlock env { node with validQCs := validQCs } now block escortQC
    else .ok ⟨{ node with validQCs := validQCs }, .error .invalidQC⟩
  else importBlock env node now block escortQC

end

/-! ## Which blocks enter the chain -/

variable {env} {node : NodeState Digest Address Tx QCID} {outcome : Outcome Digest Address Tx QCID} {now : Nat}
  {block : Block Digest Address Tx} {qc : QuorumCert Digest}

omit [DecidableEq QCID] in
/-- The import after the certificate check stores the block for every certificate or for none. -/
theorem importBlock_any_qc (returned : importBlock env node now block qc = .ok outcome)
    (fresh : block ∉ node.chain.blocks) (added : block ∈ outcome.node.chain.blocks) (other : QuorumCert Digest) :
    ∃ outcome', importBlock env node now block other = .ok outcome' ∧ block ∈ outcome'.node.chain.blocks := by
  simp only [importBlock, Exec.bind_eq_ok] at returned ⊢
  obtain ⟨verdict, processed, returned⟩ := returned
  have unchanged {result : Except NodeError Bool} (same : (.ok ⟨node, result⟩ : Exec _) = .ok outcome) : False := by
    obtain rfl := Except.ok.inj same
    exact fresh added
  cases verdict with
  | error reason => exact (unchanged returned).elim
  | ok receipts =>
    rcases node.chain.addBlock_cases env.hashing env.idLess block with ⟨reason, refused⟩ | ⟨fork, stored⟩
    · simp only [refused qc] at returned
      exact (unchanged returned).elim
    · obtain ⟨head, headQC, stored⟩ := stored other
      refine ⟨⟨⟨⟨block :: node.chain.blocks, (block.number, block.id env.hashing) :: node.chain.blockHashes, head, headQC⟩,
        node.validQCs⟩, .ok (0 < fork.trunk.length)⟩, ⟨_, processed, ?_⟩, List.mem_cons_self⟩
      simp only [stored]

variable (signed : Key → Digest → Prop)

/-- Two thirds of a committee the node knows signed the block's voting hash. -/
def CertifiedBy (reactor : Reactor Key) (hashing : Hashing Digest Address) (block : Block Digest Address Tx)
    (qc : QuorumCert Digest) : Prop :=
  ∃ committee ∈ reactor.knownCommittees, ∃ array, qc.voterBitArray = .ok (some array) ∧
    QuorumTookPart (some array) committee ∧ ∀ key ∈ voters (some array) committee, signed key (block.votingHash hashing)

/-- The signature check passes only for keys that signed. -/
def Unforgeable (bls : BlsCommon Key Sig Digest) : Prop :=
  ∀ (sig : Sig) (hash : Digest) (keys : List Key), bls.thresholdVerify sig hash keys = .ok true →
    ∀ key ∈ keys, signed key hash

omit [DecidableEq QCID] [DecidableEq Address] in
theorem certifiedBy_of_validated (validation : ValidationEnv Digest Address Key Sig QCID)
    (unforgeable : Unforgeable signed validation.bls) (above : 1 < block.number)
    (agree : ∀ committee ∈ validation.reactor.knownCommittees, ∀ array, qc.voterBitArray = .ok (some array) →
      CountsAgree array committee.length)
    (accepted : validateUncached validation block qc = .ok true) :
    CertifiedBy signed validation.reactor validation.hashing block qc := by
  obtain ⟨committee, known, verified⟩ := validateUncached_committee accepted
  obtain ⟨hash, array, parsed, majority, checked⟩ := (Block.verifyQC_eq_true above).mp verified
  obtain ⟨sig, -, valid⟩ := checkAggregate_eq_true.mp checked
  refine ⟨committee, known, array, parsed, (agree committee known array parsed).quorum majority checked, ?_⟩
  rw [← hash]
  exact unforgeable sig qc.voterMsgHash _ valid

/-- A block that enters the chain while it is younger than one interval had its certificate accepted,
which is a real one unless it came from the cache or its bit array is too long. An older block enters
with any certificate whatsoever. -/
theorem processBlock_added (unforgeable : Unforgeable signed env.bls) (returned : processBlock env node now block qc = .ok outcome)
    (fresh : block ∉ node.chain.blocks) (added : block ∈ outcome.node.chain.blocks) :
    (checksQC block now = true →
      (∃ validQCs, validateQC (env.validation node.chain) node.validQCs block qc = .ok (true, validQCs)) ∧
      (1 < block.number → node.validQCs.contains (env.qcID qc) = false →
        (∀ committee ∈ env.reactor.knownCommittees, ∀ array, qc.voterBitArray = .ok (some array) →
          CountsAgree array committee.length) →
        CertifiedBy signed env.reactor env.hashing block qc)) ∧
    (checksQC block now = false → ∀ other, ∃ outcome',
      processBlock env node now block other = .ok outcome' ∧ block ∈ outcome'.node.chain.blocks) := by
  have onBest : node.chain.bestBlock.id env.hashing = block.parentID := by
    by_contra different
    rw [processBlock, if_pos different] at returned
    obtain rfl := Except.ok.inj returned
    exact fresh added
  have notElsewhere := not_not.mpr onBest
  constructor
  · intro young
    rw [processBlock, if_neg notElsewhere, if_pos young, Exec.bind_eq_ok] at returned
    obtain ⟨⟨valid, validQCs⟩, validated, returned⟩ := returned
    obtain rfl : valid = true := by
      by_contra invalid
      simp only [invalid, if_false] at returned
      obtain rfl := Except.ok.inj returned
      exact fresh added
    refine ⟨⟨validQCs, validated⟩, fun above notCached agree => ?_⟩
    have accepted : validateUncached (env.validation node.chain) block qc = .ok true := by
      have notFound : (node.validQCs.contains ((env.validation node.chain).qcID qc)) ≠ true := by
        simpa [NodeEnv.validation] using notCached
      rw [validateQC, if_neg notFound, Exec.bind_eq_ok] at validated
      obtain ⟨verdict, accepted, same⟩ := validated
      rw [accepted, (Prod.mk.inj (Except.ok.inj same)).1]
    exact certifiedBy_of_validated signed (env.validation node.chain) unforgeable above agree accepted
  · intro old other
    have notYoung : ¬ checksQC block now = true := by simp [old]
    rw [processBlock, if_neg notElsewhere, if_neg notYoung] at returned
    rw [processBlock, if_neg notElsewhere, if_neg notYoung]
    exact importBlock_any_qc returned fresh added other

/-! ## A node of a committee of four -/

/-- States and receipts that hold nothing, so that blocks without transactions validate. -/
def sampleEnv : NodeEnv (List Nat) Nat Unit Unit Unit Bytes Bytes (QuorumCert (List Nat)) where
  hashing := listHashing
  chainTag := 0
  txID _ := []
  txSigner _ := .ok 1
  txChainTag _ := 0
  txBlockRef _ := 0
  txExpiration _ := 0
  txDependsOn _ := none
  txsRoot _ := []
  newState _ := .ok ()
  executeTransaction _ _ _ := .ok ((), ())
  receiptGasUsed _ := 0
  receiptReverted _ := false
  receiptsRoot _ := []
  stateRoot _ := .ok []
  transactionMeta _ _ := .ok none
  bls := listedSigners
  reactor := plainReactor (numberedCommittee 4)
  qcID := id
  idLess _ _ := false

def childOf (parentID : BlockID (List Nat)) (timestamp totalScore : Nat) : Block (List Nat) Nat Unit :=
  let empty : Block (List Nat) Nat Unit := emptyBlock listHashing
  { empty with
    header := { empty.header with
      parentID := parentID
      timestamp := timestamp
      gasLimit := minGasLimit
      totalScore := totalScore
      signature := [1] }
    magic := blockMagicVersion1 }

def headBlock : Block (List Nat) Nat Unit := childOf ⟨4, []⟩ 100 1
def nextBlock : Block (List Nat) Nat Unit := childOf (headBlock.id listHashing) 110 2

def headNode : NodeState (List Nat) Nat Unit (QuorumCert (List Nat)) :=
  ⟨⟨[headBlock], [(5, headBlock.id listHashing)], headBlock, headBlock.qc⟩, Lru.empty⟩

/-- Three of four members for the next block; the text is `BA{4:xxx_}`. -/
def nextQC : QuorumCert (List Nat) :=
  ⟨6, 0, 0, [66, 65, 123, 52, 58, 120, 120, 120, 95, 125], nextBlock.votingHash listHashing, [0, 1, 2]⟩

def nextOutcome (qc : QuorumCert (List Nat)) (validQCs : ValidQCs (QuorumCert (List Nat))) :
    Outcome (List Nat) Nat Unit (QuorumCert (List Nat)) :=
  ⟨⟨⟨[nextBlock, headBlock], [(6, nextBlock.id listHashing), (5, headBlock.id listHashing)], nextBlock, qc⟩,
    validQCs⟩, .ok true⟩

theorem processBlock_next : processBlock sampleEnv headNode 115 nextBlock nextQC = .ok (nextOutcome nextQC (Lru.empty.add nextQC)) := rfl

theorem nextBlock_certified : CertifiedBy (fun _ _ => True) sampleEnv.reactor listHashing nextBlock nextQC := by
  have agree : ∀ committee ∈ sampleEnv.reactor.knownCommittees, ∀ array, nextQC.voterBitArray = .ok (some array) →
      CountsAgree array committee.length := by
    intro committee member array parsed
    obtain rfl : (⟨4, [true, true, true, false], by decide, by decide⟩ : BitArray) = array :=
      Option.some.inj (Except.ok.inj ((by decide :
        _ = nextQC.voterBitArray).trans parsed))
    have size : committee.length = 0 ∨ committee.length = 4 := by
      revert committee; decide
    rcases size with size | size <;> rw [size] <;> unfold CountsAgree <;> decide
  exact ((processBlock_added (fun _ _ => True) (fun _ _ _ _ _ _ => trivial) processBlock_next (by decide)
    (by simp [nextOutcome])).1 (by decide)).2 (by decide) (by decide) agree

/-- The same block, once it is old, enters with a certificate that no committee accepts. -/
theorem processBlock_uncertified : processBlock sampleEnv headNode 1000 nextBlock firstQC = .ok (nextOutcome firstQC Lru.empty) ∧
    nextBlock ∉ headNode.chain.blocks ∧ 1 < nextBlock.number ∧
    (validateQC (sampleEnv.validation headNode.chain) headNode.validQCs nextBlock firstQC).map Prod.fst =
      .ok false := by
  refine ⟨rfl, by decide, by decide, by decide⟩

end MeterPov.Node
