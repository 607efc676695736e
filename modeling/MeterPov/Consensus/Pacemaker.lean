import MeterPov.Consensus.Pipeline
import MeterPov.Consensus.ValidateQC
import MeterPov.Consensus.VoteManager

/-! The state of the pacemaker and its handlers (`consensus/pacemaker.go`, `pacemaker_assist.go`,
`pacemaker_send.go`).

What a handler learns from outside comes with it as an argument: the time, the outcome of executing
a block, a freshly packed block. Timers and channels are left out: the events they would deliver may
come at any time. -/

set_option autoImplicit false

namespace MeterPov.Consensus

open Lib Blocks Chains

structure PacemakerEnv (Digest Address Tx Key Sig QCID : Type) extends ChainHashing Digest Address where
  bls : BlsCommon Key Sig Digest
  qcID : QuorumCert Digest → QCID
  timeoutVotingHash : Nat → Nat → Digest
  messages : MessageHashing Digest Address Tx Key
  txID : Tx → Digest
  genesisNonce : Nat

/-- The keys of one replica: the ECDSA key that signs its messages and the BLS key that signs its
votes. -/
structure ReplicaKeys (Digest Key : Type) where
  myPubKey : Key
  sign : Digest → Except String Bytes
  signHash : Digest → Bytes

structure IncomingMsg (Digest Address Tx Key : Type) where
  msg : Message Digest Address Tx
  /-- The committee member whose key verified the message. -/
  signer : Option (Validator Key)
  processCount : Nat

/-- The queue with the messages that wait for a timer: those put back by a handler, and those of a
later epoch. -/
structure IncomingQueue (Digest Address Tx Key : Type) where
  queue : List (IncomingMsg Digest Address Tx Key)
  cache : Lru Digest 1024
  delayed : List (IncomingMsg Digest Address Tx Key)
  future : List (IncomingMsg Digest Address Tx Key)

/-- A vote the replica signed, the block it is for, the member that verified the proposal and the
proposer of the round. -/
structure SignedVote (Digest Address Tx Key : Type) where
  epoch : Nat
  vote : Vote Digest
  block : Block Digest Address Tx
  verifiedBy : Option (Validator Key)
  roundProposer : Option (Validator Key)

structure Pacemaker (Digest Address Tx Key Sig QCID : Type) where
  reactor : Reactor Key
  validQCs : ValidQCs QCID
  inQueue : IncomingQueue Digest Address Tx Key
  pipeline : Pipeline Digest Address Tx
  currentRound : Nat
  lastVotingHeight : Nat
  lastVoteMsg : Option (Vote Digest)
  lastOnBeatRound : Int
  tcHigh : Option (TimeoutCert Digest)
  curProposal : Option Ref
  qcVoteManager : QCVoteManager Digest Sig
  tcVoteManager : TCVoteManager Digest Sig
  /-- Every message sent so far. -/
  sent : List (Message Digest Address Tx)
  /-- Every vote signed so far. -/
  signed : List (SignedVote Digest Address Tx Key)

/-- What executing a proposed block comes to: whether a state opens for the checkpoint, whether the
block passes every check but the recovery of its signer, and whether its changes are stored. -/
structure Execution where
  stateOpens : Bool
  valid : Bool
  stageCommits : Bool
  deriving DecidableEq

structure Surroundings where
  now : Nat
  execution : Execution
  /-- The vote a map iteration ends with. -/
  lastVote : Nat

variable {Digest Address Tx Key Sig QCID α : Type}

/-! ## Rounds and their proposers -/

def Reactor.getRoundProposer (reactor : Reactor Key) (round : Nat) : Option (Validator Key) :=
  reactor.committee[round % reactor.committee.length]?

def Reactor.amIRoundProposer [DecidableEq Key] (reactor : Reactor Key) (myPubKey : Key) (round : Nat) : Bool :=
  match reactor.getRoundProposer round with
  | none => false
  | some proposer => proposer.pubKey = myPubKey

def toInt32 (value : Nat) : Int := if value < 2 ^ 31 then value else value - 2 ^ 32

namespace Pacemaker

def onPipeline (action : Action (Pipeline Digest Address Tx) α) : Action (Pacemaker Digest Address Tx Key Sig QCID) α :=
  Action.focus (fun pacemaker => pacemaker.pipeline)
    (fun pacemaker pipeline => { pacemaker with pipeline := pipeline }) action

def onSpace (action : Action (DraftSpace Digest Address Tx) α) : Action (Pacemaker Digest Address Tx Key Sig QCID) α :=
  onPipeline (Pipeline.onSpace action)

def enterRound (round : Nat) : Action (Pacemaker Digest Address Tx Key Sig QCID) Unit :=
  modify fun pacemaker =>
    if 0 < round ∧ round < pacemaker.currentRound then pacemaker
    else if pacemaker.reactor.inCommittee then { pacemaker with currentRound := round }
    else pacemaker

def setLastOnBeatRound (round : Int) : Action (Pacemaker Digest Address Tx Key Sig QCID) Unit :=
  modify fun pacemaker => { pacemaker with lastOnBeatRound := round }

def delayedAdd (mi : IncomingMsg Digest Address Tx Key) : Action (Pacemaker Digest Address Tx Key Sig QCID) Unit :=
  modify fun pacemaker =>
    { pacemaker with
      inQueue := { pacemaker.inQueue with
        delayed := pacemaker.inQueue.delayed ++ [{ mi with processCount := (mi.processCount + 1) % 2 ^ 32 }] } }

def sendMsg (message : Message Digest Address Tx) : Action (Pacemaker Digest Address Tx Key Sig QCID) Unit :=
  modify fun pacemaker => { pacemaker with sent := pacemaker.sent ++ [message] }

variable (env : PacemakerEnv Digest Address Tx Key Sig QCID) (keys : ReplicaKeys Digest Key)

def buildMessage (now epoch : Nat) (body : MessageBody Digest Address Tx) :
    Action (Pacemaker Digest Address Tx Key Sig QCID) (Option (Message Digest Address Tx)) := do
  let pacemaker ← get
  let index := pacemaker.reactor.committeeIndex
  match keys.sign (env.messages.msgHash now epoch index body) with
  | .error _ => return none
  | .ok signature => return some ⟨now, epoch, index, body, signature⟩

def validateQC [DecidableEq Digest] [DecidableEq QCID] (block : Block Digest Address Tx) (qc : QuorumCert Digest) :
    Action (Pacemaker Digest Address Tx Key Sig QCID) Bool := do
  let pacemaker ← get
  let validation : ValidationEnv Digest Address Key Sig QCID :=
    ⟨env.hashing, env.bls, pacemaker.reactor, pacemaker.pipeline.space.chain.bestBlock.number, env.qcID⟩
  let (valid, validQCs) ← Consensus.validateQC validation pacemaker.validQCs block qc
  set { pacemaker with validQCs := validQCs }
  return valid

/-! ## Proposals -/

variable [DecidableEq Digest]

/-- The transactions of the drafts from `tmp` down to a committed one. No draft is met twice, so that
their number bounds the walk. -/
def txsInCache : Nat → Option Ref → List Digest → Action (DraftSpace Digest Address Tx) (List Digest)
  | 0, _, known => return known
  | steps + 1, tmp, known =>
    match tmp with
    | none => return known
    | some ref => do
      let draftBlk ← DraftSpace.draft ref
      if draftBlk.committed then return known
      let next ← DraftSpace.getDraft env.hashing draftBlk.proposedBlock.parentID
      txsInCache steps next (known ++ draftBlk.proposedBlock.txs.map env.txID)

def repeatsTx (parent : Ref) (block : Block Digest Address Tx) : Action (DraftSpace Digest Address Tx) Bool := do
  if block.txs.length = 0 then return false
  let space ← get
  let known ← txsInCache env (space.drafts.length + 1) (some parent) []
  return block.txs.any fun tx => known.contains (env.txID tx)

/-- The draft as execution leaves it, or nothing where an error is returned. When no state opens for
the checkpoint, no error is returned and the draft stays as it was. -/
def executeProposal (execution : Execution) (b : DraftBlock Digest Address Tx) :
    Action (DraftSpace Digest Address Tx) (Option (DraftBlock Digest Address Tx)) := do
  if b.successProcessed && !b.knownBlock then return some b
  match b.parent with
  | none => return none
  | some parent =>
    if execution.stateOpens = false then return some b
    if ← repeatsTx env parent b.proposedBlock then return none
    let space ← get
    if (space.chain.getBlock env.hashing (b.proposedBlock.id env.hashing)).isSome then
      return some { b with returnTxsToPool := true, successProcessed := true, knownBlock := true, receipts := true }
    match b.proposedBlock.header.signer env.hashing with
    | .error _ => return none
    | .ok _ =>
      if execution.valid && execution.stageCommits then
        return some { b with returnTxsToPool := true, successProcessed := true, receipts := true }
      else return none

def validateProposal (execution : Execution) (b : DraftBlock Digest Address Tx) :
    Action (DraftSpace Digest Address Tx) (Option (DraftBlock Digest Address Tx)) := do
  let blk := b.proposedBlock
  if blk.isSBlock then
    let parentRef ← Exec.deref (← DraftSpace.getDraft env.hashing blk.parentID)
    let parent ← DraftSpace.draft parentRef
    if !parent.proposedBlock.isKBlock && !parent.proposedBlock.isSBlock then return none
  executeProposal env execution b

def extendedFrom (drafts : List (DraftBlock Digest Address Tx)) (lastCommitted : Ref) : Nat → Ref → Bool
  | 0, _ => false
  | hops + 1, tmp =>
    if tmp = lastCommitted then true
    else
      match drafts[tmp]? with
      | none => false
      | some draft =>
        match draft.parent with
        | none => false
        | some parent => extendedFrom drafts lastCommitted hops parent

def extendedFromLastCommitted (pipeline : Pipeline Digest Address Tx) (b : Ref) : Bool :=
  extendedFrom pipeline.space.drafts pipeline.lastCommitted 10 b

def roundAccepted (reactor : Reactor Key) (parent : DraftBlock Digest Address Tx) (proposal : Proposal Digest Address Tx) : Exec Bool :=
  if proposal.round = 0 then .ok (parent.height = 0 || parent.proposedBlock.isKBlock)
  else if (parent.round + 1) % 2 ^ 32 = proposal.round then .ok true
  else do
    let validTC ← verifyTC env.bls env.timeoutVotingHash reactor proposal.timeoutCert proposal.round
    .ok (validTC && (parent.proposedBlock.isKBlock || decide (parent.round < proposal.round)))

def buildVoteMessage (now : Nat) (mi : IncomingMsg Digest Address Tx Key) (round : Nat) (block : Block Digest Address Tx) :
    Action (Pacemaker Digest Address Tx Key Sig QCID) (Option (Message Digest Address Tx × Vote Digest)) := do
  let pacemaker ← get
  let epoch := pacemaker.reactor.curEpoch
  let voteHash := block.votingHash env.hashing
  let vote : Vote Digest := ⟨round, block.id env.hashing, keys.signHash voteHash, voteHash⟩
  match ← buildMessage env keys now epoch (.vote vote) with
  | none => return none
  | some message =>
    modify fun pacemaker =>
      { pacemaker with
        signed := pacemaker.signed ++ [⟨epoch, vote, block, mi.signer, pacemaker.reactor.getRoundProposer round⟩] }
    return some (message, vote)

section

variable (surroundings : Surroundings)

/-- Voting for a draft that may be voted for. The vote is signed first and sent last. -/
def voteFor (mi : IncomingMsg Digest Address Tx Key) (round : Nat)
    (blk : Block Digest Address Tx) : Action (Pacemaker Digest Address Tx Key Sig QCID) Unit := do
  match ← buildVoteMessage env keys surroundings.now mi round blk with
  | none => return ()
  | some (message, vote) =>
    onPipeline (Pipeline.update env.toChainHashing blk.qc)
    sendMsg message
    modify fun pacemaker =>
      { pacemaker with lastVoteMsg := some vote, lastVotingHeight := vote.voteBlockID.number }
    enterRound ((vote.voteRound + 1) % 2 ^ 32)

def sendQuery : Action (Pacemaker Digest Address Tx Key Sig QCID) Unit := do
  let pacemaker ← get
  let lastCommitted ← onSpace (DraftSpace.draft pacemaker.pipeline.lastCommitted)
  match ← buildMessage env keys surroundings.now pacemaker.reactor.curEpoch (.query (lastCommitted.proposedBlock.id env.hashing)) with
  | none => return ()
  | some query => sendMsg query

/-- A proposal whose parent is not known: it may come too early. -/
def parentMissing (mi : IncomingMsg Digest Address Tx Key)
    (blk : Block Digest Address Tx) : Action (Pacemaker Digest Address Tx Key Sig QCID) Unit := do
  let pacemaker ← get
  if pacemaker.pipeline.qcHigh.qc.qcHeight < blk.number then
    if mi.processCount % 2 = 0 then sendQuery env keys surroundings
    delayedAdd mi

/-- The draft of an accepted proposal; it enters the proposal space unless the space has one of the
same ID. -/
def acceptDraft (mi : IncomingMsg Digest Address Tx Key) (round : Nat)
    (blk : Block Digest Address Tx) (parent : Ref) : Action (DraftSpace Digest Address Tx) (Option Ref) := do
  let bnew : DraftBlock Digest Address Tx :=
    { msg := some mi.msg, height := blk.number, round := round, parent := some parent
      justify := some ⟨some parent, blk.qc⟩, committed := false, proposedBlock := blk
      returnTxsToPool := false, successProcessed := false, knownBlock := false }
  match ← validateProposal env surroundings.execution bnew with
  | none => return none
  | some bnew =>
    let ref ← DraftSpace.allocate bnew
    if !(← DraftSpace.hasDraft (blk.id env.hashing)) then DraftSpace.addDraft env.hashing ref
    return some ref

end

def onReceiveProposal [DecidableEq QCID] (surroundings : Surroundings) (mi : IncomingMsg Digest Address Tx Key)
    (proposal : Proposal Digest Address Tx) : Action (Pacemaker Digest Address Tx Key Sig QCID) Unit := do
  let blk ← Exec.deref proposal.decodedBlock
  let lastCommitted ← onSpace (DraftSpace.draft (← get).pipeline.lastCommitted)
  if blk.number < lastCommitted.height then return ()
  match ← onSpace (DraftSpace.getDraft env.hashing blk.parentID) with
  | none => parentMissing env keys surroundings mi blk
  | some parentRef =>
    let parent ← onSpace (DraftSpace.draft parentRef)
    if !(← validateQC env parent.proposedBlock blk.qc) then return ()
    if !(← roundAccepted env (← get).reactor parent proposal) then return ()
    match ← onSpace (acceptDraft env surroundings mi proposal.round blk parentRef) with
    | none => return ()
    | some bnew =>
      let pacemaker ← get
      if pacemaker.lastVotingHeight ≤ blk.number ∧ extendedFromLastCommitted pacemaker.pipeline bnew = true then
        voteFor env keys surroundings mi proposal.round blk

/-! ## Votes, timeouts and queries -/

def addQCVote (surroundings : Surroundings) (index : Nat) (vote : Vote Digest) :
    Action (Pacemaker Digest Address Tx Key Sig QCID) (Option (QuorumCert Digest)) := do
  let pacemaker ← get
  let (manager, qc) := QCVoteManager.addVote env.bls surroundings.lastVote pacemaker.qcVoteManager index
    pacemaker.reactor.curEpoch vote.voteRound vote.voteBlockID vote.voteSignature vote.voteHash
  set { pacemaker with qcVoteManager := manager }
  return qc

def onReceiveVote [DecidableEq Key] (surroundings : Surroundings) (mi : IncomingMsg Digest Address Tx Key)
    (vote : Vote Digest) : Action (Pacemaker Digest Address Tx Key Sig QCID) Unit := do
  let pacemaker ← get
  let round := vote.voteRound
  let nextRound := (round + 1) % 2 ^ 32
  if !(round = pacemaker.currentRound ∧ round = 0) ∧ round < (pacemaker.currentRound + 2 ^ 32 - 1) % 2 ^ 32 then
    return ()
  if pacemaker.reactor.amIRoundProposer keys.myPubKey nextRound = false then return ()
  match ← onSpace (DraftSpace.getDraft env.hashing vote.voteBlockID) with
  | none => delayedAdd mi
  | some ref =>
    let b ← onSpace (DraftSpace.draft ref)
    if b.round ≠ round then return ()
    match ← addQCVote env surroundings mi.msg.signerIndex vote with
    | none => return ()
    | some qc =>
      if ← onPipeline (Pipeline.updateQCHigh (some ref) qc) then
        onPipeline (Pipeline.update env.toChainHashing qc)
        enterRound nextRound

/-- The last vote of a member that timed out may complete a certificate. -/
def collectLastVote (surroundings : Surroundings) (index : Nat) (lastVote : Vote Digest) :
    Action (Pacemaker Digest Address Tx Key Sig QCID) Unit := do
  match ← addQCVote env surroundings index lastVote with
  | none => return ()
  | some newQC =>
    let escortQCNode ← onSpace (DraftSpace.getDraftByEscortQC env.hashing newQC)
    let _ ← onPipeline (Pipeline.updateQCHigh escortQCNode newQC)
    onPipeline (Pipeline.update env.toChainHashing newQC)

/-- The certificate a timeout carries is taken over without being validated. -/
def adoptQCHigh (decodedQCHigh : Option (QuorumCert Digest)) : Action (Pacemaker Digest Address Tx Key Sig QCID) Unit := do
  let qc ← Exec.deref decodedQCHigh
  let qcNode ← onSpace (DraftSpace.getDraftByEscortQC env.hashing qc)
  let _ ← onPipeline (Pipeline.updateQCHigh qcNode qc)

def collectWish (surroundings : Surroundings) (index epoch : Nat) (timeout : Timeout Digest) :
    Action (Pacemaker Digest Address Tx Key Sig QCID) Unit :=
  modify fun pacemaker =>
    let added := TCVoteManager.addVote env.bls surroundings.lastVote pacemaker.tcVoteManager index epoch
      timeout.wishRound timeout.wishVoteSig timeout.wishVoteHash
    { pacemaker with tcVoteManager := added.1, tcHigh := if added.2.isSome then added.2 else pacemaker.tcHigh }

def onReceiveTimeout [DecidableEq Key] (surroundings : Surroundings) (mi : IncomingMsg Digest Address Tx Key)
    (timeout : Timeout Digest) : Action (Pacemaker Digest Address Tx Key Sig QCID) Unit := do
  let pacemaker ← get
  if pacemaker.reactor.amIRoundProposer keys.myPubKey timeout.wishRound = false then return ()
  collectLastVote env surroundings mi.msg.signerIndex timeout.lastVote
  adoptQCHigh env timeout.decodedQCHigh
  collectWish env surroundings mi.msg.signerIndex mi.msg.epoch timeout

def forwardAll : List Ref → Action (Pacemaker Digest Address Tx Key Sig QCID) Unit
  | [] => return ()
  | ref :: rest => do
    let proposal ← onSpace (DraftSpace.draft ref)
    sendMsg (← Exec.deref proposal.msg)
    forwardAll rest

def onReceiveQuery (lastCommitted : BlockID Digest) : Action (Pacemaker Digest Address Tx Key Sig QCID) Unit := do
  let pacemaker ← get
  let proposals ← onSpace (DraftSpace.getDraftsUpTo env.hashing lastCommitted pacemaker.pipeline.qcHigh.qc)
  forwardAll proposals

/-! ## Proposing -/

/-- What packing a new block starts from: the fields the packer fills, the verdict of the PoW pool on
a K-block, and whether packing succeeds. -/
structure Packing (Digest Address Tx : Type) where
  template : Block Digest Address Tx
  proposeKBlock : Bool
  succeeds : Bool

/-- The block a packer makes on a parent; no block comes out whose signer cannot be recovered. -/
def pack (packing : Packing Digest Address Tx) (parent : Block Digest Address Tx) (qc : QuorumCert Digest)
    (blockType : BlockType) : Option (Block Digest Address Tx) :=
  let header := { packing.template.header with parentID := parent.id env.hashing, blockType := blockType }
  match packing.succeeds, header.signer env.hashing with
  | true, .ok _ => some { packing.template with header := header, qc := qc, magic := 1 }
  | _, _ => none

/-- A stop block is not proposed when the certificate chain leads to a K-block three blocks down. -/
def skipsStopBlock (parent : Block Digest Address Tx) : Action (DraftSpace Digest Address Tx) Bool := do
  match ← DraftSpace.getDraftByEscortQC env.hashing parent.qc with
  | none => return false
  | some ref =>
    let grandFather ← DraftSpace.draft ref
    match ← DraftSpace.getDraftByEscortQC env.hashing grandFather.proposedBlock.qc with
    | none => return false
    | some ref =>
      let grandGrandFather ← DraftSpace.draft ref
      return grandGrandFather.proposedBlock.isKBlock

def createLeaf (packing : Packing Digest Address Tx) (reactor : Reactor Key) (timeout : Bool)
    (parentRef : Ref) (justify : DraftQC Digest) (round : Nat) :
    Action (DraftSpace Digest Address Tx) (Option (DraftBlock Digest Address Tx)) := do
  let parent ← DraftSpace.draft parentRef
  let parentBlock := parent.proposedBlock
  let leaf (blockType : BlockType) : Option (DraftBlock Digest Address Tx) :=
    (pack env packing parentBlock justify.qc blockType).map fun block =>
      { msg := none, height := block.number, round := round, parent := some parentRef, justify := some justify
        committed := false, proposedBlock := block, returnTxsToPool := true, successProcessed := true
        knownBlock := false, receipts := true }
  if (parentBlock.isKBlock || parentBlock.isSBlock) && reactor.curEpoch = parentBlock.qc.epochID then
    if ← skipsStopBlock env parentBlock then return none
    return leaf .sBlock
  if !parentBlock.isKBlock && !timeout && packing.proposeKBlock then return leaf .kBlock
  if !parentBlock.isKBlock && reactor.curEpoch ≠ 0 && round ≠ 0 && (round ≤ justify.qc.qcRound || round ≤ parent.round) then return none
  return leaf .mBlock

def onPropose (surroundings : Surroundings) (packing : Packing Digest Address Tx) (round : Nat) :
    Action (Pacemaker Digest Address Tx Key Sig QCID) (Option Ref) := do
  let pacemaker ← get
  let qc := pacemaker.pipeline.qcHigh
  let parent ← Exec.deref (← onSpace (DraftSpace.getDraftByEscortQC env.hashing qc.qc))
  match ← onSpace (createLeaf env packing pacemaker.reactor pacemaker.tcHigh.isSome parent qc round) with
  | none => return none
  | some bnew =>
    if bnew.height ≤ qc.qc.qcHeight then return none
    match ← buildMessage env keys surroundings.now pacemaker.reactor.curEpoch
        (.proposal ⟨round, some bnew.proposedBlock, pacemaker.tcHigh⟩) with
    | none => return none
    | some message =>
      let ref ← onSpace (DraftSpace.allocate { bnew with msg := some message })
      modify fun pacemaker => { pacemaker with curProposal := some ref }
      return some ref

def onBeat [DecidableEq Key] (surroundings : Surroundings) (packing : Packing Digest Address Tx) (epoch round : Nat) :
    Action (Pacemaker Digest Address Tx Key Sig QCID) Unit := do
  let pacemaker ← get
  if epoch < pacemaker.reactor.curEpoch then return ()
  if epoch = pacemaker.reactor.curEpoch ∧ toInt32 round ≤ pacemaker.lastOnBeatRound then return ()
  if pacemaker.reactor.amIRoundProposer keys.myPubKey round = false then return ()
  setLastOnBeatRound (toInt32 round)
  match ← onSpace (DraftSpace.getDraftByEscortQC env.hashing pacemaker.pipeline.qcHigh.qc) with
  | none => return ()
  | some _ =>
    match ← onPropose env keys surroundings packing round with
    | none => return ()
    | some bnew =>
      onSpace (DraftSpace.addDraft env.hashing bnew)
      modify fun pacemaker => { pacemaker with tcHigh := none }

def onBroadcastProposal : Action (Pacemaker Digest Address Tx Key Sig QCID) Unit := do
  let pacemaker ← get
  match pacemaker.curProposal with
  | none => return ()
  | some ref =>
    let proposal ← onSpace (DraftSpace.draft ref)
    let epoch ← proposal.proposedBlock.getBlockEpoch
    if epoch < pacemaker.reactor.curEpoch then return ()
    match proposal.msg with
    | none => return ()
    | some message => sendMsg message

/-- A timeout signs no new vote: it repeats the last one. -/
def onRoundTimeout (surroundings : Surroundings) (epoch round : Nat) : Action (Pacemaker Digest Address Tx Key Sig QCID) Unit := do
  enterRound ((round + 1) % 2 ^ 32)
  let pacemaker ← get
  let wishVoteHash := env.timeoutVotingHash epoch round
  match ← buildMessage env keys surroundings.now epoch (.timeout ⟨round, some pacemaker.pipeline.qcHigh.qc, wishVoteHash,
      keys.signHash wishVoteHash, pacemaker.lastVoteMsg.getD (noVote env.hashing)⟩) with
  | none => return ()
  | some message => sendMsg message

end Pacemaker
end MeterPov.Consensus
