import MeterPov.Consensus.Pacemaker
import MeterPov.Lib.Trace

/-! One replica: admission of messages, the main loop and epoch changes (`AddIncoming` and
`UpdateCurEpoch` of `consensus/reactor.go`, `consensus/incoming_queue.go`, `mainLoop` and `Regulate` of
`consensus/pacemaker.go`).

A panic in a handler ends the process: the replica takes no step after it. -/

set_option autoImplicit false

namespace MeterPov.Consensus

open Lib Blocks Chains

/-- The committees drawn on entering an epoch, and whether this node finds itself in the committee
the chain recorded. -/
structure Renewal (Key : Type) where
  committee : List (Validator Key)
  committeeIndex : Nat
  inCommittee : Bool
  verified : Bool
  lastCommittee : List (Validator Key)
  hardCommittee : List (Validator Key)
  bootstrapCommittee11 : List (Validator Key)
  bootstrapCommittee5 : List (Validator Key)
  lastStagingCommittee : List (Validator Key)
  delegateSource : DelegateSource

variable {Digest Address Tx Key Sig QCID : Type} [DecidableEq Digest]

namespace Reactor

/-- The epoch number and the nonce that follow the last K-block, when it is found. -/
def nextEpoch (hashing : Hashing Digest Address) (genesisNonce : Nat) (chain : Chain Digest Address Tx) : Exec (Option (Nat × Nat)) :=
  let best := chain.bestBlock
  match if best.isKBlock then some best else chain.getTrunkBlock hashing best.header.lastKBlockHeight with
  | none => .ok none
  | some bestK =>
    if bestK.number = 0 then .ok (some (0, genesisNonce))
    else do
      let epoch ← bestK.getBlockEpoch
      .ok (some ((epoch + 1) % 2 ^ 64, bestK.kBlockNonce))

/-- The committees and the nonce change before the node looks for itself in the recorded committee;
the epoch number changes only after it is found there. -/
def enterEpoch (reactor : Reactor Key) (renewal : Renewal Key) (epoch nonce : Nat) : Reactor Key where
  curEpoch := if renewal.inCommittee && !renewal.verified then reactor.curEpoch else epoch
  curNonce := nonce
  committee := renewal.committee
  committeeSize := renewal.committee.length % 2 ^ 32
  committeeSize_eq := rfl
  lastCommittee := if 0 < reactor.committee.length then reactor.committee else renewal.lastCommittee
  hardCommittee := if renewal.delegateSource = .fromStaking then renewal.committee else renewal.hardCommittee
  bootstrapCommittee11 := renewal.bootstrapCommittee11
  bootstrapCommittee5 := renewal.bootstrapCommittee5
  lastStagingCommittee := renewal.lastStagingCommittee
  delegateSource := renewal.delegateSource
  isStaging := reactor.isStaging
  committeeIndex := renewal.committeeIndex
  inCommittee := renewal.inCommittee

def updateCurEpoch (hashing : Hashing Digest Address) (genesisNonce : Nat) (chain : Chain Digest Address Tx)
    (renewal : Renewal Key) (reactor : Reactor Key) : Exec (Reactor Key) := do
  match ← nextEpoch hashing genesisNonce chain with
  | none => .ok reactor
  | some (epoch, nonce) =>
    if reactor.curEpoch ≤ epoch ∧ reactor.curNonce ≠ nonce then .ok (reactor.enterEpoch renewal epoch nonce)
    else .ok reactor

end Reactor

namespace Pacemaker

variable (env : PacemakerEnv Digest Address Tx Key Sig QCID) (keys : ReplicaKeys Digest Key)

def renewVoteManagers : Action (Pacemaker Digest Address Tx Key Sig QCID) Unit :=
  modify fun pacemaker =>
    let reactor := pacemaker.reactor
    { pacemaker with
      qcVoteManager :=
        if pacemaker.qcVoteManager.committeeSize ≠ reactor.committeeSize then VoteManager.new reactor.committeeSize
        else pacemaker.qcVoteManager.cleanUpTo pacemaker.pipeline.space.chain.bestQC.qcHeight
      tcVoteManager :=
        if pacemaker.tcVoteManager.committeeSize ≠ reactor.committeeSize then VoteManager.new reactor.committeeSize
        else pacemaker.tcVoteManager.cleanUpTo reactor.curEpoch }

def regulate (renewal : Renewal Key) : Action (Pacemaker Digest Address Tx Key Sig QCID) Unit := do
  let pacemaker ← get
  let chain := pacemaker.pipeline.space.chain
  let reactor ← pacemaker.reactor.updateCurEpoch env.hashing env.genesisNonce chain renewal
  set { pacemaker with reactor := reactor }
  renewVoteManagers
  let bestQC := chain.bestQC
  match chain.getTrunkBlock env.hashing bestQC.qcHeight with
  | none => throw (.raised "could not get bestBlock with bestQC")
  | some bestBlk =>
    let actualRound := if bestBlk.isKBlock ∨ bestBlk.number = 0 then 0 else (bestQC.qcRound + 1) % 2 ^ 32
    setLastOnBeatRound (toInt32 ((actualRound + 2 ^ 32 - 1) % 2 ^ 32))
    let bestNode ← onSpace (DraftSpace.getDraftByEscortQC env.hashing bestQC)
    modify fun pacemaker => { pacemaker with lastVotingHeight := 0, lastVoteMsg := none }
    let node ← Exec.deref bestNode
    modify fun pacemaker =>
      { pacemaker with
        pipeline := { pacemaker.pipeline with lastCommitted := node, qcHigh := ⟨some node, bestQC⟩ } }
    onSpace (DraftSpace.addDraft env.hashing node)
    modify fun pacemaker => { pacemaker with currentRound := 0 }
    enterRound actualRound

/-! ## Admission of messages -/

/-- The newest 1024 messages of a queue. -/
def pushBounded (queue : List (IncomingMsg Digest Address Tx Key)) (mi : IncomingMsg Digest Address Tx Key) :
    List (IncomingMsg Digest Address Tx Key) :=
  queue.drop (queue.length - 1023) ++ [mi]

def forceAdd (mi : IncomingMsg Digest Address Tx Key) : Action (Pacemaker Digest Address Tx Key Sig QCID) Unit :=
  modify fun pacemaker =>
    { pacemaker with inQueue := { pacemaker.inQueue with queue := pushBounded pacemaker.inQueue.queue mi } }

def addToQueue (mi : IncomingMsg Digest Address Tx Key) : Action (Pacemaker Digest Address Tx Key Sig QCID) Unit :=
  modify fun pacemaker =>
    let inQueue := pacemaker.inQueue
    let hash := mi.msg.getMsgHash env.messages
    if inQueue.cache.contains hash then pacemaker
    else
      { pacemaker with
        inQueue := { inQueue with cache := inQueue.cache.add hash, queue := pushBounded inQueue.queue mi } }

/-- The decoding checks: a proposal without a block is dropped, a timeout without a certificate is
only logged. -/
def decodes (message : Message Digest Address Tx) : Bool :=
  match message.body with
  | .proposal proposal => proposal.decodedBlock.isSome
  | _ => true

def addIncoming [DecidableEq Key] (mi : IncomingMsg Digest Address Tx Key) : Action (Pacemaker Digest Address Tx Key Sig QCID) Unit := do
  let pacemaker ← get
  let message := mi.msg
  let curEpoch := pacemaker.reactor.curEpoch
  if message.epoch < curEpoch then return ()
  if message.epoch = curEpoch then
    match pacemaker.reactor.committee[message.signerIndex]? with
    | none => return ()
    | some signer =>
      if message.verifyMsgSignature env.messages signer.pubKey = false then return ()
      if decodes message then addToQueue env { mi with signer := some signer }
  else if decodes message then
    modify fun pacemaker =>
      { pacemaker with inQueue := { pacemaker.inQueue with future := pacemaker.inQueue.future ++ [mi] } }

/-! ## The main loop -/

variable [DecidableEq Key] [DecidableEq QCID]

def dispatch (surroundings : Surroundings) (mi : IncomingMsg Digest Address Tx Key) :
    Action (Pacemaker Digest Address Tx Key Sig QCID) Unit :=
  match mi.msg.body with
  | .proposal proposal => onReceiveProposal env keys surroundings mi proposal
  | .vote vote => onReceiveVote env keys surroundings mi vote
  | .timeout timeout => onReceiveTimeout env keys surroundings mi timeout
  | .query lastCommitted => onReceiveQuery env lastCommitted

def dequeue (surroundings : Surroundings) : Action (Pacemaker Digest Address Tx Key Sig QCID) Unit := do
  let pacemaker ← get
  match pacemaker.inQueue.queue with
  | [] => return ()
  | mi :: rest =>
    set { pacemaker with inQueue := { pacemaker.inQueue with queue := rest } }
    if pacemaker.reactor.inCommittee && mi.msg.epoch = pacemaker.reactor.curEpoch then
      dispatch env keys surroundings mi

end Pacemaker

inductive ReplicaEvent (Digest Address Tx Key : Type) where
  | receive (message : Message Digest Address Tx)
  | retryFuture (position : Nat)
  | requeueDelayed (position : Nat)
  | dequeue (surroundings : Surroundings)
  | roundTimeout (surroundings : Surroundings) (epoch round : Nat)
  | beat (surroundings : Surroundings) (packing : Pacemaker.Packing Digest Address Tx) (epoch round : Nat)
  | broadcast
  | regulate (renewal : Renewal Key)
  /-- A block that the node imports from a peer, and a certificate it validates for that. -/
  | imported (block : Block Digest Address Tx) (escortQC : QuorumCert Digest)
  | validated (qc : QuorumCert Digest)

structure Replica (Digest Address Tx Key Sig QCID : Type) where
  pacemaker : Pacemaker Digest Address Tx Key Sig QCID
  halted : Bool

namespace Replica

variable [DecidableEq Key] [DecidableEq QCID]
variable (env : PacemakerEnv Digest Address Tx Key Sig QCID) (keys : ReplicaKeys Digest Key)

open Pacemaker in
def handle (event : ReplicaEvent Digest Address Tx Key) : Action (Pacemaker Digest Address Tx Key Sig QCID) Unit :=
  match event with
  | .receive message => addIncoming env ⟨message, none, 0⟩
  | .retryFuture position => do
    let pacemaker ← get
    match pacemaker.inQueue.future[position]? with
    | none => return ()
    | some mi =>
      set { pacemaker with
        inQueue := { pacemaker.inQueue with future := pacemaker.inQueue.future.eraseIdx position } }
      addIncoming env mi
  | .requeueDelayed position => do
    let pacemaker ← get
    match pacemaker.inQueue.delayed[position]? with
    | none => return ()
    | some mi =>
      set { pacemaker with
        inQueue := { pacemaker.inQueue with delayed := pacemaker.inQueue.delayed.eraseIdx position } }
      forceAdd mi
  | .dequeue surroundings => dequeue env keys surroundings
  | .roundTimeout surroundings epoch round => do
    let pacemaker ← get
    if epoch < pacemaker.reactor.curEpoch then return ()
    onRoundTimeout env keys surroundings epoch round
  | .beat surroundings packing epoch round => onBeat env keys surroundings packing epoch round
  | .broadcast => onBroadcastProposal
  | .regulate renewal => regulate env renewal
  | .imported block escortQC =>
    onSpace (modify fun space =>
      match space.chain.addBlock env.hashing env.idLess block escortQC with
      | .error _ => space
      | .ok (chain, _) => { space with chain := chain })
  | .validated qc =>
    modify fun pacemaker => { pacemaker with validQCs := pacemaker.validQCs.add (env.qcID qc) }

def step (replica : Replica Digest Address Tx Key Sig QCID) (event : ReplicaEvent Digest Address Tx Key) :
    Replica Digest Address Tx Key Sig QCID :=
  if replica.halted then replica
  else
    match handle env keys event replica.pacemaker with
    | .ok _ pacemaker => ⟨pacemaker, false⟩
    | .error _ pacemaker => ⟨pacemaker, true⟩

variable {env : PacemakerEnv Digest Address Tx Key Sig QCID} {keys : ReplicaKeys Digest Key}
  {replica : Replica Digest Address Tx Key Sig QCID} {event : ReplicaEvent Digest Address Tx Key}
  {pre running crashed : Pacemaker Digest Address Tx Key Sig QCID → Prop}

theorem step_halted (halted : replica.halted = true) : step env keys replica event = replica := by simp [step, halted]

theorem step_of_triple (handled : Action.Triple pre (handle env keys event) (fun _ => running) crashed)
    (alive : replica.halted = false) (given : pre replica.pacemaker) :
    ((step env keys replica event).halted = false ∧ running (step env keys replica event).pacemaker) ∨
      ((step env keys replica event).halted = true ∧ crashed (step env keys replica event).pacemaker) := by
  have result := handled replica.pacemaker given
  simp only [step, alive, Bool.false_eq_true, if_false]
  split at result
  · rename_i ran
    rw [ran]
    exact .inl ⟨rfl, result⟩
  · rename_i ran
    rw [ran]
    exact .inr ⟨rfl, result⟩

theorem step_running (handled : Action.Triple pre (handle env keys event) (fun _ => running) crashed)
    (alive : replica.halted = false) (given : pre replica.pacemaker) (still : (step env keys replica event).halted = false) :
    running (step env keys replica event).pacemaker := by
  rcases step_of_triple handled alive given with ⟨_, holds⟩ | ⟨halted, _⟩
  · exact holds
  · rw [still] at halted
    contradiction

theorem step_keeps (held : running replica.pacemaker) (handled : Action.Always (· = replica.pacemaker) (handle env keys event) running) :
    running (step env keys replica event).pacemaker := by
  cases alive : replica.halted with
  | true => rwa [step_halted alive]
  | false => rcases step_of_triple handled alive rfl with ⟨_, holds⟩ | ⟨_, holds⟩ <;> exact holds

end Replica
end MeterPov.Consensus
