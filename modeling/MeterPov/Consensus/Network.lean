import MeterPov.Consensus.Ballots
import MeterPov.Lib.Quorum

/-! The replicas of one epoch, the messages that can reach them, and what their votes certify.

Messages may be lost, delayed, repeated and reordered: any replica may receive any message at any
time, as long as nobody had to forge a signature for it. A member that is not honest takes no steps of
its own here; whatever it sends is among the messages that may be received. -/

set_option autoImplicit false

namespace MeterPov.Consensus

open Lib Blocks Chains Relation

variable {Digest Address Tx Key Sig QCID : Type}

/-- The committee of an epoch. The floor is the number of the block the epoch starts from; the votes
that members signed before the epoch are for blocks up to it. -/
structure Epoch (Digest Address Tx Key : Type) (hashing : Hashing Digest Address) where
  committee : List (Validator Key)
  small : committee.length < 2 ^ 32
  byzantine : Finset (Fin committee.length)
  few : byzantine.card ≤ (committee.length - 1) / 3
  floor : Nat
  earlier : List Digest
  earlier_below : ∀ block : Block Digest Address Tx, block.votingHash hashing ∈ earlier → block.number ≤ floor

namespace Epoch

variable {hashing : Hashing Digest Address} (epoch : Epoch Digest Address Tx Key hashing)

abbrev Member := Fin epoch.committee.length

abbrev Votes := epoch.Member → List (SignedVote Digest Address Tx Key)

def faulty (member : epoch.Member) : FaultySet epoch.Member where
  members := epoch.byzantine
  few := by
    have := epoch.few
    have := member.isLt
    rw [Fintype.card_fin]
    omega

/-! ## Certified blocks -/

/-- A quorum whose honest members all voted for the block. -/
def Certified (votes : epoch.Votes) (id : BlockID Digest) : Prop :=
  ∃ quorum : Quorum epoch.Member, ∀ member ∈ quorum.members, member ∉ epoch.byzantine →
    ∃ vote ∈ votes member, vote.vote.voteBlockID = id

/-- What an honest vote stands for: a block above the floor whose parent is certified, too, unless the
parent is one that needs no certificate. -/
structure Justified (votes : epoch.Votes) (signed : SignedVote Digest Address Tx Key) : Prop where
  id : signed.vote.voteBlockID = signed.block.id hashing
  hash : signed.vote.voteHash = signed.block.votingHash hashing
  recoverable : signed.block.Recoverable hashing
  number : signed.block.number = signed.block.parentID.number + 1
  parent : max 1 epoch.floor < signed.block.parentID.number → epoch.Certified votes signed.block.parentID

/-- No two votes at one height are for blocks with different parents. -/
def OneParent (signed : List (SignedVote Digest Address Tx Key)) : Prop :=
  ∀ first ∈ signed, ∀ second ∈ signed, first.block.number = second.block.number →
    first.block.parentID = second.block.parentID

variable {epoch}

variable {votes later : epoch.Votes}

theorem Certified.mono {id} (grow : ∀ member, ∀ vote ∈ votes member, vote ∈ later member) (certified : epoch.Certified votes id) : epoch.Certified later id := by
  obtain ⟨quorum, voted⟩ := certified
  refine ⟨quorum, fun member inQuorum honest => ?_⟩
  obtain ⟨vote, signed, same⟩ := voted member inQuorum honest
  exact ⟨vote, grow member vote signed, same⟩

/-- The votes of honest members certify a tree in which blocks of one height share their parent. -/
theorem certification (member : epoch.Member) (collisionFree : CollisionFree Tx hashing)
    (justified : ∀ member, member ∉ epoch.byzantine → ∀ vote ∈ votes member, epoch.Justified votes vote)
    (oneParent : ∀ member, member ∉ epoch.byzantine → OneParent (votes member)) :
    Certification (Extends Tx hashing) BlockID.number (epoch.Certified votes) (max 1 epoch.floor) := by
  have unique : Relator.RightUnique (Extends Tx hashing) := by
    rintro child first second ⟨block, recoverable, rfl, rfl⟩ ⟨other, -, same, rfl⟩
    exact (collisionFree.id block other recoverable same.symm).2.symm
  -- An honest member of the quorum tells the block and its parent.
  have voted {node : BlockID Digest} (isCertified : epoch.Certified votes node) :
      ∃ vote, epoch.Justified votes vote ∧ vote.block.id hashing = node ∧ Extends Tx hashing node vote.block.parentID := by
    obtain ⟨quorum, all⟩ := isCertified
    obtain ⟨voter, inQuorum, honest⟩ := quorum.exists_correct (epoch.faulty member)
    obtain ⟨vote, signed, same⟩ := all voter inQuorum honest
    have valid := justified voter honest vote signed
    rw [valid.id] at same
    exact ⟨vote, valid, same, vote.block, valid.recoverable, same, rfl⟩
  constructor
  · exact unique
  · intro node isCertified
    obtain ⟨vote, -, -, extended⟩ := voted isCertified
    exact ⟨_, extended⟩
  · intro node parent isCertified isParent
    obtain ⟨vote, valid, same, extended⟩ := voted isCertified
    rw [← unique extended isParent, ← same, Block.id_number]
    exact valid.number
  · intro node parent isCertified isParent high
    obtain ⟨vote, valid, -, extended⟩ := voted isCertified
    rw [← unique extended isParent] at high ⊢
    exact valid.parent high
  · intro first second parent firstCertified secondCertified sameHeight isParent
    obtain ⟨firstQuorum, firstAll⟩ := firstCertified
    obtain ⟨secondQuorum, secondAll⟩ := secondCertified
    obtain ⟨voter, inFirst, inSecond, honest⟩ := firstQuorum.exists_common secondQuorum (epoch.faulty member)
    obtain ⟨firstVote, firstSigned, isFirst⟩ := firstAll voter inFirst honest
    obtain ⟨secondVote, secondSigned, isSecond⟩ := secondAll voter inSecond honest
    have firstValid := justified voter honest firstVote firstSigned
    have secondValid := justified voter honest secondVote secondSigned
    rw [firstValid.id] at isFirst
    rw [secondValid.id] at isSecond
    have heights : firstVote.block.number = secondVote.block.number := by
      rw [← isFirst, ← isSecond, Block.id_number, Block.id_number] at sameHeight
      exact sameHeight
    have shared := oneParent voter honest firstVote firstSigned secondVote secondSigned heights
    have isSame := unique ⟨firstVote.block, firstValid.recoverable, isFirst, rfl⟩ isParent
    exact ⟨secondVote.block, secondValid.recoverable, isSecond, shared.symm.trans isSame⟩

end Epoch

/-! ## Steps of the network -/

abbrev Network {hashing : Hashing Digest Address} (epoch : Epoch Digest Address Tx Key hashing) (Sig QCID : Type) :=
  epoch.Member → Replica Digest Address Tx Key Sig QCID

namespace Network

variable {env : PacemakerEnv Digest Address Tx Key Sig QCID} {epoch : Epoch Digest Address Tx Key env.hashing}

def votes (network : Network epoch Sig QCID) : epoch.Votes := fun member => (network member).pacemaker.signed

section

variable (env : PacemakerEnv Digest Address Tx Key Sig QCID) (epoch : Epoch Digest Address Tx Key env.hashing) (votes : epoch.Votes)

/-- Aggregate signatures are not forged: the honest members behind a certificate that passes the
signature check have signed its hash, in this epoch or before it. -/
def Unforged (qc : QuorumCert Digest) : Prop :=
  match qc.voterBitArray with
  | .ok (some array) =>
    checkAggregate env.bls qc.voterAggSig qc.voterMsgHash (voters (some array) epoch.committee) = .ok true →
      ∀ member, member ∉ epoch.byzantine → array.getIndex member = true →
        qc.voterMsgHash ∈ epoch.earlier ∨ ∃ vote ∈ votes member, vote.vote.voteHash = qc.voterMsgHash
  | _ => True

def CarriesUnforged (body : MessageBody Digest Address Tx) : Prop :=
  match body with
  | .proposal proposal => ∀ blk ∈ proposal.decodedBlock, Unforged env epoch votes blk.qc
  | _ => True

end

variable [DecidableEq Digest] [DecidableEq Key] [DecidableEq QCID]

/-- Whoever delivers the message, no honest member's signature was forged for it. -/
def Genuine (env : PacemakerEnv Digest Address Tx Key Sig QCID) {epoch : Epoch Digest Address Tx Key env.hashing}
    (network : Network epoch Sig QCID) (message : Message Digest Address Tx) : Prop :=
  (∀ member, member ∉ epoch.byzantine →
    message.verifyMsgSignature env.messages (epoch.committee.get member).pubKey = true →
    message ∈ (network member).pacemaker.sent) ∧
  CarriesUnforged env epoch network.votes message.body

/-- The events of an epoch: deliveries, timeouts and beats in any order. Every executed block passes. -/
def InEpoch (env : PacemakerEnv Digest Address Tx Key Sig QCID) {epoch : Epoch Digest Address Tx Key env.hashing}
    (network : Network epoch Sig QCID) (event : ReplicaEvent Digest Address Tx Key) : Prop :=
  match event with
  | .receive message => Genuine env network message
  | .dequeue surroundings | .beat surroundings _ _ _ => surroundings.execution = ⟨true, true, true⟩
  | .retryFuture _ | .requeueDelayed _ | .roundTimeout .. | .broadcast => True
  | .regulate _ | .imported .. | .validated _ => False

def step (env : PacemakerEnv Digest Address Tx Key Sig QCID) {epoch : Epoch Digest Address Tx Key env.hashing}
    (keys : epoch.Member → ReplicaKeys Digest Key) (network : Network epoch Sig QCID)
    (label : epoch.Member × ReplicaEvent Digest Address Tx Key) : Network epoch Sig QCID :=
  Function.update network label.1 (Replica.step env (keys label.1) (network label.1) label.2)

/-- A run of the honest replicas in which every event meets a condition on the state it finds. -/
abbrev Run (env : PacemakerEnv Digest Address Tx Key Sig QCID) {epoch : Epoch Digest Address Tx Key env.hashing}
    (keys : epoch.Member → ReplicaKeys Digest Key)
    (meets : Pacemaker Digest Address Tx Key Sig QCID → ReplicaEvent Digest Address Tx Key → Prop) :=
  Lib.Trace fun (network : Network epoch Sig QCID) label next =>
    (label.1 ∉ epoch.byzantine ∧ InEpoch env network label.2 ∧ meets (network label.1).pacemaker label.2) ∧
      step env keys network label = next

/-! ## The conditions of agreement -/

/-- The verdict of the certificate check on a block. -/
def accepts (env : PacemakerEnv Digest Address Tx Key Sig QCID) (pacemaker : Pacemaker Digest Address Tx Key Sig QCID)
    (block : Block Digest Address Tx) (qc : QuorumCert Digest) : Exec Bool := do
  let (valid, _) ← validateQC ⟨env.hashing, env.bls, pacemaker.reactor,
    pacemaker.pipeline.space.chain.bestBlock.number, env.qcID⟩ pacemaker.validQCs block qc
  .ok valid

/-- The bits of the certificate are counted the same over the whole array and at the members. -/
def CountsOnce (epoch : Epoch Digest Address Tx Key env.hashing) (qc : QuorumCert Digest) : Prop :=
  match qc.voterBitArray with
  | .ok (some array) => CountsAgree array epoch.committee.length
  | _ => True

/-- A certificate that is accepted for a block above the floor is verified by the current committee,
and one that is accepted for another block is for that block or names no height above the floor. -/
def AcceptsCurrent (env : PacemakerEnv Digest Address Tx Key Sig QCID) (epoch : Epoch Digest Address Tx Key env.hashing)
    (pacemaker : Pacemaker Digest Address Tx Key Sig QCID) (block : Block Digest Address Tx) (qc : QuorumCert Digest) : Prop :=
  accepts env pacemaker block qc = .ok true →
    if max 1 epoch.floor < block.number then
      block.verifyQC env.hashing qc env.bls epoch.committee = .ok (.ok true) ∧ CountsOnce epoch qc
    else qc.qcHeight ≤ max 1 epoch.floor ∨ qc.voterMsgHash = block.votingHash env.hashing

/-- The checks the handler of proposals does not make. -/
structure SafeProposal (env : PacemakerEnv Digest Address Tx Key Sig QCID) (epoch : Epoch Digest Address Tx Key env.hashing)
    (pacemaker : Pacemaker Digest Address Tx Key Sig QCID) (blk : Block Digest Address Tx) : Prop where
  above : epoch.floor < blk.number
  revote : ∀ last ∈ pacemaker.signed.getLast?, last.block.number = blk.number → last.block.parentID = blk.parentID
  parent : ∀ parent ∈ pacemaker.pipeline.space.blockAt env.hashing blk.parentID,
    AcceptsCurrent env epoch pacemaker parent blk.qc

/-- The hash of a signed vote is the voting hash of no block but the one it names. -/
def NamesItsBlock (Tx : Type) (hashing : Hashing Digest Address) (vote : Vote Digest) : Prop :=
  vote.voteSignature.length ≠ 0 → ∀ block : Block Digest Address Tx, block.votingHash hashing = vote.voteHash →
    block.id hashing = vote.voteBlockID

section

variable (env : PacemakerEnv Digest Address Tx Key Sig QCID) (epoch : Epoch Digest Address Tx Key env.hashing) (pacemaker : Pacemaker Digest Address Tx Key Sig QCID)

def SafeBody (body : MessageBody Digest Address Tx) : Prop :=
  match body with
  | .proposal proposal => ∀ blk ∈ proposal.decodedBlock, SafeProposal env epoch pacemaker blk
  | .vote vote => NamesItsBlock Tx env.hashing vote
  | .timeout timeout => NamesItsBlock Tx env.hashing timeout.lastVote
  | .query _ => True

def Safe (event : ReplicaEvent Digest Address Tx Key) : Prop :=
  match event with
  | .dequeue _ => ∀ mi ∈ pacemaker.inQueue.queue.head?, SafeBody env epoch pacemaker mi.msg.body
  | _ => True

end

end Network
end MeterPov.Consensus
