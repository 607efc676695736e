import MeterPov.Consensus.HighHandlers
import MeterPov.Consensus.Voting

/-! The highest certificate over the run of a replica.

`Regulate` takes it from the chain, and from then on every handler hands new certificates over. A
certificate counts as vouched for by the event that brought it: it passed `ValidateQC` for a block, or the
vote manager aggregated it from the votes on file for one. -/

set_option autoImplicit false

namespace MeterPov.Consensus

open Lib Lib.Action Blocks Chains

section

variable {Digest Address Tx Key Sig QCID : Type} [DecidableEq Digest] [DecidableEq Key] [DecidableEq QCID]
variable {env : PacemakerEnv Digest Address Tx Key Sig QCID} {keys : ReplicaKeys Digest Key}
variable {missing : Prop} {vouched : BlockID Digest → QuorumCert Digest → Prop} {low : QuorumCert Digest}

namespace Pacemaker

/-- The message the main loop takes next, if it is handled. -/
def upcoming (pacemaker : Pacemaker Digest Address Tx Key Sig QCID) : Option (IncomingMsg Digest Address Tx Key) :=
  match pacemaker.inQueue.queue with
  | [] => none
  | mi :: _ => if pacemaker.reactor.inCommittee && mi.msg.epoch = pacemaker.reactor.curEpoch then some mi else none

def popped (pacemaker : Pacemaker Digest Address Tx Key Sig QCID) : Pacemaker Digest Address Tx Key Sig QCID :=
  { pacemaker with inQueue := { pacemaker.inQueue with queue := pacemaker.inQueue.queue.tail } }

def renewed (env : PacemakerEnv Digest Address Tx Key Sig QCID) (renewal : Renewal Key)
    (pacemaker : Pacemaker Digest Address Tx Key Sig QCID) : Pacemaker Digest Address Tx Key Sig QCID :=
  match pacemaker.reactor.updateCurEpoch env.hashing env.genesisNonce pacemaker.pipeline.space.chain renewal with
  | .ok reactor => { pacemaker with reactor := reactor }
  | .error _ => pacemaker

section

variable (env : PacemakerEnv Digest Address Tx Key Sig QCID) (keys : ReplicaKeys Digest Key) (missing : Prop) (vouched : BlockID Digest → QuorumCert Digest → Prop)

/-- What the certificates of a message lead to is vouched for. -/
def MessageVouched (surroundings : Surroundings)
    (state : Pacemaker Digest Address Tx Key Sig QCID) (mi : IncomingMsg Digest Address Tx Key) : Prop :=
  match mi.msg.body with
  | .proposal proposal => ∀ blk, proposal.decodedBlock = some blk → ∀ parent : Block Digest Address Tx,
      parent.id env.hashing = blk.parentID → Passes env state parent blk.qc → ProposalVouched env vouched state blk
  | .vote vote => ∀ qc, completedQC env surroundings state mi.msg.signerIndex vote = some qc → vouched vote.voteBlockID qc
  | .timeout timeout => state.reactor.amIRoundProposer keys.myPubKey timeout.wishRound = true →
      TimeoutVouched env missing vouched surroundings state mi.msg.signerIndex timeout
  | .query _ => True

def EventVouched (low : QuorumCert Digest)
    (state : Pacemaker Digest Address Tx Key Sig QCID) (event : ReplicaEvent Digest Address Tx Key) : Prop :=
  match event with
  | .dequeue surroundings => ∀ mi, state.upcoming = some mi → MessageVouched env keys missing vouched surroundings state.popped mi
  | .regulate _ =>
    let bestQC := state.pipeline.space.chain.bestQC
    AtMost low bestQC ∧ ∀ block, state.pipeline.space.nodeFor env.hashing bestQC = some block → vouched (block.id env.hashing) bestQC
  | _ => True

end

variable {start state : Pacemaker Digest Address Tx Key Sig QCID} {mi : IncomingMsg Digest Address Tx Key}
  {surroundings : Surroundings}

theorem dispatch_high (high : High env missing vouched low start)
    (known : MessageVouched env keys missing vouched surroundings start mi) :
    Always (· = start) (dispatch env keys surroundings mi) (High env missing vouched low) := by
  unfold dispatch
  unfold MessageVouched at known
  split <;> simp only [*] at known
  · exact onReceiveProposal_high high known
  · exact onReceiveVote_high high known
  · exact onReceiveTimeout_high high known
  · exact onReceiveQuery_high.start high

theorem dequeue_high (high : High env missing vouched low start)
    (known : ∀ mi, start.upcoming = some mi → MessageVouched env keys missing vouched surroundings start.popped mi) :
    Always (· = start) (dequeue env keys surroundings) (High env missing vouched low) := by
  refine .readThen fun state same => ?_
  subst same
  unfold upcoming popped at known
  split
  · exact .ret fun _ same => same ▸ high
  next mi rest isQueue =>
    rw [isQueue] at known
    refine .putThen (.branch (fun handled => ?_) fun _ => .ret ?_)
    · exact dispatch_high high (known mi (if_pos handled))
    · rintro after rfl
      exact high

/-! ## Regulation -/

omit [DecidableEq Key] [DecidableEq QCID] in
/-- It needs a highest certificate only where it panics before it has taken one. -/
theorem regulate_high {renewal} (tidy : start.pipeline.space.Tidy env.hashing) (above : AtMost low start.pipeline.space.chain.bestQC)
    (known : ∀ block, start.pipeline.space.nodeFor env.hashing start.pipeline.space.chain.bestQC = some block →
      vouched (block.id env.hashing) start.pipeline.space.chain.bestQC) :
    Triple (· = start) (regulate env renewal) (fun _ => High env missing vouched low)
      (fun state => High env missing vouched low start → High env missing vouched low state) := by
  refine .readThen fun state same => ?_
  subst same
  refine .lifting (fun _ _ _ same high => same ▸ high) fun reactor _ => ?_
  refine .via (fun _ after => after.pipeline = state.pipeline) (.put fun _ _ => rfl) fun _ => ?_
  refine .writeThen (fun _ same => same) ?_
  dsimp only
  split
  · exact .fault fun _ same high => high_of_pipeline high same
  next bestBlk isBest =>
    refine .writeThen (fun _ same => same) (.each fun middle same => ?_)
    refine onSpace_search DraftSpace.getDraftByEscortQC_spec fun bestNode space searched isFound => ?_
    rw [same] at searched isFound
    refine .via (fun _ after => after.pipeline = (middle.withSpace space).pipeline) (.write fun _ same => by rw [same]) fun _ => ?_
    refine .deref (fun _ after unmoved high => ?_) fun node isNode => ?_
    · exact high_of_pipeline ((high_of_pipeline high same).searched (same ▸ searched)) unmoved
    obtain ⟨draft, foundFor⟩ := isFound.2 node isNode
    refine .via (fun _ => High env missing vouched low) (.write fun after unmoved => ?_) fun _ => ?_
    · rw [unmoved]
      exact ⟨(searched.grows tidy).tidy, .inr ⟨node, rfl, draft, foundFor.placed, foundFor.height, foundFor.round, known _ foundFor.block⟩, above,
        (List.getElem?_eq_some_iff.mp foundFor.placed).1⟩
    have entered (round : Nat) : Always (High env missing vouched low) (do
          onSpace (DraftSpace.addDraft env.hashing node)
          modify fun pacemaker : Pacemaker Digest Address Tx Key Sig QCID => { pacemaker with currentRound := 0 }
          enterRound round) (High env missing vouched low) :=
      .seq (onSpace_high DraftSpace.Growing.addDraft) fun _ =>
        .writeThen (fun _ high => high) (high_of_sends fun _ => enterRound_sends)
    exact Triple.conseq (entered _) (fun _ high => high) (fun _ _ high => high) fun _ high _ => high

/-! ## Every event -/

omit [DecidableEq Digest] [DecidableEq Key] [DecidableEq QCID] in
theorem High.mono {stronger} (implies : ∀ id qc, stronger id qc → vouched id qc) (high : High env False stronger low state) :
    High env missing vouched low state := by
  refine ⟨high.tidy, ?_, high.above, high.last⟩
  rcases high.node with gone | ⟨ref, isNode, draft, placed, height, round, known⟩
  · exact absurd gone.1 id
  · exact .inr ⟨ref, isNode, draft, placed, height, round, implies _ _ known⟩

theorem handle_high {event} (high : High env False vouched low start) (known : EventVouched env keys missing vouched low start event) :
    Always (· = start) (Replica.handle env keys event) (High env missing vouched low) := by
  have weaker : High env missing vouched low start := high.mono fun _ _ known => known
  have beside {action : Action (Pacemaker Digest Address Tx Key Sig QCID) Unit}
      (keeps : ∀ value, Keeps (fun state => state.pipeline) value action) :
      Always (· = start) action (High env missing vouched low) :=
    (high_of_keeps keeps).start weaker
  cases event with
  | receive message => exact beside fun _ => addIncoming_keeps fun _ _ => rfl
  | retryFuture position =>
    refine beside fun _ => .readThen fun state same => ?_
    split
    · exact .ret
    · exact .seq (.put same) fun _ => addIncoming_keeps fun _ _ => rfl
  | requeueDelayed position =>
    refine beside fun _ => .readThen fun state same => ?_
    split
    · exact .ret
    · exact .seq (.put same) fun _ => .write fun _ => rfl
  | dequeue surroundings => exact dequeue_high weaker known
  | roundTimeout surroundings at_ round =>
    exact Ends.start (.readThen fun _ _ => .branch (fun _ => .ret fun _ high => high) fun _ => high_of_sends fun _ => onRoundTimeout_sends) weaker
  | beat surroundings packing at_ round =>
    exact onBeat_high.conseq (fun _ same => same ▸ high) (fun _ _ high => high.mono fun _ _ known => known)
      fun _ high => high.mono fun _ _ known => known
  | broadcast => exact (high_of_sends fun _ => onBroadcastProposal_sends).start weaker
  | regulate renewal =>
    exact (regulate_high high.tidy known.1 known.2).conseq (fun _ same => same) (fun _ _ high => high) fun _ back => back weaker
  | imported block escortQC =>
    refine (onSpace_high fun origin => .write fun space grows => ?_).start weaker
    rcases space.chain.addBlock_cases env.hashing env.idLess block with ⟨reason, failed⟩ | ⟨fork, added⟩
    · rw [failed]
      exact grows
    · obtain ⟨head, headQC, added⟩ := added escortQC
      rw [added]
      exact grows.trans (grows.tidy.withChain fun _ member => List.mem_cons_of_mem _ member)
  | validated qc => exact beside fun _ => .write fun _ => rfl

end Pacemaker

/-! ## Vouching -/

open Pacemaker

section

variable (env : PacemakerEnv Digest Address Tx Key Sig QCID)

def PassesFor (pacemaker : Pacemaker Digest Address Tx Key Sig QCID) (id : BlockID Digest) (qc : QuorumCert Digest) : Prop :=
  ∃ block : Block Digest Address Tx, block.id env.hashing = id ∧ Passes env pacemaker block qc

def CompletedBy (surroundings : Surroundings)
    (pacemaker : Pacemaker Digest Address Tx Key Sig QCID) (index : Nat) (vote : Vote Digest) (id : BlockID Digest)
    (qc : QuorumCert Digest) : Prop :=
  vote.voteBlockID = id ∧ completedQC env surroundings pacemaker index vote = some qc

/-- The certificate of a message passes `ValidateQC` for a block with that ID, or the vote manager aggregates it from the
votes on file for that ID, which are two thirds. -/
def MessageVouches (surroundings : Surroundings)
    (pacemaker : Pacemaker Digest Address Tx Key Sig QCID) (mi : IncomingMsg Digest Address Tx Key) (id : BlockID Digest)
    (qc : QuorumCert Digest) : Prop :=
  match mi.msg.body with
  | .proposal proposal => (∃ blk, proposal.decodedBlock = some blk ∧ blk.qc = qc) ∧ PassesFor env pacemaker id qc
  | .vote vote => CompletedBy env surroundings pacemaker mi.msg.signerIndex vote id qc
  | .timeout timeout => CompletedBy env surroundings pacemaker mi.msg.signerIndex timeout.lastVote id qc ∨
      timeout.decodedQCHigh = some qc ∧
        PassesFor env ((collectLastVote env surroundings mi.msg.signerIndex timeout.lastVote).finalState pacemaker) id qc
  | .query _ => False

def Vouches (pacemaker : Pacemaker Digest Address Tx Key Sig QCID)
    (event : ReplicaEvent Digest Address Tx Key) (id : BlockID Digest) (qc : QuorumCert Digest) : Prop :=
  match event with
  | .dequeue surroundings => ∃ mi, pacemaker.upcoming = some mi ∧ MessageVouches env surroundings pacemaker.popped mi id qc
  | .regulate renewal => PassesFor env (pacemaker.renewed env renewal) id qc
  | _ => False

def VouchedIn (keys : ReplicaKeys Digest Key)
    (start : Replica Digest Address Tx Key Sig QCID) (events : List (ReplicaEvent Digest Address Tx Key)) (id : BlockID Digest)
    (qc : QuorumCert Digest) : Prop :=
  ∃ earlier event later, events = earlier ++ event :: later ∧
    Vouches env (earlier.foldl (Replica.step env keys) start).pacemaker event id qc

end

/-! ## What the source does not check -/

section

variable (env : PacemakerEnv Digest Address Tx Key Sig QCID)

/-- The certificate, if it replaces the highest one, leads to a block. -/
def LeadsTo (pacemaker : Pacemaker Digest Address Tx Key Sig QCID)
    (qc : QuorumCert Digest) (good : Block Digest Address Tx → Prop) : Prop :=
  let node := pacemaker.pipeline.space.nodeFor env.hashing qc
  replacedBy pacemaker.pipeline.qcHigh node.isSome qc = true → ∃ block ∈ node, good block

/-- Certificates at the heights 0 and 1 pass `ValidateQC` without a look at their hash. One that replaces the highest
certificate has to pass for the drafts it matches, too. -/
def ProposalChecked (pacemaker : Pacemaker Digest Address Tx Key Sig QCID) (proposal : Proposal Digest Address Tx) : Prop :=
  ∀ blk ∈ proposal.decodedBlock, replacedBy pacemaker.pipeline.qcHigh true blk.qc = true → blk.qc.qcHeight ≤ 1 →
    (∀ entry ∈ pacemaker.pipeline.space.proposals.entries, ∀ draft ∈ pacemaker.pipeline.space.drafts[entry.2]?,
      draft.committed = false → DraftSpace.matchesQC env.hashing pacemaker.pipeline.space.drafts blk.qc entry.2 = true →
        Passes env pacemaker draft.proposedBlock blk.qc) ∧
    (NamesBlock env blk.qc blk → Passes env pacemaker blk blk.qc)

/-- The certificate a last vote completes leads to the block of the vote, and the certificate a timeout carries leads to
a block it passes `ValidateQC` for. -/
def TimeoutChecked (surroundings : Surroundings)
    (pacemaker : Pacemaker Digest Address Tx Key Sig QCID) (index : Nat) (timeout : Timeout Digest) : Prop :=
  (∀ qc ∈ completedQC env surroundings pacemaker index timeout.lastVote,
    LeadsTo env pacemaker qc fun block => block.id env.hashing = timeout.lastVote.voteBlockID) ∧
  ∀ qc ∈ timeout.decodedQCHigh,
    let voted := (collectLastVote env surroundings index timeout.lastVote).finalState pacemaker
    LeadsTo env voted qc fun block => Passes env voted block qc

def MessageChecked (keys : ReplicaKeys Digest Key) (surroundings : Surroundings)
    (pacemaker : Pacemaker Digest Address Tx Key Sig QCID) (mi : IncomingMsg Digest Address Tx Key) : Prop :=
  match mi.msg.body with
  | .proposal proposal => ProposalChecked env pacemaker proposal
  | .timeout timeout => pacemaker.reactor.amIRoundProposer keys.myPubKey timeout.wishRound = true →
      TimeoutChecked env surroundings pacemaker mi.msg.signerIndex timeout
  | _ => True

/-- Timeouts bring certificates that hold, and the certificate stored with the best block is one. -/
def HighChecked (keys : ReplicaKeys Digest Key)
    (pacemaker : Pacemaker Digest Address Tx Key Sig QCID) (event : ReplicaEvent Digest Address Tx Key) : Prop :=
  match event with
  | .dequeue surroundings => ∀ mi ∈ pacemaker.upcoming, MessageChecked env keys surroundings pacemaker.popped mi
  | .regulate renewal =>
    let bestQC := pacemaker.pipeline.space.chain.bestQC
    ∀ block ∈ pacemaker.pipeline.space.nodeFor env.hashing bestQC, Passes env (pacemaker.renewed env renewal) block bestQC
  | _ => True

end

instance {pacemaker block qc} : Decidable (Passes env pacemaker block qc) :=
  inferInstanceAs (Decidable (Accepted _ _ _ _))

instance {qc block} : Decidable (NamesBlock env qc block) :=
  inferInstanceAs (Decidable (_ ∧ _))

instance {pacemaker qc good} [DecidablePred good] : Decidable (LeadsTo env pacemaker qc good) := by
  unfold LeadsTo
  infer_instance

instance {pacemaker proposal} : Decidable (ProposalChecked env pacemaker proposal) := by
  unfold ProposalChecked
  infer_instance

instance {surroundings pacemaker index timeout} : Decidable (TimeoutChecked env surroundings pacemaker index timeout) := by
  unfold TimeoutChecked
  infer_instance

instance {surroundings pacemaker mi} : Decidable (MessageChecked env keys surroundings pacemaker mi) := by
  unfold MessageChecked
  split <;> infer_instance

instance {pacemaker event} : Decidable (HighChecked env keys pacemaker event) :=
  match event with
  | .dequeue surroundings => inferInstanceAs (Decidable (∀ mi ∈ pacemaker.upcoming,
      MessageChecked env keys surroundings pacemaker.popped mi))
  | .regulate renewal => inferInstanceAs (Decidable (∀ block ∈ pacemaker.pipeline.space.nodeFor env.hashing
      pacemaker.pipeline.space.chain.bestQC, Passes env (pacemaker.renewed env renewal) block _))
  | .receive _ | .retryFuture _ | .requeueDelayed _ | .roundTimeout .. | .beat .. | .broadcast | .imported ..
  | .validated _ => .isTrue trivial

/-! ## From the checks to the vouching -/

variable {events : List (ReplicaEvent Digest Address Tx Key)} {pacemaker : Pacemaker Digest Address Tx Key Sig QCID}
  {start replica : Replica Digest Address Tx Key Sig QCID} {event : ReplicaEvent Digest Address Tx Key}
  {block parent : Block Digest Address Tx} {qc : QuorumCert Digest}

omit [DecidableEq Key] [DecidableEq QCID] in
theorem verifyQC_votingHash {committee} (above : 1 < qc.qcHeight)
    (verified : block.verifyQC env.hashing qc env.bls committee = .ok (.ok true)) :
    qc.voterMsgHash = block.votingHash env.hashing := by
  have notFirst : ¬ (block.number = qc.qcHeight ∧ (block.number = 0 ∨ block.number = 1)) := by omega
  unfold Block.verifyQC at verified
  simp only [notFirst, if_false] at verified
  by_contra mismatch
  rw [if_pos mismatch] at verified
  simp at verified

omit [DecidableEq Key] in
/-- A certificate that passed for one block vouches for every block it names, above height 1. -/
theorem passesFor_of_names (collisionFree : CollisionFree Tx env.hashing) (passes : Passes env pacemaker parent qc)
    (above : 1 < qc.qcHeight) (names : NamesBlock env qc block) :
    PassesFor env pacemaker (block.id env.hashing) qc := by
  by_cases cached : pacemaker.validQCs.contains (env.qcID qc) = true
  · -- the cache answers for any block
    refine ⟨block, rfl, ?_⟩
    simp only [Passes, Accepted, validateQC, cached, if_true]
    rfl
  · refine ⟨parent, ?_, passes⟩
    simp only [Passes, Accepted, validateQC, cached, Bool.false_eq_true, if_false] at passes
    have verified : validateUncached ⟨env.hashing, env.bls, pacemaker.reactor,
        pacemaker.pipeline.space.chain.bestBlock.number, env.qcID⟩ parent qc = .ok true := by
      revert passes
      cases validateUncached ⟨env.hashing, env.bls, pacemaker.reactor,
        pacemaker.pipeline.space.chain.bestBlock.number, env.qcID⟩ parent qc with
      | error fault => intro passes; cases passes
      | ok valid => exact fun passes => passes
    obtain ⟨committee, -, accepted⟩ := validateUncached_committee verified
    refine collisionFree.votingHash parent block ?_
    rw [← verifyQC_votingHash above accepted]
    exact names.2.resolve_left (by omega)

omit [DecidableEq Key] in
theorem proposalVouched_of_checked (collisionFree : CollisionFree Tx env.hashing)
    (tidy : pacemaker.pipeline.space.Tidy env.hashing) {proposal} (checked : ProposalChecked env pacemaker proposal) {blk}
    (decoded : proposal.decodedBlock = some blk) (passes : Passes env pacemaker parent blk.qc)
    (vouches : ∀ id, PassesFor env pacemaker id blk.qc → vouched id blk.qc) :
    ProposalVouched env vouched pacemaker blk := by
  constructor
  · intro replaced entry member draft placed isOpen isMatch
    by_cases above : 1 < blk.qc.qcHeight
    · have names := namesBlock_of_matchesQC (tidy.linked draft (List.mem_of_getElem? placed)) placed isMatch
      exact vouches _ (passesFor_of_names collisionFree passes above names)
    · have low := checked blk decoded replaced (by omega)
      exact vouches _ ⟨_, rfl, low.1 entry member draft placed isOpen isMatch⟩
  · intro replaced names
    by_cases above : 1 < blk.qc.qcHeight
    · exact vouches _ (passesFor_of_names collisionFree passes above names)
    · exact vouches _ ⟨_, rfl, (checked blk decoded replaced (by omega)).2 names⟩

omit [DecidableEq Key] [DecidableEq QCID] in
theorem nodeVouched_of_leadsTo {good} (leads : LeadsTo env pacemaker qc good)
    (vouches : ∀ block, good block → vouched (block.id env.hashing) qc) :
    NodeVouched env missing vouched pacemaker.pipeline qc := by
  intro replaced
  obtain ⟨block, isNode, isGood⟩ := leads replaced
  exact .inr ⟨block, isNode, vouches block isGood⟩

theorem messageVouched_of_checked (collisionFree : CollisionFree Tx env.hashing) {surroundings}
    (tidy : pacemaker.pipeline.space.Tidy env.hashing) {mi} (checked : MessageChecked env keys surroundings pacemaker mi)
    (vouches : ∀ id qc, MessageVouches env surroundings pacemaker mi id qc → vouched id qc) :
    MessageVouched env keys missing vouched surroundings pacemaker mi := by
  unfold MessageVouched
  unfold MessageChecked at checked
  unfold MessageVouches at vouches
  split <;> simp only [*] at checked vouches
  · intro blk decoded parent _ passes
    exact proposalVouched_of_checked collisionFree tidy checked decoded passes fun id known =>
      vouches id blk.qc ⟨⟨blk, decoded, rfl⟩, known⟩
  · exact fun qc completed => vouches _ _ ⟨rfl, completed⟩
  · intro mine
    obtain ⟨lastVote, carried⟩ := checked mine
    refine ⟨fun qc completed => nodeVouched_of_leadsTo (lastVote qc completed) fun block isVoted => ?_,
      fun qc decoded => nodeVouched_of_leadsTo (carried qc decoded) fun block passes => ?_⟩
    · exact vouches _ _ (.inl ⟨isVoted.symm, completed⟩)
    · exact vouches _ _ (.inr ⟨decoded, block, rfl, passes⟩)
  · trivial

/-- A certificate that none is below. -/
def lowest (env : PacemakerEnv Digest Address Tx Key Sig QCID) : QuorumCert Digest := ⟨0, 0, 0, [], env.hashing.zeroDigest, []⟩

omit [DecidableEq Digest] [DecidableEq Key] [DecidableEq QCID] in
theorem atMost_lowest (qc : QuorumCert Digest) : AtMost (lowest env) qc := by
  rcases Nat.eq_zero_or_pos qc.qcHeight with zero | positive
  · exact .inr ⟨zero.symm, Nat.zero_le _⟩
  · exact .inl positive

theorem eventVouched_of_checked (collisionFree : CollisionFree Tx env.hashing)
    (tidy : pacemaker.pipeline.space.Tidy env.hashing) (checked : HighChecked env keys pacemaker event)
    (vouches : ∀ id qc, Vouches env pacemaker event id qc → vouched id qc) :
    EventVouched env keys missing vouched (lowest env) pacemaker event := by
  cases event with
  | dequeue surroundings =>
    intro mi isNext
    have tidyPopped : pacemaker.popped.pipeline.space.Tidy env.hashing := tidy
    exact messageVouched_of_checked collisionFree tidyPopped (checked mi isNext) fun id qc known => vouches id qc ⟨mi, isNext, known⟩
  | regulate renewal => exact ⟨atMost_lowest _, fun block isNode => vouches _ _ ⟨block, rfl, checked block isNode⟩⟩
  | _ => trivial

/-! ## Runs -/

omit [DecidableEq Digest] [DecidableEq Key] [DecidableEq QCID] in
theorem VouchedIn.later [DecidableEq Digest] [DecidableEq Key] [DecidableEq QCID] {id}
    (known : VouchedIn env keys start events id qc) (event : ReplicaEvent Digest Address Tx Key) :
    VouchedIn env keys start (events ++ [event]) id qc := by
  obtain ⟨earlier, vouching, later, rfl, vouches⟩ := known
  exact ⟨earlier, vouching, later ++ [event], by simp, vouches⟩

/-- What is known of a replica once it was regulated. -/
def HighKnown (env : PacemakerEnv Digest Address Tx Key Sig QCID) (keys : ReplicaKeys Digest Key)
    (start : Replica Digest Address Tx Key Sig QCID) (events : List (ReplicaEvent Digest Address Tx Key))
    (replica : Replica Digest Address Tx Key Sig QCID) : Prop :=
  High env False (VouchedIn env keys start events) (lowest env) replica.pacemaker

theorem HighKnown.step (collisionFree : CollisionFree Tx env.hashing)
    (known : HighKnown env keys start events replica) (reached : replica = events.foldl (Replica.step env keys) start)
    (checked : HighChecked env keys replica.pacemaker event) :
    HighKnown env keys start (events ++ [event]) (Replica.step env keys replica event) := by
  have later : High env False (VouchedIn env keys start (events ++ [event])) (lowest env) replica.pacemaker :=
    known.mono fun _ _ vouched => vouched.later event
  have vouched : EventVouched env keys False (VouchedIn env keys start (events ++ [event])) (lowest env) replica.pacemaker event :=
    eventVouched_of_checked collisionFree known.tidy checked fun id qc vouches => ⟨events, event, [], rfl, reached ▸ vouches⟩
  exact Replica.step_keeps later (handle_high later vouched)

theorem eventVouched_of_any (other : ∀ renewal, event ≠ .regulate renewal) :
    EventVouched env keys True (fun _ _ => True) low pacemaker event := by
  have anyNode (pipeline : Pipeline Digest Address Tx) (qc : QuorumCert Digest) : NodeVouched env True (fun _ _ => True) pipeline qc := by
    intro _
    cases pipeline.space.nodeFor env.hashing qc with
    | none => exact .inl ⟨trivial, rfl⟩
    | some block => exact .inr ⟨block, rfl, trivial⟩
  cases event with
  | dequeue surroundings =>
    intro mi _
    unfold MessageVouched
    split
    · exact fun _ _ _ _ _ => ⟨fun _ _ _ _ _ _ _ => trivial, fun _ _ => trivial⟩
    · exact fun _ _ => trivial
    · exact fun _ => ⟨fun _ _ => anyNode _ _, fun _ _ => anyNode _ _⟩
    · trivial
  | regulate renewal => exact absurd rfl (other renewal)
  | _ => trivial

/-- No event but a regulation lowers the highest certificate. -/
theorem HighKnown.atMost (known : HighKnown env keys start events replica) (other : ∀ renewal, event ≠ .regulate renewal) :
    AtMost replica.pacemaker.pipeline.qcHigh.qc (Replica.step env keys replica event).pacemaker.pipeline.qcHigh.qc := by
  have weaker : High env False (fun _ _ => True) (lowest env) replica.pacemaker := known.mono fun _ _ _ => trivial
  have high : High env False (fun _ _ => True) replica.pacemaker.pipeline.qcHigh.qc replica.pacemaker :=
    ⟨weaker.tidy, weaker.node, .refl _, weaker.last⟩
  let above (after : Pacemaker Digest Address Tx Key Sig QCID) := AtMost replica.pacemaker.pipeline.qcHigh.qc after.pipeline.qcHigh.qc
  exact @Replica.step_keeps _ _ _ _ _ _ _ _ _ _ _ _ _ above (.refl _) <|
    (handle_high high (eventVouched_of_any other)).conseq (fun _ same => same) (fun _ _ after => after.above) fun _ after => after.above

theorem highKnown_of_run (collisionFree : CollisionFree Tx env.hashing) {renewal}
    (alive : start.halted = false) (noDrafts : start.pacemaker.pipeline.space.drafts = [])
    (noProposals : start.pacemaker.pipeline.space.proposals = ∅)
    (started : (Replica.step env keys start (.regulate renewal)).halted = false)
    (run : ReplicaRun env keys (HighChecked env keys) start (.regulate renewal :: events) replica) :
    HighKnown env keys start (.regulate renewal :: events) replica := by
  obtain ⟨first, ⟨checked, rfl⟩, run⟩ := run.uncons
  have tidy : start.pacemaker.pipeline.space.Tidy env.hashing :=
    DraftSpace.tidy_of (by simp [noProposals]) (by simp [noDrafts])
  have initial : HighKnown env keys start [.regulate renewal] (Replica.step env keys start (.regulate renewal)) := by
    have vouched : EventVouched env keys False (VouchedIn env keys start [.regulate renewal]) (lowest env) start.pacemaker
        (.regulate renewal) :=
      eventVouched_of_checked collisionFree tidy checked fun id qc vouches => ⟨[], _, [], rfl, vouches⟩
    have regulated : Triple (· = start.pacemaker) (Replica.handle env keys (.regulate renewal))
        (fun _ => High env False (VouchedIn env keys start [.regulate renewal]) (lowest env)) _ :=
      regulate_high tidy vouched.1 vouched.2
    exact Replica.step_running regulated alive rfl started
  refine Trace.invariant_history (fun events replica => HighKnown env keys start (.regulate renewal :: events) replica) initial ?_ run
  rintro labels state event next earlier known ⟨checked, rfl⟩
  have reached := earlier.eq_foldl
  exact known.step collisionFree reached checked

/-- A replica that starts without drafts is regulated and then takes any events whose timeouts bring certificates that
hold. Its highest certificate has a node, which it was validated for or aggregated for, and no event but a regulation
lowers it. -/
theorem qcHigh_vouched {start replica : Replica Digest Address Tx Key Sig QCID} {renewal : Renewal Key}
    {events : List (ReplicaEvent Digest Address Tx Key)} (collisionFree : CollisionFree Tx env.hashing)
    (alive : start.halted = false) (noDrafts : start.pacemaker.pipeline.space.drafts = [])
    (noProposals : start.pacemaker.pipeline.space.proposals = ∅)
    (started : (Replica.step env keys start (.regulate renewal)).halted = false)
    (run : ReplicaRun env keys (HighChecked env keys) start (.regulate renewal :: events) replica) :
    (∃ ref draft, replica.pacemaker.pipeline.qcHigh.qcNode = some ref ∧ replica.pacemaker.pipeline.space.drafts[ref]? = some draft ∧
      VouchedIn env keys start (.regulate renewal :: events) (draft.proposedBlock.id env.hashing)
        replica.pacemaker.pipeline.qcHigh.qc) ∧
    ∀ event : ReplicaEvent Digest Address Tx Key, (∀ renewal, event ≠ .regulate renewal) →
      AtMost replica.pacemaker.pipeline.qcHigh.qc (Replica.step env keys replica event).pacemaker.pipeline.qcHigh.qc := by
  have known := highKnown_of_run collisionFree alive noDrafts noProposals started run
  refine ⟨?_, fun event other => known.atMost other⟩
  obtain ⟨ref, isNode, draft, placed, -, -, vouched⟩ := known.node.resolve_left fun gone => gone.1
  exact ⟨ref, draft, isNode, placed, vouched⟩

end

section

def bareReplica : Replica (List Nat) Nat Unit Bytes Bytes (QuorumCert (List Nat)) where
  pacemaker :=
    { startPacemaker 0 with
      pipeline :=
        { (startPacemaker 0).pipeline with
          space := { (startPacemaker 0).pipeline.space with drafts := [], proposals := ∅ }
          qcHigh := ⟨none, certify baseBlock 5⟩ } }
  halted := false

def sampleRenewal : Renewal Bytes where
  committee := numberedCommittee 4
  committeeIndex := 0
  inCommittee := true
  verified := true
  lastCommittee := []
  hardCommittee := []
  bootstrapCommittee11 := []
  bootstrapCommittee5 := []
  lastStagingCommittee := []
  delegateSource := .fromStaking

def timeoutWith (qc : QuorumCert (List Nat)) : Message (List Nat) Nat Unit :=
  ⟨90, 0, 1, .timeout ⟨8, some qc, [], [], noVote listHashing⟩, [1]⟩

def ranRegulated (messages : List (Message (List Nat) Nat Unit)) : Replica (List Nat) Nat Unit Bytes Bytes (QuorumCert (List Nat)) :=
  (.regulate sampleRenewal :: delivered messages).foldl (Replica.step sampleEnv (keysOf 0)) bareReplica

/-- Two proposals and a timeout with a certificate for the second leave that certificate the highest. -/
theorem timeout_certificate_vouched :
    (ranRegulated [propose 2 6 firstChild, propose 3 7 grandChild, timeoutWith (certify grandChild 7)]).pacemaker.pipeline.qcHigh.qc =
      certify grandChild 7 ∧
    (∃ ref draft,
      (ranRegulated [propose 2 6 firstChild, propose 3 7 grandChild, timeoutWith (certify grandChild 7)]).pacemaker.pipeline.qcHigh.qcNode =
        some ref ∧
      (ranRegulated [propose 2 6 firstChild, propose 3 7 grandChild, timeoutWith (certify grandChild 7)]).pacemaker.pipeline.space.drafts[ref]? =
        some draft ∧
      VouchedIn sampleEnv (keysOf 0) bareReplica
        (.regulate sampleRenewal :: delivered [propose 2 6 firstChild, propose 3 7 grandChild, timeoutWith (certify grandChild 7)])
        (draft.proposedBlock.id listHashing)
        (ranRegulated [propose 2 6 firstChild, propose 3 7 grandChild, timeoutWith (certify grandChild 7)]).pacemaker.pipeline.qcHigh.qc) := by
  have run : ReplicaRun sampleEnv (keysOf 0) (HighChecked sampleEnv (keysOf 0)) bareReplica
      (.regulate sampleRenewal :: delivered [propose 2 6 firstChild, propose 3 7 grandChild, timeoutWith (certify grandChild 7)])
      (ranRegulated [propose 2 6 firstChild, propose 3 7 grandChild, timeoutWith (certify grandChild 7)]) :=
    Lib.trace_of_allMeet (by decide +kernel)
  exact ⟨by decide +kernel, (qcHigh_vouched listHashing_collisionFree rfl rfl rfl (by decide +kernel) run).1⟩

/-- A certificate without signatures, from a timeout, becomes the highest one: its node is the best block, for which
`ValidateQC` refuses it. One that has the height of the highest node and a hash of no block leaves no node. -/
theorem timeout_certificate_unchecked : (∃ replica, ReplicaRun sampleEnv (keysOf 0) (fun _ _ => True) bareReplica
        (.regulate sampleRenewal :: delivered [timeoutWith ⟨5, 9, 0, [], [], []⟩]) replica ∧ replica.halted = false ∧
      replica.pacemaker.pipeline.qcHigh.qc = ⟨5, 9, 0, [], [], []⟩ ∧
      (replica.pacemaker.pipeline.qcHigh.qcNode.bind fun ref => replica.pacemaker.pipeline.space.drafts[ref]?.map fun draft =>
        draft.proposedBlock) = some baseBlock ∧
      ¬ Pacemaker.Passes sampleEnv replica.pacemaker baseBlock replica.pacemaker.pipeline.qcHigh.qc) ∧
    ∃ replica, ReplicaRun sampleEnv (keysOf 0) (fun _ _ => True) bareReplica (.regulate sampleRenewal ::
          delivered [propose 2 6 firstChild, propose 3 7 grandChild, timeoutWith ⟨6, 9, 0, [], [], []⟩]) replica ∧
      replica.halted = false ∧ replica.pacemaker.pipeline.qcHigh.qcNode = none ∧
      replica.pacemaker.pipeline.qcHigh.qc = ⟨6, 9, 0, [], [], []⟩ :=
  ⟨⟨ranRegulated [timeoutWith ⟨5, 9, 0, [], [], []⟩], Lib.trace_of_allMeet (by decide +kernel), by decide +kernel⟩,
    ranRegulated [propose 2 6 firstChild, propose 3 7 grandChild, timeoutWith ⟨6, 9, 0, [], [], []⟩],
    Lib.trace_of_allMeet (by decide +kernel), by decide +kernel⟩

end
end MeterPov.Consensus
