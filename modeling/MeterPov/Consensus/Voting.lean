import MeterPov.Consensus.Ballots

/-! The votes one replica signs over a whole run: for which round, and for whose proposal.

The handler of proposals compares heights only. It neither looks at the round of the last vote nor
at the member that signed the proposal, so both properties need the messages to come in order. -/

set_option autoImplicit false

namespace MeterPov.Consensus

open Lib Blocks Chains List

section

variable {Digest Address Tx Key Sig QCID : Type} [DecidableEq Digest] [DecidableEq Key] [DecidableEq QCID]
variable {env : PacemakerEnv Digest Address Tx Key Sig QCID} {keys : ReplicaKeys Digest Key}

/-- A run in which every event meets a condition on the state it finds. -/
abbrev ReplicaRun (env : PacemakerEnv Digest Address Tx Key Sig QCID) (keys : ReplicaKeys Digest Key)
    (meets : Pacemaker Digest Address Tx Key Sig QCID → ReplicaEvent Digest Address Tx Key → Prop) :=
  Trace fun (replica : Replica Digest Address Tx Key Sig QCID) event next =>
    meets replica.pacemaker event ∧ Replica.step env keys replica event = next

/-- What always holds of the state the replica votes from, with what holds besides until it panics. -/
theorem ReplicaRun.invariant {meets} (always live : Ballots Digest Address Tx Key → Prop)
    (kept : ∀ before event after crashed, always before.ballots → live before.ballots → meets before event →
      Pacemaker.Effect env keys before event after crashed → always after ∧ (crashed = false → live after)) {start replica events}
    (initial : always start.pacemaker.ballots ∧ live start.pacemaker.ballots) (run : ReplicaRun env keys meets start events replica) : always replica.pacemaker.ballots := by
  refine (Trace.invariant (fun replica : Replica Digest Address Tx Key Sig QCID => always replica.pacemaker.ballots ∧
    (replica.halted = false → live replica.pacemaker.ballots)) ⟨initial.1, fun _ => initial.2⟩ ?_ run).1
  rintro replica event next ⟨held, holds⟩ ⟨meeting, rfl⟩
  cases alive : replica.halted with
  | true =>
    rw [Replica.step_halted alive]
    exact ⟨held, holds⟩
  | false => exact kept replica.pacemaker event _ _ held (holds alive) meeting (Replica.step_effect alive event)

/-! ## One vote per round -/

def OneVotePerRound (signed : List (SignedVote Digest Address Tx Key)) : Prop :=
  ∀ first ∈ signed, ∀ second ∈ signed, first.epoch = second.epoch → first.vote.voteRound = second.vote.voteRound →
    first.vote.voteBlockID = second.vote.voteBlockID

instance (signed : List (SignedVote Digest Address Tx Key)) : Decidable (OneVotePerRound signed) := by
  unfold OneVotePerRound
  infer_instance

/-- The check the handler does not make: a proposal at a height that may be voted for is of a later
round than the last vote, or it is the block voted for in that round. -/
def LaterRound (hashing : Hashing Digest Address) (lastVoteMsg : Option (Vote Digest)) (round : Nat)
    (blk : Block Digest Address Tx) : Prop :=
  ∀ last ∈ lastVoteMsg, last.voteRound < round ∨ last.voteRound = round ∧ last.voteBlockID = blk.id hashing

section

variable (env : PacemakerEnv Digest Address Tx Key Sig QCID) (pacemaker : Pacemaker Digest Address Tx Key Sig QCID)

def ProposalInOrder (body : MessageBody Digest Address Tx) : Prop :=
  match body with
  | .proposal proposal => ∀ blk ∈ proposal.decodedBlock, pacemaker.lastVotingHeight ≤ blk.number →
      LaterRound env.hashing pacemaker.lastVoteMsg proposal.round blk
  | _ => True

def RegulatedInOrder (renewal : Renewal Key) : Prop :=
  match pacemaker.reactor.updateCurEpoch env.hashing env.genesisNonce pacemaker.pipeline.space.chain renewal with
  | .ok reactor => ∀ vote ∈ pacemaker.signed, vote.epoch ≠ reactor.curEpoch
  | .error _ => True

/-- Proposals come in the order of their rounds, and a regulation, which forgets the last vote, leads
to an epoch without a vote. -/
def InRoundOrder (event : ReplicaEvent Digest Address Tx Key) : Prop :=
  match event with
  | .dequeue _ => ∀ mi ∈ pacemaker.inQueue.queue.head?, mi.msg.epoch = pacemaker.reactor.curEpoch →
      ProposalInOrder env pacemaker mi.msg.body
  | .regulate renewal => RegulatedInOrder env pacemaker renewal
  | _ => True

end

instance {pacemaker body} : Decidable (ProposalInOrder env pacemaker body) :=
  match body with
  | .proposal proposal => inferInstanceAs (Decidable (∀ blk ∈ proposal.decodedBlock,
      pacemaker.lastVotingHeight ≤ blk.number → ∀ last ∈ pacemaker.lastVoteMsg,
        last.voteRound < proposal.round ∨ last.voteRound = proposal.round ∧ last.voteBlockID = blk.id env.hashing))
  | .vote _ | .timeout _ | .query _ => .isTrue trivial

instance {pacemaker renewal} : Decidable (RegulatedInOrder env pacemaker renewal) :=
  match updated : pacemaker.reactor.updateCurEpoch env.hashing env.genesisNonce pacemaker.pipeline.space.chain renewal with
  | .ok reactor => decidable_of_iff (∀ vote ∈ pacemaker.signed, vote.epoch ≠ reactor.curEpoch)
      (by simp only [RegulatedInOrder, updated])
  | .error _ => .isTrue (by simp only [RegulatedInOrder, updated])

instance {pacemaker event} : Decidable (InRoundOrder env pacemaker event) :=
  match event with
  | .dequeue _ => inferInstanceAs (Decidable (∀ mi ∈ pacemaker.inQueue.queue.head?,
      mi.msg.epoch = pacemaker.reactor.curEpoch → ProposalInOrder env pacemaker mi.msg.body))
  | .regulate renewal => inferInstanceAs (Decidable (RegulatedInOrder env pacemaker renewal))
  | .receive _ | .retryFuture _ | .requeueDelayed _ | .roundTimeout .. | .beat .. | .broadcast | .imported ..
  | .validated _ => .isTrue trivial

/-- No signed vote of the current epoch is for a later round than the last one. -/
def LastIsLatest (ballots : Ballots Digest Address Tx Key) : Prop :=
  ∀ signed ∈ ballots.signed, signed.epoch = ballots.reactor.curEpoch → ∃ last, ballots.lastVoteMsg = some last ∧
    (signed.vote.voteRound < last.voteRound ∨
      signed.vote.voteRound = last.voteRound ∧ signed.vote.voteBlockID = last.voteBlockID)

variable {mi : IncomingMsg Digest Address Tx Key} {before : Ballots Digest Address Tx Key}
  {blk : Block Digest Address Tx}

omit [DecidableEq Digest] [DecidableEq Key] [DecidableEq QCID] in
theorem OneVotePerRound.withSigned {round} (unique : OneVotePerRound before.signed)
    (latest : LastIsLatest before) (later : LaterRound env.hashing before.lastVoteMsg round blk) :
    OneVotePerRound (Pacemaker.withSigned env keys before mi round blk).signed ∧
      LastIsLatest (Pacemaker.withVote env keys before mi round blk) := by
  -- Every vote of this epoch is of an earlier round, or of the same round and for the same block.
  have agrees : ∀ signed ∈ before.signed, signed.epoch = before.reactor.curEpoch →
      signed.vote.voteRound < round ∨ signed.vote.voteRound = round ∧ signed.vote.voteBlockID = blk.id env.hashing := by
    intro signed member current
    obtain ⟨last, isLast, bound⟩ := latest signed member current
    rcases later last isLast with earlier | ⟨sameRound, sameBlock⟩
    · rcases bound with lower | ⟨equal, -⟩
      · exact .inl (lt_trans lower earlier)
      · exact .inl (equal ▸ earlier)
    · rcases bound with lower | ⟨equal, same⟩
      · exact .inl (sameRound ▸ lower)
      · exact .inr ⟨equal.trans sameRound, same.trans sameBlock⟩
  constructor
  · intro first firstMember second secondMember sameEpoch sameRound
    rcases mem_append.mp firstMember with firstOld | firstNew <;>
      rcases mem_append.mp secondMember with secondOld | secondNew
    · exact unique first firstOld second secondOld sameEpoch sameRound
    · obtain rfl := mem_singleton.mp secondNew
      rcases agrees first firstOld sameEpoch with earlier | ⟨-, same⟩
      · exact absurd sameRound (ne_of_lt earlier)
      · exact same
    · obtain rfl := mem_singleton.mp firstNew
      rcases agrees second secondOld sameEpoch.symm with earlier | ⟨-, same⟩
      · exact absurd sameRound.symm (ne_of_lt earlier)
      · exact same.symm
    · rw [mem_singleton.mp firstNew, mem_singleton.mp secondNew]
  · intro signed member current
    refine ⟨Pacemaker.voteOn env keys round blk, rfl, ?_⟩
    rcases mem_append.mp member with old | new
    · exact agrees signed old current
    · obtain rfl := mem_singleton.mp new
      exact .inr ⟨rfl, rfl⟩

theorem signed_one_vote_per_round {start replica : Replica Digest Address Tx Key Sig QCID}
    {events : List (ReplicaEvent Digest Address Tx Key)} (fresh : start.pacemaker.signed = [])
    (run : ReplicaRun env keys (InRoundOrder env) start events replica) :
    OneVotePerRound replica.pacemaker.signed := by
  have none : ∀ vote ∈ start.pacemaker.signed, False := by simp [fresh]
  refine ReplicaRun.invariant (fun ballots => OneVotePerRound ballots.signed) LastIsLatest ?_
    ⟨fun first member => (none first member).elim, fun first member => (none first member).elim⟩ run
  intro before event after crashed unique latest ordered effect
  cases effect with
  | received _ received =>
    obtain ⟨inQueue, rfl, -⟩ := received
    exact ⟨unique, fun _ => latest⟩
  | proposal _ surroundings mi rest body isDequeue head current isProposal effect =>
    subst isDequeue
    have ordered := ordered mi (by rw [head]; rfl) current
    rw [isProposal, ProposalInOrder] at ordered
    cases effect with
    | requeued _ changed => rcases changed with rfl | ⟨count, rfl⟩ <;> exact ⟨unique, fun _ => latest⟩
    | voted blk decoded height isAfter =>
      subst isAfter
      exact (OneVotePerRound.withSigned unique latest (ordered blk decoded height)).imp_right fun kept _ => kept
    | signed blk decoded height isAfter =>
      subst isAfter
      exact ⟨(OneVotePerRound.withSigned unique latest (ordered blk decoded height)).1, nofun⟩
  | regulated renewal reactor isRegulate updated isAfter =>
    subst isRegulate isAfter
    simp only [InRoundOrder, RegulatedInOrder, updated] at ordered
    exact ⟨unique, fun _ signed member current => absurd current (ordered signed member)⟩
  | stopped renewal isRegulate same =>
    rw [same]
    exact ⟨unique, nofun⟩

/-! ## The proposer of the round -/

/-- Every vote is for a proposal that the key of the round's proposer verified. -/
def VotesForProposers (signed : List (SignedVote Digest Address Tx Key)) : Prop :=
  ∀ vote ∈ signed, ∃ proposer, vote.verifiedBy = some proposer ∧ vote.roundProposer = some proposer

/-- The check admission does not make: the member that signed a proposal is the proposer of its
round. -/
def SignedByProposer (reactor : Reactor Key) (message : Message Digest Address Tx) : Prop :=
  match message.body with
  | .proposal proposal => reactor.committee[message.signerIndex]? = reactor.getRoundProposer proposal.round
  | _ => True

section

variable (env : PacemakerEnv Digest Address Tx Key Sig QCID) (pacemaker : Pacemaker Digest Address Tx Key Sig QCID)

def RaisesEpoch (renewal : Renewal Key) : Prop :=
  match pacemaker.reactor.updateCurEpoch env.hashing env.genesisNonce pacemaker.pipeline.space.chain renewal with
  | .ok reactor =>
    reactor.committee = pacemaker.reactor.committee ∧ reactor.curEpoch = pacemaker.reactor.curEpoch ∨
      pacemaker.reactor.curEpoch < reactor.curEpoch
  | .error _ => True

/-- Proposals come from the proposers of their rounds, and a regulation that draws a new committee
raises the epoch: otherwise messages that the old committee verified would still be handled. -/
def ProposedInTurn (event : ReplicaEvent Digest Address Tx Key) : Prop :=
  (∀ message ∈ Pacemaker.arriving pacemaker event, message.epoch = pacemaker.reactor.curEpoch →
    SignedByProposer pacemaker.reactor message) ∧
  match event with
  | .regulate renewal => RaisesEpoch env pacemaker renewal
  | _ => True

end

instance (reactor : Reactor Key) (message : Message Digest Address Tx) : Decidable (SignedByProposer reactor message) :=
  match isBody : message.body with
  | .proposal proposal =>
    decidable_of_iff (reactor.committee[message.signerIndex]? = reactor.getRoundProposer proposal.round)
      (by simp only [SignedByProposer, isBody])
  | .vote _ | .timeout _ | .query _ => .isTrue (by simp only [SignedByProposer, isBody])

instance {pacemaker renewal} : Decidable (RaisesEpoch env pacemaker renewal) :=
  match updated : pacemaker.reactor.updateCurEpoch env.hashing env.genesisNonce pacemaker.pipeline.space.chain renewal with
  | .ok reactor => decidable_of_iff (reactor.committee = pacemaker.reactor.committee ∧
      reactor.curEpoch = pacemaker.reactor.curEpoch ∨ pacemaker.reactor.curEpoch < reactor.curEpoch)
      (by simp only [RaisesEpoch, updated])
  | .error _ => .isTrue (by simp only [RaisesEpoch, updated])

instance {pacemaker event} : Decidable (ProposedInTurn env pacemaker event) :=
  @instDecidableAnd _ _ inferInstance <|
    match event with
    | .regulate renewal => inferInstanceAs (Decidable (RaisesEpoch env pacemaker renewal))
    | .dequeue _ | .receive _ | .retryFuture _ | .requeueDelayed _ | .roundTimeout .. | .beat .. | .broadcast
    | .imported .. | .validated _ => .isTrue trivial

/-- A pending message is not of a later epoch, and a proposal of this one was verified with the key of
its round's proposer. -/
def VerifiedInTurn (reactor : Reactor Key) (mi : IncomingMsg Digest Address Tx Key) : Prop :=
  mi.msg.epoch ≤ reactor.curEpoch ∧ (mi.msg.epoch = reactor.curEpoch → ∀ proposal, mi.msg.body = .proposal proposal →
    ∃ proposer, mi.signer = some proposer ∧ reactor.getRoundProposer proposal.round = some proposer)

def AllInTurn (ballots : Ballots Digest Address Tx Key) : Prop :=
  VotesForProposers ballots.signed ∧ ∀ mi ∈ ballots.inQueue.pending, VerifiedInTurn ballots.reactor mi

omit [DecidableEq Digest] [DecidableEq QCID] in
theorem AllInTurn.received {after arriving} (holds : AllInTurn before)
    (inTurn : ∀ message proposal, arriving = some message → message.epoch = before.reactor.curEpoch →
      message.body = .proposal proposal →
      before.reactor.committee[message.signerIndex]? = before.reactor.getRoundProposer proposal.round)
    (received : Pacemaker.Received env arriving before after) : AllInTurn after := by
  obtain ⟨inQueue, rfl, pending, -⟩ := received
  refine ⟨holds.1, fun mi member => ?_⟩
  rcases pending mi member with ⟨old, oldMember, message, signer⟩ | ⟨arrives, epoch, signer, position, verified, -⟩
  · have known := holds.2 old oldMember
    rw [VerifiedInTurn, message, signer] at known
    exact known
  · refine ⟨le_of_eq epoch, fun current proposal isProposal => ⟨signer, verified, ?_⟩⟩
    rw [← position]
    exact (inTurn mi.msg proposal arrives current isProposal).symm

omit [DecidableEq Digest] [DecidableEq QCID] [DecidableEq Key] in
theorem AllInTurn.dequeued {rest} (holds : AllInTurn before) (queue : before.inQueue.queue = mi :: rest) :
    AllInTurn { before with inQueue := { before.inQueue with queue := rest } } ∧ VerifiedInTurn before.reactor mi := by
  have pending : before.inQueue.pending = mi :: (rest ++ before.inQueue.delayed) := by
    rw [IncomingQueue.pending, queue, cons_append]
  refine ⟨⟨holds.1, fun other member => holds.2 other ?_⟩, holds.2 mi ?_⟩
  · rw [pending]
    exact mem_cons_of_mem _ member
  · rw [pending]
    exact mem_cons_self

omit [DecidableEq Digest] [DecidableEq QCID] [DecidableEq Key] in
theorem VotesForProposers.withSigned {proposal} (votes : VotesForProposers before.signed)
    (verified : VerifiedInTurn before.reactor mi) (current : mi.msg.epoch = before.reactor.curEpoch)
    (isProposal : mi.msg.body = .proposal proposal) :
    VotesForProposers (Pacemaker.withSigned env keys before mi proposal.round blk).signed := by
  intro vote member
  rcases mem_append.mp member with old | new
  · exact votes vote old
  · obtain rfl := mem_singleton.mp new
    exact verified.2 current proposal isProposal

omit [DecidableEq Digest] [DecidableEq QCID] [DecidableEq Key] in
theorem AllInTurn.regulated {reactor : Reactor Key} {height : Nat} {lastVoteMsg} (holds : AllInTurn before)
    (renewed : reactor.committee = before.reactor.committee ∧ reactor.curEpoch = before.reactor.curEpoch ∨
      before.reactor.curEpoch < reactor.curEpoch) :
    AllInTurn { before with reactor := reactor, lastVotingHeight := height, lastVoteMsg := lastVoteMsg } := by
  refine ⟨holds.1, fun mi member => ?_⟩
  have known := holds.2 mi member
  rcases renewed with ⟨committee, epoch⟩ | later
  · simp only [VerifiedInTurn, Reactor.getRoundProposer, committee, epoch]
    exact known
  · have outdated := lt_of_le_of_lt known.1 later
    exact ⟨le_of_lt outdated, fun current => absurd current (ne_of_lt outdated)⟩

theorem votes_for_round_proposers {start replica : Replica Digest Address Tx Key Sig QCID}
    {events : List (ReplicaEvent Digest Address Tx Key)} (fresh : start.pacemaker.signed = [])
    (drained : start.pacemaker.inQueue.pending = [])
    (run : ReplicaRun env keys (ProposedInTurn env) start events replica) :
    VotesForProposers replica.pacemaker.signed := by
  have initial : AllInTurn start.pacemaker.ballots := by
    refine ⟨fun vote member => ?_, fun mi member => ?_⟩
    · change vote ∈ start.pacemaker.signed at member
      simp [fresh] at member
    · change mi ∈ start.pacemaker.inQueue.pending at member
      simp [drained] at member
  refine ReplicaRun.invariant (fun ballots => VotesForProposers ballots.signed)
    (fun ballots => ∀ mi ∈ ballots.inQueue.pending, VerifiedInTurn ballots.reactor mi) ?_ initial run
  rintro before event after crashed votes pending ⟨inTurn, renewals⟩ effect
  have holds : AllInTurn before.ballots := ⟨votes, pending⟩
  cases effect with
  | received _ received =>
    refine (AllInTurn.received holds (fun message proposal arriving current isProposal => ?_) received).imp_right fun kept _ => kept
    have placed := inTurn message arriving current
    rwa [SignedByProposer, isProposal] at placed
  | proposal _ surroundings mi rest body isDequeue head current isProposal effect =>
    obtain ⟨remaining, verified⟩ := AllInTurn.dequeued holds head
    cases effect with
    | requeued _ changed =>
      -- nothing arrives with a message that is put back
      have received : Pacemaker.Received env none before.ballots after := Pacemaker.Requeued.received before.ballots head changed
      exact (AllInTurn.received holds (by simp) received).imp_right fun kept _ => kept
    | voted blk decoded height isAfter =>
      subst isAfter
      exact ⟨VotesForProposers.withSigned remaining.1 verified current isProposal, fun _ => remaining.2⟩
    | signed blk decoded height isAfter =>
      subst isAfter
      exact ⟨VotesForProposers.withSigned remaining.1 verified current isProposal, nofun⟩
  | regulated renewal reactor isRegulate updated isAfter =>
    subst isRegulate isAfter
    simp only [RaisesEpoch, updated] at renewals
    exact (AllInTurn.regulated holds renewals).imp_right fun kept _ => kept
  | stopped renewal isRegulate same =>
    rw [same]
    exact ⟨votes, nofun⟩

/-! ## The heights of the votes -/

/-- Within an epoch the heights do not go down. -/
def HeightsGrow (signed : List (SignedVote Digest Address Tx Key)) : Prop :=
  signed.Pairwise fun first second => first.epoch = second.epoch → first.block.number ≤ second.block.number

/-- In any order of messages, as long as a regulation, which forgets the height, leads to an epoch without a vote. -/
theorem vote_heights_grow {start replica events} (fresh : start.pacemaker.signed = [])
    (run : ReplicaRun env keys (fun pacemaker event => ∀ renewal, event = .regulate renewal → RegulatedInOrder env pacemaker renewal)
      start events replica) : HeightsGrow replica.pacemaker.signed := by
  refine ReplicaRun.invariant (fun ballots => HeightsGrow ballots.signed)
    (fun ballots => ∀ vote ∈ ballots.signed, vote.epoch = ballots.reactor.curEpoch → vote.block.number ≤ ballots.lastVotingHeight) ?_
    (by simp [Pacemaker.ballots, fresh, HeightsGrow]) run
  intro before event after crashed grow below ordered effect
  cases effect with
  | received _ received =>
    obtain ⟨inQueue, rfl, -⟩ := received
    exact ⟨grow, fun _ => below⟩
  | proposal _ surroundings mi rest body isDequeue head current isProposal effect =>
    have extended {vote : SignedVote Digest Address Tx Key} (current : vote.epoch = before.reactor.curEpoch)
        (height : before.lastVotingHeight ≤ vote.block.number) : HeightsGrow (before.signed ++ [vote]) := by
      refine pairwise_append.mpr ⟨grow, pairwise_singleton _ _, fun earlier member other isNew same => ?_⟩
      rw [mem_singleton.mp isNew] at same ⊢
      exact (below earlier member (same.trans current)).trans height
    cases effect with
    | requeued _ changed => rcases changed with rfl | ⟨count, rfl⟩ <;> exact ⟨grow, fun _ => below⟩
    | voted blk decoded height isAfter =>
      subst isAfter
      refine ⟨extended rfl height, fun _ vote member current => ?_⟩
      rcases mem_append.mp member with old | new
      · exact (below vote old current).trans height
      · rw [mem_singleton.mp new]
        exact le_rfl
    | signed blk decoded height isAfter =>
      subst isAfter
      exact ⟨extended rfl height, nofun⟩
  | regulated renewal reactor isRegulate updated isAfter =>
    subst isAfter
    have ordered := ordered renewal isRegulate
    simp only [RegulatedInOrder, updated] at ordered
    exact ⟨grow, fun _ vote member current => absurd current (ordered vote member)⟩
  | stopped renewal isRegulate same =>
    rw [same]
    exact ⟨grow, nofun⟩

end

/-! ## A replica of a committee of four -/

section

/-- A message signature is the key of the signer; the digest of a message tells messages apart by
their time and sender. -/
def sampleEnv : PacemakerEnv (List Nat) Nat Unit Bytes Bytes (QuorumCert (List Nat)) where
  hashing := listHashing
  idLess _ _ := false
  bls := listedSigners
  qcID qc := qc
  timeoutVotingHash epoch round := [epoch, round]
  messages := ⟨fun timestamp epoch signerIndex _ => [timestamp, epoch, signerIndex], fun _ signature => some signature⟩
  txID _ := []
  genesisNonce := 0

def keysOf (index : Nat) : ReplicaKeys (List Nat) Bytes :=
  ⟨[UInt8.ofNat index], fun _ => .ok [UInt8.ofNat index], fun _ => [UInt8.ofNat index]⟩

def blockOn (parentID : BlockID (List Nat)) (timestamp : Nat) (qc : QuorumCert (List Nat)) : Block (List Nat) Nat Unit where
  header := ⟨parentID, timestamp, 20000000, 3, .mBlock, 0, 0, parentID.number + 1, [], [], [], [], [0]⟩
  txs := []
  qc := qc
  committeeEpoch := 0
  kBlockNonce := 0
  magic := 1

/-- A certificate by the first three members: the text is `BA{4:xxx_}`. -/
def certify (block : Block (List Nat) Nat Unit) (round : Nat) : QuorumCert (List Nat) :=
  ⟨block.number, round, 0, [66, 65, 123, 52, 58, 120, 120, 120, 95, 125], block.votingHash listHashing, [0, 1, 2]⟩

def baseBlock : Block (List Nat) Nat Unit := blockOn ⟨4, []⟩ 50 ⟨4, 4, 0, [], [], []⟩

/-- The state after a regulation at block 5, which was proposed in round 5. -/
def startPacemaker (index : Nat) : Pacemaker (List Nat) Nat Unit Bytes Bytes (QuorumCert (List Nat)) where
  reactor := { plainReactor (numberedCommittee 4) with committeeIndex := index }
  validQCs := .empty
  inQueue := ⟨[], .empty, [], []⟩
  pipeline :=
    { space := ⟨⟨[baseBlock], [(5, baseBlock.id listHashing)], baseBlock, certify baseBlock 5⟩,
        [DraftSpace.committedDraft baseBlock 5], AList.singleton (baseBlock.id listHashing) 0⟩
      qcHigh := ⟨some 0, certify baseBlock 5⟩
      lastCommitted := 0
      commits := [] }
  currentRound := 6
  lastVotingHeight := 0
  lastVoteMsg := none
  lastOnBeatRound := 5
  tcHigh := none
  curProposal := none
  qcVoteManager := VoteManager.new 4
  tcVoteManager := VoteManager.new 4
  sent := []
  signed := []

def propose (signerIndex round : Nat) (block : Block (List Nat) Nat Unit) : Message (List Nat) Nat Unit :=
  ⟨block.timestamp, 0, signerIndex, .proposal ⟨round, some block, none⟩, [UInt8.ofNat signerIndex]⟩

def smooth : Surroundings := ⟨0, ⟨true, true, true⟩, 0⟩

/-- Two blocks on block 5, and one on the first of them. -/
def firstChild : Block (List Nat) Nat Unit := blockOn (baseBlock.id listHashing) 60 (certify baseBlock 5)
def secondChild : Block (List Nat) Nat Unit := blockOn (baseBlock.id listHashing) 61 (certify baseBlock 5)
def grandChild : Block (List Nat) Nat Unit := blockOn (firstChild.id listHashing) 70 (certify firstChild 6)

def delivered (messages : List (Message (List Nat) Nat Unit)) : List (ReplicaEvent (List Nat) Nat Unit Bytes) :=
  messages.flatMap fun message => [.receive message, .dequeue smooth]

def ranSample (events : List (ReplicaEvent (List Nat) Nat Unit Bytes)) :
    Replica (List Nat) Nat Unit Bytes Bytes (QuorumCert (List Nat)) :=
  events.foldl (Replica.step sampleEnv (keysOf 0)) ⟨startPacemaker 0, false⟩

/-- Proposals for blocks 6 and 7 in the rounds 6 and 7 are both voted for. -/
theorem signed_in_round_order :
    ((ranSample (delivered [propose 2 6 firstChild, propose 3 7 grandChild])).pacemaker.signed.map fun signed =>
      (signed.epoch, signed.vote.voteRound)) = [(0, 6), (0, 7)] ∧
    OneVotePerRound (ranSample (delivered [propose 2 6 firstChild, propose 3 7 grandChild])).pacemaker.signed := by
  have run : ReplicaRun sampleEnv (keysOf 0) (InRoundOrder sampleEnv) ⟨startPacemaker 0, false⟩
      (delivered [propose 2 6 firstChild, propose 3 7 grandChild])
      (ranSample (delivered [propose 2 6 firstChild, propose 3 7 grandChild])) :=
    Lib.trace_of_allMeet (by decide +kernel)
  exact ⟨by decide +kernel, signed_one_vote_per_round rfl run⟩

/-- The proposer of round 6 sends two blocks, and the replica votes for both. -/
theorem two_votes_in_one_round :
    ∃ events replica, ReplicaRun sampleEnv (keysOf 0) (fun _ _ => True) ⟨startPacemaker 0, false⟩ events replica ∧
      ¬ OneVotePerRound replica.pacemaker.signed :=
  ⟨delivered [propose 2 6 firstChild, propose 2 6 secondChild], ranSample _, Lib.trace_of_allMeet (by decide +kernel),
    by decide +kernel⟩

theorem voted_for_both_proposers :
    ((ranSample (delivered [propose 2 6 firstChild, propose 3 7 grandChild])).pacemaker.signed.map fun signed =>
      (signed.verifiedBy.map fun member => member.name)) = [some "2", some "3"] ∧
    VotesForProposers (ranSample (delivered [propose 2 6 firstChild, propose 3 7 grandChild])).pacemaker.signed := by
  have run : ReplicaRun sampleEnv (keysOf 0) (ProposedInTurn sampleEnv) ⟨startPacemaker 0, false⟩
      (delivered [propose 2 6 firstChild, propose 3 7 grandChild])
      (ranSample (delivered [propose 2 6 firstChild, propose 3 7 grandChild])) :=
    Lib.trace_of_allMeet (by decide +kernel)
  exact ⟨by decide +kernel, votes_for_round_proposers rfl rfl run⟩

/-- Member 1 proposes in round 6, whose proposer is member 2, and is voted for. -/
theorem voted_out_of_turn : ∃ events replica, ReplicaRun sampleEnv (keysOf 0) (fun _ _ => True) ⟨startPacemaker 0, false⟩ events replica ∧
      ∃ vote ∈ replica.pacemaker.signed, vote.verifiedBy = (numberedCommittee 4)[1]? ∧
        vote.roundProposer = (numberedCommittee 4)[2]? ∧ vote.verifiedBy ≠ vote.roundProposer :=
  ⟨delivered [propose 1 6 firstChild], ranSample _, Lib.trace_of_allMeet (by decide +kernel), by decide +kernel⟩

/-- Three proposals at the heights 6, 6 and 7. -/
theorem heights_of_three :
    HeightsGrow (ranSample (delivered [propose 2 6 firstChild, propose 2 6 secondChild, propose 3 7 grandChild])).pacemaker.signed :=
  vote_heights_grow rfl (Lib.trace_of_allMeet (by simp [Lib.AllMeet, delivered]))

end
end MeterPov.Consensus
