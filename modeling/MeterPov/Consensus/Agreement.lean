import MeterPov.Consensus.SoundProposals
import MeterPov.Consensus.Voting

/-! Agreement of the honest replicas of an epoch.

The vote rule compares heights only and lets a replica vote again at the height of its last vote, for a
block on another branch. Two branches can then be certified and committed. As long as no replica does
that, and every certificate it accepts is one of the current committee for the block in question, all
committed blocks are on one chain. -/

set_option autoImplicit false

namespace MeterPov.Consensus

open Lib Lib.Action Blocks Chains List Function

section

variable {Digest Address Tx Key Sig QCID : Type} [DecidableEq Digest] [DecidableEq Key] [DecidableEq QCID]
  {env : PacemakerEnv Digest Address Tx Key Sig QCID} {keys : ReplicaKeys Digest Key}
  {epoch : Epoch Digest Address Tx Key env.hashing} {votes : epoch.Votes} {event : ReplicaEvent Digest Address Tx Key}

/-! ## One event at one replica -/

/-- What is known of a message that was received: an honest member whose key verifies it has signed the
votes in it, and its certificate is not forged. -/
structure Trusted (env : PacemakerEnv Digest Address Tx Key Sig QCID) (epoch : Epoch Digest Address Tx Key env.hashing)
    (votes : epoch.Votes) (message : Message Digest Address Tx) : Prop where
  repeats : ∀ member, member ∉ epoch.byzantine →
    message.verifyMsgSignature env.messages (epoch.committee.get member).pubKey = true →
    Repeats env.hashing (votes member) message.body
  certificate : Network.CarriesUnforged env epoch votes message.body

variable {mi : IncomingMsg Digest Address Tx Key}

omit [DecidableEq Digest] [DecidableEq QCID] in
theorem supported_of_trusted {reactor : Reactor Key} (committee : reactor.committee = epoch.committee) (admitted : Pacemaker.Admitted env reactor mi) (trusted : Trusted env epoch votes mi.msg)
    {vote : Vote Digest} (named : Network.NamesItsBlock Tx env.hashing vote) (signed : vote.voteSignature.length ≠ 0)
    (isCarried : ∀ votes : List (SignedVote Digest Address Tx Key), Repeats env.hashing votes mi.msg.body →
      ∃ earlier ∈ votes, earlier.vote = vote) :
    epoch.Supported votes (vote.voteRound, vote.voteBlockID) mi.msg.signerIndex vote.voteHash := by
  obtain ⟨-, signer, position, -, verified⟩ := admitted
  rw [committee] at position
  obtain ⟨inside, isSigner⟩ := List.getElem?_eq_some_iff.mp position
  refine ⟨inside, fun member isMember honest => ?_, named signed⟩
  have same : epoch.committee.get member = signer := by
    rw [← isSigner, get_eq_getElem]
    simp only [isMember]
  obtain ⟨earlier, inVotes, sameVote⟩ := isCarried _ (trusted.repeats member honest (same ▸ verified.1))
  exact ⟨earlier, inVotes, by rw [sameVote]⟩

variable {before : Pacemaker Digest Address Tx Key Sig QCID}

theorem dispatch_sound (collisionFree : CollisionFree Tx env.hashing)
    (justified : ∀ member, member ∉ epoch.byzantine → ∀ vote ∈ votes member, epoch.Justified votes vote)
    {surroundings} (executes : surroundings.execution = ⟨true, true, true⟩)
    (sound : before.Sound env epoch votes) (admitted : Pacemaker.Admitted env before.reactor mi)
    (trusted : Trusted env epoch votes mi.msg) (safe : Network.SafeBody env epoch before mi.msg.body) :
    Always (· = before) (Pacemaker.dispatch env keys surroundings mi) (Pacemaker.Sound env epoch votes) := by
  have unforged := trusted.certificate
  unfold Pacemaker.dispatch
  cases body : mi.msg.body with
  | proposal proposal =>
    rw [body] at safe unforged
    exact Pacemaker.onReceiveProposal_sound collisionFree justified (by rw [executes]) body sound safe unforged
  | vote vote =>
    rw [body] at safe
    refine Ends.start (Pacemaker.onReceiveVote_sound fun signed => ?_) sound
    exact supported_of_trusted sound.committee admitted trusted safe signed fun _ repeats => by rwa [body] at repeats
  | timeout timeout =>
    rw [body] at safe
    refine Ends.start (Pacemaker.onReceiveTimeout_sound fun signed => ?_) sound
    refine supported_of_trusted sound.committee admitted trusted safe signed fun _ repeats => ?_
    rw [body] at repeats
    rcases repeats with none | earlier
    · rw [none] at signed
      exact absurd rfl signed
    · exact earlier
  | query lastCommitted => exact Ends.start Pacemaker.onReceiveQuery_sound sound

omit [DecidableEq Digest] [DecidableEq Key] [DecidableEq QCID] in
theorem ledger_withQueue (pacemaker : Pacemaker Digest Address Tx Key Sig QCID) (inQueue : IncomingQueue Digest Address Tx Key) :
    { pacemaker with inQueue := inQueue }.ledger = pacemaker.ledger := rfl

omit [DecidableEq QCID] in
theorem addIncoming_keeps_ledger (value : Pacemaker.Ledger Digest Address Tx Key Sig) :
    Keeps Pacemaker.ledger value (Pacemaker.addIncoming env mi) := by
  refine .readThen fun state _ => .branch .ret (.branch ?_ (.branch (.write fun _ => rfl) .ret))
  split
  · exact .ret
  · refine .branch .ret (.branch (.write fun state => ?_) .ret)
    dsimp only
    split
    · rfl
    · exact ledger_withQueue _ _

variable {network : Network epoch Sig QCID}

/-- Every event of an epoch keeps the invariant of the replica, if the message it handles is safe. -/
theorem handle_sound (collisionFree : CollisionFree Tx env.hashing)
    (justified : ∀ member, member ∉ epoch.byzantine → ∀ vote ∈ votes member, epoch.Justified votes vote) (inEpoch : Network.InEpoch env network event) (safe : Network.Safe env epoch before event)
    (sound : before.Sound env epoch votes)
    (pending : ∀ mi ∈ before.inQueue.pending, Pacemaker.Admitted env before.reactor mi ∧ Trusted env epoch votes mi.msg) :
    Always (· = before) (Replica.handle env keys event) (Pacemaker.Sound env epoch votes) := by
  have unchanged (state : Pacemaker Digest Address Tx Key Sig QCID) (same : state = before) : state.Sound env epoch votes :=
    same ▸ sound
  cases event with
  | receive message => exact Ends.start (Pacemaker.sound_keeps addIncoming_keeps_ledger) sound
  | retryFuture position =>
    refine .readThen fun state same => ?_
    subst same
    split
    · exact .ret unchanged
    · exact .via (fun _ => Pacemaker.Sound env epoch votes) (.put fun _ _ => sound.of_ledger rfl) fun _ =>
        Pacemaker.sound_keeps addIncoming_keeps_ledger
  | requeueDelayed position =>
    refine .readThen fun state same => ?_
    subst same
    split
    · exact .ret unchanged
    · exact .via (fun _ => Pacemaker.Sound env epoch votes) (.put fun _ _ => sound.of_ledger rfl) fun _ =>
        .write fun _ sound => Pacemaker.Sound.of_ledger sound (ledger_withQueue _ _)
  | dequeue surroundings =>
    refine .readThen fun state same => ?_
    subst same
    split
    · exact .ret unchanged
    · rename_i mi rest queue
      have head : mi ∈ state.inQueue.pending := by
        rw [IncomingQueue.pending, queue]
        exact mem_cons_self
      have safeBody := safe mi (by rw [queue]; rfl)
      obtain ⟨admitted, trusted⟩ := pending mi head
      have soundNow : Pacemaker.Sound env epoch votes { state with inQueue := { state.inQueue with queue := rest } } :=
        sound.of_ledger rfl
      refine .putThen (.branch (fun _ => dispatch_sound collisionFree justified inEpoch soundNow admitted trusted ?_) fun _ =>
        .ret fun _ same => same ▸ soundNow)
      cases body : mi.msg.body with
      | proposal proposal =>
        rw [body] at safeBody
        intro blk decoded
        have known := safeBody blk decoded
        exact ⟨known.above, known.revote, known.parent⟩
      | vote vote => rwa [body] at safeBody
      | timeout timeout => rwa [body] at safeBody
      | query lastCommitted => trivial
  | roundTimeout surroundings at_ round =>
    exact .readThen fun _ _ => .branch (fun _ => .ret unchanged) fun _ => Ends.start Pacemaker.onRoundTimeout_sound sound
  | beat surroundings packing at_ round => exact Ends.start Pacemaker.onBeat_sound sound
  | broadcast => exact Ends.start Pacemaker.onBroadcastProposal_sound sound
  | regulate renewal => exact inEpoch.elim
  | imported block escortQC => exact inEpoch.elim
  | validated qc => exact inEpoch.elim

/-! ## The votes of one replica -/

/-- The last vote is at the height of the last vote on record, no vote is above it, and the votes at
that height share its parent. -/
def HighestLast (ballots : Ballots Digest Address Tx Key) : Prop :=
  ∀ vote ∈ ballots.signed, vote.block.number ≤ ballots.lastVotingHeight ∧
    (vote.block.number = ballots.lastVotingHeight → ∃ last ∈ ballots.signed.getLast?,
      last.block.number = ballots.lastVotingHeight ∧ last.block.parentID = vote.block.parentID)

structure BallotsSound (env : PacemakerEnv Digest Address Tx Key Sig QCID) (epoch : Epoch Digest Address Tx Key env.hashing)
    (votes : epoch.Votes) (ballots : Ballots Digest Address Tx Key) : Prop where
  pending : ∀ mi ∈ ballots.inQueue.pending, Pacemaker.Admitted env ballots.reactor mi ∧ Trusted env epoch votes mi.msg
  future : ∀ mi ∈ ballots.inQueue.future, Trusted env epoch votes mi.msg
  oneParent : Epoch.OneParent ballots.signed

variable {after : Ballots Digest Address Tx Key}

omit [DecidableEq Digest] [DecidableEq Key] [DecidableEq QCID] in
/-- A vote at a new height, or at the last height on the same parent, agrees with all votes before it. -/
theorem oneParent_withSigned {before} {round : Nat} {blk} (oneParent : Epoch.OneParent before.signed) (highest : HighestLast before)
    (height : before.lastVotingHeight ≤ blk.number)
    (revote : ∀ last ∈ before.signed.getLast?, last.block.number = blk.number → last.block.parentID = blk.parentID) :
    Epoch.OneParent (Pacemaker.withSigned env keys before mi round blk).signed ∧
      HighestLast (Pacemaker.withVote env keys before mi round blk) := by
  have agrees : ∀ vote ∈ before.signed, vote.block.number = blk.number → vote.block.parentID = blk.parentID := by
    intro vote member sameHeight
    obtain ⟨below, atTop⟩ := highest vote member
    obtain ⟨last, isLast, lastHeight, sameParent⟩ := atTop (by omega)
    exact sameParent.symm.trans (revote last isLast (by omega))
  constructor
  · intro first firstMember second secondMember sameHeight
    rcases mem_append.mp firstMember with firstOld | firstNew <;>
      rcases mem_append.mp secondMember with secondOld | secondNew
    · exact oneParent first firstOld second secondOld sameHeight
    · obtain rfl := mem_singleton.mp secondNew
      exact agrees first firstOld sameHeight
    · obtain rfl := mem_singleton.mp firstNew
      exact (agrees second secondOld sameHeight.symm).symm
    · rw [mem_singleton.mp firstNew, mem_singleton.mp secondNew]
  · intro vote member
    refine ⟨?_, fun sameHeight => ⟨_, List.getLast?_concat, rfl, ?_⟩⟩
    · rcases mem_append.mp member with old | new
      · exact (highest vote old).1.trans height
      · rw [mem_singleton.mp new]
        exact le_refl _
    · rcases mem_append.mp member with old | new
      · exact (agrees vote old sameHeight).symm
      · rw [mem_singleton.mp new]

theorem BallotsSound.effect {crashed} (sound : BallotsSound env epoch votes before.ballots) (highest : HighestLast before.ballots)
    (inEpoch : Network.InEpoch env network event) (safe : Network.Safe env epoch before event)
    (arrives : ∀ message, Pacemaker.arriving before event = some message → Trusted env epoch votes message)
    (effect : Pacemaker.Effect env keys before event after crashed) :
    BallotsSound env epoch votes after ∧ (crashed = false → HighestLast after) ∧ ∀ vote ∈ before.signed, vote ∈ after.signed := by
  have queued {arriving : Option (Message Digest Address Tx)} (arrives : ∀ message, arriving = some message → Trusted env epoch votes message)
      (received : Pacemaker.Received env arriving before.ballots after) :
      BallotsSound env epoch votes after ∧ (crashed = false → HighestLast after) ∧ ∀ vote ∈ before.signed, vote ∈ after.signed := by
    obtain ⟨inQueue, rfl, pending, waiting⟩ := received
    refine ⟨⟨fun mi member => ?_, fun mi member => ?_, sound.oneParent⟩, fun _ => highest, fun _ member => member⟩
    · rcases pending mi member with ⟨old, oldMember, message, signer⟩ | ⟨arrived, admitted⟩
      · have known := sound.pending old oldMember
        rw [Pacemaker.Admitted, message, signer] at known
        exact known
      · exact ⟨admitted, arrives mi.msg arrived⟩
    · rcases waiting mi member with old | arrived
      · exact sound.future mi old
      · exact arrives mi.msg arrived
  cases effect with
  | received _ received => exact queued arrives received
  | proposal _ surroundings mi rest body isDequeue queue current isProposal effect =>
    subst isDequeue
    have safeBody := safe mi (by rw [queue]; rfl)
    rw [isProposal] at safeBody
    have pending : ∀ other ∈ rest ++ before.inQueue.delayed, Pacemaker.Admitted env before.reactor other ∧ Trusted env epoch votes other.msg := by
      intro other member
      refine sound.pending other ?_
      change other ∈ before.inQueue.queue ++ before.inQueue.delayed
      rw [queue]
      exact mem_cons_of_mem _ member
    have voted {blk : Block Digest Address Tx} (decoded : body.decodedBlock = some blk) (height : before.lastVotingHeight ≤ blk.number) :
        Epoch.OneParent (Pacemaker.withSigned env keys before.ballots mi body.round blk).signed ∧
          HighestLast (Pacemaker.withVote env keys before.ballots mi body.round blk) :=
      oneParent_withSigned sound.oneParent highest height (safeBody blk decoded).revote
    cases effect with
    | requeued _ requeued =>
      have received : Pacemaker.Received env none before.ballots after := Pacemaker.Requeued.received before.ballots queue requeued
      exact queued (by simp) received
    | voted blk decoded height isAfter =>
      subst isAfter
      exact ⟨⟨pending, sound.future, (voted decoded height).1⟩, fun _ => (voted decoded height).2, fun _ => mem_append_left _⟩
    | signed blk decoded height isAfter =>
      subst isAfter
      exact ⟨⟨pending, sound.future, (voted decoded height).1⟩, by simp, fun _ => mem_append_left _⟩
  | regulated renewal reactor isRegulate =>
    subst isRegulate
    exact inEpoch.elim
  | stopped renewal isRegulate =>
    subst isRegulate
    exact inEpoch.elim

/-! ## All replicas -/

structure MemberSound (env : PacemakerEnv Digest Address Tx Key Sig QCID) (epoch : Epoch Digest Address Tx Key env.hashing)
    (votes : epoch.Votes) (replica : Replica Digest Address Tx Key Sig QCID) : Prop where
  sound : replica.pacemaker.Sound env epoch votes
  ballots : BallotsSound env epoch votes replica.pacemaker.ballots
  highest : replica.halted = false → HighestLast replica.pacemaker.ballots

variable {message : Message Digest Address Tx}

omit [DecidableEq Digest] [DecidableEq QCID] in
theorem Trusted.mono {later : epoch.Votes} (grow : ∀ member, ∀ vote ∈ votes member, vote ∈ later member) (trusted : Trusted env epoch votes message) : Trusted env epoch later message := by
  refine ⟨fun member honest verified => (trusted.repeats member honest verified).mono (grow member), ?_⟩
  have unforged := trusted.certificate
  unfold Network.CarriesUnforged at unforged ⊢
  split
  · rename_i proposal isProposal
    rw [isProposal] at unforged
    intro blk decoded
    have certificate := unforged blk decoded
    unfold Network.Unforged at certificate ⊢
    split
    · rename_i array parsed
      rw [parsed] at certificate
      intro checked member honest isSet
      refine (certificate checked member honest isSet).imp_right ?_
      rintro ⟨vote, signed, same⟩
      exact ⟨vote, grow member vote signed, same⟩
    · trivial
  · trivial

variable {replica : Replica Digest Address Tx Key Sig QCID}

omit [DecidableEq Digest] [DecidableEq QCID] in
theorem MemberSound.mono {later} (grow : ∀ member, ∀ vote ∈ votes member, vote ∈ later member) (known : MemberSound env epoch votes replica) :
    MemberSound env epoch later replica where
  sound := known.sound.mono grow
  ballots :=
    { known.ballots with
      pending := fun mi member => ⟨(known.ballots.pending mi member).1, (known.ballots.pending mi member).2.mono grow⟩
      future := fun mi member => (known.ballots.future mi member).mono grow }
  highest := known.highest

variable {members : epoch.Member → ReplicaKeys Digest Key}

theorem memberSound_step (collisionFree : CollisionFree Tx env.hashing)
    (all : ∀ member, member ∉ epoch.byzantine → MemberSound env epoch network.votes (network member))
    {actor : epoch.Member} (honest : actor ∉ epoch.byzantine)
    (inEpoch : Network.InEpoch env network event) (safe : Network.Safe env epoch (network actor).pacemaker event) :
    ∀ member, member ∉ epoch.byzantine → MemberSound env epoch (Network.step env members network (actor, event)).votes
      (Network.step env members network (actor, event) member) := by
  cases alive : (network actor).halted with
  | true =>
    have same : Network.step env members network (actor, event) = network := by
      simp [Network.step, Replica.step_halted alive]
    rw [same]
    exact all
  | false =>
    have known := all actor honest
    have arrives : ∀ message, Pacemaker.arriving (network actor).pacemaker event = some message →
        Trusted env epoch network.votes message := by
      intro message arriving
      cases event with
      | receive received =>
        cases arriving
        -- what an honest member sent repeats its own votes
        exact ⟨fun member honest verified => (all member honest).sound.sent message (inEpoch.1 member honest verified), inEpoch.2⟩
      | retryFuture position =>
        obtain ⟨mi, found, rfl⟩ := Option.map_eq_some_iff.mp arriving
        exact known.ballots.future mi (mem_of_getElem? found)
      | _ => contradiction
    have sound : (Replica.step env (members actor) (network actor) event).pacemaker.Sound env epoch network.votes :=
      Replica.step_keeps known.sound (handle_sound collisionFree (fun member honest => (all member honest).sound.signed)
        inEpoch safe known.sound known.ballots.pending)
    have effect := @Replica.step_effect _ _ _ _ _ _ _ _ _ env (members actor) _ alive event
    have ballots := known.ballots.effect (known.highest alive) inEpoch safe arrives effect
    have grow : ∀ member, ∀ vote ∈ network.votes member, vote ∈ (Network.step env members network (actor, event)).votes member := by
      intro member vote signed
      by_cases same : member = actor
      · subst same
        simp only [Network.votes, Network.step, update_self]
        exact ballots.2.2 vote signed
      · simp only [Network.votes, Network.step, update_of_ne same]
        exact signed
    intro member memberHonest
    by_cases same : member = actor
    · subst same
      have new : MemberSound env epoch network.votes (Replica.step env (members member) (network member) event) :=
        ⟨sound, ballots.1, ballots.2.1⟩
      simp only [Network.step, update_self]
      exact new.mono grow
    · simp only [Network.step, update_of_ne same]
      exact (all member memberHonest).mono grow

/-- A replica at the start of an epoch. Of its drafts only those above the floor need not be committed,
and it has no message, no vote on file and no vote of its own. -/
structure Started (env : PacemakerEnv Digest Address Tx Key Sig QCID) (epoch : Epoch Digest Address Tx Key env.hashing)
    (pacemaker : Pacemaker Digest Address Tx Key Sig QCID) : Prop where
  space : pacemaker.pipeline.space.WellFormed env.hashing epoch.floor
  high : epoch.floor ≤ pacemaker.pipeline.qcHigh.qc.qcHeight
  node : ∀ ref, pacemaker.pipeline.qcHigh.qcNode = some ref →
    (pacemaker.pipeline.space.drafts.map fun draft => draft.height)[ref]? = some pacemaker.pipeline.qcHigh.qc.qcHeight
  committee : pacemaker.reactor.committee = epoch.committee
  votes : pacemaker.qcVoteManager = VoteManager.new epoch.committee.length
  commits : pacemaker.pipeline.commits = []
  signed : pacemaker.signed = []
  sent : pacemaker.sent = []
  lastVoteMsg : pacemaker.lastVoteMsg = none
  pending : pacemaker.inQueue.pending = []
  future : pacemaker.inQueue.future = []

omit [DecidableEq Digest] [DecidableEq QCID] in
theorem Started.memberSound (started : Started env epoch replica.pacemaker) : MemberSound env epoch votes replica := by
  have noVote : replica.pacemaker.ballots.signed = [] := started.signed
  have noPending : replica.pacemaker.ballots.inQueue.pending = [] := started.pending
  have noFuture : replica.pacemaker.ballots.inQueue.future = [] := started.future
  refine ⟨⟨⟨started.space, started.high, started.node, ?_⟩, started.committee, ?_, ?_, ?_, ?_, ?_⟩, ⟨?_, ?_, ?_⟩, fun _ => ?_⟩
  · simp [started.commits]
  · rw [started.votes]
    rfl
  · rw [started.votes]
    intro entry member
    simp [VoteManager.new] at member
  · simp [started.signed]
  · simp [started.lastVoteMsg]
  · simp [started.sent]
  · simp [noPending]
  · simp [noFuture]
  · simp [Epoch.OneParent, noVote]
  · simp [HighestLast, noVote]

/-- In every run of an epoch in which the messages that are handled are safe, all blocks committed by
honest replicas lie on one chain. -/
theorem commits_on_one_chain (collisionFree : CollisionFree Tx env.hashing) {start network : Network epoch Sig QCID}
    {labels : List (epoch.Member × ReplicaEvent Digest Address Tx Key)}
    (started : ∀ member, member ∉ epoch.byzantine → Started env epoch (start member).pacemaker)
    (run : Network.Run env members (Network.Safe env epoch) start labels network) {first second : epoch.Member}
    (firstHonest : first ∉ epoch.byzantine) (secondHonest : second ∉ epoch.byzantine) {x y : Block Digest Address Tx}
    (xCommitted : x ∈ (network first).pacemaker.pipeline.commits) (yCommitted : y ∈ (network second).pacemaker.pipeline.commits) :
    OnOneChain (Extends Tx env.hashing) (x.id env.hashing) (y.id env.hashing) := by
  have all : ∀ member, member ∉ epoch.byzantine → MemberSound env epoch network.votes (network member) := by
    refine Trace.invariant (fun network : Network epoch Sig QCID =>
      ∀ member, member ∉ epoch.byzantine → MemberSound env epoch network.votes (network member))
      (fun member honest => (started member honest).memberSound) ?_ run
    rintro network ⟨actor, event⟩ next known ⟨⟨honest, inEpoch, safe⟩, rfl⟩
    exact memberSound_step collisionFree known honest inEpoch safe
  have tree := Epoch.certification first collisionFree (fun member honest => (all member honest).sound.signed)
    fun member honest => (all member honest).ballots.oneParent
  obtain ⟨xTop, xRecoverable, xCertified, xHigh, xPath⟩ := (all first firstHonest).sound.pipeline.commits x xCommitted
  obtain ⟨yTop, yRecoverable, yCertified, yHigh, yPath⟩ := (all second secondHonest).sound.pipeline.commits y yCommitted
  refine tree.onOneChain xCertified yCertified ?_ ?_ ⟨xTop, xRecoverable, rfl, rfl⟩ ⟨yTop, yRecoverable, rfl, rfl⟩ xPath yPath
  · rwa [Block.id_number]
  · rwa [Block.id_number]

end

/-! ## Deciding the conditions of a run -/

section

variable {Digest Address Tx Key Sig QCID : Type} [DecidableEq Digest] [DecidableEq Address] [DecidableEq Tx] [DecidableEq Key]
  [DecidableEq QCID] {env : PacemakerEnv Digest Address Tx Key Sig QCID} {epoch : Epoch Digest Address Tx Key env.hashing}

instance {votes qc} : Decidable (Network.Unforged env epoch votes qc) :=
  match parsed : qc.voterBitArray with
  | .ok (some array) =>
    decidable_of_iff (checkAggregate env.bls qc.voterAggSig qc.voterMsgHash (voters (some array) epoch.committee) = .ok true →
      ∀ member, member ∉ epoch.byzantine → array.getIndex member = true →
        qc.voterMsgHash ∈ epoch.earlier ∨ ∃ vote ∈ votes member, vote.vote.voteHash = qc.voterMsgHash)
      (by simp only [Network.Unforged, parsed])
  | .ok none => .isTrue (by simp only [Network.Unforged, parsed])
  | .error _ => .isTrue (by simp only [Network.Unforged, parsed])

instance {votes body} : Decidable (Network.CarriesUnforged env epoch votes body) :=
  match body with
  | .proposal proposal => inferInstanceAs (Decidable (∀ blk ∈ proposal.decodedBlock, Network.Unforged env epoch votes blk.qc))
  | .vote _ | .timeout _ | .query _ => .isTrue trivial

instance (network : Network epoch Sig QCID) {event} : Decidable (Network.InEpoch env network event) :=
  match event with
  | .receive message => inferInstanceAs (Decidable ((∀ member, member ∉ epoch.byzantine →
      message.verifyMsgSignature env.messages (epoch.committee.get member).pubKey = true →
      message ∈ (network member).pacemaker.sent) ∧ Network.CarriesUnforged env epoch network.votes message.body))
  | .dequeue surroundings | .beat surroundings _ _ _ =>
    inferInstanceAs (Decidable (surroundings.execution = ⟨true, true, true⟩))
  | .retryFuture _ | .requeueDelayed _ | .roundTimeout .. | .broadcast => .isTrue trivial
  | .regulate _ | .imported .. | .validated _ => .isFalse id

instance {qc} : Decidable (Network.CountsOnce epoch qc) :=
  match parsed : qc.voterBitArray with
  | .ok (some array) => decidable_of_iff (majorityTwoThird (array.count % 2 ^ 32) (epoch.committee.length % 2 ^ 32) = true →
      array.countBelow epoch.committee.length = 0 ∨ twoThirds epoch.committee.length ≤ array.countBelow epoch.committee.length)
      (by simp only [Network.CountsOnce, parsed, CountsAgree])
  | .ok none => .isTrue (by simp only [Network.CountsOnce, parsed])
  | .error _ => .isTrue (by simp only [Network.CountsOnce, parsed])

instance {pacemaker block qc} : Decidable (Network.AcceptsCurrent env epoch pacemaker block qc) :=
  inferInstanceAs (Decidable (_ → _))

instance {pacemaker blk} : Decidable (Network.SafeProposal env epoch pacemaker blk) :=
  decidable_of_iff (epoch.floor < blk.number ∧
      (∀ last ∈ pacemaker.signed.getLast?, last.block.number = blk.number → last.block.parentID = blk.parentID) ∧
      ∀ parent ∈ pacemaker.pipeline.space.blockAt env.hashing blk.parentID, Network.AcceptsCurrent env epoch pacemaker parent blk.qc)
    ⟨fun ⟨above, revote, parent⟩ => ⟨above, revote, parent⟩, fun safe => ⟨safe.above, safe.revote, safe.parent⟩⟩

/-- Where only proposals are handled, it can be decided whether an event is safe. -/
def SafeProposals (env : PacemakerEnv Digest Address Tx Key Sig QCID) (epoch : Epoch Digest Address Tx Key env.hashing)
    (pacemaker : Pacemaker Digest Address Tx Key Sig QCID) (event : ReplicaEvent Digest Address Tx Key) : Bool :=
  match event with
  | .dequeue _ =>
    match pacemaker.inQueue.queue with
    | [] => true
    | mi :: _ =>
      match mi.msg.body with
      | .proposal proposal => decide (∀ blk ∈ proposal.decodedBlock, Network.SafeProposal env epoch pacemaker blk)
      | _ => false
  | _ => true

omit [DecidableEq Address] [DecidableEq Tx] [DecidableEq Key] in
theorem safe_of_safeProposals {pacemaker event} (checked : SafeProposals env epoch pacemaker event = true) : Network.Safe env epoch pacemaker event := by
  cases event with
  | dequeue surroundings =>
    intro mi isHead
    cases queue : pacemaker.inQueue.queue with
    | nil => simp [queue] at isHead
    | cons head rest =>
      obtain rfl : head = mi := by simpa [queue] using isHead
      simp only [SafeProposals, queue] at checked
      cases body : head.msg.body with
      | proposal proposal => simpa [body, Network.SafeBody] using checked
      | vote vote => simp [body] at checked
      | timeout timeout => simp [body] at checked
      | query lastCommitted => trivial
  | _ => trivial

end

section

/-- Member 3 of four is not honest; the epoch starts from block 5. -/
def sampleEpoch : Epoch (List Nat) Nat Unit Bytes sampleEnv.hashing where
  committee := numberedCommittee 4
  small := by decide
  byzantine := {(⟨3, Nat.lt_succ_self 3⟩ : Fin (numberedCommittee 4).length)}
  few := le_refl 1
  floor := 5
  earlier := [baseBlock.votingHash listHashing]
  earlier_below block signed := by
    have same := listHashing_collisionFree.votingHash block baseBlock (mem_singleton.mp signed)
    rw [← block.id_number listHashing, same]
    decide

def startNetwork : Network sampleEpoch Bytes (QuorumCert (List Nat)) := fun member => ⟨startPacemaker member, false⟩

def sampleKeys (member : sampleEpoch.Member) : ReplicaKeys (List Nat) Bytes := keysOf member

/-- Certificates that member 3 completes: the texts are `BA{4:xx_x}` and `BA{4:_xxx}`. -/
def leftCertificate (block : Block (List Nat) Nat Unit) (round : Nat) : QuorumCert (List Nat) :=
  ⟨block.number, round, 0, [66, 65, 123, 52, 58, 120, 120, 95, 120, 125], block.votingHash listHashing, [0, 1, 3]⟩

def rightCertificate (block : Block (List Nat) Nat Unit) (round : Nat) : QuorumCert (List Nat) :=
  ⟨block.number, round, 0, [66, 65, 123, 52, 58, 95, 120, 120, 120, 125], block.votingHash listHashing, [1, 2, 3]⟩

def left7 : Block (List Nat) Nat Unit := blockOn (firstChild.id listHashing) 70 (leftCertificate firstChild 6)
def left8 : Block (List Nat) Nat Unit := blockOn (left7.id listHashing) 80 (leftCertificate left7 7)
def right7 : Block (List Nat) Nat Unit := blockOn (secondChild.id listHashing) 71 (rightCertificate secondChild 6)
def right8 : Block (List Nat) Nat Unit := blockOn (right7.id listHashing) 81 (rightCertificate right7 7)

def deliveredTo (member : sampleEpoch.Member) (message : Message (List Nat) Nat Unit) :
    List (sampleEpoch.Member × ReplicaEvent (List Nat) Nat Unit Bytes) :=
  [(member, .receive message), (member, .dequeue smooth)]

/-- Member 3 leads members 0 and 1 along the left branch, and members 1 and 2 along the right one. -/
def forkingRun : List (sampleEpoch.Member × ReplicaEvent (List Nat) Nat Unit Bytes) :=
  deliveredTo ⟨0, by decide⟩ (propose 3 6 firstChild) ++ deliveredTo ⟨1, by decide⟩ (propose 3 6 firstChild) ++
  deliveredTo ⟨1, by decide⟩ (propose 3 6 secondChild) ++ deliveredTo ⟨2, by decide⟩ (propose 3 6 secondChild) ++
  deliveredTo ⟨0, by decide⟩ (propose 3 7 left7) ++ deliveredTo ⟨1, by decide⟩ (propose 3 7 left7) ++
  deliveredTo ⟨1, by decide⟩ (propose 3 7 right7) ++ deliveredTo ⟨2, by decide⟩ (propose 3 7 right7) ++
  deliveredTo ⟨0, by decide⟩ (propose 3 8 left8) ++ deliveredTo ⟨2, by decide⟩ (propose 3 8 right8)

def ran (labels : List (sampleEpoch.Member × ReplicaEvent (List Nat) Nat Unit Bytes)) :
    Network sampleEpoch Bytes (QuorumCert (List Nat)) :=
  labels.foldl (Network.step sampleEnv sampleKeys) startNetwork

theorem startNetwork_started (member : sampleEpoch.Member) : Started sampleEnv sampleEpoch (startNetwork member).pacemaker where
  space := by
    have recoverable : baseBlock.Recoverable listHashing := ⟨0, by decide⟩
    refine ⟨fun ref draft found => ?_, fun entry listed => ?_, fun block stored => ?_⟩
    · obtain rfl := mem_singleton.mp (mem_of_getElem? found)
      exact DraftSpace.committedDraft_fits recoverable 5 _
    · obtain rfl := mem_singleton.mp listed
      exact ⟨DraftSpace.committedDraft baseBlock 5, rfl, rfl⟩
    · obtain rfl := mem_singleton.mp stored
      exact recoverable
  high := le_refl 5
  node := by
    rintro ref ⟨⟩
    rfl
  committee := rfl
  votes := rfl
  commits := rfl
  signed := rfl
  sent := rfl
  lastVoteMsg := rfl
  pending := rfl
  future := rfl

/-- Members 0 and 1 follow the left branch, member 0 by one block more. -/
def leftRun : List (sampleEpoch.Member × ReplicaEvent (List Nat) Nat Unit Bytes) :=
  deliveredTo ⟨0, by decide⟩ (propose 3 6 firstChild) ++ deliveredTo ⟨1, by decide⟩ (propose 3 6 firstChild) ++
  deliveredTo ⟨0, by decide⟩ (propose 3 7 left7) ++ deliveredTo ⟨1, by decide⟩ (propose 3 7 left7) ++
  deliveredTo ⟨0, by decide⟩ (propose 3 8 left8) ++ deliveredTo ⟨1, by decide⟩ (propose 3 8 left8) ++
  deliveredTo ⟨0, by decide⟩ (propose 3 9 (blockOn (left8.id listHashing) 90 (leftCertificate left8 8)))

theorem left_branch_committed : left7 ∈ (ran leftRun ⟨0, by decide⟩).pacemaker.pipeline.commits ∧
    firstChild ∈ (ran leftRun ⟨1, by decide⟩).pacemaker.pipeline.commits ∧
    OnOneChain (Extends Unit listHashing) (left7.id listHashing) (firstChild.id listHashing) := by
  have checked : Network.Run sampleEnv sampleKeys (fun pacemaker event => SafeProposals sampleEnv sampleEpoch pacemaker event = true)
      startNetwork leftRun (ran leftRun) := Lib.trace_of_allMeet (by decide +kernel)
  have run : Network.Run sampleEnv sampleKeys (Network.Safe sampleEnv sampleEpoch) startNetwork leftRun (ran leftRun) :=
    checked.mono fun _ _ _ ⟨⟨honest, inEpoch, safe⟩, taken⟩ => ⟨⟨honest, inEpoch, safe_of_safeProposals safe⟩, taken⟩
  have first : left7 ∈ (ran leftRun ⟨0, by decide⟩).pacemaker.pipeline.commits := by decide +kernel
  have second : firstChild ∈ (ran leftRun ⟨1, by decide⟩).pacemaker.pipeline.commits := by decide +kernel
  exact ⟨first, second, commits_on_one_chain listHashing_collisionFree (fun member _ => startNetwork_started member) run
    (by decide +kernel) (by decide +kernel) first second⟩

/-- A block ID lists the IDs below it, so that it is longer than they are. -/
theorem extends_shorter {child parent} (extended : Extends Unit listHashing child parent) :
    parent.tail.length < child.tail.length := by
  obtain ⟨block, ⟨signer, recovered⟩, rfl, rfl⟩ := extended
  have listed : (block.id listHashing).tail = signer :: block.timestamp :: block.parentID.number :: block.parentID.tail := by
    simp only [Block.id, Header.id, recovered]
    rfl
  rw [listed]
  simp only [length_cons]
  omega

theorem not_onOneChain {first second} (different : first ≠ second) (sameLength : first.tail.length = second.tail.length) : ¬ OnOneChain (Extends Unit listHashing) first second := by
  have shorter {x y : BlockID (List Nat)} (path : Relation.ReflTransGen (Extends Unit listHashing) x y) :
      x = y ∨ y.tail.length < x.tail.length := by
    induction path with
    | refl => exact .inl rfl
    | tail _ last ih =>
      have := extends_shorter last
      rcases ih with rfl | less
      · exact .inr this
      · exact .inr (this.trans less)
  rintro (path | path)
  · rcases shorter path with same | less
    · exact different same
    · omega
  · rcases shorter path with same | less
    · exact different same.symm
    · omega

/-- Two honest members commit different blocks at one height: member 1 has voted for both of them, and
for a child of each. -/
theorem conflicting_commits : ∃ labels network, Network.Run sampleEnv sampleKeys (fun _ _ => True) startNetwork labels network ∧
      firstChild ∈ (network ⟨0, by decide⟩).pacemaker.pipeline.commits ∧
      secondChild ∈ (network ⟨2, by decide⟩).pacemaker.pipeline.commits ∧
      (network ⟨0, by decide⟩).pacemaker.pipeline.space.chain.bestBlock = firstChild ∧
      (network ⟨2, by decide⟩).pacemaker.pipeline.space.chain.bestBlock = secondChild ∧
      ¬ OnOneChain (Extends Unit listHashing) (firstChild.id listHashing) (secondChild.id listHashing) :=
  ⟨forkingRun, ran forkingRun, Lib.trace_of_allMeet (by decide +kernel), by decide +kernel, by decide +kernel, by decide +kernel,
    by decide +kernel, not_onOneChain (by decide) (by decide)⟩

end
end MeterPov.Consensus
