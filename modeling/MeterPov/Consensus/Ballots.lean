import MeterPov.Consensus.Handlers
import MeterPov.Consensus.Replica

/-! What the events of a replica do to the state it votes from.

Every handler but two leaves the last vote, the signed votes and the committees alone: a proposal
that is voted for, and a regulation. One lemma says what each event can do; the properties of whole
runs are derived from it. -/

set_option autoImplicit false

namespace MeterPov.Consensus

open Lib Blocks Chains List

variable {Digest Address Tx Key Sig QCID : Type}

structure Ballots (Digest Address Tx Key : Type) where
  reactor : Reactor Key
  inQueue : IncomingQueue Digest Address Tx Key
  lastVotingHeight : Nat
  lastVoteMsg : Option (Vote Digest)
  signed : List (SignedVote Digest Address Tx Key)

def Pacemaker.ballots (pacemaker : Pacemaker Digest Address Tx Key Sig QCID) : Ballots Digest Address Tx Key :=
  ⟨pacemaker.reactor, pacemaker.inQueue, pacemaker.lastVotingHeight, pacemaker.lastVoteMsg, pacemaker.signed⟩

/-- The messages that may still reach a handler without another check. -/
def IncomingQueue.pending (inQueue : IncomingQueue Digest Address Tx Key) : List (IncomingMsg Digest Address Tx Key) :=
  inQueue.queue ++ inQueue.delayed

namespace Pacemaker

variable {env : PacemakerEnv Digest Address Tx Key Sig QCID} {keys : ReplicaKeys Digest Key}
  {value : Ballots Digest Address Tx Key}

/-! ## Handlers that leave it alone -/

variable {surroundings : Surroundings} {vote : Vote Digest} {mi : IncomingMsg Digest Address Tx Key}

section

open Lib.Action

theorem onPipeline_keeps {α action} :
    Keeps ballots value (onPipeline action : Action (Pacemaker Digest Address Tx Key Sig QCID) α) :=
  .focused fun _ _ => rfl

theorem onSpace_keeps {α action} :
    Keeps ballots value (onSpace action : Action (Pacemaker Digest Address Tx Key Sig QCID) α) :=
  onPipeline_keeps

theorem setLastOnBeatRound_keeps {round} :
    Keeps ballots value (setLastOnBeatRound round : Action (Pacemaker Digest Address Tx Key Sig QCID) Unit) :=
  .write fun _ => rfl

-- Sending is not part of it, nor is the round.
theorem keeps_of_sends {α} {action : Action (Pacemaker Digest Address Tx Key Sig QCID) α} (sends : ∀ value, Keeps unsent value action) :
    Keeps ballots value action :=
  .along sends fun _ _ same => (congrArg ballots same : _)

variable [DecidableEq Digest]

theorem addQCVote_keeps {index} : Keeps ballots value (addQCVote env surroundings index vote) := by
  refine .readThen fun pacemaker known => ?_
  exact .seq (.put known) fun _ => .ret

theorem collectLastVote_keeps {index} : Keeps ballots value (collectLastVote env surroundings index vote) := by
  refine .seq addQCVote_keeps fun qc => ?_
  cases qc with
  | none => exact .ret
  | some qc => exact .seq onSpace_keeps fun _ => .seq onPipeline_keeps fun _ => onPipeline_keeps

theorem onReceiveTimeout_keeps [DecidableEq Key] {timeout} : Keeps ballots value (onReceiveTimeout env keys surroundings mi timeout) := by
  refine .readThen fun pacemaker _ => .branch .ret ?_
  refine .seq collectLastVote_keeps fun _ => .seq ?_ fun _ => .write fun _ => rfl
  exact .seq .lifted fun qc => .seq onSpace_keeps fun _ => .seq onPipeline_keeps fun _ => .ret

theorem onReceiveQuery_keeps {lastCommitted} : Keeps ballots value (onReceiveQuery env lastCommitted) :=
  .readThen fun _ _ => .seq onSpace_keeps fun refs => keeps_of_sends fun _ => forwardAll_sends refs

theorem onBeat_keeps [DecidableEq Key] {packing epoch round} :
    Keeps ballots value (onBeat env keys surroundings packing epoch round) := by
  refine Action.Ends.each fun start known => Triple.conseq onBeat_spec (fun _ same => same) ?_ ?_
  · rintro - state ⟨space, beat, proposed, timeout, rfl, -⟩
    exact known
  · rintro state ⟨space, beat, proposed, timeout, rfl, -⟩
    exact known

end

/-! ## Handlers that put a message back or sign a vote -/

section

open Lib.Action

/-- Nothing has changed, or the handled message waits to be queued again. -/
def Requeued (mi : IncomingMsg Digest Address Tx Key) (before after : Ballots Digest Address Tx Key) : Prop :=
  after = before ∨ ∃ count, after = { before with
    inQueue := { before.inQueue with delayed := before.inQueue.delayed ++ [{ mi with processCount := count }] } }

theorem delayedAdd_requeues : Triple (ballots · = value) (delayedAdd mi : Action (Pacemaker Digest Address Tx Key Sig QCID) Unit)
      (fun _ after => Requeued mi value after.ballots) (ballots · = value) := by
  refine .write fun pacemaker known => .inr ⟨(mi.processCount + 1) % 2 ^ 32, ?_⟩
  rw [← known]
  rfl

variable {action : Action (Pacemaker Digest Address Tx Key Sig QCID) Unit}

theorem requeued_of_keeps (kept : Keeps ballots value action) :
    Triple (ballots · = value) action (fun _ after => Requeued mi value after.ballots) (ballots · = value) :=
  Triple.conseq kept (fun _ known => known) (fun _ _ same => .inl same) fun _ same => same

variable {blk : Block Digest Address Tx}

theorem parentMissing_requeues : Triple (ballots · = value) (parentMissing env keys surroundings mi blk)
      (fun _ after => Requeued mi value after.ballots) (ballots · = value) := by
  refine .readThen fun pacemaker _ => ?_
  refine .branch (fun _ => ?_) fun _ => requeued_of_keeps .ret
  split
  · exact .seq (keeps_of_sends fun _ => sendQuery_sends) fun _ => delayedAdd_requeues
  · exact delayedAdd_requeues

variable [DecidableEq Digest]

theorem onReceiveVote_requeues [DecidableEq Key] : Triple (ballots · = value) (onReceiveVote env keys surroundings mi vote)
      (fun _ after => Requeued mi value after.ballots) (ballots · = value) := by
  refine .readThen fun pacemaker _ => ?_
  refine .branch (fun _ => requeued_of_keeps .ret) fun _ => .branch (fun _ => requeued_of_keeps .ret) fun _ => ?_
  refine .seq onSpace_keeps fun found => ?_
  cases found with
  | none => exact delayedAdd_requeues
  | some ref =>
    refine requeued_of_keeps (.seq onSpace_keeps fun b => .branch .ret (.seq addQCVote_keeps fun qc => ?_))
    cases qc with
    | none => exact .ret
    | some qc =>
      refine .seq onPipeline_keeps fun changed => .branch ?_ .ret
      exact .seq onPipeline_keeps fun _ => keeps_of_sends fun _ => enterRound_sends

/-- The vote for a block in a round, and the record of signing it. -/
def voteOn (env : PacemakerEnv Digest Address Tx Key Sig QCID) (keys : ReplicaKeys Digest Key) (round : Nat)
    (blk : Block Digest Address Tx) : Vote Digest :=
  ⟨round, blk.id env.hashing, keys.signHash (blk.votingHash env.hashing), blk.votingHash env.hashing⟩

section

variable (env : PacemakerEnv Digest Address Tx Key Sig QCID) (keys : ReplicaKeys Digest Key) (before : Ballots Digest Address Tx Key) (mi : IncomingMsg Digest Address Tx Key) (round : Nat) (blk : Block Digest Address Tx)

def withSigned : Ballots Digest Address Tx Key :=
  { before with
    signed := before.signed ++
      [⟨before.reactor.curEpoch, voteOn env keys round blk, blk, mi.signer, before.reactor.getRoundProposer round⟩] }

def withVote : Ballots Digest Address Tx Key :=
  { withSigned env keys before mi round blk with
    lastVoteMsg := some (voteOn env keys round blk), lastVotingHeight := blk.number }

end

omit [DecidableEq Digest] in
theorem buildVoteMessage_effect {now round} : Triple (ballots · = value) (buildVoteMessage env keys now mi round blk)
      (fun built after =>
        match built with
        | none => after.ballots = value
        | some (_, vote) => vote = voteOn env keys round blk ∧ after.ballots = withSigned env keys value mi round blk)
      (ballots · = value) := by
  refine .readThen fun pacemaker read => ?_
  refine .seq buildMessage_keeps fun message => ?_
  cases message with
  | none => exact .ret fun _ known => known
  | some message =>
    refine .via (fun _ after => after.ballots = withSigned env keys value mi round blk)
      (.write fun state known => ?_) fun _ => .ret fun _ known => ⟨rfl, known⟩
    have same : pacemaker.reactor = state.reactor := congrArg (·.reactor) (read.trans known.symm)
    rw [← known, same]
    rfl

theorem voteFor_effect {round} : Triple (ballots · = value) (voteFor env keys surroundings mi round blk)
      (fun _ after => after.ballots = value ∨ after.ballots = withVote env keys value mi round blk)
      (fun after => after.ballots = value ∨ after.ballots = withSigned env keys value mi round blk) := by
  refine .seq (Triple.conseq buildVoteMessage_effect (fun _ known => known) (fun _ _ built => built) fun _ => .inl)
    fun built => ?_
  rcases built with - | ⟨message, vote⟩
  · exact .ret fun _ same => .inl same
  · refine .assuming fun same => ?_
    subst vote
    refine .seq (onPipeline_keeps.within fun _ => .inr) fun _ => .seq (Keeps.within (.write fun _ => rfl) fun _ => .inr) fun _ => ?_
    refine .via (fun _ after => after.ballots = withVote env keys value mi round blk) (.write fun state known => ?_)
      fun _ => enterRound_spec.mono fun _ _ ⟨_, known, same⟩ => .inr ((congrArg ballots same).trans known)
    have height := Block.id_number blk env.hashing
    rw [withVote, ← known, ← height]
    rfl

/-- What a proposal can lead to; a panic can come only between signing the vote and sending it. -/
inductive ProposalEffect (env : PacemakerEnv Digest Address Tx Key Sig QCID) (keys : ReplicaKeys Digest Key)
    (mi : IncomingMsg Digest Address Tx Key) (proposal : Proposal Digest Address Tx)
    (before after : Ballots Digest Address Tx Key) : Bool → Prop where
  | requeued (crashed : Bool) : Requeued mi before after → ProposalEffect env keys mi proposal before after crashed
  | voted (blk : Block Digest Address Tx) : proposal.decodedBlock = some blk → before.lastVotingHeight ≤ blk.number →
      after = withVote env keys before mi proposal.round blk → ProposalEffect env keys mi proposal before after false
  | signed (blk : Block Digest Address Tx) : proposal.decodedBlock = some blk → before.lastVotingHeight ≤ blk.number →
      after = withSigned env keys before mi proposal.round blk → ProposalEffect env keys mi proposal before after true

theorem onReceiveProposal_effect [DecidableEq QCID] {proposal} :
    Triple (ballots · = value) (onReceiveProposal env keys surroundings mi proposal)
      (fun _ after => ProposalEffect env keys mi proposal value after.ballots false)
      (fun after => ProposalEffect env keys mi proposal value after.ballots true) := by
  refine .each fun start known => onReceiveProposal_rule False False.elim False.elim False.elim False.elim (fun _ _ _ _ _ => .requeued true (.inl known))
    (fun _ _ _ => .requeued false (.inl known)) (fun blk space _ => ?_) ?_
  · exact Ends.start (Triple.conseq parentMissing_requeues (fun _ same => same) (fun _ _ => .requeued false) fun _ same =>
      .requeued true (.inl same)) known
  · intro blk _ _ _ _ voting validQCs arrives
    refine ⟨.requeued false (.inl known), fun above => Ends.start (Triple.conseq voteFor_effect (fun _ same => same) ?_ ?_) known⟩
    · rintro - state (same | voted)
      · exact .requeued false (.inl same)
      · exact .voted blk arrives.decoded (known ▸ above) voted
    · rintro state (same | signed)
      · exact .requeued true (.inl same)
      · exact .signed blk arrives.decoded (known ▸ above) signed

/-! ## Admission and regulation -/

/-- The message is of the current epoch, the key of the member it names verified it, and it decodes. -/
def Admitted [DecidableEq Key] (env : PacemakerEnv Digest Address Tx Key Sig QCID) (reactor : Reactor Key)
    (mi : IncomingMsg Digest Address Tx Key) : Prop :=
  mi.msg.epoch = reactor.curEpoch ∧ ∃ signer, reactor.committee[mi.msg.signerIndex]? = some signer ∧
    mi.signer = some signer ∧ mi.msg.verifyMsgSignature env.messages signer.pubKey = true ∧ decodes mi.msg = true

/-- The queue has changed: every pending message was pending before or has just been admitted, and every
message kept for a later epoch was kept before or has just arrived. -/
def Received [DecidableEq Key] (env : PacemakerEnv Digest Address Tx Key Sig QCID) (arriving : Option (Message Digest Address Tx))
    (before after : Ballots Digest Address Tx Key) : Prop :=
  ∃ inQueue, after = { before with inQueue := inQueue } ∧
    (∀ mi ∈ inQueue.pending, (∃ old ∈ before.inQueue.pending, old.msg = mi.msg ∧ old.signer = mi.signer) ∨
      (arriving = some mi.msg ∧ Admitted env before.reactor mi)) ∧
    ∀ mi ∈ inQueue.future, mi ∈ before.inQueue.future ∨ arriving = some mi.msg

omit [DecidableEq Digest] in
theorem Received.refl [DecidableEq Key] {arriving} : Received env arriving value value :=
  ⟨value.inQueue, rfl, fun mi pending => .inl ⟨mi, pending, rfl, rfl⟩, fun _ => .inl⟩

omit [DecidableEq Digest] in
theorem mem_pushBounded {queue other} (member : other ∈ pushBounded queue mi) : other ∈ queue ∨ other = mi := by
  rcases mem_append.mp member with old | new
  · exact .inl (mem_of_mem_drop old)
  · exact .inr (mem_singleton.mp new)

theorem addIncoming_effect [DecidableEq Key] :
    Triple (ballots · = value) (addIncoming env mi) (fun _ after => Received env (some mi.msg) value after.ballots)
      (fun after => Received env (some mi.msg) value after.ballots) := by
  have idle : Triple (ballots · = value) (pure () : Action (Pacemaker Digest Address Tx Key Sig QCID) Unit)
      (fun _ after => Received env (some mi.msg) value after.ballots)
      (fun after => Received env (some mi.msg) value after.ballots) :=
    .ret fun _ same => same ▸ .refl
  refine .readThen fun pacemaker same => .branch (fun _ => idle) fun _ => .branch (fun current => ?_) fun _ => ?_
  · split
    · exact idle
    · rename_i signer member
      refine .branch (fun _ => idle) fun verified => .branch (fun decoded => .write fun state known => ?_) fun _ => idle
      have reactor : pacemaker.reactor = value.reactor := congrArg (·.reactor) same
      rw [reactor] at current member
      have admitted : Admitted env value.reactor { mi with signer := some signer } :=
        ⟨current, signer, member, rfl, by simpa using verified, decoded⟩
      dsimp only
      split
      · exact known ▸ .refl
      · refine ⟨{ value.inQueue with
          cache := value.inQueue.cache.add (mi.msg.getMsgHash env.messages)
          queue := pushBounded value.inQueue.queue { mi with signer := some signer } }, ?_, fun other pending => ?_, fun _ => .inl⟩
        · rw [← known]
          rfl
        · rcases mem_append.mp pending with queued | delayed
          · rcases mem_pushBounded queued with old | rfl
            · exact .inl ⟨other, mem_append_left _ old, rfl, rfl⟩
            · exact .inr ⟨rfl, admitted⟩
          · exact .inl ⟨other, mem_append_right _ delayed, rfl, rfl⟩
  · refine .branch (fun _ => .write fun state known => ?_) fun _ => idle
    refine ⟨{ value.inQueue with future := value.inQueue.future ++ [mi] }, ?_, fun other pending =>
      .inl ⟨other, pending, rfl, rfl⟩, fun other waiting => ?_⟩
    · rw [← known]
      rfl
    · rcases mem_append.mp waiting with old | new
      · exact .inl old
      · exact .inr (congrArg some (congrArg IncomingMsg.msg (mem_singleton.mp new).symm))

theorem addIncoming_keeps [DecidableEq Key] {View view} {value : View} (ignores : ∀ state inQueue, view { state with inQueue := inQueue } = view state) :
    Keeps view value (addIncoming env mi) := by
  refine .readThen fun state _ => .branch .ret (.branch ?_ (.branch (.write fun _ => ignores _ _) .ret))
  split
  · exact .ret
  · refine .branch .ret (.branch (.write fun state => ?_) .ret)
    dsimp only
    split
    · rfl
    · exact ignores _ _

/-- A regulation that panics has changed the committees at most. -/
theorem regulate_effect {before renewal} :
    Triple (· = before) (regulate env renewal)
      (fun _ after => ∃ reactor, before.reactor.updateCurEpoch env.hashing env.genesisNonce
        before.pipeline.space.chain renewal = .ok reactor ∧
        after.ballots = { before.ballots with reactor := reactor, lastVotingHeight := 0, lastVoteMsg := none })
      (fun after => after.signed = before.signed) := by
  refine .readThen fun pacemaker same => ?_
  subst pacemaker
  have signed {ballots' : Ballots Digest Address Tx Key} (old : ballots'.signed = before.signed)
      (state : Pacemaker Digest Address Tx Key Sig QCID) (same : state.ballots = ballots') :
      state.signed = before.signed := by
    rw [← old, ← same]
    rfl
  let entered (reactor : Reactor Key) : Ballots Digest Address Tx Key := { before.ballots with reactor := reactor }
  let cleared (reactor : Reactor Key) : Ballots Digest Address Tx Key :=
    { entered reactor with lastVotingHeight := 0, lastVoteMsg := none }
  refine .via (fun reactor state => before.reactor.updateCurEpoch env.hashing env.genesisNonce
      before.pipeline.space.chain renewal = .ok reactor ∧ state = before)
    (.lifted (fun reactor updated state same => ⟨updated, same⟩) fun _ _ state same => by rw [same]) fun reactor => ?_
  refine .assuming fun updated => .via (fun _ state => state.ballots = entered reactor) (.put fun _ _ => rfl) fun _ => ?_
  refine .writeThen (fun _ same => same) ?_
  dsimp only
  split
  · exact .fault (signed rfl)
  · refine .seq (setLastOnBeatRound_keeps.within (signed rfl)) fun _ => ?_
    refine .seq (onSpace_keeps.within (signed rfl)) fun bestNode => ?_
    refine .via (fun _ state => state.ballots = cleared reactor) (.write fun state same => ?_) fun _ => ?_
    · exact congrArg (fun ballots : Ballots Digest Address Tx Key =>
        { ballots with lastVotingHeight := 0, lastVoteMsg := none }) same
    refine .seq (Keeps.lifted.within (signed rfl)) fun node => ?_
    refine .writeThen (fun _ same => same) ?_
    refine .seq (onSpace_keeps.within (signed rfl)) fun _ => ?_
    refine .writeThen (fun _ same => same) ?_
    exact enterRound_spec.mono fun _ _ ⟨_, known, same⟩ => ⟨reactor, updated, (congrArg ballots same).trans known⟩

/-! ## One event -/

variable [DecidableEq Key]

variable {rest : List (IncomingMsg Digest Address Tx Key)}

variable (value) in
omit [DecidableEq Digest] in
theorem Requeued.received {after : Ballots Digest Address Tx Key} {arriving : Option (Message Digest Address Tx)}
    (queue : value.inQueue.queue = mi :: rest)
    (requeued : Requeued mi { value with inQueue := { value.inQueue with queue := rest } } after) :
    Received env arriving value after := by
  have old {other : IncomingMsg Digest Address Tx Key} (pending : other ∈ rest ++ value.inQueue.delayed) :
      other ∈ value.inQueue.pending := by
    rw [IncomingQueue.pending, queue, cons_append]
    exact mem_cons_of_mem _ pending
  rcases requeued with same | ⟨count, same⟩
  · exact ⟨_, same, fun other pending => .inl ⟨other, old pending, rfl, rfl⟩, fun _ => .inl⟩
  · refine ⟨_, same, fun other pending => .inl ?_, fun _ => .inl⟩
    change other ∈ rest ++ (value.inQueue.delayed ++ _) at pending
    rw [← append_assoc] at pending
    rcases mem_append.mp pending with earlier | new
    · exact ⟨other, old earlier, rfl, rfl⟩
    · obtain rfl := mem_singleton.mp new
      refine ⟨mi, ?_, rfl, rfl⟩
      rw [IncomingQueue.pending, queue]
      exact mem_cons_self

def arriving (pacemaker : Pacemaker Digest Address Tx Key Sig QCID) (event : ReplicaEvent Digest Address Tx Key) :
    Option (Message Digest Address Tx) :=
  match event with
  | .receive message => some message
  | .retryFuture position => pacemaker.inQueue.future[position]?.map fun mi => mi.msg
  | _ => none

/-- What one event does to the state the replica votes from; the flag says whether it panics. -/
inductive Effect (env : PacemakerEnv Digest Address Tx Key Sig QCID) (keys : ReplicaKeys Digest Key)
    (before : Pacemaker Digest Address Tx Key Sig QCID) (event : ReplicaEvent Digest Address Tx Key)
    (after : Ballots Digest Address Tx Key) : Bool → Prop where
  | received (crashed : Bool) : Received env (arriving before event) before.ballots after →
      Effect env keys before event after crashed
  | proposal (crashed : Bool) (surroundings : Surroundings) (mi : IncomingMsg Digest Address Tx Key)
      (rest : List (IncomingMsg Digest Address Tx Key)) (body : Proposal Digest Address Tx) :
      event = .dequeue surroundings → before.inQueue.queue = mi :: rest → mi.msg.epoch = before.reactor.curEpoch →
      mi.msg.body = .proposal body →
      ProposalEffect env keys mi body { before.ballots with inQueue := { before.inQueue with queue := rest } } after crashed →
      Effect env keys before event after crashed
  | regulated (renewal : Renewal Key) (reactor : Reactor Key) : event = .regulate renewal →
      before.reactor.updateCurEpoch env.hashing env.genesisNonce before.pipeline.space.chain renewal = .ok reactor →
      after = { before.ballots with reactor := reactor, lastVotingHeight := 0, lastVoteMsg := none } →
      Effect env keys before event after false
  | stopped (renewal : Renewal Key) : event = .regulate renewal → after.signed = before.signed →
      Effect env keys before event after true

abbrev Effects (env : PacemakerEnv Digest Address Tx Key Sig QCID) (keys : ReplicaKeys Digest Key)
    (before : Pacemaker Digest Address Tx Key Sig QCID) (event : ReplicaEvent Digest Address Tx Key)
    (pre : Pacemaker Digest Address Tx Key Sig QCID → Prop) (action : Action (Pacemaker Digest Address Tx Key Sig QCID) Unit) : Prop :=
  Triple pre action (fun _ after => Effect env keys before event after.ballots false)
    fun after => Effect env keys before event after.ballots true

variable {before : Pacemaker Digest Address Tx Key Sig QCID} {event : ReplicaEvent Digest Address Tx Key}

theorem effect_of_keeps {action} (kept : Keeps ballots before.ballots action) : Effects env keys before event (· = before) action :=
  Triple.conseq kept (fun _ same => same ▸ rfl) (fun _ _ same => .received false (same ▸ .refl))
    fun _ same => .received true (same ▸ .refl)

theorem retryFuture_effect {position} (found : before.inQueue.future[position]? = some mi) {future}
    (fewer : ∀ other ∈ future, other ∈ before.inQueue.future) :
    Effects env keys before (.retryFuture position)
      (ballots · = { before.ballots with inQueue := { before.inQueue with future := future } }) (addIncoming env mi) := by
  have arrives : arriving before (.retryFuture position) = some mi.msg := by simp [arriving, found]
  have effect {crashed : Bool} {after : Ballots Digest Address Tx Key} (received : Received env (some mi.msg)
        { before.ballots with inQueue := { before.inQueue with future := future } } after) :
      Effect env keys before (.retryFuture position) after crashed := by
    obtain ⟨inQueue, rfl, pending, waiting⟩ := received
    exact .received crashed (arrives ▸ ⟨inQueue, rfl, pending, fun other member => (waiting other member).imp_left (fewer other)⟩)
  exact Triple.conseq addIncoming_effect (fun _ same => same) (fun _ _ received => effect received)
    fun _ received => effect received

theorem requeueDelayed_effect {position} (found : before.inQueue.delayed[position]? = some mi) :
    Effects env keys before (.requeueDelayed position) (ballots · = { before.ballots with
      inQueue := { before.inQueue with delayed := before.inQueue.delayed.eraseIdx position } }) (forceAdd mi) := by
  have delayed : mi ∈ before.inQueue.delayed := mem_of_getElem? found
  refine .write fun state same => .received false ⟨{ before.inQueue with
    delayed := before.inQueue.delayed.eraseIdx position, queue := pushBounded before.inQueue.queue mi }, ?_, ?_, fun _ => .inl⟩
  · exact congrArg (fun ballots : Ballots Digest Address Tx Key => { ballots with
      inQueue := { ballots.inQueue with queue := pushBounded ballots.inQueue.queue mi } }) same
  · intro other pending
    refine .inl ⟨other, ?_, rfl, rfl⟩
    rcases mem_append.mp pending with queued | waiting
    · rcases mem_pushBounded queued with old | rfl
      · exact mem_append_left _ old
      · exact mem_append_right _ delayed
    · exact mem_append_right _ (mem_of_mem_eraseIdx waiting)

variable [DecidableEq QCID]

theorem dispatch_effect (queue : before.inQueue.queue = mi :: rest) (current : mi.msg.epoch = before.reactor.curEpoch) :
    Effects env keys before (.dequeue surroundings)
      (ballots · = { before.ballots with inQueue := { before.inQueue with queue := rest } }) (dispatch env keys surroundings mi) := by
  have requeues {action : Action (Pacemaker Digest Address Tx Key Sig QCID) Unit}
      (handled : Triple (ballots · = { before.ballots with inQueue := { before.inQueue with queue := rest } }) action
        (fun _ after => Requeued mi { before.ballots with inQueue := { before.inQueue with queue := rest } } after.ballots)
        (ballots · = { before.ballots with inQueue := { before.inQueue with queue := rest } })) :
      Effects env keys before (.dequeue surroundings)
        (ballots · = { before.ballots with inQueue := { before.inQueue with queue := rest } }) action :=
    Triple.conseq handled (fun _ same => same)
      (fun _ _ requeued => .received false (Requeued.received before.ballots queue requeued))
      fun _ same => .received true (Requeued.received before.ballots queue (.inl same))
  unfold dispatch
  cases body : mi.msg.body with
  | proposal proposal =>
    exact Triple.conseq onReceiveProposal_effect (fun _ same => same)
      (fun _ _ effect => .proposal false surroundings mi rest proposal rfl queue current body effect)
      fun _ effect => .proposal true surroundings mi rest proposal rfl queue current body effect
  | vote vote => exact requeues onReceiveVote_requeues
  | timeout timeout => exact requeues (requeued_of_keeps onReceiveTimeout_keeps)
  | query lastCommitted => exact requeues (requeued_of_keeps onReceiveQuery_keeps)

theorem dequeue_effect : Effects env keys before (.dequeue surroundings) (· = before) (dequeue env keys surroundings) := by
  refine .readThen fun pacemaker same => ?_
  subst pacemaker
  split
  · exact effect_of_keeps .ret
  · rename_i mi rest queue
    refine .via (fun _ state => state.ballots = { before.ballots with inQueue := { before.inQueue with queue := rest } })
      (.put fun _ _ => rfl) fun _ => .branch (fun handled => ?_) fun _ => .ret fun _ same => ?_
    · have current : mi.msg.epoch = before.reactor.curEpoch := by
        simp only [Bool.and_eq_true, decide_eq_true_eq] at handled
        exact handled.2
      exact dispatch_effect queue current
    · exact .received false (Requeued.received before.ballots queue (.inl same))

end
end Pacemaker

namespace Replica

open Pacemaker Lib.Action

variable [DecidableEq Digest] [DecidableEq Key] [DecidableEq QCID]
variable {env : PacemakerEnv Digest Address Tx Key Sig QCID} {keys : ReplicaKeys Digest Key}
  {before : Pacemaker Digest Address Tx Key Sig QCID}

theorem handle_effect (event : ReplicaEvent Digest Address Tx Key) :
    Effects env keys before event (· = before) (handle env keys event) := by
  cases event with
  | receive message =>
    exact Triple.conseq addIncoming_effect (fun _ same => same ▸ rfl) (fun _ _ received => .received false received)
      fun _ received => .received true received
  | retryFuture position =>
    refine .readThen fun pacemaker same => ?_
    subst pacemaker
    split
    · exact effect_of_keeps .ret
    · rename_i mi found
      exact .seq (.put fun _ _ => rfl) fun _ => retryFuture_effect found fun _ => mem_of_mem_eraseIdx
  | requeueDelayed position =>
    refine .readThen fun pacemaker same => ?_
    subst pacemaker
    split
    · exact effect_of_keeps .ret
    · rename_i mi found
      exact .seq (.put fun _ _ => rfl) fun _ => requeueDelayed_effect found
  | dequeue surroundings => exact dequeue_effect
  | roundTimeout surroundings epoch round =>
    exact effect_of_keeps (.readThen fun _ _ => .branch .ret (keeps_of_sends fun _ => onRoundTimeout_sends))
  | beat surroundings packing epoch round => exact effect_of_keeps onBeat_keeps
  | broadcast => exact effect_of_keeps (keeps_of_sends fun _ => onBroadcastProposal_sends)
  | regulate renewal =>
    exact Triple.conseq regulate_effect (fun _ same => same)
      (fun _ _ ⟨reactor, updated, same⟩ => .regulated renewal reactor rfl updated same)
      fun _ signed => .stopped renewal rfl signed
  | imported block escortQC => exact effect_of_keeps onSpace_keeps
  | validated qc => exact effect_of_keeps (.write fun _ => rfl)

theorem step_effect {replica} (alive : replica.halted = false) (event : ReplicaEvent Digest Address Tx Key) :
    Effect env keys replica.pacemaker event (step env keys replica event).pacemaker.ballots (step env keys replica event).halted := by
  rcases step_of_triple (handle_effect event) alive rfl with ⟨still, effect⟩ | ⟨halted, effect⟩
  · rwa [still]
  · rwa [halted]

end Replica
end MeterPov.Consensus
