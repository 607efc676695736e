import MeterPov.Consensus.Handlers
import MeterPov.Consensus.HighQC
import MeterPov.Consensus.Metadata
import MeterPov.Consensus.Replica

/-! What the handlers of a replica do to its highest certificate. -/

set_option autoImplicit false

namespace MeterPov.Consensus.Pacemaker

open Lib Lib.Action Blocks Chains DraftSpace

variable {Digest Address Tx Key Sig QCID : Type} {env : PacemakerEnv Digest Address Tx Key Sig QCID} {keys : ReplicaKeys Digest Key}
  {missing : Prop} {vouched : BlockID Digest → QuorumCert Digest → Prop} {low : QuorumCert Digest}
  {start state : Pacemaker Digest Address Tx Key Sig QCID} {surroundings : Surroundings} {mi : IncomingMsg Digest Address Tx Key}
  {blk : Block Digest Address Tx} {qc : QuorumCert Digest} {index : Nat} {vote : Vote Digest} {space : DraftSpace Digest Address Tx}

variable (env missing vouched low) in
/-- What is known of the highest certificate of a replica. -/
def High (pacemaker : Pacemaker Digest Address Tx Key Sig QCID) : Prop :=
  pacemaker.pipeline.High env.hashing missing vouched low

theorem high_of_pipeline (high : High env missing vouched low start) (same : state.pipeline = start.pipeline) :
    High env missing vouched low state := by
  unfold High
  rw [same]
  exact high

theorem high_of_keeps {α} {action : Action (Pacemaker Digest Address Tx Key Sig QCID) α}
    (keeps : ∀ value, Keeps (fun state => state.pipeline) value action) :
    Always (High env missing vouched low) action (High env missing vouched low) :=
  .each fun start high => (keeps start.pipeline).conseq (fun _ same => congrArg _ same) (fun _ _ same => high_of_pipeline high same)
    fun _ same => high_of_pipeline high same

theorem high_of_sends {α} {action : Action (Pacemaker Digest Address Tx Key Sig QCID) α} (sends : ∀ value, Keeps unsent value action) :
    Always (High env missing vouched low) action (High env missing vouched low) :=
  high_of_keeps fun _ => .along sends fun _ _ same => congrArg (fun pacemaker => pacemaker.pipeline) same

theorem High.searched (high : High env missing vouched low start) (searched : start.pipeline.space.Searched space) :
    High env missing vouched low (start.withSpace space) :=
  high.withSpace (searched.grows high.tidy)

theorem parentMissing_high :
    Always (High env missing vouched low) (parentMissing env keys surroundings mi blk) (High env missing vouched low) := by
  refine .readThen fun state _ => .branch (fun _ => ?_) fun _ => .ret fun _ high => high
  split
  · exact .seq (high_of_sends fun _ => sendQuery_sends) fun _ => .write fun _ high => high
  · exact .write fun _ high => high

/-! ## Proposals -/

variable [DecidableEq Digest]

/-- `ValidateQC` of the replica returns true for the block and the certificate. -/
def Passes [DecidableEq QCID] (env : PacemakerEnv Digest Address Tx Key Sig QCID)
    (pacemaker : Pacemaker Digest Address Tx Key Sig QCID) (block : Block Digest Address Tx) (qc : QuorumCert Digest) : Prop :=
  Accepted ⟨env.hashing, env.bls, pacemaker.reactor, pacemaker.pipeline.space.chain.bestBlock.number, env.qcID⟩
    pacemaker.validQCs block qc

theorem update_onPipeline : Always (fun state : Pacemaker Digest Address Tx Key Sig QCID => High env missing vouched low state ∧
        state.pipeline.MatchesVouched env.hashing vouched qc) (onPipeline (Pipeline.update env.toChainHashing qc)) (High env missing vouched low) :=
  .focused fun _ given => Ends.start Pipeline.update_high given

theorem voteFor_high {round : Nat} : Always (fun state : Pacemaker Digest Address Tx Key Sig QCID => High env missing vouched low state ∧
        state.pipeline.MatchesVouched env.hashing vouched blk.qc) (voteFor env keys surroundings mi round blk) (High env missing vouched low) := by
  refine .via (fun _ state => High env missing vouched low state ∧ state.pipeline.MatchesVouched env.hashing vouched blk.qc) ?_ fun built => ?_
  · refine .readThen fun state _ => .seq buildMessage_spec fun message => ?_
    cases message with
    | none => exact .ret fun _ given => given.1
    | some message =>
      exact .via (fun _ state => High env missing vouched low state ∧ state.pipeline.MatchesVouched env.hashing vouched blk.qc)
        (.write fun _ given => given.1) fun _ => .ret fun _ given => given
  cases built with
  | none => exact .ret fun _ given => given.1
  | some both =>
    exact .seq update_onPipeline fun _ => .writeThen (fun _ high => high)
      (.writeThen (fun _ high => high) (high_of_sends fun _ => enterRound_sends))

/-- What a draft of the block needs to match the certificate, its round apart. -/
def NamesBlock (env : PacemakerEnv Digest Address Tx Key Sig QCID) (qc : QuorumCert Digest) (block : Block Digest Address Tx) : Prop :=
  block.number = qc.qcHeight ∧ (qc.qcHeight = 0 ∨ qc.voterMsgHash = block.votingHash env.hashing)

theorem namesBlock_of_matchesQC {space ref} {draft : DraftBlock Digest Address Tx}
    {qc} (linked : draft.Linked space) (placed : space.drafts[ref]? = some draft)
    (isMatch : DraftSpace.matchesQC env.hashing space.drafts qc ref = true) : NamesBlock env qc draft.proposedBlock := by
  simp only [DraftSpace.matchesQC, placed, Bool.and_eq_true, decide_eq_true_eq] at isMatch
  obtain ⟨⟨height, -⟩, hash⟩ := isMatch
  refine ⟨linked.height.symm.trans height, ?_⟩
  unfold DraftSpace.blockMatchDraftQC at hash
  split at hash
  next zero => exact .inl zero.2
  · exact .inr (by simpa using hash)

/-- The certificate of a proposal matches, among the proposals and the new one, only what is vouched for. -/
def ProposalVouched (env : PacemakerEnv Digest Address Tx Key Sig QCID) (vouched : BlockID Digest → QuorumCert Digest → Prop)
    (pacemaker : Pacemaker Digest Address Tx Key Sig QCID) (blk : Block Digest Address Tx) : Prop :=
  pacemaker.pipeline.MatchesVouched env.hashing vouched blk.qc ∧
  (replacedBy pacemaker.pipeline.qcHigh true blk.qc = true → NamesBlock env blk.qc blk → vouched (blk.id env.hashing) blk.qc)

theorem ProposalVouched.after {start state : Pacemaker Digest Address Tx Key Sig QCID} {blk}
    (known : ProposalVouched env vouched start blk) (tidy : start.pipeline.space.Tidy env.hashing)
    (grows : start.pipeline.space.Grows env.hashing state.pipeline.space) (same : state.pipeline.qcHigh = start.pipeline.qcHigh)
    (entries : ∀ entry ∈ state.pipeline.space.proposals.entries, entry ∈ start.pipeline.space.proposals.entries ∨
      ∃ draft, state.pipeline.space.drafts[entry.2]? = some draft ∧ draft.proposedBlock = blk) :
    state.pipeline.MatchesVouched env.hashing vouched blk.qc := by
  intro replaced entry member draft placed isOpen isMatch
  rw [same] at replaced
  rcases entries entry member with old | ⟨new, isNew, block⟩
  · -- a proposal from before has not changed
    obtain ⟨before, placedBefore, -⟩ := tidy.named entry old
    obtain ⟨later, placedLater, outline, mark⟩ := grows.kept _ _ placedBefore
    obtain rfl : later = draft := Option.some.inj (placedLater.symm.trans placed)
    have wasOpen : before.committed = false := by
      cases marked : before.committed with
      | false => rfl
      | true => exact absurd (mark marked) (by simp [isOpen])
    have sameDraft := DraftBlock.eq_of_outline outline
    rw [isOpen, ← wasOpen] at sameDraft
    change later = before at sameDraft
    subst sameDraft
    rw [grows.matchesQC_eq (tidy.named entry old)] at isMatch
    exact known.1 replaced entry old later placedBefore wasOpen isMatch
  · obtain rfl : new = draft := Option.some.inj (isNew.symm.trans placed)
    have names := namesBlock_of_matchesQC (grows.linked new (List.mem_of_getElem? placed)) placed isMatch
    rw [block] at names ⊢
    exact known.2 replaced names

variable {proposal : Proposal Digest Address Tx} {parent : DraftBlock Digest Address Tx}
  {voting : DraftSpace Digest Address Tx}

/-- Of an accepted proposal, a new draft entered the space, and what it is a draft of may have become a proposal. -/
theorem Arrives.grows [DecidableEq QCID] {parentRef ref} {validQCs : ValidQCs QCID}
    (arrives : Arrives env surroundings mi proposal start blk parentRef ref parent space voting validQCs)
    (tidy : start.pipeline.space.Tidy env.hashing) :
    start.pipeline.space.Grows env.hashing voting ∧ voting.chain = start.pipeline.space.chain ∧
      ∀ entry ∈ voting.proposals.entries, entry ∈ start.pipeline.space.proposals.entries ∨
        ∃ draft, voting.drafts[entry.2]? = some draft ∧ draft.proposedBlock = blk ∧
          (surroundings.execution.stateOpens = true → draft.returnTxsToPool = true) := by
  have accepts : Ends (· = space) (acceptDraft env surroundings mi proposal.round blk parentRef) _ (space.Fails False) :=
    acceptDraft_spec False.elim False.elim False.elim fun _ _ _ _ => trivial
  rcases accepts.of_ok rfl arrives.accepted with ⟨gone, -⟩ | ⟨found, _, executed, -, processed, accepts⟩
  · cases gone
  have grown := arrives.searched.grows tidy
  have found_grows := grown.trans (accepts.searched.grows grown.tidy)
  have inside := lt_of_lt_of_le (List.getElem?_eq_some_iff.mp arrives.placed).1 accepts.searched.length_le
  have returns : surroundings.execution.stateOpens = true → executed.returnTxsToPool = true := by
    intro opens
    cases processed with
    | unopened closed => exact absurd (opens.symm.trans closed) nofun
    | known => rfl
    | executed => rfl
  have isBlock : executed.proposedBlock = blk := by
    obtain ⟨_, _, _, _, rfl⟩ := processed.marks
    rfl
  have linked : executed.Linked found := by
    obtain ⟨_, _, _, _, rfl⟩ := processed.marks
    refine ⟨?_, ?_, fun _ => ⟨rfl, rfl, rfl⟩, (nomatch ·), rfl⟩
    · rintro ref ⟨⟩
      exact inside
    · rintro justify ⟨⟩ ref ⟨⟩
      exact inside
  refine ⟨found_grows.trans (accepts.enters.grows found_grows.tidy linked), ?_, fun entry member => ?_⟩
  · rw [accepts.space_eq]
    exact accepts.searched.chain.trans arrives.searched.chain
  · refine (accepts.enters.entries member).imp (fun old => ?_) fun placed => ⟨executed, placed.2, isBlock, returns⟩
    rwa [accepts.searched.proposals, arrives.searched.proposals] at old

theorem Arrives.passes [DecidableEq QCID] {parentRef ref validQCs}
    (arrives : Arrives env surroundings mi proposal start blk parentRef ref parent space voting validQCs) :
    Passes env start parent.proposedBlock blk.qc := by
  unfold Passes Accepted
  rw [arrives.verdict]
  rfl

theorem onReceiveProposal_high [DecidableEq QCID] (high : High env missing vouched low start)
    (known : ∀ blk, proposal.decodedBlock = some blk → ∀ parent : Block Digest Address Tx,
      parent.id env.hashing = blk.parentID → Passes env start parent blk.qc → ProposalVouched env vouched start blk) :
    Always (· = start) (onReceiveProposal env keys surroundings mi proposal) (High env missing vouched low) := by
  refine onReceiveProposal_rule False False.elim False.elim False.elim False.elim (fun _ _ _ searched _ => high.searched searched)
    (fun _ _ searched => high.searched searched) (fun _ _ searched => parentMissing_high.start (high.searched searched))
    fun blk parentRef ref parent space voting validQCs arrives => ?_
  obtain ⟨grows, -, entries⟩ := arrives.grows high.tidy
  have highVoting := high.withSpace grows
  refine ⟨highVoting, fun _ => voteFor_high.start ⟨highVoting, ?_⟩⟩
  obtain ⟨draft, placed, id, -⟩ := arrives.gets.draft arrives.searched high.tidy.named
  obtain rfl := Option.some.inj (arrives.placed.symm.trans placed)
  refine (known blk arrives.decoded _ id arrives.passes).after high.tidy grows rfl fun entry member => ?_
  exact (entries entry member).imp_right fun ⟨draft, placed, same, _⟩ => ⟨draft, placed, same⟩

/-! ## Votes and timeouts -/

theorem completedQC_names (completed : completedQC env surroundings start index vote = some qc) :
    qc.qcHeight = vote.voteBlockID.number ∧ qc.qcRound = vote.voteRound := by
  unfold completedQC QCVoteManager.addVote at completed
  split at completed
  · contradiction
  · obtain ⟨aggregated, -, rfl⟩ := Option.map_eq_some_iff.mp completed
    exact ⟨rfl, rfl⟩

/-- A certificate above the highest one leads to a node that is vouched for, or to none where that may be. -/
def NodeVouched (env : PacemakerEnv Digest Address Tx Key Sig QCID) (missing : Prop)
    (vouched : BlockID Digest → QuorumCert Digest → Prop) (pipeline : Pipeline Digest Address Tx) (qc : QuorumCert Digest) : Prop :=
  let node := pipeline.space.nodeFor env.hashing qc
  replacedBy pipeline.qcHigh node.isSome qc = true →
    (missing ∧ node = none) ∨ ∃ block, node = some block ∧ vouched (block.id env.hashing) qc

omit [DecidableEq Digest] in
theorem not_replacedBy_self (high : DraftQC Digest) (found : Bool) : replacedBy high found high.qc = false := by
  simp [replacedBy]

theorem isSome_of_search {before after : DraftSpace Digest Address Tx} {node} (absent : node = none → before.nodeFor env.hashing qc = none)
    (found : ∀ ref, node = some ref → ∃ draft, DraftSpace.FoundFor env.hashing before after qc ref draft) :
    node.isSome = (before.nodeFor env.hashing qc).isSome := by
  cases node with
  | none => rw [absent rfl]; rfl
  | some ref =>
    obtain ⟨draft, isFound⟩ := found ref rfl
    rw [isFound.block]
    rfl

theorem offered_of_search {before after : Pipeline Digest Address Tx} {node}
    (known : NodeVouched env missing vouched before qc) (sameHigh : after.qcHigh = before.qcHigh)
    (absent : node = none → before.space.nodeFor env.hashing qc = none)
    (found : ∀ ref, node = some ref → ∃ draft, DraftSpace.FoundFor env.hashing before.space after.space qc ref draft) :
    after.Offered env.hashing missing vouched node qc := by
  have isSome := isSome_of_search absent found
  intro replaced
  rw [sameHigh, isSome] at replaced
  rcases known replaced with ⟨allowed, gone⟩ | ⟨block, isBlock, isVouched⟩
  · cases node with
    | none => exact .inl ⟨allowed, rfl⟩
    | some ref => rw [gone] at isSome; contradiction
  · cases node with
    | none => rw [isBlock] at isSome; contradiction
    | some ref =>
      obtain ⟨draft, isFound⟩ := found ref rfl
      obtain rfl : draft.proposedBlock = block := Option.some.inj (isFound.block.symm.trans isBlock)
      exact .inr ⟨ref, rfl, draft, isFound.placed, isFound.height, isFound.round, isVouched⟩

/-- Handing over the node found for a certificate, and what an update with that certificate finds afterwards. -/
theorem handOver_high (high : High env missing vouched low start) (known : NodeVouched env missing vouched start.pipeline qc) :
    Triple (· = start)
      (do
        let node ← onSpace (DraftSpace.getDraftByEscortQC env.hashing qc)
        onPipeline (Pipeline.updateQCHigh node qc))
      (fun _ state => High env missing vouched low state ∧ state.pipeline.MatchesVouched env.hashing vouched qc)
      (High env missing vouched low) := by
  refine onSpace_search getDraftByEscortQC_spec fun node space searched ⟨absent, found⟩ => ?_
  have highFound := high.searched searched
  have grows := searched.grows high.tidy
  have isSome := isSome_of_search absent found
  have offered : (start.withSpace space).pipeline.Offered env.hashing missing vouched node qc := offered_of_search known rfl absent found
  refine .focused fun state' same' => ?_
  subst same'
  refine (Pipeline.updateQCHigh_spec False False.elim).conseq (fun _ same => same) ?_ fun _ _ stopped => stopped.1 ▸ highFound
  rintro updated pipeline (⟨-, replaces, rfl⟩ | ⟨-, notReplaced, rfl⟩)
  · refine ⟨highFound.replaced (highFound.replaces_iff.mp replaces) offered, fun replaced => ?_⟩
    rw [not_replacedBy_self ⟨node, qc⟩] at replaced
    contradiction
  · refine ⟨highFound, fun replaced entry member draft placed isOpen isMatch => (notReplaced (highFound.replaces_iff.mpr ?_)).elim⟩
    -- a proposal matches, so a node was found for the certificate
    rw [searched.proposals] at member
    rw [grows.matchesQC_eq (high.tidy.named entry member)] at isMatch
    rw [isSome, nodeFor_isSome high.tidy member isMatch]
    exact replaced

variable {pipeline : Pipeline Digest Address Tx}

theorem offered_of_vote {ref b} (tidy : pipeline.space.Tidy env.hashing) (placed : pipeline.space.drafts[ref]? = some b)
    (id : b.proposedBlock.id env.hashing = vote.voteBlockID) (sameRound : b.round = vote.voteRound)
    (completes : completedQC env surroundings start index vote = some qc) (known : vouched vote.voteBlockID qc) :
    pipeline.Offered env.hashing missing vouched (some ref) qc := by
  obtain ⟨height, round⟩ := completedQC_names completes
  refine fun _ => .inr ⟨ref, rfl, b, placed, ?_, ?_, id ▸ known⟩
  · rw [(tidy.linked b (List.mem_of_getElem? placed)).height, height, ← id, Block.id_number]
  · exact sameRound.trans round.symm

theorem onReceiveVote_high [DecidableEq Key] (high : High env missing vouched low start)
    (known : ∀ qc, completedQC env surroundings start mi.msg.signerIndex vote = some qc → vouched vote.voteBlockID qc) :
    Always (· = start) (onReceiveVote env keys surroundings mi vote) (High env missing vouched low) := by
  refine onReceiveVote_rule False False.elim (fun _ _ searched _ => high.searched searched) (fun _ searched => high.searched searched)
    (fun _ searched => .write fun _ same => same ▸ high.searched searched) (fun _ searched => high.searched searched)
    fun ref b qc space searched gets placed sameRound completes => ?_
  have highFiled : High env missing vouched low (filed env surroundings mi.msg.signerIndex vote (start.withSpace space)) :=
    high.searched searched
  obtain ⟨draft, also, id, -⟩ := gets.draft searched high.tidy.named
  obtain rfl := Option.some.inj (placed.symm.trans also)
  have offered : (filed env surroundings mi.msg.signerIndex vote (start.withSpace space)).pipeline.Offered env.hashing missing vouched
      (some ref) qc := offered_of_vote highFiled.tidy placed id sameRound completes (known qc completes)
  refine .via (fun updated state => High env missing vouched low state ∧ (updated = true → state.pipeline.qcHigh.qc = qc))
    (.focused fun state same => ?_) fun updated => .branch (fun isUpdated => ?_) fun _ => .ret fun _ given => given.1
  · subst same
    exact Ends.start (Pipeline.updateQCHigh_high.mono fun _ _ given => ⟨given.1, given.2.1⟩) ⟨highFiled, offered⟩
  · refine .seq (update_onPipeline.conseq (fun state' given => ⟨given.1, ?_⟩) (fun _ _ high => high) fun _ high => high)
      fun _ => high_of_sends fun _ => enterRound_sends
    intro replaced
    rw [← given.2 isUpdated, not_replacedBy_self] at replaced
    contradiction

theorem collectLastVote_high (high : High env missing vouched low start)
    (known : ∀ qc, completedQC env surroundings start index vote = some qc → NodeVouched env missing vouched start.pipeline qc) :
    Always (· = start) (collectLastVote env surroundings index vote) (High env missing vouched low) := by
  refine addQCVote_spec ?_
  have highFiled : High env missing vouched low (filed env surroundings index vote start) := high
  cases completed : completedQC env surroundings start index vote with
  | none => exact .here highFiled
  | some newQC =>
    have handed := Ends.seq (handOver_high highFiled (known newQC completed)) fun _ => update_onPipeline
    rw [bind_assoc] at handed
    exact handed

theorem adoptQCHigh_high {decodedQCHigh} (high : High env missing vouched low start)
    (known : ∀ qc, decodedQCHigh = some qc → NodeVouched env missing vouched start.pipeline qc) :
    Always (· = start) (adoptQCHigh env decodedQCHigh) (High env missing vouched low) := by
  refine .deref (fun _ _ same => same ▸ high) fun qc decoded => ?_
  have handed : Always (· = start) (_ >>= fun _ => pure ()) (High env missing vouched low) :=
    .seq (handOver_high high (known qc decoded)) fun _ => .ret fun _ given => given.1
  rw [bind_assoc] at handed
  exact handed

/-- The certificates a timeout brings: the one its last vote completes, then the one it carries. -/
structure TimeoutVouched (env : PacemakerEnv Digest Address Tx Key Sig QCID) (missing : Prop)
    (vouched : BlockID Digest → QuorumCert Digest → Prop) (surroundings : Surroundings)
    (start : Pacemaker Digest Address Tx Key Sig QCID) (index : Nat) (timeout : Timeout Digest) : Prop where
  lastVote : ∀ qc, completedQC env surroundings start index timeout.lastVote = some qc →
    NodeVouched env missing vouched start.pipeline qc
  carried : ∀ qc, timeout.decodedQCHigh = some qc →
    NodeVouched env missing vouched ((collectLastVote env surroundings index timeout.lastVote).finalState start).pipeline qc

theorem onReceiveTimeout_high [DecidableEq Key] {timeout : Timeout Digest} (high : High env missing vouched low start)
    (known : start.reactor.amIRoundProposer keys.myPubKey timeout.wishRound = true →
      TimeoutVouched env missing vouched surroundings start mi.msg.signerIndex timeout) :
    Always (· = start) (onReceiveTimeout env keys surroundings mi timeout) (High env missing vouched low) := by
  refine .readThen fun state same => ?_
  subst same
  refine .branch (fun _ => .here high) fun mine => ?_
  have vouchedFor := known (by simpa using mine)
  refine .seq ((collectLastVote_high high vouchedFor.lastVote).reached) fun _ => .each fun middle ⟨highMiddle, reached⟩ => ?_
  exact .seq (adoptQCHigh_high highMiddle (reached ▸ vouchedFor.carried)) fun _ => .write fun _ high => high

omit [DecidableEq Digest] in
theorem onSpace_high {α} {action : Action (DraftSpace Digest Address Tx) α} (growing : DraftSpace.Growing env.hashing action) :
    Always (High env missing vouched low : Pacemaker Digest Address Tx Key Sig QCID → Prop) (onSpace action) (High env missing vouched low) :=
  .focused fun _ high => Ends.start (Pipeline.onSpace_high growing) high

theorem onReceiveQuery_high {lastCommitted} :
    Always (High env missing vouched low : Pacemaker Digest Address Tx Key Sig QCID → Prop) (onReceiveQuery env lastCommitted) (High env missing vouched low) :=
  .readThen fun _ _ => .seq (onSpace_high getDraftsUpTo_searching.growing) fun refs =>
    high_of_sends fun _ => forwardAll_sends refs

/-! ## Proposing -/

omit [DecidableEq Digest] in
theorem NewLeaf.linked {leaf : DraftBlock Digest Address Tx} {node : Ref}
    (isNew : NewLeaf env.hashing pipeline space leaf) (isNode : pipeline.qcHigh.qcNode = some node) (inside : node < pipeline.space.drafts.length) :
    leaf.Linked space := by
  obtain ⟨parentRef, bare, message, _, made, rfl, -, -⟩ := isNew.made
  refine ⟨fun ref isParent => ?_, fun justify isJustify ref isRef => ?_, fun _ => ?_, fun gone => ?_, made.height⟩
  · obtain rfl := Option.some.inj (made.parent.symm.trans isParent)
    obtain ⟨_, placed, -⟩ := made.named
    exact (List.getElem?_eq_some_iff.mp placed).1
  · obtain rfl := Option.some.inj (made.justify.symm.trans isJustify)
    obtain rfl := Option.some.inj (isNode.symm.trans isRef)
    exact lt_of_lt_of_le inside isNew.searched.length_le
  · simp [made.parent, made.justify, isNode]
  · simp [made.parent] at gone

theorem onBeat_high [DecidableEq Key] {packing} {at_ round : Nat} :
    Always (High env False vouched low : Pacemaker Digest Address Tx Key Sig QCID → Prop) (onBeat env keys surroundings packing at_ round) (High env False vouched low) := by
  have kept {start state : Pacemaker Digest Address Tx Key Sig QCID} (high : High env False vouched low start) (beats : Beats env start state) :
      High env False vouched low state := by
    obtain ⟨space, _, _, _, rfl, searched | ⟨found, leaf, isNew, enters⟩⟩ := beats
    · exact high.searched searched
    · obtain ⟨node, isNode, ⟨_, nodePlaced, -⟩⟩ := high.node.resolve_left fun gone => gone.1
      have grows := isNew.searched.grows high.tidy
      have linked := isNew.linked isNode (List.getElem?_eq_some_iff.mp nodePlaced).1
      exact high.withSpace (grows.trans (enters.grows grows.tidy linked))
  exact .each fun _ high => onBeat_spec.conseq (fun _ same => same) (fun _ _ => kept high) fun _ => kept high

end MeterPov.Consensus.Pacemaker
