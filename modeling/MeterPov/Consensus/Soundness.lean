import MeterPov.Consensus.Network

/-! What every handler of an honest replica keeps, as long as the messages it handles are safe: its
blocks are linked, its votes are justified, and it commits only below certified blocks.

The votes of all members are fixed while one handler runs; that they only grow is used between
events. -/

set_option autoImplicit false

namespace MeterPov.Consensus

open Lib Lib.Action Blocks Chains List Finset

variable {Digest Address Tx Key Sig QCID : Type}

/-! ## Certificates and quorums -/

variable {qc : QuorumCert Digest}

namespace Epoch

variable {hashing : Hashing Digest Address} {epoch : Epoch Digest Address Tx Key hashing}

/-- The quorum of the members at enough different positions. -/
def quorumAt (positions : List Nat) (nodup : positions.Nodup) (inside : ∀ position ∈ positions, position < epoch.committee.length)
    (enough : twoThirds epoch.committee.length ≤ positions.length) : Quorum epoch.Member where
  members := Finset.univ.filter fun member => member.val ∈ positions
  large := by
    have covered : positions.toFinset ⊆ (Finset.univ.filter fun member : epoch.Member => member.val ∈ positions).image Fin.val := by
      intro position member
      rw [mem_toFinset] at member
      exact mem_image.mpr ⟨⟨position, inside position member⟩, by simpa using member, rfl⟩
    have counted := (card_le_card covered).trans card_image_le
    rw [toFinset_card_of_nodup nodup] at counted
    rw [Fintype.card_fin]
    unfold twoThirds at enough
    omega

/-- A vote on file: an honest member at the position voted for the block, and the hash is the voting
hash of no other block. -/
def Supported (epoch : Epoch Digest Address Tx Key hashing) (votes : epoch.Votes) (key : Nat × BlockID Digest)
    (position : Nat) (hash : Digest) : Prop :=
  position < epoch.committee.length ∧
  (∀ member : epoch.Member, member.val = position → member ∉ epoch.byzantine →
    ∃ vote ∈ votes member, vote.vote.voteBlockID = key.2) ∧
  ∀ block : Block Digest Address Tx, block.votingHash hashing = hash → block.id hashing = key.2

theorem certified_of_collected {votes : epoch.Votes} {key} {hash : Digest}
    (collected : VoteManager.Collected (epoch.Supported votes key) epoch.committee.length hash) :
    epoch.Certified votes key.2 ∧
      ∀ block : Block Digest Address Tx, block.votingHash hashing = hash → block.id hashing = key.2 := by
  obtain ⟨positions, nodup, majority, supported, ending, named⟩ := collected
  have enough : twoThirds epoch.committee.length ≤ positions.length :=
    (majorityTwoThird_iff.mp majority).2.trans (Nat.mod_le _ _)
  have inside : ∀ position ∈ positions, position < epoch.committee.length := by
    intro position member
    obtain ⟨cast, known⟩ := supported position member
    exact known.1
  refine ⟨⟨quorumAt positions nodup inside enough, fun member inQuorum honest => ?_⟩, named.2.2⟩
  obtain ⟨cast, known⟩ := supported member (by simpa [quorumAt] using inQuorum)
  exact known.2.1 member rfl honest

/-- A verified certificate above the floor has a quorum behind it that voted for the block. -/
theorem certified_of_verified [DecidableEq Digest] {env : PacemakerEnv Digest Address Tx Key Sig QCID}
    {epoch votes} (collisionFree : CollisionFree Tx env.hashing)
    (justified : ∀ member, member ∉ epoch.byzantine → ∀ vote ∈ votes member, epoch.Justified votes vote)
    {block : Block Digest Address Tx} (high : max 1 epoch.floor < block.number)
    (verified : block.verifyQC env.hashing qc env.bls epoch.committee = .ok (.ok true))
    (countsOnce : Network.CountsOnce epoch qc) (unforged : Network.Unforged env epoch votes qc) :
    epoch.Certified votes (block.id env.hashing) := by
  obtain ⟨hash, array, parsed, majority, checked⟩ := (Block.verifyQC_eq_true (by omega)).mp verified
  simp only [Network.CountsOnce, parsed] at countsOnce
  simp only [Network.Unforged, parsed] at unforged
  have enough := countsOnce.quorum majority checked
  rw [QuorumTookPart, voters_length, BitArray.countBelow, countP_eq_length_filter] at enough
  have inside : ∀ position ∈ (List.range epoch.committee.length).filter array.getIndex, position < epoch.committee.length :=
    fun position member => List.mem_range.mp (List.mem_filter.mp member).1
  refine ⟨quorumAt _ (List.nodup_range.filter _) inside enough, fun member inQuorum honest => ?_⟩
  have isSet : array.getIndex member = true := by
    simp only [quorumAt, Finset.mem_filter, List.mem_filter] at inQuorum
    exact inQuorum.2.2
  rcases unforged checked member honest isSet with old | ⟨vote, signed, same⟩
  · rw [hash] at old
    have := epoch.earlier_below block old
    omega
  · refine ⟨vote, signed, ?_⟩
    have valid := justified member honest vote signed
    rw [valid.id]
    exact collisionFree.votingHash _ _ (valid.hash.symm.trans (same.trans hash))

end Epoch

/-! ## The invariant of a replica -/

/-- The votes a message of an honest member carries are votes it signed. -/
def Repeats (hashing : Hashing Digest Address) (signed : List (SignedVote Digest Address Tx Key))
    (body : MessageBody Digest Address Tx) : Prop :=
  match body with
  | .vote vote => ∃ earlier ∈ signed, earlier.vote = vote
  | .timeout timeout => timeout.lastVote = noVote hashing ∨ ∃ earlier ∈ signed, earlier.vote = timeout.lastVote
  | _ => True

variable {body : MessageBody Digest Address Tx}

theorem Repeats.mono {hashing} {signed later : List (SignedVote Digest Address Tx Key)} (grow : ∀ vote ∈ signed, vote ∈ later) (repeats : Repeats hashing signed body) :
    Repeats hashing later body := by
  cases body with
  | proposal proposal => trivial
  | query lastCommitted => trivial
  | vote vote =>
    obtain ⟨earlier, member, same⟩ := repeats
    exact ⟨earlier, grow earlier member, same⟩
  | timeout timeout =>
    refine repeats.imp_right ?_
    rintro ⟨earlier, member, same⟩
    exact ⟨earlier, grow earlier member, same⟩

namespace Pacemaker

variable {env : PacemakerEnv Digest Address Tx Key Sig QCID} {keys : ReplicaKeys Digest Key}
  {epoch : Epoch Digest Address Tx Key env.hashing} {votes : epoch.Votes}

structure Sound (env : PacemakerEnv Digest Address Tx Key Sig QCID) (epoch : Epoch Digest Address Tx Key env.hashing)
    (votes : epoch.Votes) (pacemaker : Pacemaker Digest Address Tx Key Sig QCID) : Prop where
  pipeline : pacemaker.pipeline.Sound env.hashing epoch.floor (epoch.Certified votes)
  committee : pacemaker.reactor.committee = epoch.committee
  size : pacemaker.qcVoteManager.committeeSize = epoch.committee.length
  files : pacemaker.qcVoteManager.Files (epoch.Supported votes)
  signed : ∀ vote ∈ pacemaker.signed, epoch.Justified votes vote
  last : ∀ vote, pacemaker.lastVoteMsg = some vote → ∃ earlier ∈ pacemaker.signed, earlier.vote = vote
  sent : ∀ message ∈ pacemaker.sent, Repeats env.hashing pacemaker.signed message.body

variable {pacemaker : Pacemaker Digest Address Tx Key Sig QCID}

theorem Sound.mono {later} (grow : ∀ member, ∀ vote ∈ votes member, vote ∈ later member) (sound : Sound env epoch votes pacemaker) :
    Sound env epoch later pacemaker := by
  refine { sound with pipeline := ?_, files := fun entry member vote filed => ?_, signed := fun vote member => ?_ }
  · exact sound.pipeline.mono fun _ isCertified => isCertified.mono grow
  · obtain ⟨inside, voted, named⟩ := sound.files entry member vote filed
    refine ⟨inside, fun voter isVoter honest => ?_, named⟩
    obtain ⟨earlier, signed, same⟩ := voted voter isVoter honest
    exact ⟨earlier, grow voter earlier signed, same⟩
  · exact { sound.signed vote member with parent := fun high => ((sound.signed vote member).parent high).mono grow }

/-- What the invariant reads of the state. -/
structure Ledger (Digest Address Tx Key Sig : Type) where
  pipeline : Pipeline Digest Address Tx
  committee : List (Validator Key)
  qcVoteManager : QCVoteManager Digest Sig
  signed : List (SignedVote Digest Address Tx Key)
  lastVoteMsg : Option (Vote Digest)
  sent : List (Message Digest Address Tx)

def ledger (pacemaker : Pacemaker Digest Address Tx Key Sig QCID) : Ledger Digest Address Tx Key Sig :=
  ⟨pacemaker.pipeline, pacemaker.reactor.committee, pacemaker.qcVoteManager, pacemaker.signed, pacemaker.lastVoteMsg,
    pacemaker.sent⟩

theorem Sound.of_ledger {before after} (sound : Sound env epoch votes before) (same : after.ledger = before.ledger) : Sound env epoch votes after := by
  simp only [ledger, Ledger.mk.injEq] at same
  obtain ⟨pipeline, committee, manager, signed, lastVoteMsg, sent⟩ := same
  exact ⟨pipeline ▸ sound.pipeline, committee.trans sound.committee, manager ▸ sound.size, manager ▸ sound.files,
    signed ▸ sound.signed, lastVoteMsg ▸ signed ▸ sound.last, sent ▸ signed ▸ sound.sent⟩

theorem sound_keeps {α} {action : Action (Pacemaker Digest Address Tx Key Sig QCID) α} (keeps : ∀ value, Keeps ledger value action) : Always (Sound env epoch votes) action (Sound env epoch votes) :=
  .each fun start sound => Triple.conseq (keeps start.ledger) (fun _ same => congrArg ledger same)
    (fun _ _ same => sound.of_ledger same) fun _ same => sound.of_ledger same

theorem Sound.withPipeline {pipeline}
    (sound : Sound env epoch votes pacemaker) (new : pipeline.Sound env.hashing epoch.floor (epoch.Certified votes)) :
    Sound env epoch votes { pacemaker with pipeline := pipeline } :=
  ⟨new, sound.committee, sound.size, sound.files, sound.signed, sound.last, sound.sent⟩

theorem Sound.searched {space} (sound : Sound env epoch votes pacemaker) (searched : pacemaker.pipeline.space.Searched space) :
    Sound env epoch votes (pacemaker.withSpace space) :=
  sound.withPipeline (sound.pipeline.later (searched.later sound.pipeline.space))

/-! ## Sending -/

theorem enterRound_keeps_ledger {round} (value : Ledger Digest Address Tx Key Sig) :
    Keeps ledger value (enterRound round : Action (Pacemaker Digest Address Tx Key Sig QCID) Unit) := by
  refine .write fun state => ?_
  split
  · rfl
  · split <;> rfl

variable {message : Message Digest Address Tx}

theorem Sound.withSent (sound : Sound env epoch votes pacemaker) (repeats : Repeats env.hashing pacemaker.signed message.body) :
    Sound env epoch votes { pacemaker with sent := pacemaker.sent ++ [message] } := by
  refine { sound with sent := fun other member => ?_ }
  rcases mem_append.mp member with old | new
  · exact sound.sent other old
  · obtain rfl := List.mem_singleton.mp new
    exact repeats

theorem sendMsg_sound {crash} :
    Triple (fun state => Sound env epoch votes state ∧ Repeats env.hashing state.signed message.body) (sendMsg message)
      (fun _ => Sound env epoch votes) crash :=
  .write fun _ given => given.1.withSent given.2

theorem sendBuilt_sound {now at_ pre} (sound : ∀ state, pre state → Sound env epoch votes state)
    (repeats : ∀ state, pre state → Repeats env.hashing state.signed body) :
    Always pre (do
        match ← buildMessage env keys now at_ body with
        | none => return ()
        | some message => sendMsg message) (Sound env epoch votes) := by
  refine .seq buildMessage_spec fun built => ?_
  cases built with
  | none => exact .ret fun state given => sound state given.1
  | some message =>
    refine sendMsg_sound.conseq (fun state given => ⟨sound state given.1, ?_⟩) (fun _ _ given => given) fun _ given => given
    rw [given.2 message rfl]
    exact repeats state given.1

variable {surroundings : Surroundings}

theorem sendQuery_sound : Always (Sound env epoch votes) (sendQuery env keys surroundings) (Sound env epoch votes) :=
  .each fun _ sound => .readThen fun _ _ => onSpace_read (fun _ => sound) fun _ _ =>
    sendBuilt_sound (fun _ same => same ▸ sound) fun _ _ => trivial

theorem onRoundTimeout_sound {at_ round} :
    Always (Sound env epoch votes) (onRoundTimeout env keys surroundings at_ round) (Sound env epoch votes) := by
  refine .seq (sound_keeps enterRound_keeps_ledger) fun _ => .each fun start sound => .readThen fun state same => ?_
  subst same
  refine sendBuilt_sound (fun _ same => same ▸ sound) ?_
  rintro state rfl
  cases last : state.lastVoteMsg with
  | none => exact .inl rfl
  | some vote => exact .inr (sound.last vote last)

theorem Sound.repeats {ref : Ref} {draft} (sound : Sound env epoch votes pacemaker) (found : pacemaker.pipeline.space.drafts[ref]? = some draft)
    (isMsg : draft.msg = some message) : Repeats env.hashing pacemaker.signed message.body := by
  obtain ⟨proposal, isProposal⟩ := (sound.pipeline.space.drafts ref draft found).msg message isMsg
  rw [isProposal]
  trivial

theorem forwardAll_sound (refs : List Ref) : Always (Sound env epoch votes) (forwardAll refs) (Sound env epoch votes) := by
  induction refs with
  | nil => exact .ret fun _ sound => sound
  | cons ref rest ih =>
    exact .each fun _ sound => onSpace_read (fun _ => sound) fun draft found => .deref (fun _ _ same => same ▸ sound) fun _ isMsg =>
      .seq (sendMsg_sound.start ⟨sound, sound.repeats found isMsg⟩) fun _ => ih

theorem onBroadcastProposal_sound : Always (Sound env epoch votes) onBroadcastProposal (Sound env epoch votes) := by
  refine .each fun start sound => .readThen fun state _ => ?_
  split
  · exact .here sound
  · refine onSpace_read (fun _ => sound) fun draft found => .lifting (fun _ _ _ same => same ▸ sound) fun epoch _ =>
      .branch (fun _ => .here sound) fun _ => ?_
    split
    · exact .here sound
    next message isMsg => exact sendMsg_sound.start ⟨sound, sound.repeats found isMsg⟩

/-! ## Votes and timeouts -/

variable [DecidableEq Digest]

theorem update_sound (backed : Backed env.hashing epoch.floor (epoch.Certified votes) Tx qc)
    (kept : List (SignedVote Digest Address Tx Key) → Prop) :
    Triple (fun state => Sound env epoch votes state ∧ kept state.signed) (onPipeline (Pipeline.update env.toChainHashing qc))
      (fun _ state => Sound env epoch votes state ∧ kept state.signed) (Sound env epoch votes) := by
  have spec := @Pipeline.update_spec _ _ Tx epoch.floor (epoch.Certified votes) qc _ env.toChainHashing backed
  refine .focused fun state ⟨sound, known⟩ => spec.conseq ?_ (fun _ _ new => ⟨sound.withPipeline new, known⟩)
    fun _ new => sound.withPipeline new
  rintro pipeline rfl
  exact sound.pipeline

theorem update_keeps_sound (backed : Backed env.hashing epoch.floor (epoch.Certified votes) Tx qc) :
    Always (Sound env epoch votes) (onPipeline (Pipeline.update env.toChainHashing qc)) (Sound env epoch votes) :=
  (update_sound backed fun _ => True).conseq (fun _ sound => ⟨sound, trivial⟩) (fun _ _ given => given.1) fun _ sound => sound

omit [DecidableEq Digest] in
theorem updateQCHigh_sound {node} : Always (fun state => Sound env epoch votes state ∧ ∀ ref, node = some ref →
        (state.pipeline.space.drafts.map fun draft => draft.height)[ref]? = some qc.qcHeight) (onPipeline (Pipeline.updateQCHigh node qc)) (Sound env epoch votes) := by
  refine .focused fun state ⟨sound, placed⟩ => (Pipeline.updateQCHigh_spec False False.elim).conseq (fun _ same => same)
    (fun _ _ outcome => ?_) fun _ _ stopped => stopped.1 ▸ sound
  rcases outcome with ⟨-, replaces, rfl⟩ | ⟨-, -, rfl⟩
  · exact sound.withPipeline (sound.pipeline.replaced replaces placed)
  · exact sound

variable {vote : Vote Digest}

theorem Sound.filed {start : Pacemaker Digest Address Tx Key Sig QCID} {index} (sound : Sound env epoch votes start)
    (supported : vote.voteSignature.length ≠ 0 → epoch.Supported votes (vote.voteRound, vote.voteBlockID) index vote.voteHash) :
    Sound env epoch votes (filed env surroundings index vote start) ∧
      ∀ qc, completedQC env surroundings start index vote = some qc →
        Backed env.hashing epoch.floor (epoch.Certified votes) Tx qc ∧ qc.qcHeight = vote.voteBlockID.number := by
  obtain ⟨files, size, collected⟩ := QCVoteManager.addVote_spec env.bls surroundings.lastVote
    start.reactor.curEpoch sound.files supported
  refine ⟨⟨sound.pipeline, sound.committee, size.trans sound.size, files, sound.signed, sound.last, sound.sent⟩, fun qc completed => ?_⟩
  obtain ⟨height, behind⟩ := collected qc completed
  rw [sound.size] at behind
  obtain ⟨isCertified, named⟩ := Epoch.certified_of_collected behind
  refine ⟨fun block _ hash _ _ => ?_, height⟩
  rw [named block hash]
  exact isCertified

variable {mi : IncomingMsg Digest Address Tx Key}

theorem onReceiveVote_sound [DecidableEq Key] (supported : vote.voteSignature.length ≠ 0 →
      epoch.Supported votes (vote.voteRound, vote.voteBlockID) mi.msg.signerIndex vote.voteHash) :
    Always (Sound env epoch votes) (onReceiveVote env keys surroundings mi vote) (Sound env epoch votes) := by
  refine .each fun start sound => onReceiveVote_rule False False.elim (fun _ _ searched _ => sound.searched searched)
    (fun _ searched => sound.searched searched) (fun _ searched => .write fun _ same => ?_)
    (fun _ searched => ((sound.searched searched).filed supported).1) fun ref b qc space searched gets _ _ completed => ?_
  · subst same
    exact (sound.searched searched).of_ledger rfl
  obtain ⟨soundFiled, complete⟩ := (sound.searched searched).filed supported
  obtain ⟨backed, height⟩ := complete qc completed
  -- The draft at the position is at the height the block ID tells.
  obtain ⟨draft, placed, id, -⟩ := gets.draft searched sound.pipeline.space.proposals
  have fits := soundFiled.pipeline.space.drafts ref draft placed
  refine .seq (updateQCHigh_sound.start ⟨soundFiled, ?_⟩) fun changed =>
    .branch (fun _ => .seq (update_keeps_sound backed) fun _ => sound_keeps enterRound_keeps_ledger) fun _ => .ret fun _ sound => sound
  rintro other ⟨⟩
  rw [height, List.getElem?_map, Option.map_eq_some_iff]
  exact ⟨draft, placed, by rw [fits.height, ← id, Block.id_number]⟩

theorem onSpace_findNode : Triple (Sound env epoch votes) (onSpace (DraftSpace.getDraftByEscortQC env.hashing qc))
      (fun node state => Sound env epoch votes state ∧ ∀ ref, node = some ref →
        (state.pipeline.space.drafts.map fun draft => draft.height)[ref]? = some qc.qcHeight)
      (Sound env epoch votes) := by
  refine .each fun start sound => onSpace_spec (DraftSpace.getDraftByEscortQC_spec.mono fun node space given =>
    ⟨sound.searched given.1, fun ref isNode => ?_⟩)
  obtain ⟨draft, found⟩ := given.2.2 ref isNode
  rw [List.getElem?_map, found.placed, Option.map_some, found.height]

theorem collectLastVote_sound {index} (supported : vote.voteSignature.length ≠ 0 →
      epoch.Supported votes (vote.voteRound, vote.voteBlockID) index vote.voteHash) :
    Always (Sound env epoch votes) (collectLastVote env surroundings index vote) (Sound env epoch votes) := by
  refine .each fun start sound => addQCVote_spec ?_
  obtain ⟨soundFiled, complete⟩ := sound.filed supported
  cases completed : completedQC env surroundings start index vote with
  | none => exact .here soundFiled
  | some qc =>
    exact .seq (onSpace_findNode.start soundFiled) fun node => .seq updateQCHigh_sound fun _ => update_keeps_sound (complete qc completed).1

theorem adoptQCHigh_sound {decodedQCHigh} :
    Always (Sound env epoch votes) (adoptQCHigh env decodedQCHigh) (Sound env epoch votes) :=
  .seq (.lifted (fun _ _ _ sound => sound) fun _ _ _ sound => sound) fun _ =>
    .seq onSpace_findNode fun _ => .seq updateQCHigh_sound fun _ => .ret fun _ sound => sound

theorem onReceiveTimeout_sound [DecidableEq Key] {timeout : Timeout Digest} (supported : timeout.lastVote.voteSignature.length ≠ 0 →
      epoch.Supported votes (timeout.lastVote.voteRound, timeout.lastVote.voteBlockID) mi.msg.signerIndex
        timeout.lastVote.voteHash) :
    Always (Sound env epoch votes) (onReceiveTimeout env keys surroundings mi timeout) (Sound env epoch votes) := by
  refine .readThen fun _ _ => .branch (fun _ => .ret fun _ sound => sound) fun _ => ?_
  refine .seq (collectLastVote_sound supported) fun _ => .seq adoptQCHigh_sound fun _ => ?_
  exact .write fun _ sound => Sound.of_ledger sound rfl

theorem onReceiveQuery_sound {lastCommitted} :
    Always (Sound env epoch votes) (onReceiveQuery env lastCommitted) (Sound env epoch votes) :=
  .each fun _ sound => .readThen fun _ _ => .seq (onSpace_spec ((DraftSpace.getDraftsUpTo_searching _).conseq
    (fun _ same => same ▸ .refl) (fun _ _ searched => sound.searched searched) fun _ searched => sound.searched searched)) forwardAll_sound

end Pacemaker
end MeterPov.Consensus
