import MeterPov.Consensus.Soundness

/-! The handlers that make drafts keep the invariant: the one of proposals, which votes, and the one
that proposes. -/

set_option autoImplicit false

namespace MeterPov.Consensus.Pacemaker

open Lib Lib.Action Blocks Chains List Block

variable {Digest Address Tx Key Sig QCID : Type} [DecidableEq Digest]
  {env : PacemakerEnv Digest Address Tx Key Sig QCID} {keys : ReplicaKeys Digest Key}
  {epoch : Epoch Digest Address Tx Key env.hashing} {votes : epoch.Votes}

/-! ## Voting -/

variable {pacemaker : Pacemaker Digest Address Tx Key Sig QCID} {blk : Block Digest Address Tx}

/-- The certificate of a proposal that the code accepts, and that is safe, stands for the parent. -/
theorem backed_of_accepted [DecidableEq QCID] (collisionFree : CollisionFree Tx env.hashing)
    (justified : ∀ member, member ∉ epoch.byzantine → ∀ vote ∈ votes member, epoch.Justified votes vote) {parent}
    (isParent : parent.id env.hashing = blk.parentID) (current : Network.AcceptsCurrent env epoch pacemaker parent blk.qc)
    (accepted : Network.accepts env pacemaker parent blk.qc = .ok true) (unforged : Network.Unforged env epoch votes blk.qc) :
    Backed env.hashing epoch.floor (epoch.Certified votes) Tx blk.qc ∧
      (max 1 epoch.floor < blk.parentID.number → epoch.Certified votes blk.parentID) := by
  have current := current accepted
  rw [← isParent, id_number]
  split at current
  · rename_i high
    have isCertified := Epoch.certified_of_verified collisionFree justified high current.1 current.2 unforged
    have hash := ((verifyQC_eq_true (by omega)).mp current.1).1
    refine ⟨fun block _ sameHash _ _ => ?_, fun _ => isCertified⟩
    rw [collisionFree.votingHash block parent (sameHash.trans hash)]
    exact isCertified
  · rename_i low
    refine ⟨fun block _ sameHash height high => ?_, fun high => absurd high low⟩
    rcases current with below | hash
    · omega
    · have same := collisionFree.votingHash block parent (sameHash.trans hash)
      have number : block.number = parent.number := by
        rw [← block.id_number env.hashing, same, id_number]
      omega

omit [DecidableEq Digest] in
theorem Sound.withSigned {vote} (sound : Sound env epoch votes pacemaker) (justified : epoch.Justified votes vote) :
    Sound env epoch votes { pacemaker with signed := pacemaker.signed ++ [vote] } := by
  refine { sound with signed := fun other member => ?_, last := fun last isLast => ?_, sent := fun message member => ?_ }
  · rcases mem_append.mp member with old | new
    · exact sound.signed other old
    · obtain rfl := mem_singleton.mp new
      exact justified
  · obtain ⟨earlier, member, same⟩ := sound.last last isLast
    exact ⟨earlier, mem_append_left _ member, same⟩
  · exact (sound.sent message member).mono fun _ => mem_append_left _

/-- The vote a message carries is among the signed ones. -/
def CarriesSigned (message : Message Digest Address Tx) (vote : Vote Digest) (signed : List (SignedVote Digest Address Tx Key)) : Prop :=
  message.body = .vote vote ∧ ∃ earlier ∈ signed, earlier.vote = vote

variable {mi : IncomingMsg Digest Address Tx Key}

omit [DecidableEq Digest] in
theorem buildVoteMessage_sound {now round}
    (justified : ∀ signed : SignedVote Digest Address Tx Key, signed.vote = voteOn env keys round blk → signed.block = blk →
      epoch.Justified votes signed) :
    Triple (Sound env epoch votes) (buildVoteMessage env keys now mi round blk)
      (fun built state => Sound env epoch votes state ∧ ∀ message vote, built = some (message, vote) →
        CarriesSigned message vote state.signed) (Sound env epoch votes) := by
  refine .readThen fun pacemaker _ => .seq buildMessage_spec fun message => ?_
  cases message with
  | none => exact .ret fun _ given => ⟨given.1, by simp⟩
  | some message =>
    refine .each fun start ⟨sound, isBody⟩ => .via (fun _ state => Sound env epoch votes state ∧
      CarriesSigned message (voteOn env keys round blk) state.signed) (.write ?_) fun _ => .ret fun state given => ⟨given.1, ?_⟩
    · rintro state rfl
      exact ⟨sound.withSigned (justified _ rfl rfl), isBody message rfl, _, mem_append_right _ (mem_singleton.mpr rfl), rfl⟩
    · rintro other vote ⟨⟩
      exact given.2

theorem voteFor_sound {surroundings round} (backed : Backed env.hashing epoch.floor (epoch.Certified votes) Tx blk.qc)
    (justified : ∀ signed : SignedVote Digest Address Tx Key, signed.vote = voteOn env keys round blk → signed.block = blk →
      epoch.Justified votes signed) :
    Always (Sound env epoch votes) (voteFor env keys surroundings mi round blk) (Sound env epoch votes) := by
  refine .seq (buildVoteMessage_sound justified) fun built => ?_
  rcases built with - | ⟨message, vote⟩
  · exact .ret fun _ given => given.1
  · refine .seq ((update_sound backed (CarriesSigned message vote)).conseq (fun _ given => ⟨given.1, given.2 message vote rfl⟩)
      (fun _ _ given => given) fun _ sound => sound) fun _ => ?_
    refine .via (fun _ state => Sound env epoch votes state ∧ CarriesSigned message vote state.signed)
      (.write fun state given => ⟨given.1.withSent ?_, given.2⟩) fun _ => ?_
    · rw [given.2.1]
      exact given.2.2
    refine .seq (.write fun state given => ?_) fun _ => sound_keeps enterRound_keeps_ledger
    refine { given.1 with last := fun other isLast => ?_ }
    cases isLast
    exact given.2.2

omit [DecidableEq Digest] in
theorem parentMissing_sound {surroundings} :
    Always (Sound env epoch votes) (parentMissing env keys surroundings mi blk) (Sound env epoch votes) := by
  have delayed : Always (Sound env epoch votes) (delayedAdd mi : Action (Pacemaker Digest Address Tx Key Sig QCID) Unit) (Sound env epoch votes) := .write fun _ sound => Sound.of_ledger sound rfl
  refine .readThen fun _ _ => .branch (fun _ => ?_) fun _ => .ret fun _ sound => sound
  split
  · exact .seq sendQuery_sound fun _ => delayed
  · exact delayed

variable [DecidableEq QCID] {surroundings : Surroundings} {mi : IncomingMsg Digest Address Tx Key} {proposal : Proposal Digest Address Tx}
  {before : Pacemaker Digest Address Tx Key Sig QCID}

theorem Arrives.sound (collisionFree : CollisionFree Tx env.hashing) (opens : surroundings.execution.stateOpens = true)
    (isProposal : mi.msg.body = .proposal proposal) (sound : Sound env epoch votes before) {parentRef ref parent space voting validQCs}
    (arrives : Arrives env surroundings mi proposal before blk parentRef ref parent space voting validQCs) (above : epoch.floor < blk.number) :
    Sound env epoch votes (before.withSpace voting) ∧ blk.Recoverable env.hashing := by
  have accepts : Ends (· = space) (acceptDraft env surroundings mi proposal.round blk parentRef) _ (space.Fails False) :=
    acceptDraft_spec False.elim False.elim False.elim fun _ _ _ _ => trivial
  rcases accepts.of_ok rfl arrives.accepted with ⟨gone, -⟩ | ⟨found, _, executed, -, processed, accepts⟩
  · cases gone
  have soundFound := (sound.searched arrives.searched).searched accepts.searched
  have recoverable : blk.Recoverable env.hashing := by
    cases processed with
    | unopened closed => exact absurd (opens.symm.trans closed) nofun
    | known _ _ known =>
      -- it has the ID of a stored block, whose signer is recovered
      obtain ⟨block, found⟩ := Option.isSome_iff_exists.mp known
      obtain ⟨member, sameID⟩ := Chain.mem_of_getBlock found
      have stored := (sound.searched arrives.searched).pipeline.space.chain block member
      exact (collisionFree.id block blk stored sameID).1
    | executed _ _ recoverable => exact recoverable
  have fits : executed.Fits env.hashing epoch.floor found.drafts := by
    obtain ⟨_, _, _, _, rfl⟩ := processed.marks
    refine ⟨rfl, recoverable, fun _ => above, ?_, ?_⟩
    · rintro other ⟨⟩
      obtain ⟨draft, placed, isParent, -⟩ := arrives.gets.draft arrives.searched sound.pipeline.space.proposals
      exact accepts.searched.names ⟨draft, placed, isParent⟩
    · rintro message ⟨⟩
      exact ⟨proposal, isProposal⟩
  exact ⟨soundFound.withPipeline (soundFound.pipeline.later (accepts.enters.later soundFound.pipeline.space fits)), recoverable⟩

/-- A safe proposal that carries no forged certificate keeps the invariant, whether it is voted for or
not. -/
theorem onReceiveProposal_sound (collisionFree : CollisionFree Tx env.hashing)
    (justified : ∀ member, member ∉ epoch.byzantine → ∀ vote ∈ votes member, epoch.Justified votes vote)
    (opens : surroundings.execution.stateOpens = true) (isProposal : mi.msg.body = .proposal proposal)
    (sound : Sound env epoch votes before) (safe : ∀ blk ∈ proposal.decodedBlock, Network.SafeProposal env epoch before blk)
    (unforged : ∀ blk ∈ proposal.decodedBlock, Network.Unforged env epoch votes blk.qc) :
    Always (· = before) (onReceiveProposal env keys surroundings mi proposal) (Sound env epoch votes) := by
  have kept {space : DraftSpace Digest Address Tx} (validQCs : ValidQCs QCID) (searched : before.pipeline.space.Searched space) :
      Sound env epoch votes { before.withSpace space with validQCs := validQCs } := (sound.searched searched).of_ledger rfl
  refine onReceiveProposal_rule False False.elim False.elim False.elim False.elim (fun _ _ validQCs searched _ => kept validQCs searched)
    (fun _ validQCs searched => kept validQCs searched) (fun _ _ searched => parentMissing_sound.start (sound.searched searched)) ?_
  intro blk parentRef ref parent space voting validQCs arrives
  have safe := safe blk arrives.decoded
  obtain ⟨draft, placed, isParent, stored⟩ := arrives.gets.draft arrives.searched sound.pipeline.space.proposals
  obtain rfl := Option.some.inj (placed.symm.trans arrives.placed)
  have verdict : Network.accepts env before draft.proposedBlock blk.qc = .ok true := Exec.bind_eq_ok.mpr ⟨_, arrives.verdict, rfl⟩
  obtain ⟨backed, parentCertified⟩ := backed_of_accepted collisionFree justified isParent (safe.parent _ stored) verdict
    (unforged blk arrives.decoded)
  obtain ⟨soundNow, recoverable⟩ := arrives.sound collisionFree opens isProposal sound safe.above
  have soundNow : Sound env epoch votes { before.withSpace voting with validQCs := validQCs } := soundNow.of_ledger rfl
  refine ⟨soundNow, fun _ => (voteFor_sound backed fun signed isVote isBlock => ?_).start soundNow⟩
  subst isBlock
  refine ⟨by rw [isVote]; rfl, by rw [isVote]; rfl, recoverable, ?_, parentCertified⟩
  rw [Pipeline.number_of_parent isParent (Nat.zero_lt_of_lt safe.above), ← isParent, id_number]

/-! ## Proposing -/

omit [DecidableEq QCID] in
theorem onBeat_sound [DecidableEq Key] {packing at_ round} :
    Always (Sound env epoch votes) (onBeat env keys surroundings packing at_ round) (Sound env epoch votes) := by
  have kept {start state : Pacemaker Digest Address Tx Key Sig QCID} (sound : Sound env epoch votes start) (beats : Beats env start state) :
      Sound env epoch votes state := by
    obtain ⟨space, _, _, _, rfl, searched | ⟨found, leaf, isNew, enters⟩⟩ := beats
    · exact (sound.searched searched).of_ledger rfl
    · have soundFound := sound.searched isNew.searched
      obtain ⟨parentRef, bare, message, proposal, made, rfl, isBody, high⟩ := isNew.made
      have fits : DraftBlock.Fits env.hashing epoch.floor found.drafts { bare with msg := some message } := by
        refine ⟨made.height, made.recoverable, fun _ => ?_, fun ref isParent => ?_, ?_⟩
        · exact lt_of_le_of_lt sound.pipeline.high (made.height ▸ high)
        · obtain rfl := Option.some.inj (made.parent.symm.trans isParent)
          exact made.named
        · rintro other ⟨⟩
          exact ⟨proposal, isBody⟩
      exact (soundFound.withPipeline (soundFound.pipeline.later (enters.later soundFound.pipeline.space fits))).of_ledger rfl
  exact .each fun _ sound => onBeat_spec.conseq (fun _ same => same) (fun _ _ => kept sound) fun _ => kept sound

end MeterPov.Consensus.Pacemaker
