import MeterPov.Consensus.CommitOrder
import MeterPov.Consensus.HighRuns

/-! Which pointers the handlers follow.

A draft that is not committed has a parent, a message and a node for its certificate, so what may be nil is read at
few places: in messages, in the node of the highest certificate, above the drafts of stored blocks, and in
drafts that were never executed. -/

set_option autoImplicit false

namespace MeterPov.Consensus

open Lib Lib.Action Blocks Chains

variable {Digest Address Tx : Type}

namespace Pipeline

/-! ## Committing -/

section

variable [DecidableEq Digest] {env : ChainHashing Digest Address} {start : DraftSpace Digest Address Tx}

variable {draft : DraftBlock Digest Address Tx} {space : DraftSpace Digest Address Tx} {escortQC : QuorumCert Digest}

def AllReturnable (start : DraftSpace Digest Address Tx) (draft : DraftBlock Digest Address Tx) : Prop :=
  ∀ entry ∈ start.proposals.entries, ∀ other, start.drafts[entry.2]? = some other → DraftSpace.Returnable draft other

omit [DecidableEq Digest] in
theorem AllReturnable.moved (returnable : AllReturnable start draft) (moved : Moved start space) : AllReturnable space draft := by
  intro entry member other placed
  obtain ⟨before, placedBefore, same, -⟩ := moved.pruned.before placed
  have known := returnable entry (moved.pruned.fewer entry member) before placedBefore
  rw [same]
  exact known

theorem commitOne_nilFree (named : start.Named env.hashing) (moved : Moved start space) {ref} (placed : start.drafts[ref]? = some draft)
    (returnable : AllReturnable start draft) :
    NilFree (· = space) (commitOne env ref escortQC) (fun _ _ => True) := by
  obtain ⟨committed, placedLater, -⟩ := moved.pruned.marked ref draft placed
  refine DraftSpace.draft_read (fun gone => absurd (placedLater.symm.trans gone) nofun) fun read found => .branch (fun _ =>
    .seq ((commitBlock_spec moved fun chain fork _ blocks => moved.withBlock found blocks).conseq (fun _ same => same)
      (fun _ _ given => given) fun _ _ stopped => stopped.2) fun _ => .each fun after movedAfter => ?_) fun _ => .here trivial
  obtain rfl := Option.some.inj (placedLater.symm.trans found)
  exact DraftSpace.pruneDraftsUpTo_nilFree
    (fun entry member => movedAfter.pruned.names (named entry (movedAfter.pruned.fewer entry member))) (returnable.moved movedAfter)

theorem onCommit_nilFree (ready : List (Ref × QuorumCert Digest)) (named : start.Named env.hashing)
    (returnable : ∀ entry ∈ ready, ∃ draft, start.drafts[entry.1]? = some draft ∧ AllReturnable start draft) :
    NilFree (Moved start) (onCommit env ready) (fun _ _ => True) := by
  induction ready with
  | nil => exact .ret fun _ _ => trivial
  | cons entry rest ih =>
    refine .each fun space moved => ?_
    obtain ⟨draft, placed, known⟩ := returnable entry List.mem_cons_self
    have one := (@commitOne_nilFree _ _ Tx _ env _ _ _ entry.2 named moved _ placed known).also ((commitOne_moved start).start moved)
    exact .seq (one.mono fun _ _ given => given.2) fun _ => ih fun other member => returnable other (List.mem_cons_of_mem _ member)

/-! ## The path of a batch -/

/-- Drafts without a parent are not above the height. -/
def RootsBelow (height : Nat) (drafts : List (DraftBlock Digest Address Tx)) : Prop :=
  ∀ draft ∈ drafts, draft.parent = none → draft.height ≤ height

omit [DecidableEq Digest] in
theorem commitReady_nilFree {hashing} (tidy : start.Tidy hashing) {height}
    (roots : RootsBelow height start.drafts) (hops : Nat) {tmp : Ref} {child}
    (placed : start.drafts[tmp]? = some child) (hasParent : child.parent ≠ none) (ready : List (Ref × QuorumCert Digest)) :
    commitReady start.drafts height hops tmp ready ≠ .error .nilDereference := by
  induction hops generalizing tmp child ready with
  | zero => simp [commitReady]
  | succ hops ih =>
    obtain ⟨parentRef, isParent⟩ := Option.ne_none_iff_exists'.mp hasParent
    have inside := (tidy.linked child (List.mem_of_getElem? placed)).parent parentRef isParent
    have parentPlaced := List.getElem?_eq_getElem inside
    simp only [commitReady, placed, isParent, parentPlaced, Exec.deref_some, Exec.ok_bind]
    split
    next above =>
      refine ih parentPlaced (fun gone => ?_) _
      have low := roots _ (List.getElem_mem inside) gone
      omega
    · simp

end

/-! ## One call of `Update` -/

/-- No stored block is above the last committed height, and every proposal above it can return its transactions. -/
structure Settled (pipeline : Pipeline Digest Address Tx) : Prop where
  chain : ∀ block ∈ pipeline.space.chain.blocks, block.number ≤ pipeline.committedHeight
  pool : ∀ entry ∈ pipeline.space.proposals.entries, ∀ draft ∈ pipeline.space.drafts[entry.2]?,
    pipeline.committedHeight < draft.proposedBlock.number → draft.returnTxsToPool = true

variable {hashing : Hashing Digest Address} {vouched : BlockID Digest → QuorumCert Digest → Prop} {low : QuorumCert Digest}
  {start : Pipeline Digest Address Tx}

theorem Settled.rootsBelow (settled : Settled start) (tidy : start.space.Tidy hashing) :
    RootsBelow start.committedHeight start.space.drafts := by
  intro draft member gone
  have linked := tidy.linked draft member
  rw [linked.height]
  exact settled.chain _ (linked.stored gone)

theorem Settled.grows {after} (settled : Settled start) (tidy : start.space.Tidy hashing)
    (grows : start.space.Grows hashing after.space) (chain : after.space.chain = start.space.chain)
    (last : after.lastCommitted = start.lastCommitted) (inside : start.lastCommitted < start.space.drafts.length)
    (entries : ∀ entry ∈ after.space.proposals.entries, entry ∈ start.space.proposals.entries ∨
      ∃ draft, after.space.drafts[entry.2]? = some draft ∧ draft.returnTxsToPool = true) : Settled after := by
  have height := committedHeight_grows grows last inside
  constructor
  · rw [chain, height]
    exact settled.chain
  · intro entry member draft placed above
    rcases entries entry member with old | ⟨new, isNew, returns⟩
    · obtain ⟨early, placedEarly, -⟩ := tidy.named entry old
      obtain ⟨later, placedLater, outline, -⟩ := grows.kept _ _ placedEarly
      obtain rfl : later = draft := Option.some.inj (placedLater.symm.trans placed)
      have sameDraft := DraftBlock.eq_of_outline outline
      rw [height, sameDraft] at above
      rw [sameDraft]
      exact settled.pool entry old early placedEarly above
    · obtain rfl : new = draft := Option.some.inj (isNew.symm.trans placed)
      exact returns

theorem Settled.searched {space high} (settled : Settled start)
    (tidy : start.space.Tidy hashing) (inside : start.lastCommitted < start.space.drafts.length) (searched : start.space.Searched space) :
    Settled { start with space := space, qcHigh := high } :=
  settled.grows tidy (searched.grows tidy) searched.chain rfl inside fun _ member => .inl (searched.proposals ▸ member)

theorem High.inPlace (high : High hashing False vouched low start) : ∃ ref, start.qcHigh.qcNode = some ref ∧ ref < start.space.drafts.length := by
  obtain ⟨ref, isNode, ⟨draft, placed, -⟩⟩ := high.node.resolve_left fun gone => gone.1
  exact ⟨ref, isNode, (List.getElem?_eq_some_iff.mp placed).1⟩

section

variable [DecidableEq Digest] {env : ChainHashing Digest Address}

theorem update_nilFree {qc} (high : High env.hashing False vouched low start) (settled : Settled start) :
    NilFree (· = start) (update env qc) (fun _ _ => True) := by
  have kept {middle : Pipeline Digest Address Tx} (reached : Reached env.hashing start qc middle) :
      middle.space.Tidy env.hashing ∧ middle.Settled := by
    obtain ⟨space, _, rfl, searched, -⟩ := reached
    exact ⟨(searched.grows high.tidy).tidy, settled.searched high.tidy high.last searched⟩
  have isHeight {middle : Pipeline Digest Address Tx} {committed : DraftBlock Digest Address Tx}
      (last : middle.space.drafts[middle.lastCommitted]? = some committed) : middle.committedHeight = committed.height := by
    rw [committedHeight, last]
    rfl
  refine update_rule True (fun _ => ⟨high.last, high.inPlace, fun draft member isOpen => ((high.tidy.linked draft member).pointers isOpen).2.2⟩)
    (fun _ bPrimeRef bRef bPrime committed middle batch => ?_) (fun _ _ _ not => not trivial) (fun _ _ => trivial)
    fun bPrimeRef bRef bPrime committed middle ready batch walked => ?_
  · obtain ⟨tidyMiddle, settledMiddle⟩ := kept batch.reached
    exact commitReady_nilFree tidyMiddle (isHeight batch.last ▸ settledMiddle.rootsBelow tidyMiddle) _ batch.found.placed
      (by simp [batch.parent]) []
  · obtain ⟨tidyMiddle, settledMiddle⟩ := kept batch.reached
    refine Ends.start (onCommit_nilFree ready tidyMiddle.named fun entry member => ?_) .refl
    obtain ⟨draft, draftPlaced, higher⟩ := commitReady_above walked (by simp) entry member
    refine ⟨draft, draftPlaced, fun other isOther found otherPlaced sameHeight => ?_⟩
    exact settledMiddle.pool other isOther found otherPlaced (by rw [isHeight batch.last]; omega)

end
end Pipeline

namespace Pacemaker

variable {Key Sig QCID : Type} {env : PacemakerEnv Digest Address Tx Key Sig QCID} {keys : ReplicaKeys Digest Key}
  {vouched : BlockID Digest → QuorumCert Digest → Prop} {low : QuorumCert Digest}

/-! ## Certificates -/

/-- The bit array of a certificate is there, unless it is for one of the first two blocks. -/
def ArrayThere (qc : QuorumCert Digest) (number : Nat) : Prop :=
  match qc.voterBitArray with
  | .error fault => fault ≠ .nilDereference
  | .ok none => number = qc.qcHeight ∧ number ≤ 1
  | .ok (some _) => True

/-- The signature of a certificate decodes, so that there is one to free. -/
def SignatureThere (env : PacemakerEnv Digest Address Tx Key Sig QCID) (aggSig : Bytes) : Prop :=
  freeSignature env.bls aggSig = .ok ()

theorem ArrayThere.voterBitArray_ne {qc : QuorumCert Digest} {number} (there : ArrayThere qc number) :
    qc.voterBitArray ≠ .error .nilDereference := by
  intro same
  simp [ArrayThere, same] at there

section

variable [DecidableEq Digest]

variable {block : Block Digest Address Tx} {qc : QuorumCert Digest}

theorem verifyQC_ne_nil {committee} (there : ArrayThere qc block.number) (signed : SignatureThere env qc.voterAggSig) :
    block.verifyQC env.hashing qc env.bls committee ≠ .error .nilDereference := by
  unfold Block.verifyQC
  split
  · simp
  next notFirst =>
    split
    · simp
    · refine Exec.bind_ne_error there.voterBitArray_ne fun pointer parsed => ?_
      cases pointer with
      | none =>
        simp only [ArrayThere, parsed] at there
        exact absurd ⟨there.1, by omega⟩ notFirst
      | some array =>
        rw [SignatureThere] at signed
        simp only [Exec.deref_some, Exec.ok_bind, signed]
        split <;> simp

theorem firstAccepted_ne_nil {accepts} {candidates : List (Exec Bool × List (Validator Key))}
    (accepting : ∀ committee, accepts committee ≠ .error .nilDereference)
    (applying : ∀ candidate ∈ candidates, candidate.1 ≠ .error .nilDereference) :
    firstAccepted accepts candidates ≠ .error .nilDereference := by
  induction candidates with
  | nil => simp [firstAccepted]
  | cons candidate rest ih =>
    have later := ih fun other member => applying other (List.mem_cons_of_mem _ member)
    refine Exec.bind_ne_error (applying candidate List.mem_cons_self) fun asked _ => ?_
    cases asked with
    | false => exact later
    | true =>
      refine Exec.bind_ne_error (accepting candidate.2) fun verdict _ => ?_
      cases verdict with
      | false => exact later
      | true => simp

theorem validateQC_ne_nil [DecidableEq QCID] {validation}
    {validQCs : ValidQCs QCID} (sameHashing : validation.hashing = env.hashing) (sameBls : validation.bls = env.bls)
    (there : ArrayThere qc block.number) (signed : SignatureThere env qc.voterAggSig) :
    Consensus.validateQC validation validQCs block qc ≠ .error .nilDereference := by
  have accepting (committee : List (Validator Key)) : acceptedBy validation block qc committee ≠ .error .nilDereference := by
    unfold acceptedBy
    rw [sameHashing, sameBls]
    refine Exec.bind_ne_error (verifyQC_ne_nil there signed) fun result _ => ?_
    cases result <;> simp
  have sized (committee : List (Validator Key)) : sizeMatches qc committee ≠ .error .nilDereference :=
    Exec.bind_ne_error there.voterBitArray_ne fun _ _ => by simp
  have applying : ∀ candidate ∈ attempts validation block qc, candidate.1 ≠ .error .nilDereference := by
    simp only [attempts, List.mem_cons, List.not_mem_nil, or_false]
    rintro candidate (rfl | rfl | rfl | rfl | rfl | rfl)
    · simp
    · simp
    · exact sized _
    · exact sized _
    · split
      · simp
      · exact sized _
    · simp
  unfold Consensus.validateQC
  split
  · simp
  · exact Exec.bind_ne_error (firstAccepted_ne_nil accepting applying) fun _ _ => by simp

theorem roundAccepted_ne_nil {reactor parent proposal}
    (there : ∀ tc ∈ proposal.timeoutCert, tc.bitArray.isSome = true ∧ SignatureThere env tc.aggSig) :
    roundAccepted env reactor parent proposal ≠ .error .nilDereference := by
  have verified : verifyTC env.bls env.timeoutVotingHash reactor proposal.timeoutCert proposal.round ≠ .error .nilDereference := by
    unfold verifyTC
    split
    · simp
    next tc isTC =>
      obtain ⟨isSome, signed⟩ := there tc isTC
      obtain ⟨array, isArray⟩ := Option.isSome_iff_exists.mp isSome
      rw [SignatureThere] at signed
      rw [isArray]
      split
      · simp
      · split
        · simp
        · simp only [Exec.deref_some, Exec.ok_bind, signed]
          split
          · simp
          · split <;> simp
  unfold roundAccepted
  split
  · simp
  · split
    · simp
    · exact Exec.bind_ne_error verified fun _ _ => by simp

end

/-! ## Handlers -/

section

variable {start : Pacemaker Digest Address Tx Key Sig QCID}

variable {pre : Pacemaker Digest Address Tx Key Sig QCID → Prop} {mi : IncomingMsg Digest Address Tx Key}
  {blk : Block Digest Address Tx} {qc : QuorumCert Digest} {surroundings : Surroundings} {round : Nat}

theorem sendQuery_nilFree (inside : start.pipeline.lastCommitted < start.pipeline.space.drafts.length) :
    NilFree (· = start) (sendQuery env keys surroundings) (fun _ _ => True) := by
  refine .readThen fun state same => ?_
  subst same
  refine onSpace_read (fun gone => absurd inside (not_lt.mpr (List.getElem?_eq_none_iff.mp gone))) fun last _ => .seq buildMessage_spec fun built => ?_
  cases built with
  | none => exact .ret fun _ _ => trivial
  | some message => exact .write fun _ _ => trivial

theorem parentMissing_nilFree (inside : start.pipeline.lastCommitted < start.pipeline.space.drafts.length) :
    NilFree (· = start) (parentMissing env keys surroundings mi blk) (fun _ _ => True) := by
  have delayed {pre : Pacemaker Digest Address Tx Key Sig QCID → Prop} : NilFree pre (delayedAdd mi) (fun _ _ => True) :=
    .write fun _ _ => trivial
  refine .readThen fun state _ => .branch (fun _ => ?_) fun _ => .ret fun _ _ => trivial
  split
  · exact .seq (sendQuery_nilFree inside) fun _ => delayed
  · exact delayed

variable [DecidableEq Digest]

theorem update_nilFree (qc : QuorumCert Digest) :
    NilFree (fun state : Pacemaker Digest Address Tx Key Sig QCID => High env False vouched low state ∧ state.pipeline.Settled)
      (onPipeline (Pipeline.update env.toChainHashing qc)) (fun _ _ => True) :=
  .focused fun _ given => Pipeline.update_nilFree given.1 given.2

theorem voteFor_nilFree :
    NilFree (fun state : Pacemaker Digest Address Tx Key Sig QCID => High env False vouched low state ∧ state.pipeline.Settled)
      (voteFor env keys surroundings mi round blk) (fun _ _ => True) := by
  have built : NilFree (fun state : Pacemaker Digest Address Tx Key Sig QCID => High env False vouched low state ∧ state.pipeline.Settled)
      (buildVoteMessage env keys surroundings.now mi round blk)
      (fun _ state => High env False vouched low state ∧ state.pipeline.Settled) := by
    refine .readThen fun state _ => .seq buildMessage_spec fun message => ?_
    cases message with
    | none => exact .ret fun _ given => given.1
    | some message => exact .seq (.write fun _ given => given.1 : NilFree _ _ fun _ state =>
      High env False vouched low state ∧ state.pipeline.Settled) fun _ => .ret fun _ given => given
  refine .seq built fun result => ?_
  cases result with
  | none => exact .ret fun _ _ => trivial
  | some both =>
    refine .seq (update_nilFree _) fun _ => .seq (.write fun _ _ => trivial : NilFree (fun _ => True) _ fun _ _ => True) fun _ => ?_
    exact .seq (.write fun _ _ => trivial : NilFree (fun _ => True) _ fun _ _ => True) fun _ => .write fun _ _ => trivial

/-- What a proposal has to carry: a bit array and a signature in its certificate, and in its timeout certificate. -/
def ProposalWhole (env : PacemakerEnv Digest Address Tx Key Sig QCID) (proposal : Proposal Digest Address Tx) : Prop :=
  (∀ blk ∈ proposal.decodedBlock, ArrayThere blk.qc blk.parentID.number ∧ SignatureThere env blk.qc.voterAggSig) ∧
    ∀ tc ∈ proposal.timeoutCert, tc.bitArray.isSome = true ∧ SignatureThere env tc.aggSig

theorem onReceiveProposal_nilFree [DecidableEq QCID] {proposal}
    (high : High env False vouched low start) (settled : start.pipeline.Settled)
    (decoded : proposal.decodedBlock.isSome = true) (whole : ProposalWhole env proposal) (opens : surroundings.execution.stateOpens = true) :
    NilFree (· = start) (onReceiveProposal env keys surroundings mi proposal) (fun _ _ => True) := by
  refine onReceiveProposal_rule True (fun _ => ⟨decoded, ?_⟩) (fun _ => high.tidy.named) (fun _ blk isBlk parent isParent => ?_)
    (fun _ parent => roundAccepted_ne_nil whole.2) (fun _ _ _ _ not => not trivial) (fun _ _ _ => trivial)
    (fun _ _ searched => parentMissing_nilFree (high.searched searched).last) fun blk _ _ _ _ voting validQCs arrives => ⟨trivial, fun _ => ?_⟩
  · exact Option.isSome_iff_exists.mpr ⟨_, List.getElem?_eq_getElem high.last⟩
  · obtain ⟨there, signed⟩ := whole.1 blk isBlk
    rw [← isParent, Block.id_number] at there
    exact validateQC_ne_nil rfl rfl there signed
  · obtain ⟨grows, chain, entries⟩ := arrives.grows high.tidy
    refine voteFor_nilFree.start ⟨high.withSpace grows, settled.grows high.tidy grows chain rfl high.last fun entry member => ?_⟩
    exact (entries entry member).imp_right fun ⟨draft, placed, _, returns⟩ => ⟨draft, placed, returns opens⟩

omit [DecidableEq Digest] in
theorem updateQCHigh_settled {node} (high : High env False vouched low start)
    (settled : start.pipeline.Settled) (offered : start.pipeline.Offered env.hashing False vouched node qc) :
    NilFree (· = start) (onPipeline (Pipeline.updateQCHigh node qc))
      (fun _ state => High env False vouched low state ∧ state.pipeline.Settled) := by
  refine Ends.focused fun state same => ?_
  subst same
  refine (Pipeline.updateQCHigh_spec True fun _ => high.inPlace).conseq (fun _ same => same) ?_ fun _ _ stopped => stopped.2 trivial
  rintro _ pipeline (⟨-, replaces, rfl⟩ | ⟨-, -, rfl⟩)
  · exact ⟨high.replaced (high.replaces_iff.mp replaces) offered, settled.chain, settled.pool⟩
  · exact ⟨high, settled⟩

theorem onReceiveVote_nilFree [DecidableEq Key] {vote} (high : High env False vouched low start) (settled : start.pipeline.Settled)
    (known : ∀ qc, completedQC env surroundings start mi.msg.signerIndex vote = some qc → vouched vote.voteBlockID qc) :
    NilFree (· = start) (onReceiveVote env keys surroundings mi vote) (fun _ _ => True) := by
  refine onReceiveVote_rule True (fun _ => high.tidy.named) (fun _ _ _ not => not trivial) (fun _ _ => trivial)
    (fun _ _ => .write fun _ _ => trivial) (fun _ _ => trivial) fun ref b qc space searched gets placed sameRound completes => ?_
  obtain ⟨draft, also, id, -⟩ := gets.draft searched high.tidy.named
  obtain rfl := Option.some.inj (placed.symm.trans also)
  have highFiled : High env False vouched low (filed env surroundings mi.msg.signerIndex vote (start.withSpace space)) := high.searched searched
  have taken := updateQCHigh_settled highFiled (settled.searched high.tidy high.last searched)
    (offered_of_vote highFiled.tidy placed id sameRound completes (known qc completes))
  exact .seq taken fun updated => .branch (fun _ => .seq (update_nilFree _) fun _ => .write fun _ _ => trivial) fun _ => .ret fun _ _ => trivial

theorem handOver_nilFree (high : High env False vouched low start) (settled : start.pipeline.Settled)
    (known : NodeVouched env False vouched start.pipeline qc) :
    NilFree (· = start)
      (do
        let node ← onSpace (DraftSpace.getDraftByEscortQC env.hashing qc)
        onPipeline (Pipeline.updateQCHigh node qc))
      (fun _ state => High env False vouched low state ∧ state.pipeline.Settled) :=
  onSpace_search DraftSpace.getDraftByEscortQC_spec fun _ _ searched ⟨absent, found⟩ => updateQCHigh_settled (high.searched searched)
    (settled.searched high.tidy high.last searched) (offered_of_search known rfl absent found)

theorem collectLastVote_nilFree {index lastVote} (high : High env False vouched low start) (settled : start.pipeline.Settled)
    (known : ∀ qc, completedQC env surroundings start index lastVote = some qc → NodeVouched env False vouched start.pipeline qc) :
    NilFree (· = start) (collectLastVote env surroundings index lastVote) (fun _ _ => True) := by
  refine addQCVote_spec ?_
  have highFiled : High env False vouched low (filed env surroundings index lastVote start) := high
  cases completed : completedQC env surroundings start index lastVote with
  | none => exact .here trivial
  | some newQC =>
    have handed := Ends.seq (handOver_nilFree highFiled settled (known newQC completed)) fun _ => update_nilFree newQC
    rw [bind_assoc] at handed
    exact handed

theorem adoptQCHigh_nilFree {decodedQCHigh} (decoded : decodedQCHigh.isSome = true) (high : High env False vouched low start) :
    NilFree (· = start) (adoptQCHigh env decodedQCHigh) (fun _ _ => True) := by
  refine .deref (fun gone => by simp [gone] at decoded) fun qc _ => onSpace_search DraftSpace.getDraftByEscortQC_spec fun node space searched _ => ?_
  refine .via (fun _ _ => True) (.focused fun state same => ?_) fun _ => .ret fun _ _ => trivial
  subst same
  exact (Pipeline.updateQCHigh_spec True fun _ => (high.searched searched).inPlace).conseq (fun _ same => same) (fun _ _ _ => trivial)
    fun _ _ stopped => stopped.2 trivial

theorem onReceiveTimeout_nilFree [DecidableEq Key] {timeout} (high : High env False vouched low start)
    (known : start.reactor.amIRoundProposer keys.myPubKey timeout.wishRound = true →
      timeout.decodedQCHigh.isSome = true ∧ start.pipeline.Settled ∧
        TimeoutVouched env False vouched surroundings start mi.msg.signerIndex timeout) :
    NilFree (· = start) (onReceiveTimeout env keys surroundings mi timeout) (fun _ _ => True) := by
  refine .readThen fun state same => ?_
  subst same
  refine .branch (fun _ => .ret fun _ _ => trivial) fun mine => ?_
  obtain ⟨decoded, settled, vouchedFor⟩ := known (by simpa using mine)
  have collected := (collectLastVote_nilFree high settled vouchedFor.lastVote).also (collectLastVote_high high vouchedFor.lastVote)
  refine .seq (collected.mono fun _ _ given => given.2) fun _ => .each fun middle highMiddle => ?_
  exact .seq (adoptQCHigh_nilFree decoded highMiddle) fun _ => .write fun _ _ => trivial

omit [DecidableEq Digest] in
theorem forwardAll_nilFree (refs : List Ref) :
    NilFree (fun state : Pacemaker Digest Address Tx Key Sig QCID => state.pipeline.space.Sendable refs) (forwardAll refs)
      (fun _ _ => True) := by
  induction refs with
  | nil => exact .ret fun _ _ => trivial
  | cons ref rest ih =>
    refine .each fun state sendable => ?_
    obtain ⟨draft, placed, sent⟩ := sendable ref List.mem_cons_self
    refine onSpace_read (fun gone => absurd (placed.symm.trans gone) nofun) fun proposal isRead => .deref (fun gone => ?_) fun message _ => ?_
    · obtain rfl := Option.some.inj (placed.symm.trans isRead)
      simp [gone] at sent
    refine .seq (.write fun after same => ?_ : NilFree (· = state) _ fun _ after => after.pipeline.space.Sendable rest) fun _ => ih
    rw [same]
    exact fun other member => sendable other (List.mem_cons_of_mem _ member)

end
end Pacemaker

/-! Nil pointers over the run of a replica.

A message that is admitted has a signature and, if it is a proposal, a block that decodes. Nothing else about it
is checked before a handler takes it up. -/

open Lib Lib.Action

section

variable {Key Sig QCID : Type} [DecidableEq Digest] [DecidableEq Key] [DecidableEq QCID]
  {env : PacemakerEnv Digest Address Tx Key Sig QCID} {keys : ReplicaKeys Digest Key}

open Pacemaker

/-! ## What the source does not check -/

section

variable (env : PacemakerEnv Digest Address Tx Key Sig QCID)

/-- What a timeout has to carry: bytes that decode, and certificates that lead to a block if they replace the highest
one. -/
def TimeoutWhole (surroundings : Surroundings)
    (pacemaker : Pacemaker Digest Address Tx Key Sig QCID) (index : Nat) (timeout : Timeout Digest) : Prop :=
  timeout.decodedQCHigh.isSome = true ∧
  (∀ qc ∈ completedQC env surroundings pacemaker index timeout.lastVote, LeadsTo env pacemaker qc fun _ => True) ∧
  ∀ qc ∈ timeout.decodedQCHigh,
    LeadsTo env ((collectLastVote env surroundings index timeout.lastVote).finalState pacemaker) qc fun _ => True

def MessageWhole (keys : ReplicaKeys Digest Key) (surroundings : Surroundings)
    (pacemaker : Pacemaker Digest Address Tx Key Sig QCID) (mi : IncomingMsg Digest Address Tx Key) : Prop :=
  match mi.msg.body with
  | .proposal proposal => ProposalWhole env proposal ∧ surroundings.execution.stateOpens = true ∧ pacemaker.pipeline.Settled
  | .vote _ => pacemaker.pipeline.Settled
  | .timeout timeout => pacemaker.reactor.amIRoundProposer keys.myPubKey timeout.wishRound = true →
      TimeoutWhole env surroundings pacemaker mi.msg.signerIndex timeout ∧ pacemaker.pipeline.Settled
  | .query _ => True

/-- The message taken from the queue has what its handler dereferences, and finds the drafts settled. -/
def NilSafe (keys : ReplicaKeys Digest Key)
    (pacemaker : Pacemaker Digest Address Tx Key Sig QCID) (event : ReplicaEvent Digest Address Tx Key) : Prop :=
  match event with
  | .dequeue surroundings => ∀ mi ∈ pacemaker.upcoming, MessageWhole env keys surroundings pacemaker.popped mi
  | _ => True

end

instance {qc : QuorumCert Digest} {number : Nat} : Decidable (ArrayThere qc number) := by
  unfold ArrayThere
  split <;> infer_instance

instance {aggSig} : Decidable (SignatureThere env aggSig) := by
  unfold SignatureThere
  infer_instance

instance {proposal} : Decidable (ProposalWhole env proposal) := by
  unfold ProposalWhole
  infer_instance

instance {pipeline : Pipeline Digest Address Tx} : Decidable pipeline.Settled :=
  decidable_of_iff
    ((∀ block ∈ pipeline.space.chain.blocks, block.number ≤ pipeline.committedHeight) ∧
      ∀ entry ∈ pipeline.space.proposals.entries, ∀ draft ∈ pipeline.space.drafts[entry.2]?,
        pipeline.committedHeight < draft.proposedBlock.number → draft.returnTxsToPool = true)
    ⟨fun both => ⟨both.1, both.2⟩, fun settled => ⟨settled.chain, settled.pool⟩⟩

instance {surroundings pacemaker index timeout} : Decidable (TimeoutWhole env surroundings pacemaker index timeout) := by
  unfold TimeoutWhole
  infer_instance

instance {surroundings pacemaker mi} : Decidable (MessageWhole env keys surroundings pacemaker mi) := by
  unfold MessageWhole
  exact match mi.msg.body with | .proposal _ | .vote _ | .timeout _ | .query _ => inferInstance

instance {pacemaker event} : Decidable (NilSafe env keys pacemaker event) :=
  match event with
  | .dequeue surroundings => inferInstanceAs (Decidable (∀ mi ∈ pacemaker.upcoming,
      MessageWhole env keys surroundings pacemaker.popped mi))
  | .receive _ | .retryFuture _ | .requeueDelayed _ | .regulate _ | .roundTimeout .. | .beat .. | .broadcast | .imported ..
  | .validated _ => .isTrue trivial

/-! ## The main loop -/

namespace Pacemaker

variable {vouched : BlockID Digest → QuorumCert Digest → Prop} {low : QuorumCert Digest}
  {start : Pacemaker Digest Address Tx Key Sig QCID} {surroundings : Surroundings}

omit [DecidableEq Key] [DecidableEq QCID] in
theorem timeoutVouched_of_whole {index timeout} (whole : TimeoutWhole env surroundings start index timeout) :
    TimeoutVouched env False (fun _ _ => True) surroundings start index timeout where
  lastVote qc completed := nodeVouched_of_leadsTo (whole.2.1 qc completed) fun _ _ => trivial
  carried qc decoded := nodeVouched_of_leadsTo (whole.2.2 qc decoded) fun _ _ => trivial

theorem dispatch_nilFree {mi} (high : High env False (fun _ _ => True) low start)
    (decoded : decodes mi.msg = true) (whole : MessageWhole env keys surroundings start mi) :
    NilFree (· = start) (dispatch env keys surroundings mi) (fun _ _ => True) := by
  unfold dispatch
  unfold MessageWhole at whole
  unfold decodes at decoded
  cases body : mi.msg.body with
  | proposal proposal =>
    simp only [body] at decoded whole
    exact onReceiveProposal_nilFree high whole.2.2 decoded whole.1 whole.2.1
  | vote vote =>
    simp only [body] at whole
    exact onReceiveVote_nilFree high whole fun _ _ => trivial
  | timeout timeout =>
    simp only [body] at whole
    refine onReceiveTimeout_nilFree high fun mine => ?_
    obtain ⟨timeoutWhole, settled⟩ := whole mine
    exact ⟨timeoutWhole.1, settled, timeoutVouched_of_whole timeoutWhole⟩
  | query lastCommitted =>
    refine .readThen fun state same => ?_
    exact .seq (onSpace_spec (DraftSpace.getDraftsUpTo_nilFree high.tidy)) forwardAll_nilFree

theorem dequeue_nilFree (high : High env False (fun _ _ => True) low start)
    (decoded : ∀ mi ∈ start.inQueue.pending, decodes mi.msg = true)
    (whole : ∀ mi ∈ start.upcoming, MessageWhole env keys surroundings start.popped mi) :
    NilFree (· = start) (dequeue env keys surroundings) (fun _ _ => True) := by
  refine .readThen fun state same => ?_
  subst same
  unfold upcoming popped at whole
  split
  · exact .ret fun _ _ => trivial
  next mi rest isQueue =>
    rw [isQueue] at whole
    have head : mi ∈ state.inQueue.pending := by
      rw [IncomingQueue.pending, isQueue]
      exact List.mem_cons_self
    refine .putThen (.branch (fun handled => ?_) fun _ => .ret fun _ _ => trivial)
    exact dispatch_nilFree high (decoded mi head) (whole mi (if_pos handled))

end Pacemaker

/-! ## Runs -/

def AllDecoded (ballots : Ballots Digest Address Tx Key) : Prop :=
  ∀ mi ∈ ballots.inQueue.pending, decodes mi.msg = true

variable {replica : Replica Digest Address Tx Key Sig QCID} {event : ReplicaEvent Digest Address Tx Key}
  {after : Ballots Digest Address Tx Key}

omit [DecidableEq Digest] [DecidableEq QCID] in
theorem AllDecoded.received {before arriving} (holds : AllDecoded before) (received : Received env arriving before after) : AllDecoded after := by
  obtain ⟨inQueue, rfl, pending, -⟩ := received
  intro mi member
  rcases pending mi member with ⟨old, oldMember, message, -⟩ | ⟨-, -, signer, -, -, -, decoded⟩
  · exact message ▸ holds old oldMember
  · exact decoded

omit [DecidableEq QCID] in
theorem AllDecoded.step {before} (holds : AllDecoded before.ballots) (effect : Effect env keys before event after false) : AllDecoded after := by
  cases effect with
  | received crashed received => exact holds.received received
  | proposal crashed surroundings mi rest body isDequeue queue current isProposal effect =>
    cases effect with
    | requeued crashed requeued =>
      have received : Received env none before.ballots after := Requeued.received before.ballots queue requeued
      exact holds.received received
    | voted blk decoded height same =>
      subst same
      intro other member
      refine holds other ?_
      change other ∈ before.inQueue.pending
      rw [IncomingQueue.pending, queue, List.cons_append]
      exact List.mem_cons_of_mem _ member
  | regulated renewal reactor isRegulate updated same =>
    subst same
    exact holds

/-- What is known of a regulated replica: its pointers are in place, and while it runs its messages decode. -/
structure Intact (env : PacemakerEnv Digest Address Tx Key Sig QCID) (replica : Replica Digest Address Tx Key Sig QCID) : Prop where
  high : High env False (fun _ _ => True) (lowest env) replica.pacemaker
  decoded : replica.halted = false → AllDecoded replica.pacemaker.ballots

theorem eventVouched_of_nilSafe {pacemaker} (safe : NilSafe env keys pacemaker event) :
    EventVouched env keys False (fun _ _ => True) (lowest env) pacemaker event := by
  cases event with
  | dequeue surroundings =>
    intro mi isNext
    have whole := safe mi isNext
    unfold MessageVouched
    unfold MessageWhole at whole
    split <;> simp only [*] at whole
    · exact fun _ _ _ _ _ => ⟨fun _ _ _ _ _ _ _ => trivial, fun _ _ => trivial⟩
    · exact fun _ _ => trivial
    · exact fun mine => timeoutVouched_of_whole (whole mine).1
    · trivial
  | regulate renewal => exact ⟨atMost_lowest _, fun _ _ => trivial⟩
  | _ => trivial

theorem allDecoded_step (alive : replica.halted = false) (holds : AllDecoded replica.pacemaker.ballots)
    (running : (Replica.step env keys replica event).halted = false) :
    AllDecoded (Replica.step env keys replica event).pacemaker.ballots :=
  holds.step (Replica.step_running (Replica.handle_effect event) alive rfl running)

theorem Intact.step (known : Intact env replica) (safe : NilSafe env keys replica.pacemaker event) :
    Intact env (Replica.step env keys replica event) := by
  refine ⟨Replica.step_keeps known.high (handle_high known.high (eventVouched_of_nilSafe safe)), ?_⟩
  cases alive : replica.halted with
  | true =>
    rw [Replica.step_halted alive]
    exact known.decoded
  | false => exact allDecoded_step alive (known.decoded alive)

theorem intact_of_run {start renewal events} (alive : start.halted = false) (noDrafts : start.pacemaker.pipeline.space.drafts = [])
    (noProposals : start.pacemaker.pipeline.space.proposals = ∅) (drained : start.pacemaker.inQueue.pending = [])
    (started : (Replica.step env keys start (.regulate renewal)).halted = false)
    (run : ReplicaRun env keys (NilSafe env keys) start (.regulate renewal :: events) replica) :
    Intact env replica := by
  obtain ⟨first, ⟨safe, rfl⟩, run⟩ := run.uncons
  have tidy : start.pacemaker.pipeline.space.Tidy env.hashing :=
    DraftSpace.tidy_of (by simp [noProposals]) (by simp [noDrafts])
  have initial : Intact env (Replica.step env keys start (.regulate renewal)) := by
    refine ⟨?_, allDecoded_step alive fun mi member => ?_⟩
    · have regulated : Triple (· = start.pacemaker) (Replica.handle env keys (.regulate renewal))
          (fun _ => High env False (fun _ _ => True) (lowest env)) _ :=
        regulate_high tidy (atMost_lowest _) fun _ _ => trivial
      exact Replica.step_running regulated alive rfl started
    · change mi ∈ start.pacemaker.inQueue.pending at member
      simp [drained] at member
  refine Trace.invariant (Intact env) initial ?_ run
  rintro replica event next known ⟨safe, rfl⟩
  exact known.step safe

end

section

section

variable (messages : List (Message (List Nat) Nat Unit)) (last : Message (List Nat) Nat Unit)

/-- The sample replica handles messages, and a last one waits in its queue. -/
def upTo : List (ReplicaEvent (List Nat) Nat Unit Bytes) :=
  delivered messages ++ [.receive last]

def ranUpTo : Replica (List Nat) Nat Unit Bytes Bytes (QuorumCert (List Nat)) :=
  (.regulate sampleRenewal :: upTo messages last).foldl (Replica.step sampleEnv (keysOf 0)) bareReplica

end

def dereferencesNil (replica : Replica (List Nat) Nat Unit Bytes Bytes (QuorumCert (List Nat))) : Bool :=
  match Replica.handle sampleEnv (keysOf 0) (.dequeue smooth) replica.pacemaker with
  | .error .nilDereference _ => true
  | _ => false

end
end MeterPov.Consensus
