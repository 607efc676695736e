import MeterPov.Consensus.ValidateQC

/-! How a validated certificate is bound to the votes behind it.

The signatures of a certificate cover the voting hash of a block. Height, round and epoch stand beside
that hash, and validation of a block above the first one reads none of the three. -/

set_option autoImplicit false

namespace MeterPov.Consensus

open Lib Blocks List

variable {Digest Address Tx Key Sig QCID : Type} [DecidableEq Digest]

/-- A vote as `BuildVoteMessage` makes it: the message's epoch, its content and the member that signed. -/
structure MemberVote (Digest Key : Type) where
  blsPubKey : Key
  epoch : Nat
  vote : Vote Digest

/-- The certificate names the height of the block, and the round and the epoch in which the members whose
signatures it carries voted for the block. -/
structure Authentic (env : ValidationEnv Digest Address Key Sig QCID) (votes : List (MemberVote Digest Key))
    (block : Block Digest Address Tx) (qc : QuorumCert Digest) : Prop where
  height : qc.qcHeight = block.number
  signers : ∃ committee ∈ env.reactor.knownCommittees, block.verifyQC env.hashing qc env.bls committee = .ok (.ok true) ∧
    ∃ array, qc.voterBitArray = .ok (some array) ∧ ∀ key ∈ voters (some array) committee, ∃ cast ∈ votes, cast.blsPubKey = key ∧
      cast.vote.voteBlockID = block.id env.hashing ∧ cast.vote.voteHash = block.votingHash env.hashing ∧
      cast.vote.voteRound = qc.qcRound ∧ cast.epoch = qc.epochID

structure SameMetadata (qc other : QuorumCert Digest) : Prop where
  height : qc.qcHeight = other.qcHeight
  round : qc.qcRound = other.qcRound
  epoch : qc.epochID = other.epochID

/-- The certificate with another height, round and epoch written into it. -/
def relabel (qc : QuorumCert Digest) (height round epoch : Nat) : QuorumCert Digest :=
  { qc with qcHeight := height, qcRound := round, epochID := epoch }

section

variable {env : ValidationEnv Digest Address Key Sig QCID} {block : Block Digest Address Tx} {qc : QuorumCert Digest}

theorem verifyQC_relabel (above : 1 < block.number) (height round epoch : Nat) (committee : List (Validator Key)) :
    block.verifyQC env.hashing (relabel qc height round epoch) env.bls committee =
      block.verifyQC env.hashing qc env.bls committee := by
  have first (other : QuorumCert Digest) : ¬ (block.number = other.qcHeight ∧ (block.number = 0 ∨ block.number = 1)) := by
    omega
  unfold Block.verifyQC
  rw [if_neg (first _), if_neg (first _)]
  rfl

theorem validateUncached_relabel (above : 1 < block.number) (height round epoch : Nat) :
    validateUncached env block (relabel qc height round epoch) = validateUncached env block qc := by
  have accepts : acceptedBy env block (relabel qc height round epoch) = acceptedBy env block qc := by
    funext committee
    unfold acceptedBy
    rw [verifyQC_relabel above]
  unfold validateUncached
  rw [accepts]
  rfl

theorem verifyQC_total {array} (above : 1 < block.number) (parsed : qc.voterBitArray = .ok (some array))
    (freed : freeSignature env.bls qc.voterAggSig = .ok ()) (committee : List (Validator Key)) : ∃ verdict, acceptedBy env block qc committee = .ok verdict := by
  have returns : ∃ result, block.verifyQC env.hashing qc env.bls committee = .ok result := by
    unfold Block.verifyQC
    rw [if_neg (by omega), parsed]
    split
    · exact ⟨_, rfl⟩
    · simp only [Exec.ok_bind, Exec.deref, freed]
      split <;> exact ⟨_, rfl⟩
  obtain ⟨result, returned⟩ := returns
  unfold acceptedBy
  rw [returned]
  cases result <;> exact ⟨_, rfl⟩

omit [DecidableEq Digest] in
theorem attempts_total {array} (parsed : qc.voterBitArray = .ok (some array)) {candidate} (listed : candidate ∈ attempts env block qc) :
    ∃ asked, candidate.1 = .ok asked := by
  have sizes (committee : List (Validator Key)) : ∃ asked, sizeMatches qc committee = .ok asked := by
    unfold sizeMatches
    rw [parsed]
    exact ⟨_, rfl⟩
  simp only [attempts, mem_cons, not_mem_nil, or_false] at listed
  rcases listed with rfl | rfl | rfl | rfl | rfl | rfl
  · exact ⟨_, rfl⟩
  · exact ⟨_, rfl⟩
  · exact sizes _
  · exact sizes _
  · split
    · exact ⟨_, rfl⟩
    · exact sizes _
  · exact ⟨_, rfl⟩

omit [DecidableEq Digest] in
theorem firstAccepted_of_total {accepts} {candidates : List (Exec Bool × List (Validator Key))}
    (total : ∀ candidate ∈ candidates, (∃ asked, candidate.1 = .ok asked) ∧ ∃ verdict, accepts candidate.2 = .ok verdict)
    (found : ∃ candidate ∈ candidates, candidate.1 = .ok true ∧ accepts candidate.2 = .ok true) :
    firstAccepted accepts candidates = .ok true := by
  induction candidates with
  | nil => simp at found
  | cons candidate rest ih =>
    obtain ⟨⟨asked, applied⟩, verdict, checked⟩ := total _ mem_cons_self
    have step : firstAccepted accepts (candidate :: rest) = if asked && verdict then .ok true else firstAccepted accepts rest := by
      simp only [firstAccepted, applied, Exec.ok_bind, checked]
      cases asked <;> cases verdict <;> rfl
    rw [step]
    split
    · rfl
    next refused =>
      refine ih (fun other listed => total other (mem_cons_of_mem _ listed)) ?_
      obtain ⟨other, listed, properties⟩ := found
      rcases mem_cons.mp listed with rfl | later
      · simp_all
      · exact ⟨other, later, properties⟩

theorem validateUncached_iff_verified (above : 1 < block.number) :
    validateUncached env block qc = .ok true ↔ VerifiedBySome env block qc := by
  constructor
  · exact verifiedBySome_of_accepted
  · rintro ⟨candidate, listed, asked, verified⟩
    obtain ⟨-, array, parsed, -, checked⟩ := (Block.verifyQC_eq_true above).mp verified
    have freed := freeSignature_of_checked checked
    refine firstAccepted_of_total (fun other among => ⟨attempts_total parsed among, verifyQC_total above parsed freed _⟩) ?_
    exact ⟨candidate, listed, asked, acceptedBy_eq_true.mpr verified⟩

theorem VerifiedBySome.relabel (above : 1 < block.number) (verified : VerifiedBySome env block qc) (height round epoch : Nat) :
    VerifiedBySome env block (relabel qc height round epoch) := by
  rw [← validateUncached_iff_verified above, validateUncached_relabel above, validateUncached_iff_verified above]
  exact verified

end

section

variable [DecidableEq QCID]

def Accepted (env : ValidationEnv Digest Address Key Sig QCID) (validQCs : ValidQCs QCID) (block : Block Digest Address Tx)
    (qc : QuorumCert Digest) : Prop :=
  (validateQC env validQCs block qc).map Prod.fst = .ok true

instance (env : ValidationEnv Digest Address Key Sig QCID) {validQCs} (block : Block Digest Address Tx) {qc} : Decidable (Accepted env validQCs block qc) :=
  inferInstanceAs (Decidable (_ = _))

/-- Some certificate for the block verifies with a committee that is asked about it. -/
def Certifiable (env : ValidationEnv Digest Address Key Sig QCID) (block : Block Digest Address Tx) : Prop :=
  ∃ qc, VerifiedBySome env block qc

variable {env : ValidationEnv Digest Address Key Sig QCID} {validQCs : ValidQCs QCID} {block : Block Digest Address Tx}
  {qc : QuorumCert Digest}

theorem accepted_iff (above : 1 < block.number) :
    Accepted env validQCs block qc ↔ validQCs.contains (env.qcID qc) = true ∨ VerifiedBySome env block qc := by
  rw [← validateUncached_iff_verified above]
  unfold Accepted validateQC
  split
  next cached => simp [cached, Except.map]
  next uncached =>
    cases validateUncached env block qc with
    | error fault => simp [uncached, bind, Except.bind, Except.map]
    | ok valid => simp [uncached, Except.map]

/-- Validation vouches for height, round and epoch of the certificates it accepts for a block exactly when
no certificate at all verifies for the block and those in the cache happen to be right. -/
theorem accepted_metadata_iff (env : ValidationEnv Digest Address Key Sig QCID) (votes : List (MemberVote Digest Key))
    (validQCs : ValidQCs QCID) (block : Block Digest Address Tx) (above : 1 < block.number) :
    ((∀ qc, Accepted env validQCs block qc → Authentic env votes block qc) ↔
      ¬ Certifiable env block ∧ ∀ qc, validQCs.contains (env.qcID qc) = true → Authentic env votes block qc) ∧
    ((∀ qc other, Accepted env validQCs block qc → Accepted env validQCs block other → SameMetadata qc other) ↔
      ¬ Certifiable env block ∧ ∀ qc other, validQCs.contains (env.qcID qc) = true →
        validQCs.contains (env.qcID other) = true → SameMetadata qc other) := by
  have cached {qc : QuorumCert Digest} (found : validQCs.contains (env.qcID qc) = true) : Accepted env validQCs block qc :=
    (accepted_iff above).mpr (.inl found)
  have fresh {qc : QuorumCert Digest} (verified : VerifiedBySome env block qc) : Accepted env validQCs block qc :=
    (accepted_iff above).mpr (.inr verified)
  have only {qc : QuorumCert Digest} (nothing : ¬ Certifiable env block) (accepted : Accepted env validQCs block qc) :
      validQCs.contains (env.qcID qc) = true :=
    ((accepted_iff above).mp accepted).resolve_right fun verified => nothing ⟨qc, verified⟩
  constructor
  · constructor
    · intro authentic
      refine ⟨fun ⟨qc, verified⟩ => ?_, fun qc found => authentic qc (cached found)⟩
      -- the same signatures under another height
      have moved := authentic _ (fresh (verified.relabel above (block.number + 1) 0 0))
      exact Nat.succ_ne_self _ moved.height
    · intro ⟨nothing, right⟩ qc accepted
      exact right qc (only nothing accepted)
  · constructor
    · intro agree
      refine ⟨fun ⟨qc, verified⟩ => ?_, fun qc other found also => agree qc other (cached found) (cached also)⟩
      -- the same signatures under two rounds
      have moved := agree _ _ (fresh (verified.relabel above 0 0 0)) (fresh (verified.relabel above 0 1 0))
      exact Nat.zero_ne_one moved.round
    · intro ⟨nothing, right⟩ qc other accepted also
      exact right qc other (only nothing accepted) (only nothing also)

/-- The votes of the first three members for the block, in round 4 of epoch 3. -/
def threeVotes : List (MemberVote (List Nat) Bytes) :=
  [[0], [1], [2]].map fun key =>
    ⟨key, 3, ⟨4, (signedBlock 1).id listHashing, key, (signedBlock 1).votingHash listHashing⟩⟩

theorem firstBlock_metadata_iff : 1 < (signedBlock 1).number ∧
    ((∀ qc, Accepted fourEnv Lru.empty (signedBlock 1) qc → Authentic fourEnv threeVotes (signedBlock 1) qc) ↔
      ¬ Certifiable fourEnv (signedBlock 1) ∧
        ∀ qc, (Lru.empty : ValidQCs (QuorumCert (List Nat))).contains (fourEnv.qcID qc) = true →
          Authentic fourEnv threeVotes (signedBlock 1) qc) :=
  ⟨by decide, (accepted_metadata_iff fourEnv threeVotes Lru.empty (signedBlock 1) (by decide)).1⟩

/-- The certificate of those votes is accepted for round 4 of epoch 3, and for round 7 of epoch 5. -/
theorem relabelled_certificate_accepted : 1 < (signedBlock 1).number ∧
    Accepted fourEnv Lru.empty (signedBlock 1) (relabel firstQC 2 4 3) ∧
    Authentic fourEnv threeVotes (signedBlock 1) (relabel firstQC 2 4 3) ∧
    Accepted fourEnv Lru.empty (signedBlock 1) (relabel firstQC 2 7 5) ∧
    ¬ Authentic fourEnv threeVotes (signedBlock 1) (relabel firstQC 2 7 5) := by
  have signers : ∀ key ∈ voters (some ⟨4, [true, true, true, false], by decide, by decide⟩) (numberedCommittee 4),
      ∃ cast ∈ threeVotes, cast.blsPubKey = key ∧ cast.vote.voteBlockID = (signedBlock 1).id listHashing ∧
        cast.vote.voteHash = (signedBlock 1).votingHash listHashing ∧ cast.vote.voteRound = 4 ∧ cast.epoch = 3 := by
    decide
  refine ⟨by decide, by decide, ⟨by decide, numberedCommittee 4, by decide, by decide, _, by decide, signers⟩, by decide, ?_⟩
  intro ⟨_, committee, _, verified, array, parsed, cast⟩
  obtain ⟨_, array', parsed', _, checked⟩ := (Block.verifyQC_eq_true (by decide)).mp verified
  cases parsed.symm.trans parsed'
  obtain ⟨sig, -, valid⟩ := checkAggregate_eq_true.mp checked
  obtain ⟨key, member⟩ := exists_mem_of_ne_nil _ (BlsCommon.thresholdVerify_nonempty valid)
  obtain ⟨vote, listed, _, _, _, round, _⟩ := cast key member
  have never : ∀ vote ∈ threeVotes, vote.vote.voteRound ≠ 7 := by decide
  exact never vote listed round

end
end MeterPov.Consensus
