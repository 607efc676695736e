import MeterPov.Blocks.VerifyQC

/-! The reactor's committees, timeout certificates (`consensus/pacemaker_assist.go`) and how many
committee members stand behind an accepted certificate. -/

set_option autoImplicit false

namespace MeterPov.Consensus

open Lib Blocks Exec

inductive DelegateSource where
  | fromDelegatesFile
  | fromStaking
  deriving DecidableEq, Repr

/-- The fields of the reactor that certificate checks and message admission read. The size field is
set together with the committee and always is its length. -/
structure Reactor (Key : Type) where
  curEpoch : Nat
  curNonce : Nat
  committee : List (Validator Key)
  committeeSize : Nat
  committeeSize_eq : committeeSize = committee.length % 2 ^ 32
  lastCommittee : List (Validator Key)
  hardCommittee : List (Validator Key)
  bootstrapCommittee11 : List (Validator Key)
  bootstrapCommittee5 : List (Validator Key)
  /-- The committee drawn with the nonce of the K-block before the last one. -/
  lastStagingCommittee : List (Validator Key)
  delegateSource : DelegateSource
  isStaging : Bool
  committeeIndex : Nat
  inCommittee : Bool

variable {Digest Address Tx Key Sig : Type}

def verifyTC [DecidableEq Digest] (bls : BlsCommon Key Sig Digest) (timeoutVotingHash : Nat → Nat → Digest)
    (reactor : Reactor Key) (tc : Option (TimeoutCert Digest)) (round : Nat) : Exec Bool :=
  match tc with
  | none => .ok false
  | some tc =>
    if tc.epoch ≠ reactor.curEpoch ∨ tc.round ≠ round then .ok false
    else if tc.msgHash ≠ timeoutVotingHash tc.epoch tc.round then .ok false
    else do
      let array ← Exec.deref tc.bitArray
      if majorityTwoThird (array.count % 2 ^ 32) reactor.committeeSize = false then .ok false
      else
        freeSignature bls tc.aggSig
        match checkAggregate bls tc.aggSig tc.msgHash (voters tc.bitArray reactor.committee) with
        | .error _ => .ok false
        | .ok valid => .ok valid

variable {bls : BlsCommon Key Sig Digest} {committee : List (Validator Key)} {array : BitArray}

theorem verifyTC_eq_true [DecidableEq Digest] {timeoutVotingHash : Nat → Nat → Digest} {reactor : Reactor Key}
    {tc : TimeoutCert Digest} {round : Nat} :
    verifyTC bls timeoutVotingHash reactor (some tc) round = .ok true ↔
      tc.epoch = reactor.curEpoch ∧ tc.round = round ∧ tc.msgHash = timeoutVotingHash tc.epoch tc.round ∧
      ∃ array, tc.bitArray = some array ∧
        majorityTwoThird (array.count % 2 ^ 32) (reactor.committee.length % 2 ^ 32) = true ∧
        checkAggregate bls tc.aggSig tc.msgHash (voters (some array) reactor.committee) = .ok true := by
  simp only [verifyTC]
  by_cases place : tc.epoch ≠ reactor.curEpoch ∨ tc.round ≠ round
  · rw [if_pos place]
    constructor
    · intro accepted; simp at accepted
    · rintro ⟨epoch, sameRound, -⟩
      rcases place with other | other <;> contradiction
  · obtain ⟨epoch, sameRound⟩ : tc.epoch = reactor.curEpoch ∧ tc.round = round := by
      simpa only [not_or, not_not, ne_eq] using place
    rw [if_neg place]
    by_cases hash : tc.msgHash = timeoutVotingHash tc.epoch tc.round
    · rw [if_neg (not_not.mpr hash)]
      simp only [epoch, sameRound, hash, true_and, bind_eq_ok, deref_eq_ok, reactor.committeeSize_eq]
      refine exists_congr fun array => and_congr_right fun same => ?_
      rw [same]
      cases majorityTwoThird (array.count % 2 ^ 32) (reactor.committee.length % 2 ^ 32) with
      | false => simp
      | true =>
        cases checked : checkAggregate bls tc.aggSig (timeoutVotingHash reactor.curEpoch round)
          (voters (some array) reactor.committee) with
        | error reason => simp [bind_eq_ok]
        | ok valid =>
          cases valid with
          | false => simp [bind_eq_ok]
          | true => simp [freeSignature_of_checked checked]
    · simp [hash]

/-! ## The members behind an accepted certificate -/

/-- At least two thirds of the committee's keys took part in the signature check. -/
def QuorumTookPart (array : Option BitArray) (committee : List (Validator Key)) : Prop :=
  twoThirds committee.length ≤ (voters array committee).length

/-- The count over the whole array and the count at committee positions lead to the same verdict:
if the former passes the two-thirds test, so does the latter, or it is zero and the signature check
is left without a key. -/
def CountsAgree (array : BitArray) (committeeSize : Nat) : Prop :=
  majorityTwoThird (array.count % 2 ^ 32) (committeeSize % 2 ^ 32) = true →
    array.countBelow committeeSize = 0 ∨ twoThirds committeeSize ≤ array.countBelow committeeSize

/-- Some bytes pass the signature check for any hash and any members: they can sign together. -/
def CanSign (bls : BlsCommon Key Sig Digest) : Prop :=
  ∀ (keys : List Key) (hash : Digest), keys ≠ [] → ∃ aggSig, checkAggregate bls aggSig hash keys = .ok true

theorem CountsAgree.quorum {aggSig hash} (agree : CountsAgree array committee.length)
    (majority : majorityTwoThird (array.count % 2 ^ 32) (committee.length % 2 ^ 32) = true)
    (checked : checkAggregate bls aggSig hash (voters (some array) committee) = .ok true) :
    QuorumTookPart (some array) committee := by
  obtain ⟨sig, -, valid⟩ := checkAggregate_eq_true.mp checked
  have nonempty := List.length_pos_iff.mpr (BlsCommon.thresholdVerify_nonempty valid)
  rw [voters_length] at nonempty
  rw [QuorumTookPart, voters_length]
  rcases agree majority with none | enough
  · omega
  · exact enough

-- Where the counts disagree, the members at the committee positions alone can sign a certificate
-- that passes both tests.
theorem CanSign.exists_of_not_agree (canSign : CanSign bls) (hash : Digest) (disagree : ¬ CountsAgree array committee.length) :
    majorityTwoThird (array.count % 2 ^ 32) (committee.length % 2 ^ 32) = true ∧
      ¬ QuorumTookPart (some array) committee ∧
      ∃ aggSig, checkAggregate bls aggSig hash (voters (some array) committee) = .ok true := by
  simp only [CountsAgree, Classical.not_imp, not_or] at disagree
  obtain ⟨majority, some, few⟩ := disagree
  refine ⟨majority, by rwa [QuorumTookPart, voters_length], canSign _ hash ?_⟩
  rw [← List.length_pos_iff, voters_length]
  omega

theorem canSign_listedSigners : CanSign (listedSigners : BlsCommon Bytes Bytes Digest) :=
  fun keys _ nonempty => ⟨keys.flatten, checkAggregate_listedSigners nonempty⟩

variable [DecidableEq Digest] (hashing : Hashing Digest Address) (bls : BlsCommon Key Sig Digest)

/-- A block above the first one, with nothing in it. -/
def emptyBlock : Block Digest Address Tx where
  header := {
    parentID := ⟨1, hashing.zeroDigest⟩
    timestamp := 0
    gasLimit := 0
    lastKBlockHeight := 0
    blockType := .mBlock
    beneficiary := hashing.zeroAddress
    gasUsed := 0
    totalScore := 0
    txsRoot := hashing.zeroDigest
    stateRoot := hashing.zeroDigest
    receiptsRoot := hashing.zeroDigest
    evidenceDataRoot := hashing.zeroDigest
    signature := [] }
  txs := []
  qc := ⟨0, 0, 0, [], hashing.zeroDigest, []⟩
  committeeEpoch := 0
  kBlockNonce := 0
  magic := 0

theorem verifyQC_quorum_iff (canSign : CanSign bls) (committee : List (Validator Key)) (text : Bytes) :
    (∀ (block : Block Digest Address Tx) (qc : QuorumCert Digest), 1 < block.number → qc.voterBitArrayStr = text →
      block.verifyQC hashing qc bls committee = .ok (.ok true) →
        ∃ array, qc.voterBitArray = .ok (some array) ∧ QuorumTookPart (some array) committee) ↔
    ∀ array, voterBitArray text = .ok (some array) → CountsAgree array committee.length := by
  constructor
  · intro sound array parsed
    by_contra disagree
    let block : Block Digest Address Tx := emptyBlock hashing
    obtain ⟨majority, few, aggSig, checked⟩ :=
      canSign.exists_of_not_agree (block.votingHash hashing) disagree
    let qc : QuorumCert Digest := ⟨0, 0, 0, text, block.votingHash hashing, aggSig⟩
    have above : 1 < block.number := Nat.lt_succ_self 1
    have accepted : block.verifyQC hashing qc bls committee = .ok (.ok true) :=
      (Block.verifyQC_eq_true above).mpr ⟨rfl, array, parsed, majority, checked⟩
    obtain ⟨other, sameParse, enough⟩ := sound block qc above rfl accepted
    have same : some array = some other := Except.ok.inj (parsed.symm.trans sameParse)
    exact few (same ▸ enough)
  · rintro agree block qc above rfl accepted
    obtain ⟨-, array, parsed, majority, checked⟩ := (Block.verifyQC_eq_true above).mp accepted
    exact ⟨array, parsed, (agree array parsed).quorum majority checked⟩

theorem verifyTC_quorum_iff (canSign : CanSign bls) (timeoutVotingHash : Nat → Nat → Digest)
    (reactor : Reactor Key) (pointer : Option BitArray) :
    (∀ (tc : TimeoutCert Digest) (round : Nat), tc.bitArray = pointer →
      verifyTC bls timeoutVotingHash reactor (some tc) round = .ok true →
        QuorumTookPart tc.bitArray reactor.committee) ↔
    ∀ array, pointer = some array → CountsAgree array reactor.committee.length := by
  constructor
  · rintro sound array rfl
    by_contra disagree
    obtain ⟨majority, few, aggSig, checked⟩ :=
      canSign.exists_of_not_agree (timeoutVotingHash reactor.curEpoch 0) disagree
    let tc : TimeoutCert Digest :=
      ⟨reactor.curEpoch, 0, some array, timeoutVotingHash reactor.curEpoch 0, aggSig⟩
    exact few (sound tc 0 rfl (verifyTC_eq_true.mpr ⟨rfl, rfl, rfl, array, rfl, majority, checked⟩))
  · rintro agree tc round rfl accepted
    obtain ⟨-, -, -, array, same, majority, checked⟩ := verifyTC_eq_true.mp accepted
    rw [same]
    exact (agree array same).quorum majority checked

/-- For every committee and every bit array, all accepted certificates that carry the array have two
thirds of the committee behind them exactly when the two counts of its bits agree. -/
theorem accepted_certificates_quorum_iff (canSign : CanSign bls) (timeoutVotingHash : Nat → Nat → Digest) :
    (∀ (committee : List (Validator Key)) (text : Bytes),
      (∀ (block : Block Digest Address Tx) (qc : QuorumCert Digest), 1 < block.number →
        qc.voterBitArrayStr = text → block.verifyQC hashing qc bls committee = .ok (.ok true) →
          ∃ array, qc.voterBitArray = .ok (some array) ∧ QuorumTookPart (some array) committee) ↔
      ∀ array, voterBitArray text = .ok (some array) → CountsAgree array committee.length) ∧
    ∀ (reactor : Reactor Key) (pointer : Option BitArray),
      (∀ (tc : TimeoutCert Digest) (round : Nat), tc.bitArray = pointer →
        verifyTC bls timeoutVotingHash reactor (some tc) round = .ok true →
          QuorumTookPart tc.bitArray reactor.committee) ↔
      ∀ array, pointer = some array → CountsAgree array reactor.committee.length :=
  ⟨verifyQC_quorum_iff hashing bls canSign, verifyTC_quorum_iff bls canSign timeoutVotingHash⟩

/-- A reactor whose only committee is the current one. -/
def plainReactor (committee : List (Validator Key)) : Reactor Key where
  curEpoch := 0
  curNonce := 0
  committee := committee
  committeeSize := committee.length % 2 ^ 32
  committeeSize_eq := rfl
  lastCommittee := []
  hardCommittee := []
  bootstrapCommittee11 := []
  bootstrapCommittee5 := []
  lastStagingCommittee := []
  delegateSource := .fromStaking
  isStaging := false
  committeeIndex := 0
  inCommittee := true

/-- The text `BA{6:x___xx}`. -/
def longText : Bytes := [66, 65, 123, 54, 58, 120, 95, 95, 95, 120, 120, 125]

/-- Six bits: the first member of a committee of four, and two positions that no member has. -/
def longArray : BitArray := ⟨6, [true, false, false, false, true, true], by decide, by decide⟩

/-- The array on which the two counts disagree, for the committee of four. -/
theorem longArray_quorum_iff : CanSign (listedSigners : BlsCommon Bytes Bytes (List Nat)) ∧
    ((∀ (tc : TimeoutCert (List Nat)) (round : Nat), tc.bitArray = some longArray →
      verifyTC listedSigners (fun epoch round => [epoch, round]) (plainReactor (numberedCommittee 4)) (some tc)
        round = .ok true → QuorumTookPart tc.bitArray (numberedCommittee 4)) ↔
      ∀ array, some longArray = some array → CountsAgree array 4) :=
  ⟨canSign_listedSigners,
    (@accepted_certificates_quorum_iff (List Nat) Nat Unit Bytes Bytes _ listHashing listedSigners
      canSign_listedSigners fun epoch round => [epoch, round]).2 (plainReactor (numberedCommittee 4)) (some longArray)⟩

/-- One member of four passes both checks alone. -/
theorem minority_certificates_accepted : (∃ (block : Block (List Nat) Nat Unit) (qc : QuorumCert (List Nat)),
      1 < block.number ∧ qc.voterBitArray = .ok (some longArray) ∧
      block.verifyQC listHashing qc listedSigners (numberedCommittee 4) = .ok (.ok true)) ∧
    (∃ tc : TimeoutCert (List Nat), tc.bitArray = some longArray ∧
      verifyTC listedSigners (fun epoch round => [epoch, round]) (plainReactor (numberedCommittee 4)) (some tc) 7 =
        .ok true) ∧
    (voters (some longArray) (numberedCommittee 4)).length = 1 ∧ twoThirds (numberedCommittee 4).length = 3 := by
  let block : Block (List Nat) Nat Unit := emptyBlock listHashing
  refine ⟨⟨block, ⟨0, 0, 0, longText, block.votingHash listHashing, [0]⟩, ?_, ?_, ?_⟩,
    ⟨⟨0, 7, some longArray, [0, 7], [0]⟩, rfl, ?_⟩, ?_, ?_⟩ <;> decide

end MeterPov.Consensus
