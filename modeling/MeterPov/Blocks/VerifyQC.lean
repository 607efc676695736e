import MeterPov.Blocks.Block

/-! Verification of a quorum certificate against a committee (`block/block.go`,
`types/bls_common.go`).

The count of votes is taken over the whole bit array of the certificate, while the public keys are
collected at the positions of the committee only. The spec lemma of `verifyQC` states both. -/

set_option autoImplicit false

namespace MeterPov.Blocks

open Lib List

structure Validator (Key : Type) where
  name : String
  netAddr : String
  pubKey : Key
  blsPubKey : Key
  deriving DecidableEq

/-- The pairing-based signature system, as the consensus code uses it. -/
structure BlsCommon (Key Sig Digest : Type) where
  sigFromBytes : Bytes → Except String Sig
  sigToBytes : Sig → Bytes
  aggregate : List Sig → Except String Sig
  aggregatePubkeys : List Key → Except String Key
  verify : Sig → Digest → Key → Bool

variable {Digest Address Tx Key Sig : Type}

def BlsCommon.thresholdVerify (bls : BlsCommon Key Sig Digest) (sig : Sig) (hash : Digest) (pubKeys : List Key) : Except String Bool :=
  if pubKeys.length ≤ 0 then .error "pubkeys are empty"
  else do
    let aggregated ← bls.aggregatePubkeys pubKeys
    .ok (bls.verify sig hash aggregated)

/-- The least number of votes that is two thirds of a committee. -/
def twoThirds (committeeSize : Nat) : Nat := (2 * committeeSize + 2) / 3

-- The source rounds a float64 quotient up. For 32-bit sizes the quotient is within 2^-20 of the
-- exact one, whose fraction is 0, 1/3 or 2/3, so that the rounding is the exact one.
def majorityTwoThird (voterNum committeeSize : Nat) : Bool :=
  if committeeSize < 1 then false else decide (twoThirds committeeSize ≤ voterNum)

theorem majorityTwoThird_iff {voterNum committeeSize} :
    majorityTwoThird voterNum committeeSize = true ↔ 1 ≤ committeeSize ∧ twoThirds committeeSize ≤ voterNum := by
  unfold majorityTwoThird
  split
  · simp only [Bool.false_eq_true, false_iff]
    omega
  · simp only [decide_eq_true_eq]
    omega

def votersFrom (voted : Nat → Bool) (position : Nat) : List (Validator Key) → List Key
  | [] => []
  | member :: rest =>
    if voted position then member.blsPubKey :: votersFrom voted (position + 1) rest
    else votersFrom voted (position + 1) rest

def voters (array : Option BitArray) (committee : List (Validator Key)) : List Key :=
  votersFrom (BitArray.indexOf array) 0 committee

theorem votersFrom_length (voted : Nat → Bool) (position : Nat) (committee : List (Validator Key)) :
    (votersFrom voted position committee).length =
      ((List.range committee.length).map (position + ·)).countP voted := by
  induction committee generalizing position with
  | nil => rfl
  | cons member rest ih =>
    have shift : (List.range (rest.length + 1)).map (position + ·) = position :: (List.range rest.length).map (position + 1 + ·) := by
      simp [range_succ_eq_map, Function.comp_def, add_assoc, add_comm 1]
    rw [length_cons, shift, countP_cons, ← ih (position + 1), votersFrom]
    split <;> simp_all

theorem voters_length (array : BitArray) (committee : List (Validator Key)) :
    (voters (some array) committee).length = array.countBelow committee.length := by
  simp [voters, votersFrom_length, BitArray.countBelow]

/-- Checking an aggregate signature over the keys the bit array selects. -/
def checkAggregate (bls : BlsCommon Key Sig Digest) (aggSig : Bytes) (hash : Digest) (pubKeys : List Key) : Except String Bool :=
  match bls.sigFromBytes aggSig with
  | .error reason => .error ("invalid aggregate signature:" ++ reason)
  | .ok sig => bls.thresholdVerify sig hash pubKeys

/-- The deferred `sig.Free()`. The signature that comes with an error is empty, and it is freed as well. -/
def freeSignature (bls : BlsCommon Key Sig Digest) (aggSig : Bytes) : Exec Unit :=
  match bls.sigFromBytes aggSig with
  | .error _ => .error .nilDereference
  | .ok _ => .ok ()

def Block.verifyQC [DecidableEq Digest] (block : Block Digest Address Tx) (hashing : Hashing Digest Address)
    (escortQC : QuorumCert Digest) (bls : BlsCommon Key Sig Digest) (committee : List (Validator Key)) :
    Exec (Except String Bool) :=
  let committeeSize := committee.length % 2 ^ 32
  -- the genesis block and the first block have no certificate
  if block.number = escortQC.qcHeight ∧ (block.number = 0 ∨ block.number = 1) then .ok (.ok true)
  else if escortQC.voterMsgHash ≠ block.votingHash hashing then .ok (.error "voting hash mismatch")
  else do
    let array ← Exec.deref (← escortQC.voterBitArray)
    let voteCount := array.count
    if majorityTwoThird (voteCount % 2 ^ 32) committeeSize = false then
      .ok (.error s!"not enough votes ({voteCount}/{committeeSize})")
    else
      let result := checkAggregate bls escortQC.voterAggSig escortQC.voterMsgHash (voters (some array) committee)
      freeSignature bls escortQC.voterAggSig
      .ok result

variable {bls : BlsCommon Key Sig Digest} {pubKeys : List Key} {hash : Digest} {aggSig : Bytes}

theorem BlsCommon.thresholdVerify_nonempty {sig} (valid : bls.thresholdVerify sig hash pubKeys = .ok true) : pubKeys ≠ [] := by
  rintro rfl
  simp [thresholdVerify] at valid

theorem checkAggregate_eq_true : checkAggregate bls aggSig hash pubKeys = .ok true ↔
      ∃ sig, bls.sigFromBytes aggSig = .ok sig ∧ bls.thresholdVerify sig hash pubKeys = .ok true := by
  unfold checkAggregate
  cases bls.sigFromBytes aggSig <;> simp

@[simp] theorem freeSignature_eq_ok {result} :
    freeSignature bls aggSig = .ok result ↔ ∃ sig, bls.sigFromBytes aggSig = .ok sig := by
  unfold freeSignature
  cases bls.sigFromBytes aggSig <;> simp

theorem freeSignature_of_checked (checked : checkAggregate bls aggSig hash pubKeys = .ok true) : freeSignature bls aggSig = .ok () := by
  obtain ⟨sig, decoded, -⟩ := checkAggregate_eq_true.mp checked
  exact freeSignature_eq_ok.mpr ⟨sig, decoded⟩

theorem Block.verifyQC_eq_true [DecidableEq Digest] {block : Block Digest Address Tx} {hashing qc committee} (above : 1 < block.number) :
    block.verifyQC hashing qc bls committee = .ok (.ok true) ↔
      qc.voterMsgHash = block.votingHash hashing ∧ ∃ array, qc.voterBitArray = .ok (some array) ∧
        majorityTwoThird (array.count % 2 ^ 32) (committee.length % 2 ^ 32) = true ∧
        checkAggregate bls qc.voterAggSig qc.voterMsgHash (voters (some array) committee) = .ok true := by
  have notFirst : ¬ (block.number = qc.qcHeight ∧ (block.number = 0 ∨ block.number = 1)) := by omega
  unfold Block.verifyQC
  simp only [notFirst, if_false, ne_eq]
  by_cases hash : qc.voterMsgHash = block.votingHash hashing
  · simp only [hash, not_true, if_false, true_and, Exec.bind_eq_ok, Exec.deref_eq_ok]
    constructor
    · rintro ⟨pointer, parsed, array, rfl, accepted⟩
      refine ⟨array, parsed, ?_⟩
      split at accepted
      · simp at accepted
      · next majority =>
          obtain ⟨-, -, accepted⟩ := Exec.bind_eq_ok.mp accepted
          exact ⟨by simpa using majority, by simpa using accepted⟩
    · rintro ⟨array, parsed, majority, accepted⟩
      refine ⟨some array, parsed, array, rfl, ?_⟩
      rw [if_neg (by rw [majority]; decide)]
      simp [accepted, freeSignature_of_checked accepted]
  · simp [hash]

/-! ## A concrete signature scheme -/

/-- A signature lists the keys that signed; aggregation joins lists. -/
def listedSigners : BlsCommon Bytes Bytes Digest where
  sigFromBytes bytes := .ok bytes
  sigToBytes sig := sig
  aggregate sigs := if sigs.length = 0 then .error "bls.Aggregate: Empty list." else .ok sigs.flatten
  aggregatePubkeys keys := .ok keys.flatten
  verify sig _ key := sig == key

def numberedCommittee (size : Nat) : List (Validator Bytes) :=
  (List.range size).map fun position =>
    ⟨toString position, toString position, [UInt8.ofNat position], [UInt8.ofNat position]⟩

theorem checkAggregate_listedSigners {keys : List Bytes} (nonempty : keys ≠ []) :
    checkAggregate listedSigners keys.flatten hash keys = .ok true := by
  have positive := length_pos_iff.mpr nonempty
  simp [checkAggregate, listedSigners, BlsCommon.thresholdVerify, not_le.mpr positive, bind, Except.bind]

/-! The messages of the pacemaker (`block/messages.go`).

Epoch, signer and time stand in every message and are kept apart from the rest of it. A block or a
certificate a message carries as bytes is modelled as the result of decoding it. -/

structure TimeoutCert (Digest : Type) where
  epoch : Nat
  round : Nat
  bitArray : Option BitArray
  msgHash : Digest
  aggSig : Bytes
  deriving DecidableEq

structure Proposal (Digest Address Tx : Type) where
  round : Nat
  decodedBlock : Option (Block Digest Address Tx)
  timeoutCert : Option (TimeoutCert Digest)
  deriving DecidableEq

structure Vote (Digest : Type) where
  voteRound : Nat
  voteBlockID : BlockID Digest
  voteSignature : Bytes
  voteHash : Digest
  deriving DecidableEq

structure Timeout (Digest : Type) where
  wishRound : Nat
  decodedQCHigh : Option (QuorumCert Digest)
  wishVoteHash : Digest
  wishVoteSig : Bytes
  lastVote : Vote Digest
  deriving DecidableEq

inductive MessageBody (Digest Address Tx : Type) where
  | proposal (body : Proposal Digest Address Tx)
  | vote (body : Vote Digest)
  | timeout (body : Timeout Digest)
  | query (lastCommitted : BlockID Digest)
  deriving DecidableEq

structure Message (Digest Address Tx : Type) where
  timestamp : Nat
  epoch : Nat
  signerIndex : Nat
  body : MessageBody Digest Address Tx
  msgSignature : Bytes
  deriving DecidableEq

/-- The vote a timeout message carries when its sender has not voted yet: all its fields are zero. -/
def noVote (hashing : Hashing Digest Address) : Vote Digest := ⟨0, ⟨0, hashing.zeroDigest⟩, [], hashing.zeroDigest⟩

/-- The digest of everything but the signature, and the recovery of the key behind a signature. -/
structure MessageHashing (Digest Address Tx Key : Type) where
  msgHash : Nat → Nat → Nat → MessageBody Digest Address Tx → Digest
  sigToPub : Digest → Bytes → Option Key

namespace Message

variable (hashing : MessageHashing Digest Address Tx Key) (message : Message Digest Address Tx)

def getMsgHash : Digest := hashing.msgHash message.timestamp message.epoch message.signerIndex message.body

def verifyMsgSignature [DecidableEq Key] (pubKey : Key) : Bool :=
  match hashing.sigToPub (message.getMsgHash hashing) message.msgSignature with
  | none => false
  | some recovered => recovered = pubKey

end Message
end MeterPov.Blocks
