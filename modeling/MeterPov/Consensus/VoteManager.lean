import MeterPov.Consensus.Certificates
import MeterPov.Lib.Maps

/-! The managers that collect votes into certificates (`consensus/qc_vote_manager.go`,
`consensus/tc_vote_manager.go`).

Both are one collector that differs in the key votes are filed under. No signature is verified: a
vote counts for the position in the committee its message was signed from. The entry without votes that
a refused signature leaves under a new key is not kept here; nothing reads it. -/

set_option autoImplicit false

namespace MeterPov.Consensus

open Lib Blocks

structure CastVote (Digest Sig : Type) where
  signature : Bytes
  hash : Digest
  blsSig : Sig

structure VoteManager (VoteKey Digest Sig : Type) where
  votes : AList fun _ : VoteKey => AList fun _ : Nat => CastVote Digest Sig
  sealed : List VoteKey
  committeeSize : Nat

structure Aggregated (Digest : Type) where
  bitArray : Option BitArray
  msgHash : Digest
  aggSig : Bytes

variable {VoteKey Digest Key Sig : Type}

namespace VoteManager

def new (committeeSize : Nat) : VoteManager VoteKey Digest Sig := ⟨∅, [], committeeSize⟩

/-- A certificate takes its hash from the vote the map iteration ends with, which is any of them:
`last` picks it. -/
def aggregate (bls : BlsCommon Key Sig Digest) (committeeSize last : Nat)
    (votes : AList fun _ : Nat => CastVote Digest Sig) : Option (Aggregated Digest) :=
  match votes.entries[last % votes.entries.length]? with
  | none => none
  | some ending =>
    let bitArray := votes.entries.foldl (fun array entry => array.map (·.setIndex entry.1 true))
      (BitArray.newBitArray committeeSize)
    match bls.aggregate (votes.entries.map fun entry => entry.2.blsSig) with
    | .error _ => none
    | .ok aggregated => some ⟨bitArray, ending.2.hash, bls.sigToBytes aggregated⟩

variable [DecidableEq VoteKey]

def cast (manager : VoteManager VoteKey Digest Sig) (key : VoteKey) : AList fun _ : Nat => CastVote Digest Sig :=
  (manager.votes.lookup key).getD ∅

def addVote (bls : BlsCommon Key Sig Digest) (last : Nat) (manager : VoteManager VoteKey Digest Sig)
    (key : VoteKey) (index : Nat) (sig : Bytes) (hash : Digest) :
    VoteManager VoteKey Digest Sig × Option (Aggregated Digest) :=
  if key ∈ manager.sealed then (manager, none)
  else
    match bls.sigFromBytes sig with
    | .error _ => (manager, none)
    | .ok blsSig =>
      let votes := (manager.cast key).insert index ⟨sig, hash, blsSig⟩
      let counted := { manager with votes := manager.votes.insert key votes }
      if majorityTwoThird (votes.entries.length % 2 ^ 32) manager.committeeSize then
        ({ counted with sealed := key :: counted.sealed }, aggregate bls manager.committeeSize last votes)
      else (counted, none)

def cleanUp (manager : VoteManager VoteKey Digest Sig) (outdated : VoteKey → Bool) : VoteManager VoteKey Digest Sig :=
  let removed := manager.votes.keys.filter outdated
  { manager with
    votes := removed.foldl (fun votes key => votes.erase key) manager.votes
    sealed := manager.sealed.filter fun key => key ∉ removed }

/-- Every vote on file is supported: what that means for a key, a position and a hash is left open. -/
def Files (supported : VoteKey → Nat → Digest → Prop) (manager : VoteManager VoteKey Digest Sig) : Prop :=
  ∀ entry ∈ manager.votes.entries, ∀ vote ∈ entry.2.entries, supported entry.1 vote.1 vote.2.hash

/-- The positions behind an aggregate are different, enough, and supported; one of them with its hash. -/
def Collected (supported : Nat → Digest → Prop) (committeeSize : Nat) (hash : Digest) : Prop :=
  ∃ positions : List Nat, positions.Nodup ∧ majorityTwoThird (positions.length % 2 ^ 32) committeeSize = true ∧
    (∀ position ∈ positions, ∃ cast, supported position cast) ∧ ∃ position, supported position hash

omit [DecidableEq VoteKey] in
theorem aggregate_msgHash {bls : BlsCommon Key Sig Digest} {committeeSize last votes aggregated}
    (done : aggregate bls committeeSize last votes = some aggregated) :
    ∃ vote ∈ votes.entries, vote.2.hash = aggregated.msgHash := by
  unfold aggregate at done
  split at done
  · contradiction
  · rename_i ending position
    split at done
    · contradiction
    · cases done
      exact ⟨ending, List.mem_of_getElem? position, rfl⟩

/-- A supported vote keeps the file, and an aggregate that it completes is collected from the file. -/
theorem addVote_spec {supported} (bls : BlsCommon Key Sig Digest) (last : Nat) {manager} {key : VoteKey} {index} (sig : Bytes) {hash}
    (files : manager.Files supported) (new : supported key index hash) :
    (addVote bls last manager key index sig hash).1.Files supported ∧
      (addVote bls last manager key index sig hash).1.committeeSize = manager.committeeSize ∧
      ∀ aggregated, (addVote bls last manager key index sig hash).2 = some aggregated →
        Collected (supported key) manager.committeeSize aggregated.msgHash := by
  have nothing {updated : VoteManager VoteKey Digest Sig} (files : updated.Files supported)
      (size : updated.committeeSize = manager.committeeSize) :
      (updated, (none : Option (Aggregated Digest))).1.Files supported ∧ updated.committeeSize = manager.committeeSize ∧
        ∀ aggregated : Aggregated Digest, none = some aggregated → Collected (supported key) manager.committeeSize aggregated.msgHash :=
    ⟨files, size, by simp⟩
  unfold addVote
  split
  · exact nothing files rfl
  · split
    · exact nothing files rfl
    · rename_i blsSig _
      have old : ∀ vote ∈ (manager.cast key).entries, supported key vote.1 vote.2.hash := by
        unfold cast
        cases known : manager.votes.lookup key with
        | none => simp
        | some votes => exact files ⟨key, votes⟩ (AList.mem_lookup_iff.mp known)
      have filed : ∀ vote ∈ ((manager.cast key).insert index ⟨sig, hash, blsSig⟩).entries, supported key vote.1 vote.2.hash := by
        intro vote member
        rcases Lib.mem_entries_insert member with rfl | earlier
        · exact new
        · exact old vote earlier
      have counted : Files supported { manager with
          votes := manager.votes.insert key ((manager.cast key).insert index ⟨sig, hash, blsSig⟩) } := by
        intro entry member
        rcases Lib.mem_entries_insert member with rfl | earlier
        · exact filed
        · exact files entry earlier
      dsimp only
      split
      · rename_i enough
        refine ⟨counted, rfl, fun aggregated done => ?_⟩
        obtain ⟨ending, member, same⟩ := aggregate_msgHash done
        refine ⟨_, AList.keys_nodup ((manager.cast key).insert index ⟨sig, hash, blsSig⟩), ?_, ?_, ending.1, same ▸ filed ending member⟩
        · simpa only [AList.keys, List.keys, List.length_map] using enough
        · intro position isKey
          obtain ⟨vote, member, rfl⟩ := List.mem_map.mp isKey
          exact ⟨_, filed vote member⟩
      · exact nothing counted rfl

end VoteManager

/-! ## The two managers -/

abbrev QCVoteManager (Digest Sig : Type) := VoteManager (Nat × BlockID Digest) Digest Sig
abbrev TCVoteManager (Digest Sig : Type) := VoteManager (Nat × Nat) Digest Sig

def QCVoteManager.addVote [DecidableEq Digest] (bls : BlsCommon Key Sig Digest) (last : Nat)
    (manager : QCVoteManager Digest Sig) (index epoch round : Nat) (blockID : BlockID Digest) (sig : Bytes)
    (hash : Digest) : QCVoteManager Digest Sig × Option (QuorumCert Digest) :=
  if sig.length = 0 then (manager, none)
  else
    let (updated, aggregated) := VoteManager.addVote bls last manager (round, blockID) index sig hash
    (updated, aggregated.map fun aggregated =>
      ⟨blockID.number, round, epoch, BitArray.string aggregated.bitArray, aggregated.msgHash, aggregated.aggSig⟩)

theorem QCVoteManager.addVote_spec [DecidableEq Digest] {supported}
    (bls : BlsCommon Key Sig Digest) (last epoch : Nat) {manager index round blockID sig hash} (files : manager.Files supported)
    (new : sig.length ≠ 0 → supported (round, blockID) index hash) :
    (addVote bls last manager index epoch round blockID sig hash).1.Files supported ∧
      (addVote bls last manager index epoch round blockID sig hash).1.committeeSize = manager.committeeSize ∧
      ∀ qc, (addVote bls last manager index epoch round blockID sig hash).2 = some qc → qc.qcHeight = blockID.number ∧
        VoteManager.Collected (supported (round, blockID)) manager.committeeSize qc.voterMsgHash := by
  unfold addVote
  split
  · exact ⟨files, rfl, by simp⟩
  · rename_i signed
    obtain ⟨filed, size, collected⟩ := VoteManager.addVote_spec bls last sig files (new signed)
    refine ⟨filed, size, fun qc done => ?_⟩
    obtain ⟨aggregated, completed, rfl⟩ := Option.map_eq_some_iff.mp done
    exact ⟨rfl, collected aggregated completed⟩

def QCVoteManager.cleanUpTo [DecidableEq Digest] (manager : QCVoteManager Digest Sig) (blockNum : Nat) : QCVoteManager Digest Sig :=
  manager.cleanUp fun key => key.2.number < blockNum

def TCVoteManager.addVote (bls : BlsCommon Key Sig Digest) (last : Nat) (manager : TCVoteManager Digest Sig)
    (index epoch round : Nat) (sig : Bytes) (hash : Digest) :
    TCVoteManager Digest Sig × Option (TimeoutCert Digest) :=
  let (updated, aggregated) := VoteManager.addVote bls last manager (epoch, round) index sig hash
  (updated, aggregated.map fun aggregated =>
    ⟨epoch, round, aggregated.bitArray, aggregated.msgHash, aggregated.aggSig⟩)

def TCVoteManager.cleanUpTo (manager : TCVoteManager Digest Sig) (epoch : Nat) : TCVoteManager Digest Sig :=
  manager.cleanUp fun key => key.1 < epoch

end MeterPov.Consensus
