import MeterPov.Lib.GroupIndex
import MeterPov.Staking.World

/-! The self-vote ratio: the votes for a candidate are bounded by a multiple of its own locked stake.

`CorrectCheckEnoughSelfVotes` has the same text in `script/staking/utils.go` and in
`builtin/metertracker/meter_tracker_staking.go`. -/

set_option autoImplicit false

namespace MeterPov.Staking

open Lib Auction

/-- A bucket that a candidate locked for itself. -/
def Bucket.isSelf (addr : Address) (bucket : Bucket) : Bool :=
  bucket.owner = addr && bucket.candidate = addr && bucket.isForeverLock

def Bucket.selfValue (addr : Address) (bucket : Bucket) : Int := if bucket.isSelf addr then bucket.value else 0

abbrev Bucket.votedValue (addr : Address) : Bucket → Int := share Bucket.candidate Bucket.value addr

/-- A subtraction that stops at zero; nothing is subtracted for nil. -/
def subOrZero (value : Int) : Option Int → Int
  | none => value
  | some amount => if amount < value then value - amount else 0

variable [Primitives]

def correctCheckEnoughSelfVotes (addr : Address) (bl : BucketList) (selfVoteRatio : Int)
    (addSelfValue subSelfValue addTotalValue subTotalValue : Option Int) : Bool :=
  let selfValue := subOrZero (bl.total (Bucket.selfValue addr) + addSelfValue.getD 0) subSelfValue
  let totalValue := subOrZero (bl.total (Bucket.votedValue addr) + addTotalValue.getD 0) subTotalValue
  totalValue / selfVoteRatio ≤ selfValue

/-- The buckets of a candidate that it owns itself; an ID that is not listed panics. -/
def selfBucketsOf (addr : Address) (bl : BucketList) : List Bytes32 → Checked (List Bucket)
  | [] => .ok []
  | id :: rest => do
    let bucket ← deref (bl.get id)
    let others ← selfBucketsOf addr bl rest
    return if bucket.owner = addr ∧ bucket.candidate = addr then bucket :: others else others

/-- The votes of a candidate's own buckets, if it has any. -/
def getCandidateSelfVotes (candidate : Candidate) (bl : BucketList) : Checked (Option Int) := do
  let buckets ← selfBucketsOf candidate.addr bl candidate.buckets
  return if buckets.isEmpty then none else some (buckets.map Bucket.totalVotes).sum

def checkCandEnoughSelfVotes (newVotes : Int) (candidate : Candidate) (bl : BucketList) (selfVoteRatio : Int) : Checked Bool := do
  match ← getCandidateSelfVotes candidate bl with
  | none => return false
  | some self => return (candidate.totalVotes + newVotes) / selfVoteRatio ≤ self

def checkEnoughSelfVotes (subVotes : Int) (candidate : Candidate) (bl : BucketList) (selfVoteRatio : Int) : Checked Bool := do
  match ← getCandidateSelfVotes candidate bl with
  | none => return false
  | some self => return (candidate.totalVotes - subVotes) / selfVoteRatio ≤ self - subVotes

/-! The calls of the tracker contract on buckets (`builtin/metertracker/meter_tracker_staking.go`).

An update through a pointer into a list is a `modify` of that list. No call writes before its last
check, so that a call that returns an error leaves the state as it was. -/

def ratioValid (addr : Address) (bl : BucketList) (added : Int) : Bool :=
  correctCheckEnoughSelfVotes addr bl tesla11SelfVoteRatio none none (some added) none

def notEnoughSelfVotes : String := "candidate's accumulated votes > 100x candidate's own vote"

def checkBucket (bucket : Option Bucket) (owner : Address) : Checked Bucket := do
  let b ← listed bucket "bucket not listed"
  assert (b.unbounded = false) "bucket already unbounded"
  assert (b.owner = owner) "bucket not owned"
  assert (b.isForeverLock = false) "no update allowed on forever bucket"
  return b

section

variable (bucket : Bucket)

/-- The part of a bucket's bonus that goes with an amount of its value. -/
def Bucket.bonusOf (amount : Nat) : Int := (bucket.totalVotes - bucket.value) * amount / bucket.value

def Bucket.withdrawn (amount : Nat) (bonusDelta : Int) : Bucket :=
  { bucket with
    bonusVotes := 0
    value := bucket.value - amount
    totalVotes := bucket.totalVotes - amount - bonusDelta }

def Bucket.deposited (amount : Nat) : Bucket :=
  { bucket with
    bonusVotes := 0
    value := bucket.value + amount
    totalVotes := bucket.totalVotes + amount }

def Bucket.closed (ts : UInt64) : Bucket :=
  { bucket with unbounded := true, matureTime := ts + getBoundLocktime bucket.option }

def Bucket.votesFor (candidate : Address) : Bucket := { bucket with candidate := candidate }

end

def Bucket.merged (bucket other : Bucket) : Bucket :=
  { bucket with
    bonusVotes := bucket.bonusVotes + other.bonusVotes
    value := bucket.value + other.value
    totalVotes := bucket.totalVotes + other.totalVotes }

/-- The two sides of a transfer between buckets, which keep the deprecated count of bonus votes. -/
def Bucket.transferred (bucket : Bucket) (amount : Nat) (bonusDelta : Int) : Bucket :=
  { bucket.withdrawn amount bonusDelta with bonusVotes := uint64Of (bucket.totalVotes - bucket.value - bonusDelta) }

def Bucket.received (bucket : Bucket) (amount : Nat) (bonusDelta : Int) : Bucket :=
  { bucket with
    bonusVotes := bucket.bonusVotes + uint64Of bonusDelta
    value := bucket.value + amount
    totalVotes := bucket.totalVotes + amount + bonusDelta }

/-- The unbounded bucket that receives what another one gives up. -/
def Bucket.split (bucket : Bucket) (recipient : Address) (amount : Nat) (ts nonce : UInt64) : Bucket :=
  { newBucket recipient bucket.candidate amount bucket.token oneWeekLock bucket.rate bucket.autobid ts nonce with
    unbounded := true
    matureTime := ts + getBoundLocktime oneWeekLock }

def openedBucket (owner candAddr : Address) (amount : Nat) (ts nonce : UInt64) : Bucket :=
  newBucket owner candAddr amount mtrg oneWeekLock oneWeekLockRate 100 ts nonce

def Candidate.addVotes (votes : Int) (candidate : Candidate) : Candidate :=
  { candidate with totalVotes := candidate.totalVotes + votes }

/-- A candidate that loses some votes of a bucket and gains the bucket split off it. -/
def Candidate.addSplit (candidate : Candidate) (votes : Int) (id : Bytes32) : Candidate :=
  { candidate with totalVotes := candidate.totalVotes + votes, buckets := candidate.buckets ++ [id] }

omit [Primitives] in
@[simp] theorem Candidate.addVotes_addr (candidate : Candidate) (votes : Int) : (candidate.addVotes votes).addr = candidate.addr := rfl

omit [Primitives] in
@[simp] theorem Candidate.addSplit_addr (candidate : Candidate) (votes : Int) (id : Bytes32) :
    (candidate.addSplit votes id).addr = candidate.addr := rfl

namespace World

variable (world : World)

def bucketDeposit (owner : Address) (id : Bytes32) (amount : Nat) : Checked World := do
  let b ← checkBucket (world.bucketList.get id) owner
  assert (amount ≤ world.getBalance owner) "not enough balance"
  assert ((world.candidateList.get b.candidate).all fun cand => ratioValid cand.addr world.bucketList amount) notEnoughSelfVotes
  assert (world.inJailList.get b.candidate).isNone "candidate is jailed"
  let ledger ← world.ledger.boundMeterGov owner amount
  commit { world.toBook with
    ledger := ledger
    bucketList := world.bucketList.modify id (·.deposited amount)
    candidateList :=
      if b.candidate = 0 then world.candidateList else world.candidateList.modify b.candidate (.addVotes amount) }

def bucketOpen (owner candAddr : Address) (amount : Nat) (ts nonce : UInt64) : Checked (World × Bytes32) := do
  assert (amount ≠ 0) "zero amount"
  assert (minBoundBalance ≤ amount) "bound amount < minimal 100 MTRG"
  assert (candAddr ≠ 0) "empty candidate address"
  assert (amount ≤ world.getBalance owner) "not enough balance"
  assert (owner ≠ candAddr) "self vote not allowed"
  assert (world.inJailList.get candAddr).isNone "candidate is jailed"
  -- a bucket of the owner for this candidate turns the call into a deposit
  match world.bucketList.items.find? fun bkt => bkt.candidate = candAddr && bkt.owner = owner with
  | some bkt => do
    let next ← world.bucketDeposit owner bkt.bucketID amount
    return (next, bkt.bucketID)
  | none => do
    let candidate ← listed (world.candidateList.get candAddr) "candidate not listed"
    assert (ratioValid candidate.addr world.bucketList amount) notEnoughSelfVotes
    let bucket := openedBucket owner candAddr amount ts nonce
    let next ← commit { world.toBook with
      ledger := world.ledger.moveToBound owner amount
      bucketList := world.bucketList.add bucket
      candidateList := world.candidateList.modify candAddr (·.addBucket bucket) }
    return (next, bucket.bucketID)

section

variable (owner : Address)

def bucketClose (id : Bytes32) (timestamp : UInt64) : Checked World := do
  let _ ← checkBucket (world.bucketList.get id) owner
  commit { world.toBook with bucketList := world.bucketList.modify id (·.closed timestamp) }

def bucketWithdraw (id : Bytes32) (amount : Nat) (recipient : Address) (ts nonce : UInt64) : Checked (World × Bytes32) := do
  let b ← checkBucket (world.bucketList.get id) owner
  assert (amount ≤ world.getBoundedBalance owner) "not enough bounded balance"
  assert (amount ≤ b.value ∧ amount ≤ b.totalVotes) "not enough value"
  assert (minBoundBalance ≤ b.value - amount) "bound amount < minimal 100 MTRG"
  let bonusDelta := b.bonusOf amount
  let bucket := b.split recipient amount ts nonce
  let next ← commit { world.toBook with
    ledger := world.ledger.moveBound amount owner recipient
    bucketList := (world.bucketList.modify id (·.withdrawn amount bonusDelta)).add bucket
    candidateList := world.candidateList.modify b.candidate (·.addSplit (-bonusDelta) bucket.bucketID) }
  return (next, bucket.bucketID)

def bucketUpdateCandidate (id : Bytes32) (newCandidateAddr : Address) : Checked World := do
  let b ← listed (world.bucketList.get id) "bucket not listed"
  assert (b.owner = owner) "bucket not owned"
  assert (b.isForeverLock = false) "no update allowed on forever bucket"
  let nc ← listed (world.candidateList.get newCandidateAddr) "candidate not listed"
  assert (world.inJailList.get newCandidateAddr).isNone "candidate is jailed"
  assert (ratioValid nc.addr world.bucketList b.totalVotes) notEnoughSelfVotes
  assert ((world.candidateList.get b.candidate).all fun c => b.totalVotes ≤ c.totalVotes) "not enough votes"
  -- the old and the new candidate may be the same record
  let left := world.candidateList.modify b.candidate (·.removeBucket b)
  commit { world.toBook with
    bucketList := world.bucketList.modify id (·.votesFor nc.addr)
    candidateList := left.modify newCandidateAddr (·.addBucket b) }

def bucketMerge (fromBucketID toBucketID : Bytes32) : Checked World := do
  assert (fromBucketID ≠ toBucketID) "bucket not mergable to itself"
  let fromBkt ← checkBucket (world.bucketList.get fromBucketID) owner
  let toBkt ← checkBucket (world.bucketList.get toBucketID) owner
  assert (world.inJailList.get toBkt.candidate).isNone "candidate is jailed"
  assert ((world.candidateList.get toBkt.candidate).all fun cand => ratioValid cand.addr world.bucketList fromBkt.totalVotes)
    notEnoughSelfVotes
  let left := world.candidateList.modify fromBkt.candidate (·.removeBucket fromBkt)
  commit { world.toBook with
    bucketList := (world.bucketList.modify toBucketID (·.merged fromBkt)).remove fromBucketID
    candidateList := left.modify toBkt.candidate (.addVotes fromBkt.totalVotes) }

def bucketTransferFund (fromBucketID toBucketID : Bytes32) (amount : Nat) : Checked World := do
  -- the target is read before anything is checked
  let target ← deref (world.bucketList.get toBucketID)
  assert (world.inJailList.get target.candidate).isNone "candidate is jailed"
  assert (fromBucketID ≠ toBucketID) "bucket not mergable to itself"
  let fromBkt ← checkBucket (world.bucketList.get fromBucketID) owner
  let toBkt ← checkBucket (world.bucketList.get toBucketID) owner
  assert ((world.candidateList.get toBkt.candidate).all fun cand => ratioValid cand.addr world.bucketList amount)
    notEnoughSelfVotes
  assert (amount ≤ world.getBoundedBalance owner) "not enough bounded balance"
  assert (amount ≤ fromBkt.value ∧ amount ≤ fromBkt.totalVotes) "not enough value"
  assert (minBoundBalance ≤ fromBkt.value - amount) "bound amount < minimal 100 MTRG"
  let bonusDelta := fromBkt.bonusOf amount
  let left := world.candidateList.modify fromBkt.candidate (.addVotes (-(amount + bonusDelta)))
  commit { world.toBook with
    bucketList := (world.bucketList.modify fromBucketID (·.transferred amount bonusDelta)).modify toBucketID
      (·.received amount bonusDelta)
    candidateList := left.modify toBkt.candidate (.addVotes (amount + bonusDelta)) }

end

end World
end MeterPov.Staking
