import MeterPov.Staking.Handlers
import MeterPov.Lib.Trace

/-! `script/staking/handler_govern.go` from the seventh fork on: buckets that have matured are released
to their owners and the others gain the votes of their bonus.

What is distributed to validators and delegates comes in as the accounts it is credited to; the
delegates of the next epoch are left out. -/

set_option autoImplicit false

namespace MeterPov.Staking

open Lib Auction

/-- What an epoch distributes: newly minted MTRG, and MTR. -/
structure Distribution where
  minted : List (Address × Nat)
  rewarded : List (Address × Int)

namespace Ledger

section

variable (ledger : Ledger)

def mintBalance (mint : Address × Nat) : Ledger :=
  ledger.setBalance mint.1 ((ledger.account mint.1).balance + mint.2)

def addEnergy (reward : Address × Int) : Ledger :=
  ledger.setEnergy reward.1 ((ledger.account reward.1).energy + reward.2)

def distribute (distribution : Distribution) : Ledger :=
  distribution.rewarded.foldl addEnergy (distribution.minted.foldl mintBalance ledger)

def unboundAccountMeter (addr : Address) (amount : Int) : Checked Ledger :=
  if amount = 0 then .ok ledger
  else if (ledger.account addr).boundEnergy < amount then .error (.error "not enough bounded meter balance")
  else .ok ((ledger.setEnergy addr ((ledger.account addr).energy + amount)).setBoundedEnergy addr
    ((ledger.account addr).boundEnergy - amount))

def unboundAccountMeterGov (addr : Address) (amount : Int) : Checked Ledger :=
  if amount = 0 then .ok ledger
  else if (ledger.account addr).boundBalance < amount then .error (.error "not enough bounded meter-gov balance")
  else .ok ((ledger.setBalance addr ((ledger.account addr).balance + amount)).setBoundedBalance addr
    ((ledger.account addr).boundBalance - amount))

def unbound (bucket : Bucket) : Checked Ledger :=
  if bucket.token = mtr then ledger.unboundAccountMeter bucket.owner bucket.value
  else if bucket.token = mtrg then ledger.unboundAccountMeterGov bucket.owner bucket.value
  else .error (.error "Invalid token parameter")

end

end Ledger

def Bucket.matured (ts : UInt64) (bucket : Bucket) : Bool := bucket.unbounded && bucket.matureTime + 720 ≤ ts

def Bucket.accrued (ts : UInt64) (bonusDelta : Int) (bucket : Bucket) : Bucket :=
  { bucket with bonusVotes := 0, totalVotes := bucket.totalVotes + bonusDelta, calcLastTime := ts }

variable [Primitives]

/-- A record without buckets leaves its list. -/
def dropStake (list : SortedList Stakeholder.holder) (bucket : Bucket) : SortedList Stakeholder.holder :=
  match list.get bucket.owner with
  | none => list
  | some stakeholder =>
    if (stakeholder.removeBucket bucket).buckets.isEmpty then list.remove stakeholder.holder
    else list.add (stakeholder.removeBucket bucket)

def dropVotes (list : SortedList Candidate.addr) (bucket : Bucket) : SortedList Candidate.addr :=
  match list.get bucket.candidate with
  | none => list
  | some candidate =>
    if (candidate.removeBucket bucket).buckets.isEmpty then list.remove candidate.addr
    else list.add (candidate.removeBucket bucket)

namespace Book

/-- A matured bucket goes. If its value cannot be unbounded the accounts stay, and the error is kept. -/
def release (book : Book) (bucket : Bucket) : Book × Option Failure :=
  let (ledger, failure) :=
    match book.ledger.unbound bucket with
    | .ok ledger => (ledger, none)
    | .error failure => (book.ledger, some failure)
  ({ book with
      ledger := ledger
      stakeholderList := dropStake book.stakeholderList bucket
      candidateList := dropVotes book.candidateList bucket
      bucketList := book.bucketList.remove bucket.bucketID }, failure)

/-- The loop over the positions of the list, which stays where it is when the bucket there has gone.
Every round gets one bucket closer to the end; the fuel is the length of the list. The error of the
last release is the one that is returned. -/
def releaseMatured (ts : UInt64) : Nat → Nat → Book → Option Failure → Book × Option Failure
  | 0, _, book, err => (book, err)
  | fuel + 1, i, book, err =>
    match book.bucketList.items[i]? with
    | none => (book, err)
    | some bkt =>
      if bkt.matured ts then
        releaseMatured ts fuel i (book.release bkt).1 (book.release bkt).2
      else releaseMatured ts fuel (i + 1) book err

/-- The bonus of one bucket, and of its candidate. -/
def accrue (ts : UInt64) (book : Book) (id : Bytes32) : Book :=
  match book.bucketList.get id with
  | none => book
  | some bkt =>
    if bkt.calcLastTime ≤ ts then
      let bonusDelta := calcBonus bkt.calcLastTime ts bkt.rate bkt.value
      { book with
        bucketList := book.bucketList.modify id (.accrued ts bonusDelta)
        candidateList :=
          if bkt.candidate = 0 then book.candidateList else book.candidateList.modify bkt.candidate (.addVotes bonusDelta) }
    else book

def unboundAndCalcBonus (ts : UInt64) (book : Book) : Book × Option Failure :=
  let (released, err) := book.releaseMatured ts book.bucketList.items.length 0 none
  ((released.bucketList.items.map Bucket.bucketID).foldl (accrue ts) released, err)

end Book

def World.governingHandler (world : World) (env : Env) (distribution : Distribution) : Checked World :=
  match Book.unboundAndCalcBonus env.time { world.toBook with ledger := world.ledger.distribute distribution } with
  | (book, none) => commit book
  | (_, some failure) => .error failure

/-! The staking operations, on both code paths, and runs of them. -/

inductive Script where
  | bound
  | unBound
  | candidate
  | unCandidate
  | delegate
  | unDelegate
  | bucketUpdate
  | candidateUpdate
  | delegateExitJail
  deriving DecidableEq, Repr

/-- A native call, a script, or the governing of an epoch. -/
inductive Operation where
  | bucketOpen (owner candAddr : Address) (amount : Nat) (ts nonce : UInt64)
  | bucketClose (owner : Address) (id : Bytes32) (timestamp : UInt64)
  | bucketDeposit (owner : Address) (id : Bytes32) (amount : Nat)
  | bucketWithdraw (owner : Address) (id : Bytes32) (amount : Nat) (recipient : Address) (ts nonce : UInt64)
  | bucketUpdateCandidate (owner : Address) (id : Bytes32) (newCandidateAddr : Address)
  | bucketMerge (owner : Address) (fromBucketID toBucketID : Bytes32)
  | bucketTransferFund (owner : Address) (fromBucketID toBucketID : Bytes32) (amount : Nat)
  | listAsCandidate (owner : Address) (info : CandidateInfo) (amount autobid commissionRate : Nat) (timestamp nonce : UInt64)
  | candidateUpdate (owner : Address) (info : CandidateInfo) (autobid commissionRate : Nat) (timestamp : UInt64)
  | unCandidate (owner : Address)
  | script (script : Script) (env : Env) (sb : StakingBody)
  | governing (env : Env) (distribution : Distribution)

namespace World

variable (world : World)

def handle (env : Env) (sb : StakingBody) : Script → Checked World
  | .bound => world.boundHandler env sb
  | .unBound => world.unBoundHandler env sb
  | .candidate => world.candidateHandler env sb
  | .unCandidate => world.unCandidateHandler sb
  | .delegate => world.delegateHandler env sb
  | .unDelegate => world.unDelegateHandler sb
  | .bucketUpdate => world.bucketUpdateHandler env sb
  | .candidateUpdate => world.candidateUpdateHandler env sb
  | .delegateExitJail => world.delegateExitJailHandler sb

def run : Operation → Checked World
  | .bucketOpen owner candAddr amount ts nonce => Prod.fst <$> world.bucketOpen owner candAddr amount ts nonce
  | .bucketClose owner id timestamp => world.bucketClose owner id timestamp
  | .bucketDeposit owner id amount => world.bucketDeposit owner id amount
  | .bucketWithdraw owner id amount recipient ts nonce =>
    Prod.fst <$> world.bucketWithdraw owner id amount recipient ts nonce
  | .bucketUpdateCandidate owner id newCandidateAddr => world.bucketUpdateCandidate owner id newCandidateAddr
  | .bucketMerge owner fromBucketID toBucketID => world.bucketMerge owner fromBucketID toBucketID
  | .bucketTransferFund owner fromBucketID toBucketID amount => world.bucketTransferFund owner fromBucketID toBucketID amount
  | .listAsCandidate owner info amount autobid commissionRate timestamp nonce =>
    Prod.fst <$> world.listAsCandidate owner info amount autobid commissionRate timestamp nonce
  | .candidateUpdate owner info autobid commissionRate timestamp =>
    Prod.fst <$> world.candidateUpdate owner info autobid commissionRate timestamp
  | .unCandidate owner => Prod.fst <$> world.unCandidate owner
  | .script script env sb => world.handle env sb script
  | .governing env distribution => world.governingHandler env distribution

def opens : Operation → Option Bucket
  | .bucketOpen owner candAddr amount ts nonce =>
    if (world.bucketList.items.find? fun bkt => bkt.candidate = candAddr && bkt.owner = owner).isSome then none
    else some (openedBucket owner candAddr amount ts nonce)
  | .bucketWithdraw _ id amount recipient ts nonce => (world.bucketList.get id).map (·.split recipient amount ts nonce)
  | .listAsCandidate owner _ amount autobid _ timestamp nonce => some (lockedBucket owner amount mtrg autobid timestamp nonce)
  | .script .bound env sb =>
    if 100 < sb.autobid then none else (world.boundCandidate env sb).toOption.map (boundBucket env sb)
  | .script .candidate env sb =>
    some (lockedBucket sb.candAddr sb.amount sb.token sb.autobid (env.timestamp sb) (env.bucketNonce sb))
  | .script .bucketUpdate env sb =>
    if 5 ≤ env.fork ∧ sb.option = bucketSubOpt then
      (world.bucketList.get sb.stakingID).map fun bucket =>
        bucket.split bucket.owner sb.amount (env.timestamp sb) (env.bucketNonce sb)
    else none
  | _ => none

end World
end MeterPov.Staking
