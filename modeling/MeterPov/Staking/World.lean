import MeterPov.Accounts.State
import MeterPov.Lib.SortedMap

/-! The accounts, and sums over all of them.

An account that was never written is empty, and only finitely many were. -/

set_option autoImplicit false

namespace MeterPov.Staking

open Accounts Auction Function Finset

@[ext] structure Ledger where
  account : Address → Account
  finite : {addr | account addr ≠ {}}.Finite

namespace Ledger

def empty : Ledger where
  account _ := {}
  finite := by simp

variable (ledger : Ledger) (addr : Address)

def update (account : Account) : Ledger where
  account := Function.update ledger.account addr account
  finite := by
    refine (ledger.finite.insert addr).subset fun other written => ?_
    by_cases same : other = addr
    · exact .inl same
    · have kept : ledger.account other ≠ {} := by
        change Function.update ledger.account addr account other ≠ {} at written
        rwa [update_of_ne same] at written
      exact .inr kept

@[simp] theorem account_update (account : Account) (other : Address) :
    (ledger.update addr account).account other = if other = addr then account else ledger.account other := by
  simp [update, update_apply]

def setBalance (balance : Int) : Ledger := ledger.update addr { ledger.account addr with balance := balance }

def setEnergy (energy : Int) : Ledger := ledger.update addr { ledger.account addr with energy := energy }

def setBoundedBalance (balance : Int) : Ledger := ledger.update addr { ledger.account addr with boundBalance := balance }

def setBoundedEnergy (energy : Int) : Ledger := ledger.update addr { ledger.account addr with boundEnergy := energy }

/-- The sum of a weight that empty accounts do not have. -/
noncomputable def sum (weight : Account → Int) : Int := ∑ᶠ addr, weight (ledger.account addr)

theorem sum_update {weight} (zero : weight {} = 0) (account : Account) :
    (ledger.update addr account).sum weight = ledger.sum weight - weight (ledger.account addr) + weight account := by
  -- both sums run over the accounts written so far and the updated one
  let touched : Finset Address := insert addr ledger.finite.toFinset
  have inside : addr ∈ touched := mem_insert_self _ _
  have unwritten : ∀ other, other ∉ touched → weight (ledger.account other) = 0 := by
    intro other outside
    have empty : ledger.account other = {} := by
      by_contra written
      exact outside (mem_insert_of_mem (ledger.finite.mem_toFinset.mpr written))
    rw [empty, zero]
  have before : ledger.sum weight = ∑ other ∈ touched, weight (ledger.account other) := by
    apply finsum_eq_sum_of_support_subset
    intro other supported
    by_contra outside
    exact supported (unwritten other outside)
  have after : (ledger.update addr account).sum weight =
      ∑ other ∈ touched, Function.update (fun other => weight (ledger.account other)) addr (weight account) other := by
    have pointwise : ∀ other, weight ((ledger.update addr account).account other) =
        Function.update (fun other => weight (ledger.account other)) addr (weight account) other := by
      intro other
      rw [account_update, update_apply]
      split <;> rfl
    unfold sum
    simp only [pointwise]
    apply finsum_eq_sum_of_support_subset
    intro other supported
    by_contra outside
    have apart : other ≠ addr := fun same => outside (same ▸ inside)
    rw [mem_support, update_of_ne apart] at supported
    exact supported (unwritten other outside)
  rw [before, after, sum_update_of_mem inside, ← add_sum_erase touched _ inside, sdiff_singleton_eq_erase]
  omega

end Ledger

/-! `meter/bucket.go`, `meter/candidate.go`, `meter/stakeholder.go`, `meter/injail.go` and
`meter/staking_params.go`: the records that staking keeps and what it does to one of them.

A bucket's ID is the hash of its owner, nonce and create time. None of the three is ever updated, so
that the stored copy of the ID is the hash itself. -/

open Lib Accounts Auction

/-- What is computed outside: the hash that names a bucket, without collisions, and the check of a pair
of public keys. -/
class Primitives where
  bucketID : Address → UInt64 → UInt64 → Bytes32
  collisionFree : ∀ {owner owner' : Address} {nonce nonce' created created' : UInt64},
    bucketID owner nonce created = bucketID owner' nonce' created' → owner = owner' ∧ nonce = nonce' ∧ created = created'
  validatePubKey : Bytes → Option Bytes

theorem side_by_side_injective {first first' second second' third third'} (second_lt : second < 2 ^ 64)
    (second_lt' : second' < 2 ^ 64) (third_lt : third < 2 ^ 64) (third_lt' : third' < 2 ^ 64)
    (same : (first * 2 ^ 64 + second) * 2 ^ 64 + third = (first' * 2 ^ 64 + second') * 2 ^ 64 + third') :
    first = first' ∧ second = second' ∧ third = third' := by
  omega

/-- A hash that writes its three numbers side by side, and keys that are always valid. -/
@[reducible] def plainPrimitives : Primitives where
  bucketID owner nonce created := (owner * 2 ^ 64 + nonce.toNat) * 2 ^ 64 + created.toNat
  collisionFree {_ _ nonce nonce' created created'} same := by
    obtain ⟨owners, nonces, times⟩ :=
      side_by_side_injective nonce.toNat_lt nonce'.toNat_lt created.toNat_lt created'.toNat_lt same
    exact ⟨owners, UInt64.toNat_inj.mp nonces, UInt64.toNat_inj.mp times⟩
  validatePubKey := some

def mtr : Nat := 0
def mtrg : Nat := 1

def minCandidateUpdateIntv : UInt64 := 3600 * 24
def tesla10SelfVoteRatio : Int := 10
def tesla11SelfVoteRatio : Int := 100

def mtrgAmount (whole : Nat) : Nat := whole * 10 ^ 18

def minBoundBalance : Nat := 100 * 10 ^ 18
def minRequiredByDelegate : Nat := 2000 * 10 ^ 18

def bucketAddOpt : Nat := 0
def bucketSubOpt : Nat := 1

def oneDayLock : Nat := 0
def oneWeekLock : Nat := 1
def twoWeekLock : Nat := 2
def threeWeekLock : Nat := 3
def fourWeekLock : Nat := 4
def foreverLock : Nat := 1000

def oneWeekLockRate : UInt8 := 5

/-- The option, the rate and the lock time that a chosen option stands for. -/
def getBoundLockOption : Nat → Nat × UInt8 × UInt64
  | 1 => (oneWeekLock, oneWeekLockRate, 60 * 60 * 24 * 7)
  | 2 => (twoWeekLock, 6, 60 * 60 * 24 * 14)
  | 3 => (threeWeekLock, 7, 60 * 60 * 24 * 21)
  | 4 => (fourWeekLock, 8, 60 * 60 * 24 * 28)
  | 1000 => (foreverLock, oneWeekLockRate, 0)
  | _ => (oneDayLock, 0, 60 * 60 * 24)

def getBoundLocktime (opt : Nat) : UInt64 := (getBoundLockOption opt).2.2

def commissionRateMax : Nat := 100 * 10 ^ 7
def commissionRateMin : Nat := 10 ^ 7

def getCommissionRate (opt : Nat) : Nat :=
  if commissionRateMax < opt ∨ opt < commissionRateMin then 10 * 10 ^ 7 else opt

/-- `Uint64` of a big integer: the low bits of its absolute value. -/
def uint64Of (number : Int) : UInt64 := UInt64.ofNat number.natAbs

structure Bucket where
  owner : Address
  nonce : UInt64
  createTime : UInt64
  value : Int
  token : Nat
  unbounded : Bool := false
  candidate : Address
  rate : UInt8
  autobid : Nat
  option : Nat
  bonusVotes : UInt64 := 0
  totalVotes : Int
  matureTime : UInt64 := 0
  calcLastTime : UInt64
  deriving DecidableEq, Repr

structure Candidate where
  addr : Address
  name : Bytes
  description : Bytes
  pubKey : Bytes
  ipAddr : Bytes
  port : Nat
  commission : Nat
  timestamp : UInt64
  totalVotes : Int := 0
  buckets : List Bytes32 := []
  deriving DecidableEq, Repr

structure Stakeholder where
  holder : Address
  totalStake : Int := 0
  buckets : List Bytes32 := []
  deriving DecidableEq, Repr

structure InJail where
  addr : Address
  name : Bytes
  pubKey : Bytes
  bailAmount : Nat
  deriving DecidableEq, Repr

/-! The part of the state that staking reads and writes.

Every operation reads the lists anew and, when it succeeds, sets those it changed. They are stored as
RLP, which has no negative numbers: a list with one cannot be set and the block with the operation
cannot be committed. -/

/-- Why an operation does nothing: it returns an error, it panics, or it sets a list that has no encoding. -/
inductive Failure where
  | error (reason : String)
  | panic
  | notEncodable
  deriving DecidableEq, Repr

abbrev Checked (α : Type) := Except Failure α

def assert (condition : Prop) [Decidable condition] (reason : String) : Checked Unit := require condition (.error reason)

def listed {α : Type} (pointer : Option α) (reason : String) : Checked α := need pointer (.error reason)

def deref {α : Type} (pointer : Option α) : Checked α := need pointer .panic

section

variable {α β : Type} {pointer : Option α} {reason : String} {result : β}

theorem assert_bind {condition} [Decidable condition] {next} :
    (assert condition reason >>= next) = .ok result ↔ condition ∧ next () = .ok result := require_bind_eq_ok

theorem assert_eq_ok {condition} [Decidable condition] {done} :
    assert condition reason = .ok done ↔ condition := require_eq_ok

theorem listed_bind {next} :
    (listed pointer reason >>= next) = .ok result ↔ ∃ found, pointer = some found ∧ next found = .ok result := need_bind_eq_ok

theorem deref_bind {next} :
    (deref pointer >>= next) = .ok result ↔ ∃ found, pointer = some found ∧ next found = .ok result := need_bind_eq_ok

theorem pure_eq_ok {value : β} : (pure value : Checked β) = .ok result ↔ value = result := by
  constructor
  · rintro ⟨⟩
    rfl
  · rintro rfl
    rfl

end

variable [Primitives]

namespace Bucket

def bucketID (bucket : Bucket) : Bytes32 := Primitives.bucketID bucket.owner bucket.nonce bucket.createTime

def isForeverLock (bucket : Bucket) : Bool := bucket.option = foreverLock

def updateLockOption (bucket : Bucket) (opt : Nat) (rate : UInt8) : Bucket := { bucket with option := opt, rate := rate }

end Bucket

def newBucket (owner candidate : Address) (value : Nat) (token opt : Nat) (rate : UInt8) (autobid : Nat)
    (create nonce : UInt64) : Bucket where
  owner := owner
  nonce := nonce
  createTime := create
  value := value
  token := token
  candidate := candidate
  rate := rate
  autobid := autobid
  option := opt
  totalVotes := value
  calcLastTime := create

namespace Candidate

def addBucket (candidate : Candidate) (bucket : Bucket) : Candidate :=
  { candidate with
    buckets := candidate.buckets ++ [bucket.bucketID]
    totalVotes := candidate.totalVotes + bucket.totalVotes }

/-- Removes the first occurrence, if there is one; a negative sum snaps to zero. -/
def removeBucket (candidate : Candidate) (bucket : Bucket) : Candidate :=
  if bucket.bucketID ∈ candidate.buckets then
    { candidate with
      buckets := candidate.buckets.erase bucket.bucketID
      totalVotes := max 0 (candidate.totalVotes - bucket.totalVotes) }
  else candidate

@[simp] theorem addBucket_addr (candidate : Candidate) (bucket : Bucket) : (candidate.addBucket bucket).addr = candidate.addr := rfl

@[simp] theorem removeBucket_addr (candidate : Candidate) (bucket : Bucket) : (candidate.removeBucket bucket).addr = candidate.addr := by
  unfold removeBucket
  split <;> rfl

end Candidate

namespace Stakeholder

def addBucket (stakeholder : Stakeholder) (bucket : Bucket) : Stakeholder :=
  { stakeholder with
    buckets := stakeholder.buckets ++ [bucket.bucketID]
    totalStake := stakeholder.totalStake + bucket.value }

def removeBucket (stakeholder : Stakeholder) (bucket : Bucket) : Stakeholder :=
  if bucket.bucketID ∈ stakeholder.buckets then
    { stakeholder with
      buckets := stakeholder.buckets.erase bucket.bucketID
      totalStake := max 0 (stakeholder.totalStake - bucket.value) }
  else stakeholder

@[simp] theorem addBucket_holder (stakeholder : Stakeholder) (bucket : Bucket) :
    (stakeholder.addBucket bucket).holder = stakeholder.holder := rfl

@[simp] theorem removeBucket_holder (stakeholder : Stakeholder) (bucket : Bucket) :
    (stakeholder.removeBucket bucket).holder = stakeholder.holder := by
  unfold removeBucket
  split <;> rfl

end Stakeholder

abbrev BucketList := SortedList Bucket.bucketID

/-- The bonus votes between two times. The product is taken in 64 bits and read as signed. -/
def calcBonus (fromTS toTS : UInt64) (rate : UInt8) (value : Int) : Int :=
  if toTS < fromTS then 0
  else ((toTS - fromTS) * rate.toUInt64).toInt64.toInt * value / (3600 * 24 * 365 * 100)

/-- The accounts and the lists as an operation leaves them. -/
structure Book where
  ledger : Ledger
  bucketList : BucketList
  candidateList : SortedList Candidate.addr
  stakeholderList : SortedList Stakeholder.holder
  inJailList : SortedList InJail.addr

def Book.Encodes (book : Book) : Prop :=
  (∀ bucket ∈ book.bucketList.items, 0 ≤ bucket.value ∧ 0 ≤ bucket.totalVotes) ∧
    (∀ candidate ∈ book.candidateList.items, 0 ≤ candidate.totalVotes) ∧
    ∀ stakeholder ∈ book.stakeholderList.items, 0 ≤ stakeholder.totalStake

instance (book : Book) : Decidable book.Encodes := inferInstanceAs (Decidable (_ ∧ _ ∧ _))

structure World extends Book where
  encodes : toBook.Encodes

def commit (book : Book) : Checked World :=
  if encodes : book.Encodes then .ok ⟨book, encodes⟩ else .error .notEncodable

theorem commit_eq_ok {book next} : commit book = .ok next ↔ next.toBook = book := by
  unfold commit
  split
  next encodes =>
    constructor
    · rintro ⟨⟩
      rfl
    · rintro rfl
      rfl
  next fails =>
    constructor
    · nofun
    · rintro rfl
      exact absurd next.encodes fails

theorem commit_bind {book α next} {result : α} :
    (commit book >>= next) = .ok result ↔ ∃ world : World, world.toBook = book ∧ next world = .ok result := by
  rw [check_bind_eq_ok]
  exact exists_congr fun world => and_congr_left fun _ => commit_eq_ok

/-- An operation succeeds and what it leaves passes a test. -/
def leaves (result : Checked World) (holds : World → Bool) : Bool :=
  match result with
  | .ok next => holds next
  | .error _ => false

theorem exists_of_leaves {result holds} (left : leaves result holds = true) :
    ∃ next, result = .ok next ∧ holds next = true := by
  cases result with
  | error => cases left
  | ok next => exact ⟨next, rfl, left⟩

namespace World

variable (world : World)

theorem value_nonneg {id bucket} (held : world.bucketList.get id = some bucket) : 0 ≤ bucket.value :=
  (world.encodes.1 bucket (world.bucketList.get_eq_some.mp held).1).1

def getBalance (addr : Address) : Int := (world.ledger.account addr).balance

def getBoundedBalance (addr : Address) : Int := (world.ledger.account addr).boundBalance

end World

namespace Ledger

variable (ledger : Ledger) (addr : Address) (amount : Nat)

/-- An amount moves from the balance to the bounded balance of an account. -/
def moveToBound : Ledger :=
  (ledger.setBalance addr ((ledger.account addr).balance - amount)).setBoundedBalance addr
    ((ledger.account addr).boundBalance + amount)

/-- An amount moves between the balances of two accounts, which may be the same. -/
def moveBalance (sender recipient : Address) : Ledger :=
  let taken := ledger.setBalance sender ((ledger.account sender).balance - amount)
  taken.setBalance recipient ((taken.account recipient).balance + amount)

/-- An amount moves between the bounded balances of two accounts, which may be the same. -/
def moveBound (owner recipient : Address) : Ledger :=
  let taken := ledger.setBoundedBalance owner ((ledger.account owner).boundBalance - amount)
  taken.setBoundedBalance recipient ((taken.account recipient).boundBalance + amount)

def bound (reason : String) : Checked Ledger :=
  if amount = 0 then .ok ledger
  else if (ledger.account addr).balance < amount then .error (.error reason)
  else .ok (ledger.moveToBound addr amount)

def boundMeterGov : Checked Ledger := ledger.bound addr amount "not enough balance"

def boundAccountMeterGov : Checked Ledger := ledger.bound addr amount "not enough meter-gov balance"

omit [Primitives] in
theorem moveToBound_zero : ledger.moveToBound addr 0 = ledger := by
  ext1
  funext other
  simp only [moveToBound, setBalance, setBoundedBalance, account_update, if_true, Int.natCast_zero, Int.sub_zero, add_zero]
  split
  next same => rw [same]
  · rfl

omit [Primitives] in
theorem bound_bind {reason α next} {result : α} :
    (ledger.bound addr amount reason >>= next) = .ok result ↔
      (amount = 0 ∨ amount ≤ (ledger.account addr).balance) ∧ next (ledger.moveToBound addr amount) = .ok result := by
  unfold bound
  split
  next zero =>
    subst zero
    rw [moveToBound_zero]
    exact ⟨fun ran => ⟨.inl rfl, ran⟩, fun ran => ran.2⟩
  next nonzero =>
    split
    next short =>
      refine iff_of_false nofun fun ⟨enough, _⟩ => ?_
      omega
    next enough => exact ⟨fun ran => ⟨.inr (by omega), ran⟩, fun ran => ran.2⟩

end Ledger
end MeterPov.Staking
