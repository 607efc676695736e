import MeterPov.Staking.Tracker
import MeterPov.Staking.Body

/-! How a candidate is listed, updated and taken off the list.

The tracker contract and the scripts do the same to the lists and differ in their checks and in the
texts of their errors (`builtin/metertracker/meter_tracker_staking.go`, `meter_tracker_uncandidate.go`,
`meter_tracker_candidate_update.go`; `script/staking/handler_candidate.go`, `handler_uncandidate.go`,
`handler_candidateUpdate.go`). -/

set_option autoImplicit false

namespace MeterPov.Staking

open Lib Accounts Auction

/-- The pattern `^\d+[.]\d+[.]\d+[.]\d+$`. -/
def isIP (ip : Bytes) : Bool :=
  let parts := ip.splitOn 46
  parts.length = 4 && parts.all fun part => !part.isEmpty && part.all fun digit => 48 ≤ digit && digit ≤ 57

def portValid (port : Nat) : Bool := 1 ≤ port && port ≤ 65535

/-- How a caller names a public key, an address and a name that are taken. -/
structure ListedTexts where
  pubKey : String
  ip : String
  name : String

def trackerTexts : ListedTexts := ⟨"pubkey listed", "ip listed", "name listed"⟩

def scriptTexts : ListedTexts where
  pubKey := "candidate with the same pubkey already listed"
  ip := "candidate with the same ip already listed"
  name := "candidate with the same name already listed"

/-- What the first of the records that has one of the three says about it. -/
def taken (texts : ListedTexts) (pubKey ip name : Bytes) (records : List Candidate) : Option String :=
  records.findSome? fun record =>
    if record.pubKey = pubKey then some texts.pubKey
    else if record.ipAddr = ip then some texts.ip
    else if record.name = name then some texts.name
    else none

def refuse (reason : Option String) : Checked Unit :=
  match reason with
  | none => .ok ()
  | some reason => .error (.error reason)

variable [Primitives]

/-- A stakeholder gets a record with its first bucket. -/
def addStake (list : SortedList Stakeholder.holder) (bucket : Bucket) : SortedList Stakeholder.holder :=
  match list.get bucket.owner with
  | none => list.add (({ holder := bucket.owner } : Stakeholder).addBucket bucket)
  | some stakeholder => list.add (stakeholder.addBucket bucket)

/-- What a request to be listed or updated says about a candidate. -/
structure CandidateInfo where
  name : Bytes
  description : Bytes
  pubKey : Bytes
  ip : Bytes
  port : Nat

def newCandidate (addr : Address) (info : CandidateInfo) (commission : Nat) (timestamp : UInt64) : Candidate where
  addr := addr
  name := info.name
  description := info.description
  pubKey := info.pubKey
  ipAddr := info.ip
  port := info.port
  commission := commission
  timestamp := timestamp

def lockedBucket (owner : Address) (amount token autobid : Nat) (ts nonce : UInt64) : Bucket :=
  newBucket owner owner amount token (getBoundLockOption foreverLock).1 (getBoundLockOption foreverLock).2.1 autobid ts nonce

def Book.enlist (book : Book) (info : CandidateInfo) (commission : Nat) (bucket : Bucket) (ts : UInt64) (ledger : Ledger) : Book :=
  { book with
    ledger := ledger
    bucketList := book.bucketList.add bucket
    candidateList := book.candidateList.add ((newCandidate bucket.owner info commission ts).addBucket bucket)
    stakeholderList := addStake book.stakeholderList bucket }

/-- A bucket without a candidate. Its lock, if it was one for a candidate, goes back to a normal one. -/
def Bucket.released (bucket : Bucket) : Bucket :=
  let bucket := { bucket with candidate := 0 }
  if bucket.isForeverLock then bucket.updateLockOption oneWeekLock oneWeekLockRate else bucket

/-- The loop over the buckets of a candidate that leaves, with the last locked bucket it has met. -/
def releaseBuckets (addr : Address) : List Bytes32 → BucketList → Bytes32 → BucketList × Bytes32
  | [], bl, last => (bl, last)
  | id :: rest, bl, last =>
    match bl.get id with
    | none => releaseBuckets addr rest bl last
    | some b =>
      if b.candidate ≠ addr then releaseBuckets addr rest bl last
      else releaseBuckets addr rest (bl.modify id Bucket.released) (if b.isForeverLock then b.bucketID else last)

def Book.delist (book : Book) (record : Candidate) : Book :=
  { book with
    bucketList := (releaseBuckets record.addr record.buckets book.bucketList 0).1
    candidateList := book.candidateList.remove record.addr }

/-- The locked bucket of a candidate, looked for among its buckets. An ID that is not listed panics. -/
def candidateBucketIn (addr : Address) (bl : BucketList) : List Bytes32 → Checked (Option Bucket)
  | [] => .ok none
  | id :: rest => do
    let b ← deref (bl.get id)
    if b.owner = addr ∧ b.candidate = addr ∧ b.option = foreverLock then return some b
    else candidateBucketIn addr bl rest

def getCandidateBucket (candidate : Candidate) (bl : BucketList) : Checked (Option Bucket) :=
  candidateBucketIn candidate.addr bl candidate.buckets

def Bucket.withAutobid (bucket : Bucket) (autobid : Nat) : Bucket := { bucket with autobid := autobid }

/-- The record after an update. The name, the description, the commission and the port are updated
only when the last update is a day ago. -/
def Candidate.updated (record : Candidate) (info : CandidateInfo) (commission : Nat) (late : Bool) : Candidate :=
  let record := { record with pubKey := info.pubKey, ipAddr := info.ip }
  if late then
    { record with commission := commission, name := info.name, description := info.description, port := info.port }
  else record

/-- The end of an update, after the checks of what is asked for. The jail entry keeps the key as it was sent. -/
def Book.updateCandidate (book : Book) (record : Candidate) (info : CandidateInfo) (sentPubKey : Bytes) (commission autobid : Nat)
    (ts : UInt64) (tooFrequent notChanged : String) : Checked (Book × Option String) := do
  let candBucket ← getCandidateBucket record book.bucketList
  let late := decide (minCandidateUpdateIntv ≤ ts - record.timestamp)
  let urgent := decide (record.ipAddr ≠ info.ip ∨ record.pubKey ≠ info.pubKey)
  let autobidUpdated := late && candBucket.any fun b => b.autobid ≠ autobid
  assert (late || urgent) tooFrequent
  assert (record.updated info commission late ≠ record ∨ autobidUpdated) notChanged
  let book := { book with
    inJailList := book.inJailList.modify record.addr fun jailed => { jailed with name := info.name, pubKey := sentPubKey }
    candidateList := book.candidateList.modify record.addr (·.updated info commission late)
    bucketList :=
      match candBucket with
      | some b => if autobidUpdated then book.bucketList.modify b.bucketID (·.withAutobid autobid) else book.bucketList
      | none => book.bucketList }
  -- a candidate without a locked bucket is updated all the same, and the error of the search is returned
  return (book, if candBucket.isNone then some "not found" else none)

namespace World

variable (world : World)

def listAsCandidate (owner : Address) (info : CandidateInfo) (amount autobid commissionRate : Nat) (timestamp nonce : UInt64) :
    Checked (World × Bytes32) := do
  assert (minRequiredByDelegate ≤ amount) "bound amount < minimal candidate require"
  assert (autobid ≤ 100) "invalid autobid"
  let candidatePubKey ← listed (Primitives.validatePubKey info.pubKey) "invalid pubkey"
  assert (portValid info.port) "invalid port"
  assert (isIP info.ip) "invalid IP"
  refuse (taken trackerTexts candidatePubKey info.ip info.name world.candidateList.items)
  refuse ((world.candidateList.get owner).map fun record =>
    if record.pubKey = info.pubKey ∧ record.ipAddr = info.ip ∧ record.port = info.port then "candidate listed"
    else "candidate listed with diff info")
  let bucket := lockedBucket owner amount mtrg autobid timestamp nonce
  let ledger ← world.ledger.boundMeterGov owner amount
  let next ← commit (world.toBook.enlist { info with pubKey := candidatePubKey } (getCommissionRate commissionRate) bucket
    timestamp ledger)
  return (next, bucket.bucketID)

def unCandidate (owner : Address) : Checked (World × Bytes32) := do
  let record ← listed (world.candidateList.get owner) "candidate not listed"
  assert (world.inJailList.get owner).isNone "candidate in jail"
  let next ← commit (world.toBook.delist record)
  return (next, (releaseBuckets record.addr record.buckets world.bucketList 0).2)

def candidateUpdate (owner : Address) (info : CandidateInfo) (autobid commissionRate : Nat) (timestamp : UInt64) :
    Checked (World × Option String) := do
  let candidatePubKey ← listed (Primitives.validatePubKey info.pubKey) "invalid pubkey"
  assert (portValid info.port) "invalid port"
  assert (isIP info.ip) "invalid IP"
  assert (autobid ≤ 100) "invalid autobid"
  assert (commissionRateMin ≤ commissionRate ∧ commissionRate ≤ commissionRateMax) "invalid commission"
  let record ← listed (world.candidateList.get owner) "candidate not listed"
  refuse (taken trackerTexts candidatePubKey info.ip info.name (world.candidateList.items.filter fun record => record.addr ≠ owner))
  let (book, reason) ← world.toBook.updateCandidate record { info with pubKey := candidatePubKey } info.pubKey
    (getCommissionRate commissionRate) autobid timestamp "candidate update too frequent" "candidate not changed"
  let next ← commit book
  return (next, reason)

end World

/-! The staking scripts of an account (`script/staking/handler_*.go`).

A handler that returns an error fails its clause, and what it wrote is reverted with the transaction.
The events it emits and the statistics of the delegates are left out. -/

/-- What a handler reads of its block and its transaction. The forks came one after another on every
network, so that one number says which are active. -/
structure Env where
  fork : Nat
  time : UInt64
  txNonce : UInt64
  clauseIndex : UInt64
  counter : UInt64
  deriving DecidableEq, Repr

def Env.nonce (env : Env) : UInt64 := env.txNonce + env.clauseIndex + env.counter

/-- The time and the nonce of a new bucket: those of the script before the seventh fork. -/
def Env.timestamp (env : Env) (sb : StakingBody) : UInt64 := if 7 ≤ env.fork then env.time else .ofNat sb.timestamp

def Env.bucketNonce (env : Env) (sb : StakingBody) : UInt64 := if 7 ≤ env.fork then env.nonce else .ofNat sb.nonce

-- `BytesToAddress` of "staking-module-address", which keeps the last twenty bytes
def stakingModuleAddr : Address := 0x616b696e672d6d6f64756c652d61646472657373

def boundBucket (env : Env) (sb : StakingBody) (candAddr : Address) : Bucket :=
  let (opt, rate, _) := getBoundLockOption sb.option
  newBucket sb.holderAddr candAddr sb.amount sb.token opt rate sb.autobid (env.timestamp sb) (env.bucketNonce sb)

/-- The check of the ratio as it was at each fork, with the votes each of them counts. -/
def selfRatioValid (env : Env) (cand : Candidate) (bl : BucketList) (value fork1Votes oldVotes : Int) : Checked Bool :=
  if 8 ≤ env.fork then .ok (ratioValid cand.addr bl value)
  else if 1 ≤ env.fork then checkCandEnoughSelfVotes fork1Votes cand bl tesla11SelfVoteRatio
  else checkCandEnoughSelfVotes oldVotes cand bl tesla10SelfVoteRatio

namespace World

variable (world : World) (env : Env) (sb : StakingBody)

/-- The candidate that a new bucket votes for: none when the named one cannot take its votes. -/
def boundCandidate : Checked Address :=
  if sb.candAddr = 0 then .ok 0
  else
    match world.candidateList.get sb.candAddr with
    | none => .ok 0
    | some cand => do
      let valid ← selfRatioValid env cand world.bucketList sb.amount sb.amount sb.amount
      return if valid then sb.candAddr else 0

def boundHandler : Checked World := do
  assert (minBoundBalance ≤ sb.amount) "amount less than minimal balance (100 MTRG)"
  assert (sb.token = mtrg) "invalid token"
  let candAddr ← world.boundCandidate env sb
  assert (sb.amount ≤ world.getBalance sb.holderAddr) "not enough meter-gov balance"
  -- too large an autobid is logged and nothing else
  if 100 < sb.autobid then return world
  else
    let bucket := boundBucket env sb candAddr
    let ledger ← world.ledger.boundAccountMeterGov sb.holderAddr sb.amount
    commit { world.toBook with
      ledger := ledger
      bucketList := world.bucketList.add bucket
      stakeholderList := addStake world.stakeholderList bucket
      candidateList :=
        if candAddr = 0 then world.candidateList else world.candidateList.modify candAddr (·.addBucket bucket) }

def namedBucket : Checked Bucket := do
  let b ← listed (world.bucketList.get sb.stakingID) "bucket not found"
  assert (b.owner = sb.holderAddr) "bucket owner mismatch"
  assert (b.value = sb.amount) "bucket amount mismatch"
  assert (b.token = sb.token) "bucket token mismatch"
  return b

def unBoundHandler : Checked World := do
  let b ← world.namedBucket sb
  assert (env.fork < 7 ∨ b.unbounded = false) "bucket already unbounded"
  assert (b.isForeverLock = false) "can't update forever bucket"
  commit { world.toBook with
    bucketList := world.bucketList.modify sb.stakingID (·.closed (env.timestamp sb)) }

def candidateHandler : Checked World := do
  assert (minRequiredByDelegate ≤ sb.amount) "amount less than minimal balance (2000 MTRG)"
  assert (sb.token = mtrg) "invalid token"
  assert (sb.amount ≤ world.getBalance sb.candAddr) "not enough MTRG"
  assert (sb.autobid ≤ 100) "autobid > 100%"
  let candidatePubKey ← listed (Primitives.validatePubKey sb.candPubKey) "invalid public key"
  assert (portValid sb.candPort) "invalid port number"
  assert (isIP sb.candIP) "invalid ip address"
  refuse (taken scriptTexts candidatePubKey sb.candIP sb.candName world.candidateList.items)
  refuse ((world.candidateList.get sb.candAddr).map fun record =>
    if record.pubKey = candidatePubKey ∧ record.ipAddr = sb.candIP ∧ record.port = sb.candPort then
      "candidate info already listed"
    else "candidate address already listed with different infomation (pubkey, ip, port)")
  let bucket := lockedBucket sb.candAddr sb.amount sb.token sb.autobid (env.timestamp sb) (env.bucketNonce sb)
  let ledger ← world.ledger.boundAccountMeterGov sb.candAddr sb.amount
  commit (world.toBook.enlist ⟨sb.candName, sb.candDescription, candidatePubKey, sb.candIP, sb.candPort⟩
    (getCommissionRate sb.option) bucket (env.timestamp sb) ledger)

def unCandidateHandler : Checked World := do
  let record ← listed (world.candidateList.get sb.candAddr) "candidate address is not listed"
  assert (world.inJailList.get sb.candAddr).isNone "candidate address is in jail"
  commit (world.toBook.delist record)

def delegateHandler : Checked World := do
  let b ← world.namedBucket sb
  assert (b.isForeverLock = false) "can't update forever bucket"
  assert (b.candidate = 0) "bucket in used (address is not zero)"
  assert (sb.autobid ≤ 100) "autobid > 100%"
  let cand ← listed (world.candidateList.get sb.candAddr) "bucket not found"
  let valid ← selfRatioValid env cand world.bucketList b.value sb.amount b.totalVotes
  assert (valid = true) notEnoughSelfVotes
  commit { world.toBook with
    bucketList := world.bucketList.modify sb.stakingID fun bucket => (bucket.votesFor sb.candAddr).withAutobid sb.autobid
    candidateList := world.candidateList.modify sb.candAddr (·.addBucket b) }

def unDelegateHandler : Checked World := do
  let b ← world.namedBucket sb
  assert (b.isForeverLock = false) "can't update forever bucket"
  assert (b.candidate ≠ 0) "bucket in used (address is not zero)"
  let _ ← listed (world.candidateList.get b.candidate) "candidate address is not listed"
  commit { world.toBook with
    bucketList := world.bucketList.modify sb.stakingID fun bucket => (bucket.votesFor 0).withAutobid 0
    candidateList := world.candidateList.modify b.candidate (·.removeBucket b) }

/-- Whose public keys, addresses and names must not be asked for: nobody's before the sixth fork, and
before the eighth the candidate's own as well. -/
def rivals : List Candidate :=
  if 8 ≤ env.fork then world.candidateList.items.filter fun record => record.addr ≠ sb.candAddr
  else if 6 ≤ env.fork then world.candidateList.items
  else []

def candidateUpdateHandler : Checked World := do
  let candidatePubKey ← listed (Primitives.validatePubKey sb.candPubKey) "invalid public key"
  assert (portValid sb.candPort) "invalid port number"
  assert (isIP sb.candIP) "invalid ip address"
  assert (sb.autobid ≤ 100) "invalid params"
  assert (env.fork < 8 ∨ (world.candidateList.get sb.candAddr).isSome) "candidate address is not listed"
  refuse (taken scriptTexts candidatePubKey sb.candIP sb.candName (world.rivals env sb))
  let record ← listed (world.candidateList.get sb.candAddr) "candidate address is not listed"
  assert (5 ≤ env.fork ∨ (world.inJailList.get sb.candAddr).isNone) "candidate address is in jail"
  let (book, reason) ← world.toBook.updateCandidate record
    ⟨sb.candName, sb.candDescription, candidatePubKey, sb.candIP, sb.candPort⟩ sb.candPubKey
    (getCommissionRate sb.option) sb.autobid (env.timestamp sb) "update too frequent" "candidate not changed"
  refuse reason
  commit book

/-- A bail goes to the account of the staking module. -/
def delegateExitJailHandler : Checked World :=
  match world.inJailList.get sb.candAddr with
  | none => .ok world
  | some jailed => do
    assert (jailed.bailAmount ≤ world.getBalance jailed.addr) "not enough balance for bail"
    commit { world.toBook with
      ledger := world.ledger.moveBalance jailed.bailAmount jailed.addr stakingModuleAddr
      inJailList := world.inJailList.remove jailed.addr }

end World

/-! `script/staking/handler_bucketUpdate.go`: an owner adds to a bucket or, from the fifth fork on,
splits an amount off it. -/

/-- The bonus that a bucket has gained until a time, and the bucket with it. -/
def touchBucketBonus (ts : UInt64) (bucket : Bucket) : Int × Bucket :=
  if ts < bucket.calcLastTime then (0, bucket)
  else
    let bonusDelta := calcBonus bucket.calcLastTime ts bucket.rate bucket.value
    (bonusDelta, { bucket with
      bonusVotes := bucket.bonusVotes + uint64Of bonusDelta
      totalVotes := bucket.totalVotes + bonusDelta
      calcLastTime := ts })

/-- Before the sixth fork the bonus was taken off the value as well. -/
def Bucket.subtracted (bucket : Bucket) (env : Env) (amount : Nat) (bonusDelta : Int) : Bucket :=
  { bucket.withdrawn amount bonusDelta with
    value := bucket.value - amount - if 6 ≤ env.fork then 0 else bonusDelta }

def Stakeholder.addID (stakeholder : Stakeholder) (id : Bytes32) : Stakeholder :=
  { stakeholder with buckets := stakeholder.buckets ++ [id] }

def Stakeholder.addValue (stakeholder : Stakeholder) (amount : Nat) : Stakeholder :=
  { stakeholder with totalStake := stakeholder.totalStake + amount }

omit [Primitives] in
@[simp] theorem Stakeholder.addID_holder (id : Bytes32) (stakeholder : Stakeholder) :
    (stakeholder.addID id).holder = stakeholder.holder := rfl

omit [Primitives] in
@[simp] theorem Stakeholder.addValue_holder (amount : Nat) (stakeholder : Stakeholder) :
    (stakeholder.addValue amount).holder = stakeholder.holder := rfl

/-- The ratio as it is checked before an amount is split off a locked bucket. -/
def subRatioValid (env : Env) (cand : Candidate) (bl : BucketList) (amount : Nat) : Checked Bool :=
  if 8 ≤ env.fork then
    .ok (correctCheckEnoughSelfVotes cand.addr bl tesla11SelfVoteRatio none (some amount) none (some amount))
  else checkEnoughSelfVotes amount cand bl tesla11SelfVoteRatio

namespace World

variable (world : World) (env : Env) (sb : StakingBody) (bucket : Bucket)

/-- What must hold before an amount is split off. A locked bucket is taken for one of its candidate. -/
def subAllowed : Checked Unit := do
  assert (bucket.unbounded = false) "can not update unbounded bucket"
  if bucket.isForeverLock then
    assert (minRequiredByDelegate ≤ bucket.value - sb.amount) "limit MIN_REQUIRED_BY_DELEGATE"
    let cand ← listed (world.candidateList.get bucket.candidate) "candidate address is not listed"
    let ratioValid ← subRatioValid env cand world.bucketList sb.amount
    assert (ratioValid = true) notEnoughSelfVotes
  else assert (minBoundBalance ≤ bucket.value - sb.amount) "limit MIN_BOUND_BALANCE"

def bucketSub : Checked World := do
  world.subAllowed env sb bucket
  let bonusDelta := bucket.bonusOf sb.amount
  let split := bucket.split bucket.owner sb.amount (env.timestamp sb) (env.bucketNonce sb)
  commit { world.toBook with
    bucketList := (world.bucketList.modify sb.stakingID (·.subtracted env sb.amount bonusDelta)).add split
    candidateList := world.candidateList.modify bucket.candidate
      (·.addSplit (-(bonusDelta + if 9 ≤ env.fork then 0 else sb.amount)) split.bucketID)
    stakeholderList := world.stakeholderList.modify bucket.owner (·.addID split.bucketID) }

/-- What must hold before an amount is added. The ratio of a candidate that is not listed cannot be read. -/
def addAllowed : Checked Unit := do
  assert (bucket.unbounded = false) "can not update unbounded bucket"
  assert (sb.amount ≤ world.getBalance sb.holderAddr) "not enough meter-gov balance"
  if 8 ≤ env.fork ∧ bucket.isForeverLock = false then
    let cand ← deref (world.candidateList.get bucket.candidate)
    assert (ratioValid cand.addr world.bucketList sb.amount) notEnoughSelfVotes
  else return ()

def bucketAdd : Checked World := do
  world.addAllowed env sb bucket
  let ledger ← world.ledger.boundAccountMeterGov sb.holderAddr sb.amount
  commit { world.toBook with
    ledger := ledger
    bucketList := world.bucketList.modify sb.stakingID (·.deposited sb.amount)
    candidateList :=
      if bucket.candidate = 0 then world.candidateList else world.candidateList.modify bucket.candidate (.addVotes sb.amount)
    stakeholderList := world.stakeholderList.modify bucket.owner (·.addValue sb.amount) }

/-- The update before the fifth fork. Before the first, nothing was bounded for the amount. -/
def bucketUpdateOld : Checked World := do
  let ledger ←
    if 1 ≤ env.fork then do
      assert (bucket.unbounded = false) "can not update unbounded bucket"
      assert (sb.amount ≤ world.getBalance sb.holderAddr) "not enough meter-gov balance"
      world.ledger.boundAccountMeterGov sb.holderAddr sb.amount
    else do
      assert (bucket.isForeverLock = false) "can't update forever bucket"
      Except.ok world.ledger
  let (bonus, touched) := touchBucketBonus (env.timestamp sb) bucket
  commit { world.toBook with
    ledger := ledger
    bucketList := world.bucketList.modify sb.stakingID fun _ =>
      { touched with value := touched.value + sb.amount, totalVotes := touched.totalVotes + sb.amount }
    candidateList :=
      if bucket.candidate = 0 then world.candidateList
      else world.candidateList.modify bucket.candidate (.addVotes (bonus + sb.amount)) }

def bucketUpdateHandler : Checked World := do
  let bucket ← listed (world.bucketList.get sb.stakingID) "bucket not found"
  assert (bucket.owner = sb.holderAddr) "bucket owner mismatch"
  if 5 ≤ env.fork then
    if sb.option = bucketSubOpt then world.bucketSub env sb bucket
    else if sb.option = bucketAddOpt then world.bucketAdd env sb bucket
    else .error (.error "unsupported option for bucket update")
  else world.bucketUpdateOld env sb bucket

end World
end MeterPov.Staking
