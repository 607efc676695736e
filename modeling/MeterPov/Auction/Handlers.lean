import MeterPov.Script.Env

/-! `script/auction`: starting, bidding in and closing an auction.

The handlers work on the control block the state has cached, so a bid is in the cache from the
moment it is added, before its transfer is tried. -/

set_option autoImplicit false

namespace MeterPov.Auction

open Lib Accounts Script

structure AuctionBody where
  opcode : Nat
  option : Nat := 0
  startHeight : Nat := 0
  startEpoch : Nat := 0
  endHeight : Nat := 0
  endEpoch : Nat := 0
  sequence : Nat := 0
  bidder : Address := 0
  amount : Nat := 0
  reserveAmount : Nat := 0
  timestamp : Nat := 0
  nonce : UInt64 := 0
  deriving DecidableEq, Repr

/-- What the auction module needs from outside: its hashes and the ABI encoding of its events. -/
structure AuctionModule where
  hashing : AuctionHashing
  startEvent : (auctionID : Bytes32) → (startHeight endHeight mtrgOnAuction reservedPrice : Nat) → Event
  endEvent : (auctionID : Bytes32) → (receivedMTR releasedMTRG actualPrice : Nat) → Event

def opStart : Nat := 1
def opStop : Nat := 2
def opBid : Nat := 3

def auctionMaxSummaries : Nat := 32

def minimumBidAmount : Nat := 10 * 10 ^ 18

def auctionLeftOverAccount : Address := 0xe852f654dfaee0e2b60842657379a56e1cafa292

def errNotStart : String := "Auction not start"
def errNotStop : String := "An auction is active, stop first"
def errNotEnoughMTR : String := "not enough MTR balance"
def errLessThanBidThreshold : String := "amount less than bid threshold (10 MTR)"

/-- The cached control block; a nil one is dereferenced right away. -/
def auctionCBOfState : ScriptM AuctionCB := do
  liftM (Exec.deref (← StateProgram.ask .getAuctionCB))

section

variable (mod : AuctionModule) (env : ScriptEnv) (ab : AuctionBody) (gas : UInt64)

def startAuctionCB : ScriptM Handled := do
  let auctionCB ← auctionCBOfState
  let leftOverGas := leftOverOf gas
  if auctionCB.isActive then return (leftOverGas, some errNotStop)
  let ts := if env.forks.isTeslaFork7 env.blockCtx.number then env.blockCtx.time else ab.timestamp
  let rsvdPrice ← getParam .auctionReservedPrice
  let started : AuctionCB :=
    { auctionCB with
      startHeight := ab.startHeight
      startEpoch := ab.startEpoch
      endHeight := ab.endHeight
      endEpoch := ab.endEpoch
      sequence := ab.sequence
      rlsdMTRG := ab.amount
      rsvdMTRG := ab.reserveAmount
      rsvdPrice := rsvdPrice.toNat
      createTime := ts
      rcvdMTR := 0
      auctionTxs := [] }
  let started := { started with auctionID := started.id mod.hashing }
  if env.forks.isTeslaFork10 env.blockCtx.number then
    addEvent (mod.startEvent (started.id mod.hashing) ab.startHeight ab.endHeight ab.amount started.rsvdPrice)
  StateProgram.ask (.setAuctionCB started)
  return (leftOverGas, none)

/-- What a bid is refused for before it is recorded. -/
def refusal : ScriptM (Option String) := do
  if ab.option = autoBid then
    if (← StateProgram.getEnergy validatorBenefitAddr) < ab.amount then return some errNotEnoughMTR
    return none
  else
    if (← StateProgram.getEnergy ab.bidder) < ab.amount then return some errNotEnoughMTR
    if ab.amount < minimumBidAmount then return some errLessThanBidThreshold
    return none

def handleAuctionTx : ScriptM Handled := do
  let auctionCB ← auctionCBOfState
  let leftOverGas := leftOverOf gas
  if !auctionCB.isActive then return (leftOverGas, some errNotStart)
  if let some reason ← refusal ab then return (leftOverGas, some reason)
  let fork7 := env.forks.isTeslaFork7 env.blockCtx.number
  let ts := if fork7 then env.blockCtx.time else ab.timestamp
  let nonce := if fork7 then env.txCtx.nonce + UInt64.ofNat env.clauseIndex else ab.nonce
  let tx := mod.hashing.newAuctionTx ab.bidder ab.amount ab.option ts nonce.toNat
  match auctionCB.addAuctionTx tx with
  | none => return (leftOverGas, some "tx already exist")
  | some bid => do
    -- the block is the cached one: the bid stays in it whatever follows
    StateProgram.ask (.setAuctionCB bid)
    let moved ←
      if ab.option = autoBid then transferAutobidMTRToAuction ab.amount
      else transferMTRToAuction ab.bidder ab.amount
    if !moved then return (leftOverGas, some errNotEnoughMTR)
    StateProgram.ask (.setAuctionCB bid)
    return (leftOverGas, none)

/-- The tracker of the native contract from fork 8 on; before it, one at the bidder's own address. -/
def mintMTRGToBidder (addr : Address) (amount : Nat) : ScriptM Unit := do
  if amount = 0 then return ()
  mintMeterGov (if env.forks.isTeslaFork8 env.blockCtx.number then meterTrackerAddr else addr) addr amount
  addTransfer 0 addr amount mtrg

def mtrgOf (actualPrice amount : Nat) : Exec Nat :=
  if actualPrice = 0 then .error (.raised "division by zero") else .ok (amount * 10 ^ 18 / actualPrice)

/-- The amounts of a bidder's bids added up, in the order of first bids. -/
def groupBids (actualPrice : Nat) : List AuctionTx → List DistMtrg → Exec (List DistMtrg)
  | [], groups => .ok groups
  | tx :: rest, groups => do
    let amount ← mtrgOf actualPrice tx.amount
    if groups.any fun group => group.addr == tx.address then
      groupBids actualPrice rest
        (groups.map fun group => if group.addr = tx.address then { group with amount := group.amount + amount } else group)
    else groupBids actualPrice rest (groups ++ [⟨tx.address, amount⟩])

def clearAuction (cb : AuctionCB) (validatorBenefitRatio : Int) : ScriptM (Nat × Nat × List DistMtrg) := do
  let bidPrice := if 0 < cb.rlsdMTRG then cb.rcvdMTR * 10 ^ 18 / cb.rlsdMTRG else cb.rsvdPrice
  let actualPrice := if bidPrice < cb.rsvdPrice then cb.rsvdPrice else bidPrice
  let mut total := 0
  let mut distMtrg : List DistMtrg := []
  if env.forks.isTeslaFork3 env.blockCtx.number then
    let groups ← liftM (groupBids actualPrice cb.auctionTxs [])
    for group in groups.mergeSort fun first second => first.addr ≤ second.addr do
      mintMTRGToBidder env group.addr group.amount
      total := total + group.amount
      distMtrg := distMtrg ++ [group]
  else
    for tx in cb.auctionTxs do
      let amount ← liftM (mtrgOf actualPrice tx.amount)
      mintMTRGToBidder env tx.address amount
      if (env.forks.network = .mainnet ∧ env.blockCtx.number < env.forks.auctionDefect) ∨ env.forks.network = .testnet then
        total := total + amount
      distMtrg := distMtrg ++ [⟨tx.address, amount⟩]
  let leftOver := cb.rlsdMTRG - total
  mintMTRGToBidder env auctionLeftOverAccount cb.rsvdMTRG
  mintMTRGToBidder env auctionLeftOverAccount leftOver
  let _ ← transferMTRToValidatorBenefit (cb.rcvdMTR * validatorBenefitRatio / 10 ^ 18)
  return (actualPrice, leftOver, distMtrg)

def summaryOf (cb : AuctionCB) (actualPrice leftover : Nat) (dist : List DistMtrg) : AuctionSummary where
  auctionID := cb.auctionID
  startHeight := cb.startHeight
  startEpoch := cb.startEpoch
  endHeight := cb.endHeight
  endEpoch := cb.endEpoch
  sequence := cb.sequence
  rlsdMTRG := cb.rlsdMTRG
  rsvdMTRG := cb.rsvdMTRG
  rsvdPrice := cb.rsvdPrice
  createTime := cb.createTime
  rcvdMTR := cb.rcvdMTR
  actualPrice := actualPrice
  leftoverMTRG := leftover
  auctionTxs := cb.auctionTxs
  distMTRG := dist

def closeAuctionCB : ScriptM Handled := do
  let summaryList ← StateProgram.ask .getSummaryList
  let auctionCB ← auctionCBOfState
  let leftOverGas := leftOverOf gas
  if !auctionCB.isActive then return (leftOverGas, some errNotStart)
  let validatorBenefitRatio ← getParam .validatorBenefitRatio
  let (actualPrice, leftover, dist) ← clearAuction env auctionCB validatorBenefitRatio
  let summaries ← liftM (Exec.deref summaryList)
  let kept := if auctionMaxSummaries ≤ summaries.length then summaries.drop (summaries.length - auctionMaxSummaries + 1) else summaries
  -- from fork 6 on only the newest summary keeps its bids and distributions
  let kept :=
    if env.forks.isTeslaFork6 env.blockCtx.number then
      kept.map fun summary => { summary with auctionTxs := [], distMTRG := [] }
    else kept
  if env.forks.isTeslaFork10 env.blockCtx.number then
    addEvent (mod.endEvent (auctionCB.id mod.hashing) auctionCB.rcvdMTR auctionCB.rlsdMTRG actualPrice)
  StateProgram.ask (.setSummaryList (kept ++ [summaryOf auctionCB actualPrice leftover dist]))
  StateProgram.ask (.setAuctionCB {})
  return (leftOverGas, none)

/-- `Handle`: only block-level transactions start and close auctions or bid automatically. -/
def handle : ScriptM Handled :=
  if ab.opcode = opStart then
    if env.txCtx.origin ≠ 0 then return (gas, some "not from kblock") else startAuctionCB mod env ab gas
  else if ab.opcode = opStop then
    if env.txCtx.origin ≠ 0 then return (gas, some "not form kblock") else closeAuctionCB mod env gas
  else if ab.opcode = opBid then
    if ab.option = autoBid then
      if env.txCtx.origin ≠ 0 then return (gas, some "not from kblock") else handleAuctionTx mod env ab gas
    else if env.txCtx.origin ≠ ab.bidder then return (gas, some "bidder address is not the same from transaction")
    else handleAuctionTx mod env ab gas
  else return (gas, some "unknow auction opcode")

/-! The bids that the governing of an epoch makes for the validators (`script/staking/handler_govern.go`).

The list of rewards it keeps for the record is left out; so are the staking lists, which it updates
afterwards. -/

structure RewardInfoV2 where
  address : Address
  distAmount : Nat
  autobidAmount : Nat
  deriving DecidableEq, Repr

/-- A reward that cannot be paid is skipped. -/
def distValidatorRewards : List RewardInfoV2 → ScriptM Unit
  | [] => return ()
  | reward :: rest => do
    let _ ← transferMTR validatorBenefitAddr reward.address reward.distAmount
    distValidatorRewards rest

/-- The loop over the bids, which are numbered. The first one that is refused ends it. -/
def autobidFrom (auctionCB : AuctionCB) : Nat → List RewardInfoV2 → ScriptM Unit
  | _, [] => StateProgram.ask (.setAuctionCB auctionCB)
  | number, bid :: rest => do
    if (← StateProgram.getEnergy validatorBenefitAddr) < bid.autobidAmount then return ()
    match auctionCB.addAuctionTx (mod.hashing.newAuctionTx bid.address bid.autobidAmount autoBid env.blockCtx.time number) with
    | none => return ()
    | some added => do
      -- the block is the cached one
      StateProgram.ask (.setAuctionCB added)
      let moved ← transferAutobidMTRToAuction bid.autobidAmount
      if !moved then return ()
      autobidFrom added (number + 1) rest

/-- Nothing is done when the rewards cannot be decoded. -/
def distributeAndAutobidAfterTeslaFork6 (extraData : Option (List RewardInfoV2)) : ScriptM Unit := do
  match extraData with
  | none => return ()
  | some rewards => do
    distValidatorRewards (rewards.filter fun reward => 0 < reward.distAmount)
    let auctionCB ← auctionCBOfState
    if !auctionCB.isActive then return ()
    autobidFrom mod env auctionCB 0 (rewards.filter fun reward => 0 < reward.autobidAmount)

end
end MeterPov.Auction
