import MeterPov.AccountLock.Profile
import MeterPov.Lib.Program
import MeterPov.Accounts.StackedMap

/-! `state`: accounts, code and storage in a stacked map, and the cache of the script engine.

The cache of the auction objects stands beside the stacked map. It is filled when one of them is
read and is not part of any checkpoint. -/

set_option autoImplicit false

namespace MeterPov.Accounts

open Lib Auction AccountLock

abbrev Bytes := List UInt8

structure Account where
  balance : Int := 0
  energy : Int := 0
  boundBalance : Int := 0
  boundEnergy : Int := 0
  master : Bytes := []
  codeHash : Bytes := []
  storageRoot : Bytes := []
  deriving DecidableEq, Repr

inductive Param where
  | baseGasPrice
  | transactionFeeAddress
  | validatorBenefitRatio
  | auctionReservedPrice
  | executorAddress
  deriving DecidableEq, Repr

/-- A storage key, named by what it is the text or the Blake2b hash of. -/
inductive StorageKey where
  | auctionCB
  | auctionSummaryList
  | profileList
  | param (key : Param)
  | user (self user : Address)
  | creditPlan (self : Address)
  | sponsor (self sponsor : Address)
  | curSponsor (self : Address)
  | meterGovTotalAddSub
  | word (key : Nat)
  deriving DecidableEq, Repr

structure UserObject where
  usedCredit : Int := 0
  blockTime : Nat := 0
  deriving DecidableEq, Repr

structure CreditPlan where
  credit : Int := 0
  recoveryRate : Int := 0
  deriving DecidableEq, Repr

def UserObject.isEmpty (object : UserObject) : Bool := object.usedCredit == 0 && object.blockTime == 0

def UserObject.credit (object : UserObject) (plan : CreditPlan) (blockTime : Nat) : Int :=
  if object.usedCredit = 0 then plan.credit
  else
    let used :=
      if blockTime ≤ object.blockTime then object.usedCredit
      else object.usedCredit - (blockTime - object.blockTime : Nat) * plan.recoveryRate
    if used ≤ 0 then plan.credit else if plan.credit ≤ used then 0 else plan.credit - used

structure MeterGovTotalAddSub where
  totalAdd : Int := 0
  totalSub : Int := 0
  deriving DecidableEq, Repr

/-- A stored byte string: the empty one, or what it is the RLP encoding of. -/
inductive Raw where
  | empty
  | number (value : Int)
  | flag (value : Bool)
  | userObject (object : UserObject)
  | creditPlan (plan : CreditPlan)
  | total (total : MeterGovTotalAddSub)
  | auctionCB (cb : AuctionCB)
  | summaries (list : List AuctionSummary)
  | profiles (list : List Profile)
  | bytes (content : Bytes)
  deriving DecidableEq, Repr

inductive StateKey where
  | account (addr : Address)
  | code (addr : Address)
  | storage (addr : Address) (key : StorageKey)
  deriving DecidableEq, Repr

/-- What the stacked map holds for a key. -/
abbrev StateKey.Value : StateKey → Type
  | .account _ => Account
  | .code _ => Bytes
  | .storage _ _ => Raw

def Account.isEmpty (account : Account) : Bool :=
  account.balance == 0 && account.energy == 0 && account.boundBalance == 0 && account.boundEnergy == 0 &&
    account.master.isEmpty && account.codeHash.isEmpty && account.storageRoot.isEmpty

structure SECache where
  auctionCB : Option AuctionCB := none
  auctionSummaryList : Option (List AuctionSummary) := none
  deriving DecidableEq, Repr

/-- `err` tells whether an error was absorbed. -/
structure State where
  sm : StackedMap StateKey StateKey.Value
  seCache : SECache
  err : Bool

-- `BytesToAddress` of "auction-account-address", which keeps the last twenty bytes
def auctionModuleAddr : Address := 0x74696f6e2d6163636f756e742d61646472657373

def auctionCBKey : StateKey := .storage auctionModuleAddr .auctionCB

def auctionSummaryListKey : StateKey := .storage auctionModuleAddr .auctionSummaryList

namespace State

def get (state : State) (key : StateKey) : key.Value := (state.sm.get key).1

/-- A `Put` on the stacked map, which panics when the stack is empty. -/
def put (key : StateKey) (value : key.Value) : Action State Unit := do
  let state ← (MonadState.get : Action State State)
  if state.sm.depth = 0 then throw .outOfRange
  set { state with sm := state.sm.put key value }

def exist (state : State) (addr : Address) : Bool := !(state.get (.account addr) : Account).isEmpty

def delete (addr : Address) : Action State Unit := do
  put (.code addr) []
  put (.account addr) {}

def newCheckpoint : Action State Nat := do
  let state ← (MonadState.get : Action State State)
  set { state with sm := state.sm.push }
  return state.sm.push.depth - 1

def revertTo (revision : Nat) : Action State Unit :=
  modify fun state => { state with sm := state.sm.popTo revision }

def setError : Action State Unit := modify fun state => { state with err := true }

def decodeAuctionCB : Raw → Option AuctionCB
  | .empty => some {}
  | .auctionCB cb => some cb
  | _ => none

def decodeSummaries : Raw → Option (List AuctionSummary)
  | .empty => some []
  | .summaries list => some list
  | _ => none

def setAuctionCB (cb : AuctionCB) : Action State Unit :=
  modify fun state => { state with seCache := { state.seCache with auctionCB := some cb } }

def setSummaryList (summaries : List AuctionSummary) : Action State Unit :=
  modify fun state => { state with seCache := { state.seCache with auctionSummaryList := some summaries } }

/-- The control block from the cache, or decoded from storage and cached. -/
def getAuctionCB : Action State (Option AuctionCB) := do
  let state ← (MonadState.get : Action State State)
  match state.seCache.auctionCB with
  | some cached => return some cached
  | none =>
    match decodeAuctionCB (state.get auctionCBKey) with
    | some cb => do
      setAuctionCB cb
      return some cb
    | none => do
      setError
      return none

def getSummaryList : Action State (Option (List AuctionSummary)) := do
  let state ← (MonadState.get : Action State State)
  match state.seCache.auctionSummaryList with
  | some cached => return some cached
  | none =>
    match decodeSummaries (state.get auctionSummaryListKey) with
    | some summaries => do
      setSummaryList summaries
      return some summaries
    | none => do
      setError
      return none

/-- A cached object is encoded into its slot; nothing is written when there is none. -/
def encodeCached (key : StorageKey) (cached : Option Raw) : Action State Unit :=
  match cached with
  | some raw => put (.storage auctionModuleAddr key) raw
  | none => return ()

def commitScriptEngineChanges : Action State Unit := do
  encodeCached .auctionCB ((← (MonadState.get : Action State State)).seCache.auctionCB.map .auctionCB)
  encodeCached .auctionSummaryList ((← (MonadState.get : Action State State)).seCache.auctionSummaryList.map .summaries)

end State

/-- The methods through which code outside the package reaches a state. The setters of accounts, code
and storage all come down to a `Put` of the value they have built. -/
inductive StateMethod where
  | get (key : StateKey)
  | put (key : StateKey) (value : key.Value)
  | getAuctionCB
  | setAuctionCB (cb : AuctionCB)
  | getSummaryList
  | setSummaryList (summaries : List AuctionSummary)
  | setError

abbrev StateMethod.Answer : StateMethod → Type
  | .get key => key.Value
  | .put _ _ => Unit
  | .getAuctionCB => Option AuctionCB
  | .setAuctionCB _ => Unit
  | .getSummaryList => Option (List AuctionSummary)
  | .setSummaryList _ => Unit
  | .setError => Unit

def StateMethod.handle : (method : StateMethod) → Action State method.Answer
  | .get key => do return (← MonadState.get : State).get key
  | .put key value => State.put key value
  | .getAuctionCB => State.getAuctionCB
  | .setAuctionCB cb => State.setAuctionCB cb
  | .getSummaryList => State.getSummaryList
  | .setSummaryList summaries => State.setSummaryList summaries
  | .setError => State.setError

namespace State

theorem get_put_self {state : State} (nonempty : state.sm.depth ≠ 0) (key : StateKey) (value : key.Value) :
    { state with sm := state.sm.put key value }.get key = value :=
  congrArg Prod.fst (StackedMap.get_put_self nonempty key value)

theorem get_put_of_ne (state : State) {key other} (different : other ≠ key) (value : key.Value) :
    { state with sm := state.sm.put key value }.get other = state.get other :=
  congrArg Prod.fst (StackedMap.get_put_of_ne different value)

theorem put_eq (state : State) (key : StateKey) (value : key.Value) :
    put key value state = if state.sm.depth = 0 then .error .outOfRange state
      else .ok () { state with sm := state.sm.put key value } := by
  unfold put
  by_cases empty : state.sm.depth = 0
  · simp [empty, bind, EStateM.bind, MonadState.get, getThe, MonadStateOf.get, EStateM.get, throw, throwThe,
      MonadExceptOf.throw, EStateM.throw]
  · simp [empty, bind, EStateM.bind, MonadState.get, getThe, MonadStateOf.get, EStateM.get, set, EStateM.set]

theorem delete_eq {state} (nonempty : state.sm.depth ≠ 0) (addr : Address) :
    delete addr state = .ok () { state with sm := (state.sm.put (.code addr) []).put (.account addr) {} } := by
  have later : (state.sm.put (.code addr) []).depth ≠ 0 := by
    rw [StackedMap.depth, StackedMap.put_mapStack_length]
    exact nonempty
  rw [delete, Action.bind_eq, put_eq, if_neg nonempty]
  dsimp only
  rw [put_eq, if_neg later]

/-- The state has a level of its own above all levels of `base`, and has not lost a cached object. -/
structure Beneath (base state : State) : Prop where
  source : state.sm.src = base.sm.src
  levels : ∃ top above, state.sm.mapStack = top :: (above ++ base.sm.mapStack)
  auctionCB : base.seCache.auctionCB.isSome → state.seCache.auctionCB.isSome
  summaryList : base.seCache.auctionSummaryList.isSome → state.seCache.auctionSummaryList.isSome

variable {base : State}

theorem put_beneath (key : StateKey) (value : key.Value) : Action.Always (Beneath base) (put key value) (Beneath base) := by
  refine .readThen fun state beneath => ?_
  refine .branch (fun _ => .fault fun _ known => known) fun _ => .put fun _ _ => ?_
  obtain ⟨top, above, levels⟩ := beneath.levels
  exact { beneath with
    source := (state.sm.put_src key value).trans beneath.source
    levels := ⟨_, above, StackedMap.put_mapStack levels key value⟩ }

theorem setError_beneath : Action.Always (Beneath base) setError (Beneath base) :=
  .write fun _ beneath => { beneath with }

theorem setAuctionCB_beneath (cb : AuctionCB) : Action.Always (Beneath base) (setAuctionCB cb) (Beneath base) :=
  .write fun _ beneath => { beneath with auctionCB := fun _ => rfl }

theorem setSummaryList_beneath (summaries : List AuctionSummary) :
    Action.Always (Beneath base) (setSummaryList summaries) (Beneath base) :=
  .write fun _ beneath => { beneath with summaryList := fun _ => rfl }

theorem getAuctionCB_beneath : Action.Always (Beneath base) getAuctionCB (Beneath base) := by
  refine .readThen fun state _ => ?_
  split
  · exact .ret fun _ known => known
  · split
    · exact .seq (setAuctionCB_beneath _) fun _ => .ret fun _ known => known
    · exact .seq setError_beneath fun _ => .ret fun _ known => known

theorem getSummaryList_beneath : Action.Always (Beneath base) getSummaryList (Beneath base) := by
  refine .readThen fun state _ => ?_
  split
  · exact .ret fun _ known => known
  · split
    · exact .seq (setSummaryList_beneath _) fun _ => .ret fun _ known => known
    · exact .seq setError_beneath fun _ => .ret fun _ known => known

theorem newCheckpoint_beneath :
    Action.Triple (Beneath base) newCheckpoint (fun revision after => base.sm.depth < revision ∧ base.Beneath after)
      (Beneath base) := by
  refine .readThen fun state beneath => ?_
  obtain ⟨top, above, levels⟩ := beneath.levels
  refine .via (fun _ => Beneath base) (.put fun _ _ => ?_) fun _ => .ret fun _ later => ⟨?_, later⟩
  · exact { beneath with levels := ⟨newLevel, top :: above, by simp [levels]⟩ }
  · simp only [StackedMap.depth, StackedMap.push_mapStack, levels, List.length_cons, List.length_append]
    omega

theorem revertTo_beneath {revision} (inside : base.sm.depth < revision) :
    Action.Always (Beneath base) (revertTo revision) (Beneath base) := by
  refine .write fun state beneath => { beneath with source := (state.sm.popTo_src revision).trans beneath.source, levels := ?_ }
  obtain ⟨top, above, levels⟩ := beneath.levels
  change base.sm.mapStack.length < revision at inside
  have kept : (top :: above).length + base.sm.mapStack.length - revision < (top :: above).length := by
    simp only [List.length_cons]
    omega
  have dropped : (state.sm.popTo revision).mapStack =
      (top :: above).drop ((top :: above).length + base.sm.mapStack.length - revision) ++ base.sm.mapStack := by
    rw [StackedMap.popTo_mapStack, levels, ← List.cons_append, List.length_append, List.drop_append_of_le_length kept.le]
  cases remaining : (top :: above).drop ((top :: above).length + base.sm.mapStack.length - revision) with
  | nil =>
    have none_left := congrArg List.length remaining
    rw [List.length_drop, List.length_nil] at none_left
    omega
  | cons top' above' =>
    rw [remaining] at dropped
    exact ⟨top', above', dropped⟩

end State

theorem StateMethod.handle_beneath {base} (method : StateMethod) :
    Action.Always (State.Beneath base) method.handle (State.Beneath base) := by
  cases method with
  | get key => exact .readThen fun _ _ => .ret fun _ known => known
  | put key value => exact State.put_beneath key value
  | getAuctionCB => exact State.getAuctionCB_beneath
  | setAuctionCB cb => exact State.setAuctionCB_beneath cb
  | getSummaryList => exact State.getSummaryList_beneath
  | setSummaryList summaries => exact State.setSummaryList_beneath summaries
  | setError => exact State.setError_beneath

abbrev StateProgram (α : Type) := Program StateMethod StateMethod.Answer α

namespace StateProgram

def ask (method : StateMethod) : StateProgram method.Answer := Program.ask method

def getAccount (addr : Address) : StateProgram Account := ask (.get (.account addr))

def updateAccount (addr : Address) (account : Account) : StateProgram Unit := ask (.put (.account addr) account)

def getRawStorage (addr : Address) (key : StorageKey) : StateProgram Raw := ask (.get (.storage addr key))

theorem getRawStorage_run (addr : Address) (key : StorageKey) (state : State) :
    (getRawStorage addr key).run StateMethod.handle state = .ok (state.get (.storage addr key)) state := rfl

def setRawStorage (addr : Address) (key : StorageKey) (raw : Raw) : StateProgram Unit := ask (.put (.storage addr key) raw)

/-- `DecodeStorage` of a value that stays nil when it cannot be decoded: the error is absorbed, and the
caller's use of the value panics. -/
def decodeStorage {α : Type} (addr : Address) (key : StorageKey) (dec : Raw → Option α) : StateProgram α := do
  match dec (← getRawStorage addr key) with
  | some value => return value
  | none => do
    ask .setError
    throw .nilDereference

section

variable (addr : Address)

def getEnergy : StateProgram Int := do return (← getAccount addr).energy

def setEnergy (energy : Int) : StateProgram Unit := do
  updateAccount addr { ← getAccount addr with energy := energy }

def addEnergy (amount : Int) : StateProgram Unit := do
  if amount = 0 then return ()
  setEnergy addr ((← getEnergy addr) + amount)

def subEnergy (amount : Int) : StateProgram Bool := do
  if amount = 0 then return true
  let balance ← getEnergy addr
  if balance < amount then return false
  setEnergy addr (balance - amount)
  return true

def getBalance : StateProgram Int := do return (← getAccount addr).balance

def setBalance (balance : Int) : StateProgram Unit := do
  updateAccount addr { ← getAccount addr with balance := balance }

def addBalance (amount : Int) : StateProgram Unit := do
  if amount = 0 then return ()
  setBalance addr ((← getBalance addr) + amount)

def subBalance (amount : Int) : StateProgram Bool := do
  if amount = 0 then return true
  let balance ← getBalance addr
  if balance < amount then return false
  setBalance addr (balance - amount)
  return true

end

end StateProgram
end MeterPov.Accounts
