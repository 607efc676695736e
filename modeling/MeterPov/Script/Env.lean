import MeterPov.Accounts.StateDB

/-! What a script handler runs in: the block and the transaction around it, the native contracts it
reads and writes, and the transfers and events it leaves. -/

set_option autoImplicit false

namespace MeterPov.Script

open Lib Accounts Auction

inductive Network where
  | mainnet
  | testnet
  | other
  deriving DecidableEq, Repr

/-- The network and the last blocks before its forks. -/
structure Forks where
  network : Network
  teslaFork3 : Nat
  teslaFork6 : Nat
  teslaFork7 : Nat
  teslaFork8 : Nat
  teslaFork10 : Nat
  auctionDefect : Nat
  deriving DecidableEq, Repr

namespace Forks

variable (forks : Forks) (blockNum : Nat)

def isAfter (start : Nat) : Bool :=
  match forks.network with
  | .other => false
  | _ => start < blockNum

def isTeslaFork3 : Bool := forks.isAfter blockNum forks.teslaFork3

def isTeslaFork6 : Bool := forks.isAfter blockNum forks.teslaFork6

def isTeslaFork7 : Bool := forks.isAfter blockNum forks.teslaFork7

def isTeslaFork8 : Bool := forks.isAfter blockNum forks.teslaFork8

def isTeslaFork10 : Bool := forks.isAfter blockNum forks.teslaFork10

end Forks

structure BlockContext where
  beneficiary : Address
  number : Nat
  time : Nat
  deriving DecidableEq, Repr

structure TransactionContext where
  origin : Address
  gasPrice : Int
  nonce : UInt64
  deriving DecidableEq, Repr

structure ScriptEnv where
  forks : Forks
  blockCtx : BlockContext
  txCtx : TransactionContext
  clauseIndex : Nat

/-- `BytesToAddress` of "validator-benefit-address", which keeps the last twenty bytes. -/
def validatorBenefitAddr : Address := 0x61746f722d62656e656669742d61646472657373

-- "Params", "MeterNative" and "Prototype"
def paramsAddr : Address := 0x506172616d73
def meterTrackerAddr : Address := 0x4d657465724e6174697665
def prototypeAddr : Address := 0x50726f746f74797065

def mtr : Nat := 0
def mtrg : Nat := 1

def clauseGas : UInt64 := 16000

/-- The gas left of a clause and the error it returns, if any. -/
abbrev Handled := UInt64 × Option String

def leftOverOf (gas : UInt64) : UInt64 := if gas < clauseGas then 0 else gas - clauseGas

/-- The transfers and events a handler has added to its environment. -/
structure ScriptLog where
  transfers : List Transfer := []
  events : List Event := []
  deriving DecidableEq, Repr

abbrev ScriptM (α : Type) := StateT ScriptLog (Program StateMethod StateMethod.Answer) α

instance : MonadLift Exec (Program StateMethod StateMethod.Answer) where
  monadLift
    | .ok value => .done value
    | .error fault => .stop fault

def decodeNumber : Raw → Option Int
  | .empty => some 0
  | .number value => some value
  | _ => none

/-- `Params.Get`. -/
def getParam (key : Param) : StateProgram Int := StateProgram.decodeStorage paramsAddr (.param key) decodeNumber

/-- `Params.GetAddress`: the low twenty bytes of the number. -/
def getParamAddress (key : Param) : StateProgram Address := do
  return (← getParam key).natAbs % 2 ^ 160

def addTransfer (sender recipient : Address) (amount : Int) (token : Nat) : ScriptM Unit :=
  modify fun log => { log with transfers := log.transfers ++ [⟨sender, recipient, amount, token⟩] }

def addEvent (event : Event) : ScriptM Unit :=
  modify fun log => { log with events := log.events ++ [event] }

def decodeTotal : Raw → Option MeterGovTotalAddSub
  | .empty => some {}
  | .total total => some total
  | _ => none

/-- `MeterTracker.MintMeterGov` of the tracker at `tracker`. -/
def mintMeterGov (tracker addr : Address) (amount : Int) : StateProgram Unit := do
  if amount = 0 then return ()
  let gov ← StateProgram.getBalance addr
  let total ← StateProgram.decodeStorage tracker .meterGovTotalAddSub decodeTotal
  StateProgram.setRawStorage tracker .meterGovTotalAddSub (.total { total with totalAdd := total.totalAdd + amount })
  StateProgram.setBalance addr (gov + amount)

/-- Energy moved to or from the auction account; `false` when there is not enough of it. -/
def transferMTR (sender recipient : Address) (amount : Int) : ScriptM Bool := do
  if amount = 0 then return true
  if (← StateProgram.getEnergy sender) < amount then return false
  let _ ← StateProgram.subEnergy sender amount
  StateProgram.addEnergy recipient amount
  addTransfer sender recipient amount mtr
  return true

def transferAutobidMTRToAuction (amount : Int) : ScriptM Bool := transferMTR validatorBenefitAddr auctionModuleAddr amount

def transferMTRToAuction (addr : Address) (amount : Int) : ScriptM Bool := transferMTR addr auctionModuleAddr amount

def transferMTRToValidatorBenefit (amount : Int) : ScriptM Bool := transferMTR auctionModuleAddr validatorBenefitAddr amount

end MeterPov.Script
