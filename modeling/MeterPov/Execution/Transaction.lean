import MeterPov.Auction.Handlers

/-! `runtime`: buying gas, running the clauses of a transaction and settling its fee. -/

set_option autoImplicit false

namespace MeterPov.Execution

open Lib Accounts Script Auction

/-- What the script engine reads in the data of a clause. -/
inductive ScriptData where
  | undecodable (err : String)
  | auction (body : AuctionBody)
  | other (modID : Nat) (payload : Bytes)
  deriving DecidableEq, Repr

structure Clause where
  toAddr : Option Address
  value : Int
  token : Nat
  data : Bytes
  /-- Present when the data is longer than the minimum and carries the script engine's mark. -/
  script : Option ScriptData
  deriving DecidableEq, Repr

structure Transaction where
  signer : Except String Address
  intrinsicGas : Except String UInt64
  gas : UInt64
  gasPriceCoef : Nat
  clauses : List Clause
  nonce : UInt64
  /-- The gas its proved work is worth. -/
  workGas : UInt64

namespace Transaction

variable (tx : Transaction)

def gasPrice (baseGasPrice : Int) : Int := tx.gasPriceCoef * baseGasPrice / 255 + baseGasPrice

def overallGasPrice (baseGasPrice : Int) : Int :=
  if tx.workGas = 0 then tx.gasPrice baseGasPrice
  else
    let wgas := if tx.gas < tx.workGas then tx.gas else tx.workGas
    wgas.toNat * baseGasPrice / tx.gas.toNat + tx.gasPrice baseGasPrice

end Transaction

structure ResolvedTransaction where
  origin : Address
  intrinsicGas : UInt64
  deriving DecidableEq, Repr

/-- The values are added up clause by clause; the sum has to stay within 256 bits. -/
def checkValues : List Clause → Int → Except String Unit
  | [], _ => .ok ()
  | clause :: rest, sumValue =>
    if clause.value < 0 then .error "clause with negative value"
    else if 2 ^ 256 - 1 < sumValue + clause.value then .error "tx value too large"
    else checkValues rest (sumValue + clause.value)

def resolveTransaction (tx : Transaction) : Except String ResolvedTransaction := do
  let origin ← tx.signer
  let intrinsicGas ← tx.intrinsicGas
  let provided := tx.gas
  if provided < intrinsicGas then .error s!"intrinsic gas ({intrinsicGas}) exceeds provided gas ({provided})"
  checkValues tx.clauses 0
  return ⟨origin, intrinsicGas⟩

/-- The common `To` of all clauses, if there is one. -/
def commonTo : List Clause → Option Address
  | [] => none
  | first :: rest =>
    match first.toAddr with
    | none => none
    | some self => if rest.all fun clause => clause.toAddr == some self then some self else none

section

def decodeUserObject : Raw → Option UserObject
  | .empty => some {}
  | .userObject object => some object
  | _ => none

def decodeCreditPlan : Raw → Option CreditPlan
  | .empty => some {}
  | .creditPlan plan => some plan
  | _ => none

def decodeFlag : Raw → Bool
  | .flag value => value
  | _ => false

def getUserObject (self user : Address) : StateProgram UserObject :=
  StateProgram.decodeStorage prototypeAddr (.user self user) decodeUserObject

def getCreditPlan (self : Address) : StateProgram CreditPlan :=
  StateProgram.decodeStorage prototypeAddr (.creditPlan self) decodeCreditPlan

def userCredit (self user : Address) (blockTime : Nat) : StateProgram Int := do
  let object ← getUserObject self user
  if object.isEmpty then return 0
  return object.credit (← getCreditPlan self) blockTime

def setUserCredit (self user : Address) (credit : Int) (blockTime : Nat) : StateProgram Unit := do
  let plan ← getCreditPlan self
  let used := if plan.credit - credit < 0 then 0 else plan.credit - credit
  let object : UserObject := ⟨used, blockTime⟩
  StateProgram.setRawStorage prototypeAddr (.user self user)
    (if object.isEmpty then .empty else .userObject object)

def isSponsor (self sponsor : Address) : StateProgram Bool := do
  return decodeFlag (← StateProgram.getRawStorage prototypeAddr (.sponsor self sponsor))

def currentSponsor (self : Address) : StateProgram Address := do
  return (← StateProgram.decodeStorage prototypeAddr (.curSponsor self) decodeNumber).natAbs % 2 ^ 160

end

/-- What `BuyGas` returns. The credit of the common `To` is set when the gas is returned, if the gas was
bought on it. -/
structure Purchase where
  baseGasPrice : Int
  gasPrice : Int
  payer : Address
  onCredit : Option (Address × Int)
  deriving DecidableEq, Repr

def buyFromOrigin (origin : Address) (baseGasPrice gasPrice prepaid : Int) : StateProgram (Except String Purchase) := do
  let purchase : Purchase := ⟨baseGasPrice, gasPrice, origin, none⟩
  -- a transaction without a signer does not pay
  if origin = 0 then return .ok purchase
  if ← StateProgram.subEnergy origin prepaid then return .ok purchase
  return .error "insufficient energy"

def buyGas (tx : Transaction) (origin : Address) (blockTime : Nat) : StateProgram (Except String Purchase) := do
  let baseGasPrice ← getParam .baseGasPrice
  let gasPrice := tx.gasPrice baseGasPrice
  let prepaid := tx.gas.toNat * gasPrice
  match commonTo tx.clauses with
  | none => buyFromOrigin origin baseGasPrice gasPrice prepaid
  | some self => do
    let credit ← userCredit self origin blockTime
    if credit < prepaid then return ← buyFromOrigin origin baseGasPrice gasPrice prepaid
    let sponsor ← currentSponsor self
    if ← isSponsor self sponsor then
      if ← StateProgram.subEnergy sponsor prepaid then
        return .ok ⟨baseGasPrice, gasPrice, sponsor, some (self, credit)⟩
    if ← StateProgram.subEnergy self prepaid then
      return .ok ⟨baseGasPrice, gasPrice, self, some (self, credit)⟩
    buyFromOrigin origin baseGasPrice gasPrice prepaid

def returnGas (tx : Transaction) (origin : Address) (blockTime : Nat) (purchase : Purchase) (rgas : UInt64) : StateProgram Unit := do
  let returnedEnergy := rgas.toNat * purchase.gasPrice
  StateProgram.addEnergy purchase.payer returnedEnergy
  match purchase.onCredit with
  | none => return ()
  | some (self, credit) =>
    let usedEnergy := tx.gas.toNat * purchase.gasPrice - returnedEnergy
    setUserCredit self origin (credit - usedEnergy) blockTime

structure Output where
  leftOverGas : UInt64
  refundGas : UInt64
  vmErr : Option String
  events : List Event
  transfers : List Transfer
  deriving DecidableEq, Repr

structure TxOutput where
  events : List Event
  transfers : List Transfer
  deriving DecidableEq, Repr

structure Receipt where
  reverted : Bool
  outputs : List TxOutput
  gasUsed : UInt64
  gasPayer : Address
  paid : Int
  reward : Int
  deriving DecidableEq, Repr

/-- The block a transaction runs in and the code its clauses run: the virtual machine with the native
calls, and the script modules beside the auction. -/
structure Runtime where
  forks : Forks
  ctx : BlockContext
  auction : AuctionModule
  modules : Nat → Option (ScriptEnv → Bytes → Option Address → UInt64 → ScriptM Handled)
  evm : Clause → (clauseIndex : Nat) → (gas : UInt64) → TransactionContext → DBProgram Handled

namespace Runtime

variable (rt : Runtime)

def handleScriptData (env : ScriptEnv) (script : ScriptData) (clause : Clause) (gas : UInt64) : ScriptM Handled :=
  match script with
  | .undecodable err => return (gas, some err)
  | .auction body => Auction.handle rt.auction env body gas
  | .other modID payload =>
    match rt.modules modID with
    | none => return (gas, some s!"could not address module {modID}")
    | some handler => handler env payload clause.toAddr gas

def executeScript (script : ScriptData) (clause : Clause) (clauseIndex : Nat) (gas : UInt64) (txCtx : TransactionContext) :
    Action State Output := do
  let env : ScriptEnv := ⟨rt.forks, rt.ctx, txCtx, clauseIndex⟩
  let ((leftOverGas, vmErr), log) ← ((rt.handleScriptData env script clause gas).run {}).run StateMethod.handle
  return ⟨leftOverGas, 0, vmErr, log.events, log.transfers⟩

section

variable (clause : Clause) (clauseIndex : Nat) (gas : UInt64) (txCtx : TransactionContext)

/-- The virtual machine on a `StateDB` of its own. -/
def executeEVM : Action State Output :=
  fun state =>
    match (rt.evm clause clauseIndex gas txCtx).run DBMethod.handle (StateDB.new state) with
    | .ok (leftOverGas, vmErr) db => .ok ⟨leftOverGas, db.getRefund, vmErr, db.events, db.transfers⟩ db.state
    | .error fault db => .error fault db.state

def executeClause : Action State Output :=
  match clause.script with
  | none => rt.executeEVM clause clauseIndex gas txCtx
  | some script =>
    if clause.value = 0 then rt.executeScript script clause clauseIndex gas txCtx
    else rt.executeEVM clause clauseIndex gas txCtx

end

structure Executed where
  reverted : Bool
  txOutputs : List TxOutput
  leftOverGas : UInt64
  deriving DecidableEq, Repr

/-- The loop over `NextClause`; a clause that fails reverts to the checkpoint and ends it. -/
def runClauses (txCtx : TransactionContext) (checkpoint : Nat) : List Clause → List TxOutput → UInt64 → Action State Executed
  | [], txOutputs, leftOverGas => return ⟨false, txOutputs, leftOverGas⟩
  | clause :: rest, txOutputs, gas => do
    let output ← rt.executeClause clause txOutputs.length gas txCtx
    let gasUsed := gas - output.leftOverGas
    let refund := if output.refundGas < gasUsed / 2 then output.refundGas else gasUsed / 2
    let leftOverGas := output.leftOverGas + refund
    match output.vmErr with
    | some _ => do
      State.revertTo checkpoint
      return ⟨true, [], leftOverGas⟩
    | none => runClauses txCtx checkpoint rest (txOutputs ++ [⟨output.events, output.transfers⟩]) leftOverGas

/-- The gas return and the fee credit of `Finalize`. -/
def finalize (tx : Transaction) (origin : Address) (purchase : Purchase) (executed : Executed) : StateProgram Receipt := do
  let gasUsed := tx.gas - executed.leftOverGas
  let reward := gasUsed.toNat * tx.overallGasPrice purchase.baseGasPrice
  if origin ≠ 0 then
    returnGas tx origin rt.ctx.time purchase executed.leftOverGas
    let txFeeBeneficiary ← getParamAddress .transactionFeeAddress
    StateProgram.addEnergy (if txFeeBeneficiary = 0 then rt.ctx.beneficiary else txFeeBeneficiary) reward
  return ⟨executed.reverted, executed.txOutputs, gasUsed, purchase.payer, gasUsed.toNat * purchase.gasPrice, reward⟩

/-- Up to and with `BuyGas`. -/
def prepareTransaction (tx : Transaction) : Action State (Except String (ResolvedTransaction × Purchase)) :=
  match resolveTransaction tx with
  | .error err => return .error err
  | .ok resolved => do
    match ← (buyGas tx resolved.origin rt.ctx.time).run StateMethod.handle with
    | .error err => return .error err
    | .ok purchase => return .ok (resolved, purchase)

/-- The checkpoint and the clauses after it. -/
def executeClauses (tx : Transaction) (resolved : ResolvedTransaction) (purchase : Purchase) : Action State Executed := do
  let checkpoint ← State.newCheckpoint
  rt.runClauses ⟨resolved.origin, purchase.gasPrice, tx.nonce⟩ checkpoint tx.clauses [] (tx.gas - resolved.intrinsicGas)

def executeTransaction (tx : Transaction) : Action State (Except String Receipt) := do
  match ← rt.prepareTransaction tx with
  | .error err => return .error err
  | .ok (resolved, purchase) => do
    let executed ← rt.executeClauses tx resolved purchase
    State.commitScriptEngineChanges
    return .ok (← (rt.finalize tx resolved.origin purchase executed).run StateMethod.handle)

end Runtime
end MeterPov.Execution
