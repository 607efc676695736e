import MeterPov.Script.Env

/-! `script/accountlock`: adding, removing and moving locks, and the lock decision of a transfer.

The module looks at the best block of the node for the current epoch. -/

set_option autoImplicit false

namespace MeterPov.AccountLock

open Lib Accounts Script Auction

structure AccountLockBody where
  opcode : Nat
  lockEpoch : Nat := 0
  releaseEpoch : Nat := 0
  fromAddr : Address := 0
  toAddr : Address := 0
  meterAmount : Nat := 0
  meterGovAmount : Nat := 0
  memo : Bytes := []
  deriving DecidableEq, Repr

/-- What the module needs from outside: the decoding of payloads, the hash of a stored list, and the epoch of the best
block. -/
structure AccountLockModule where
  decodeFromBytes : Bytes → Except String AccountLockBody
  blake2b : Raw → Bytes32
  bestBlockEpoch : Exec Nat

def opAddLock : Nat := 1
def opRemoveLock : Nat := 2
def opTransfer : Nat := 3
def opGoverning : Nat := 100

-- `BytesToAddress` of "account-lock-address"
def accountLockModuleAddr : Address := 0x6163636f756e742d6c6f636b2d61646472657373

def initialDFLTeamAccounts : List Address :=
  [0x2fa2d56e312c47709537acb198446205736022aa, 0x08ebea6584b3d9bf6fbcacf1a1507d00a61d95b7,
    0x045df1ef32d6db371f1857bb60551ef2e43abb1e, 0xde4f71f45ae821614e9dd1256fef06780b775216,
    0xab22ab75f8c42b6969c5d226f39aeb7be35bf24b, 0x63723217e860bc409e29b46eec70101cd03d8242,
    0x0374f5867ab2effd2277c895e7d1088b10ec9452, 0x5308b6f26f21238963d0ea0b391eafa9be53c78e]

/-! ## The state behind the module -/

def decodeProfiles : Raw → Option (List Profile)
  | .empty => some (newProfileList [])
  | .profiles list => some (newProfileList list)
  | _ => none

/-- `GetProfileList`: nil when the stored list cannot be decoded. -/
def getProfileList : StateProgram (Option (List Profile)) := do
  match decodeProfiles (← StateProgram.getRawStorage accountLockModuleAddr .profileList) with
  | some list => return some list
  | none => do
    StateProgram.ask .setError
    return none

theorem getProfileList_run (state : State) : getProfileList.run StateMethod.handle state =
      match decodeProfiles (state.get (.storage accountLockModuleAddr .profileList)) with
      | some list => .ok (some list) state
      | none => .ok none { state with err := true } := by
  simp only [getProfileList, Program.run_bind, Action.bind_eq, StateProgram.getRawStorage_run]
  cases decodeProfiles (state.get (.storage accountLockModuleAddr .profileList)) <;> rfl

def setProfileList (list : List Profile) : StateProgram Unit :=
  StateProgram.setRawStorage accountLockModuleAddr .profileList (.profiles list)

def getProfile (list : List Profile) (addr : Address) : Option Profile := getIn Profile.addr list addr

variable (mod : AccountLockModule)

/-- `GetStorage`: the content of a stored string as 32 bytes, or the hash of a stored list. -/
def storedWord : Raw → Bytes32
  | .empty => 0
  | .number value => value.natAbs % 2 ^ 256
  | .flag value => if value then 1 else 0
  | raw => mod.blake2b raw

/-- The 32 bytes of a word, the most significant first. -/
def bytesOfWord (word : Bytes32) : Bytes :=
  (List.range 32).map fun position => UInt8.ofNat (word / 256 ^ (31 - position))

/-- The slice from the end, which has to be long enough. -/
def lastBytes (bytes : Bytes) (count : Nat) : Exec Bytes :=
  if bytes.length < count then .error .outOfRange else .ok (bytes.drop (bytes.length - count))

/-- `MustParseAddress` of the hexadecimal digits of some bytes. -/
def mustParseAddress (bytes : Bytes) : Exec Address :=
  if bytes.length = 20 then .ok (bytes.foldl (fun sum byte => sum * 256 + byte.toNat) 0)
  else .error (.raised "invalid length")

/-- `IsExclusiveAccount` takes forty bytes of the word that holds the executor's address. -/
def isExclusiveAccount (addr : Address) : StateProgram Bool := do
  let val ← StateProgram.getRawStorage paramsAddr (.param .executorAddress)
  let executorBytes ← liftM (lastBytes (bytesOfWord (storedWord mod val)) 40)
  let executor ← liftM (mustParseAddress executorBytes)
  if addr = executor then return true
  return initialDFLTeamAccounts.contains addr

def getCurrentEpoch : Exec Nat := do return (← mod.bestBlockEpoch) % 2 ^ 32

/-- The lock of an address: the amounts that have to stay, while the lock lasts. -/
def restrictByAccountLock (instance? : Option AccountLockModule) (addr : Address) : StateProgram (Option (Nat × Nat)) := do
  match instance? with
  | none => return none
  | some mod =>
    match ← getProfileList with
    | none => return none
    | some list =>
      match getProfile list addr with
      | none => return none
      | some profile => do
        if profile.releaseEpoch ≤ (← liftM (getCurrentEpoch mod)) then return none
        return some (profile.meterAmount, profile.meterGovAmount)

/-! ## The handlers -/

section

variable (env : ScriptEnv) (ab : AccountLockBody) (gas : UInt64)

/-- The stored list; a nil one is dereferenced right away. -/
def profileListOfState : ScriptM (List Profile) := do
  liftM (Exec.deref (← (getProfileList : StateProgram (Option (List Profile)))))

def handleAccountLockAdd : ScriptM Handled := do
  let pList ← profileListOfState
  let leftOverGas := leftOverOf gas
  if (getProfile pList ab.fromAddr).isSome then return (leftOverGas, some "profile is already in state")
  let p : Profile := ⟨ab.fromAddr, ab.memo, ab.lockEpoch, ab.releaseEpoch, ab.meterAmount, ab.meterGovAmount⟩
  setProfileList (addIn Profile.addr pList p)
  return (leftOverGas, none)

def handleAccountLockRemove : ScriptM Handled := do
  let pList ← profileListOfState
  let leftOverGas := leftOverOf gas
  if (getProfile pList ab.fromAddr).isNone then return (leftOverGas, some "profile is no in state")
  setProfileList (removeIn Profile.addr pList ab.fromAddr)
  return (leftOverGas, none)

/-- The two balances of the sender, each checked only for an amount that is moved. -/
def lacks : ScriptM (Option String) := do
  if ab.meterAmount ≠ 0 then
    if (← StateProgram.getEnergy ab.fromAddr) < ab.meterAmount then return some "not enough meter balance"
  if ab.meterGovAmount ≠ 0 then
    if (← StateProgram.getBalance ab.fromAddr) < ab.meterGovAmount then return some "not enough meter-gov balance"
  return none

def moveAmounts : ScriptM Unit := do
  if ab.meterAmount ≠ 0 then
    let _ ← StateProgram.subEnergy ab.fromAddr ab.meterAmount
    StateProgram.addEnergy ab.toAddr ab.meterAmount
    addTransfer ab.fromAddr ab.toAddr ab.meterAmount mtr
  if ab.meterGovAmount ≠ 0 then
    let _ ← StateProgram.subBalance ab.fromAddr ab.meterGovAmount
    StateProgram.addBalance ab.toAddr ab.meterGovAmount
    addTransfer ab.fromAddr ab.toAddr ab.meterGovAmount mtrg

/-- A profile of the sender passes its release epoch on, if that is later. -/
def handleAccountLockTransfer : ScriptM Handled := do
  let pList ← profileListOfState
  let leftOverGas := leftOverOf gas
  if (getProfile pList ab.toAddr).isSome then return (leftOverGas, some "profile of ToAddr is already in state")
  let pFrom := getProfile pList ab.fromAddr
  if pFrom.isSome then
    if !(← (isExclusiveAccount mod ab.fromAddr : StateProgram Bool)) then
      return (leftOverGas, some "profile of FromAddr is already in state")
  if let some reason ← lacks ab then return (leftOverGas, some reason)
  let release := match pFrom with
    | none => ab.releaseEpoch
    | some pFrom => max ab.releaseEpoch pFrom.releaseEpoch
  moveAmounts ab
  setProfileList (addIn Profile.addr pList ⟨ab.toAddr, ab.memo, ab.lockEpoch, release, ab.meterAmount, ab.meterGovAmount⟩)
  return (leftOverGas, none)

def governingHandler : ScriptM Handled := do
  let list? ← (getProfileList : StateProgram (Option (List Profile)))
  let curEpoch ← liftM (getCurrentEpoch mod)
  let pList ← liftM (Exec.deref list?)
  let toRemove := (pList.filter fun p => p.releaseEpoch ≤ curEpoch).map fun p => p.addr
  setProfileList (toRemove.foldl (removeIn Profile.addr) pList)
  return (leftOverOf gas, none)

/-- `Handle`. Only governing looks at the address the clause is sent to, and takes its text first. -/
def handle (payload : Bytes) (to? : Option Address) : ScriptM Handled := do
  match mod.decodeFromBytes payload with
  | .error err => return (gas, some err)
  | .ok ab =>
    if ab.opcode = opAddLock then
      if env.txCtx.origin ≠ 0 then return (gas, some "not from kblock") else handleAccountLockAdd ab gas
    else if ab.opcode = opRemoveLock then
      if env.txCtx.origin ≠ 0 then return (gas, some "not form kblock") else handleAccountLockRemove ab gas
    else if ab.opcode = opTransfer then
      if env.txCtx.origin ≠ ab.fromAddr then return (gas, some "from address is not the same from transaction")
      else handleAccountLockTransfer mod ab gas
    else if ab.opcode = opGoverning then
      let addr ← liftM (Exec.deref to?)
      if addr ≠ accountLockModuleAddr then return (gas, some "to address is not the same from module address")
      else governingHandler mod gas
    else return (gas, some "unknow AccountLock opcode")

end
end MeterPov.AccountLock
