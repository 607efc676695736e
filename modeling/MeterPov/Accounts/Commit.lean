import MeterPov.Accounts.Regrouped
import MeterPov.Lib.Tries
import MeterPov.Lib.Trace

/-! `State.Stage` and `Stage.Commit`: the journal of a state is folded into the accounts of its root.

Tries are finite maps that are found again by their roots. Codes stand in the database under their hash. -/

set_option autoImplicit false

namespace MeterPov.Accounts

open Lib Auction

structure CommitEnv (Digest : Type) where
  accounts : Tries Address Account Digest
  storages : Tries StorageKey Raw Bytes
  zeroRoot : Digest
  accounts_zeroRoot : ∀ addr, accounts.get (accounts.resolve zeroRoot) addr = none
  /-- The root of an account without storage is the zero root. -/
  storages_nil : ∀ key, storages.get (storages.resolve []) key = none
  storages_hash : ∀ trie, storages.hash trie ≠ []
  keccak256 : Bytes → Bytes
  keccak256_injective : Function.Injective keccak256
  keccak256_ne_nil : ∀ code, keccak256 code ≠ []
  /-- The word `GetStorage` makes of a stored value. -/
  word : Raw → Nat
  word_empty : word .empty = 0

abbrev Codes := Bytes → Option Bytes

variable {Digest : Type} (env : CommitEnv Digest)

/-! ## Reading at a root -/

def loadAccount (root : Digest) (addr : Address) : Account := (env.accounts.get (env.accounts.resolve root) addr).getD {}

def loadStorage (storageRoot : Bytes) (key : StorageKey) : Raw := (env.storages.get (env.storages.resolve storageRoot) key).getD .empty

/-- A code that is not found is nil, and the error is absorbed. -/
def loadCode (kv : Codes) (codeHash : Bytes) : Bytes := if codeHash.length = 0 then [] else (kv codeHash).getD []

def cacheGetter (kv : Codes) (root : Digest) : MapGetter StateKey StateKey.Value
  | .account addr => (loadAccount env root addr, true)
  | .code addr => (loadCode kv (loadAccount env root addr).codeHash, true)
  | .storage addr key => (loadStorage env (loadAccount env root addr).storageRoot key, true)

def State.new (kv : Codes) (root : Digest) : State where
  sm := .new (cacheGetter env kv root)
  seCache := {}
  err := false

/-! ## Operations -/

/-- The operations that change a state. What `Add` and `Sub` set is the sum or the difference they computed. A master is
given by its bytes, none for the zero address. -/
inductive Operation where
  | setBalance (addr : Address) (balance : Int)
  | setEnergy (addr : Address) (energy : Int)
  | setBoundedBalance (addr : Address) (balance : Int)
  | setBoundedEnergy (addr : Address) (energy : Int)
  | setMaster (addr : Address) (master : Bytes)
  | setCode (addr : Address) (code : Bytes)
  | setStorage (addr : Address) (key : StorageKey) (value : Nat)
  | setRawStorage (addr : Address) (key : StorageKey) (raw : Raw)
  | delete (addr : Address)
  | newCheckpoint
  | revertTo (revision : Nat)
  deriving DecidableEq, Repr

def updateAccount (addr : Address) (change : Account → Account) : Action State Unit := do
  State.put (.account addr) (change ((← (MonadState.get : Action State State)).get (.account addr)))

/-- An account without code has no code hash. -/
def codeHashOf (code : Bytes) : Bytes := if code.length = 0 then [] else env.keccak256 code

def Operation.run : Operation → Action State Unit
  | .setBalance addr balance => updateAccount addr fun account => { account with balance := balance }
  | .setEnergy addr energy => updateAccount addr fun account => { account with energy := energy }
  | .setBoundedBalance addr balance => updateAccount addr fun account => { account with boundBalance := balance }
  | .setBoundedEnergy addr energy => updateAccount addr fun account => { account with boundEnergy := energy }
  | .setMaster addr master => updateAccount addr fun account => { account with master := master }
  | .setCode addr code => do
    State.put (.code addr) code
    updateAccount addr fun account => { account with codeHash := codeHashOf env code }
  | .setStorage addr key value => State.put (.storage addr key) (if value = 0 then .empty else .number value)
  | .setRawStorage addr key raw => State.put (.storage addr key) raw
  | .delete addr => State.delete addr
  | .newCheckpoint => do
    let _ ← State.newCheckpoint
    return ()
  | .revertTo revision => State.revertTo revision

/-! ## Changes and stages -/

structure ChangedObject where
  data : Account
  code : Bytes := []
  storage : AList fun _ : StorageKey => Raw := ∅

abbrev Changes := AList fun _ : Address => ChangedObject

def getOrNewObj (source : MapGetter StateKey StateKey.Value) (changes : Changes) (addr : Address) : ChangedObject :=
  (changes.lookup addr).getD { data := (source (.account addr)).1 }

def recordChange (source : MapGetter StateKey StateKey.Value) (changes : Changes) : ((key : StateKey) × key.Value) → Changes
  | ⟨.account addr, data⟩ => changes.insert addr { getOrNewObj source changes addr with data := data }
  | ⟨.code addr, code⟩ => changes.insert addr { getOrNewObj source changes addr with code := code }
  | ⟨.storage addr key, raw⟩ =>
    let obj := getOrNewObj source changes addr
    changes.insert addr { obj with storage := obj.storage.insert key raw }

def State.changes (state : State) : Changes := state.sm.journal.foldl (recordChange state.sm.src) ∅

structure Stage where
  accountTrie : env.accounts.Trie
  codes : List (Bytes × Bytes)

/-- Empty data deletes the key. -/
def storedRaw : Raw → Option Raw
  | .empty => none
  | raw => some raw

def storedAccount (account : Account) : Option Account := if account.isEmpty then none else some account

def Account.negative (account : Account) : Bool :=
  account.balance < 0 || account.energy < 0 || account.boundBalance < 0 || account.boundEnergy < 0

def saveAccount (trie : env.accounts.Trie) (addr : Address) (account : Account) : Except String env.accounts.Trie :=
  if account.isEmpty = false ∧ account.negative then .error "rlp: cannot encode negative *big.Int"
  else .ok (env.accounts.update trie addr (storedAccount account))

/-- The data of an object that has changed; its storage root is a new one when a slot was written. -/
def ChangedObject.staged (obj : ChangedObject) : Account :=
  if obj.storage.entries.length = 0 then obj.data
  else { obj.data with
    storageRoot := env.storages.hash (obj.storage.entries.foldl
      (fun trie entry => env.storages.update trie entry.1 (storedRaw entry.2)) (env.storages.resolve obj.data.storageRoot)) }

def stageObject (stage : Stage env) (entry : Sigma fun _ : Address => ChangedObject) : Except String (Stage env) := do
  let obj := entry.2
  let codes := if obj.code.length = 0 then stage.codes else stage.codes ++ [(obj.data.codeHash, obj.code)]
  let trie ← saveAccount env stage.accountTrie entry.1 (obj.staged env)
  return ⟨trie, codes⟩

def newStage (root : Digest) (changes : Changes) : Except String (Stage env) :=
  changes.entries.foldlM (stageObject env) ⟨env.accounts.resolve root, []⟩

def State.stage (root : Digest) (state : State) : Except String (Stage env) :=
  if state.err then .error "state error" else newStage env root state.changes

def putCodes (kv : Codes) (batch : List (Bytes × Bytes)) : Codes :=
  batch.foldl (fun kv entry => Function.update kv entry.1 (some entry.2)) kv

/-- The database after the batch, and the root. -/
def Stage.commit (kv : Codes) (stage : Stage env) : Codes × Digest := (putCodes kv stage.codes, env.accounts.hash stage.accountTrie)

/-- `Stage().Commit()` -/
def State.commit (kv : Codes) (root : Digest) (state : State) : Except String (Codes × Digest) := do
  let stage ← state.stage env root
  return stage.commit env kv

end MeterPov.Accounts
