import MeterPov.Consensus.VerifyBlock
import MeterPov.Execution.Regrouped
import MeterPov.Lib.Trace

/-! Packing a block (`packer/flow.go`), and the validator's run over it.

Reading the chain, hashing and signing are parameters, and so is what a runtime is made of in the context of a block. The
state of the parent is the one `runtime.New` leaves, on both sides. -/

set_option autoImplicit false

namespace MeterPov.Packer

open Lib Accounts Blocks Consensus Execution Auction List Action

structure BlockContext where
  beneficiary : Address
  signer : Address
  number : Nat
  time : Nat
  gasLimit : UInt64
  totalScore : Nat

structure Transaction (Digest : Type) extends Execution.Transaction where
  id : Digest
  chainTag : Nat
  blockRef : Nat
  expiration : Nat
  dependsOn : Option Digest
  /-- Whether a wrapped Ethereum transaction agrees with its wrapper. -/
  ethTxValidate : Except String Unit

def Transaction.isExpired {Digest : Type} (tx : Transaction Digest) (blockNum : Nat) : Bool := tx.blockRef + tx.expiration < blockNum

structure PackerEnv (Digest : Type) where
  hashing : Hashing Digest Address
  zeroAddress_eq : hashing.zeroAddress = 0
  chainTag : Nat
  nodeMaster : Address
  runtime : BlockContext → Runtime
  /-- A transaction on the chain that ends in the given block, with its reverted flag. -/
  transactionMeta : Digest → BlockID Digest → Except String (Option Bool)
  newState : Digest → Except String State
  /-- The root of a state, from the one it started at and the changes since. -/
  stageHash : MapGetter StateKey StateKey.Value → List ((key : StateKey) × key.Value) → Except String Digest
  txsRoot : List (Transaction Digest) → Digest
  receiptsRoot : List Receipt → Digest
  sign : Header Digest Address → Blocks.Bytes
  /-- The comparison of gas with nine tenths of the limit, in floating point. -/
  belowNinety : UInt64 → UInt64 → Bool

inductive AdoptError where
  | badTx (message : String)
  | notAdoptableNow
  | notAdoptableForever
  | gasLimitReached
  | knownTx
  | other (message : String)
  deriving DecidableEq, Repr

/-- The block that is built on, with its state. -/
structure Parent (Digest : Type) where
  header : Header Digest Address
  state : State
  held : state.sm.mapStack ≠ []

structure Slot where
  beneficiary : Address
  time : Nat
  gasLimit : UInt64
  blockType : BlockType
  lastKBlockHeight : Nat

structure Flow (Digest : Type) where
  state : State
  processedTxs : List (Digest × Bool)
  gasUsed : UInt64
  txs : List (Transaction Digest)
  receipts : List Receipt

variable {Digest : Type} [DecidableEq Digest] (env : PackerEnv Digest) (parent : Parent Digest) (slot : Slot)

def newFlow : Flow Digest := ⟨parent.state, [], 0, [], []⟩

def context : BlockContext where
  beneficiary := slot.beneficiary
  signer := env.nodeMaster
  number := (parent.header.number + 1) % 2 ^ 32
  time := slot.time
  gasLimit := slot.gasLimit
  totalScore := (parent.header.totalScore + 1) % 2 ^ 64

namespace Flow

variable (flow : Flow Digest)

def findTx (txID : Digest) : Except String (Option Bool) :=
  match flow.processedTxs.lookup txID with
  | some reverted => .ok (some reverted)
  | none => env.transactionMeta txID (parent.header.id env.hashing)

def dependencyError (tx : Transaction Digest) : Option AdoptError :=
  match tx.dependsOn with
  | none => none
  | some dep =>
    match flow.findTx env parent dep with
    | .error reason => some (.other reason)
    | .ok none => some .notAdoptableNow
    | .ok (some true) => some .notAdoptableForever
    | .ok (some false) => none

/-- What a transaction is refused for before it is executed. The sum of gas wraps around. -/
def refusal (tx : Transaction Digest) : Option AdoptError :=
  let ctx := context env parent slot
  if tx.chainTag ≠ env.chainTag then some (.badTx "chain tag mismatch")
  else if ctx.number < tx.blockRef then some .notAdoptableNow
  else if tx.isExpired ctx.number then some (.badTx "bad tx - expired")
  else if ctx.gasLimit < flow.gasUsed + tx.gas then
    some (if env.belowNinety flow.gasUsed ctx.gasLimit then .notAdoptableNow else .gasLimitReached)
  else
    match tx.ethTxValidate with
    | .error reason => some (.other reason)
    | .ok _ =>
      match flow.findTx env parent tx.id with
      | .error reason => some (.other reason)
      | .ok (some _) => some .knownTx
      | .ok none => flow.dependencyError env parent tx

end Flow

def onState {α : Type} : Action State α → Action (Flow Digest) α :=
  Action.focus Flow.state fun flow state => { flow with state := state }

def adopt (tx : Transaction Digest) : Action (Flow Digest) (Option AdoptError) := do
  match (← (MonadState.get : Action (Flow Digest) (Flow Digest))).refusal env parent slot tx with
  | some err => return some err
  | none => do
    let checkpoint ← onState State.newCheckpoint
    match ← onState ((env.runtime (context env parent slot)).executeTransaction tx.toTransaction) with
    | .error reason => do
      onState (State.revertTo checkpoint)
      return some (.badTx reason)
    | .ok receipt => do
      modify fun flow => { flow with
        processedTxs := (tx.id, receipt.reverted) :: flow.processedTxs
        gasUsed := flow.gasUsed + receipt.gasUsed
        txs := flow.txs ++ [tx]
        receipts := flow.receipts ++ [receipt] }
      return none

/-- `Stage` and `Hash`. -/
def stateRoot (state : State) : Except String Digest :=
  if state.err then .error "state error" else env.stageHash state.sm.src state.sm.journal

/-- The header before it is signed. -/
def packedHeader (flow : Flow Digest) (txs : List (Transaction Digest)) (root : Digest) : Header Digest Address :=
  let ctx := context env parent slot
  { parentID := parent.header.id env.hashing
    timestamp := ctx.time
    gasLimit := ctx.gasLimit.toNat
    lastKBlockHeight := slot.lastKBlockHeight
    blockType := slot.blockType
    beneficiary := ctx.beneficiary
    gasUsed := flow.gasUsed.toNat
    totalScore := ctx.totalScore
    txsRoot := env.txsRoot txs
    stateRoot := root
    receiptsRoot := env.receiptsRoot flow.receipts
    evidenceDataRoot := env.hashing.zeroDigest
    signature := [] }

/-- The certificate and the committee are set later. -/
def pack (flow : Flow Digest) : Except String (Block Digest Address (Transaction Digest)) := do
  let root ← stateRoot env flow.state
  let txs := if slot.blockType = .sBlock then [] else flow.txs
  let header := packedHeader env parent slot flow txs root
  .ok
    { header := { header with signature := env.sign header }
      txs := txs
      qc := ⟨0, 0, 0, [], env.hashing.zeroDigest, []⟩
      committeeEpoch := 0
      kBlockNonce := 0
      magic := 0 }

/-! ## The validator -/

/-- The context of `VerifyBlock`. A signer that is not recovered is the zero address. -/
def headerContext (header : Header Digest Address) : BlockContext where
  beneficiary := header.beneficiary
  signer := match header.signer env.hashing with
    | .ok signer => signer
    | .error _ => 0
  number := header.number
  time := header.timestamp
  gasLimit := UInt64.ofNat header.gasLimit
  totalScore := header.totalScore

/-- A panic ends the run like an error. -/
def executeTransaction (header : Header Digest Address) (state : State) (tx : Transaction Digest) : Except String (State × Receipt) :=
  match (env.runtime (headerContext env header)).executeTransaction tx.toTransaction state with
  | .ok (.ok receipt) next => .ok (next, receipt)
  | .ok (.error reason) _ => .error reason
  | .error _ _ => .error "panic"

def validateEnv : ValidateEnv Digest Address (Transaction Digest) State Receipt where
  hashing := env.hashing
  chainTag := env.chainTag
  txID := Transaction.id
  txSigner tx := tx.signer
  txChainTag := Transaction.chainTag
  txBlockRef := Transaction.blockRef
  txExpiration := Transaction.expiration
  txDependsOn := Transaction.dependsOn
  txsRoot := env.txsRoot
  newState := env.newState
  executeTransaction := executeTransaction env
  receiptGasUsed receipt := receipt.gasUsed.toNat
  receiptReverted := Receipt.reverted
  receiptsRoot := env.receiptsRoot
  stateRoot := stateRoot env
  transactionMeta := env.transactionMeta

/-! Where the packer and the validator agree.

The packer executes each transaction behind a checkpoint of its own and the validator does not: their states hold the same
entries in other levels. -/

open Lib Accounts Consensus

variable {env} {parent} {slot} {flow next : Flow Digest} {tx : Transaction Digest} {outcome : Option AdoptError}

/-! ## One transaction -/

def adopted (flow : Flow Digest) (tx : Transaction Digest) (receipt : Receipt) (state : State) : Flow Digest where
  state := state
  processedTxs := (tx.id, receipt.reverted) :: flow.processedTxs
  gasUsed := flow.gasUsed + receipt.gasUsed
  txs := flow.txs ++ [tx]
  receipts := flow.receipts ++ [receipt]

omit [DecidableEq Digest] in
theorem onState_ok {α action} {result : α} (ran : onState action flow = .ok result next) :
    ∃ state, action flow.state = .ok result state ∧ next = { flow with state := state } := by
  unfold onState Action.focus at ran
  split at ran
  next value part inner =>
    cases ran
    exact ⟨part, inner, rfl⟩
  · cases ran

/-- The flow is as it was, or the transaction was executed behind a checkpoint. -/
theorem adopt_ok (ran : adopt env parent slot tx flow = .ok outcome next) :
    (outcome.isSome ∧ next = flow) ∨ (outcome = none ∧ flow.refusal env parent slot tx = none ∧ ∃ receipt state,
      (env.runtime (context env parent slot)).executeTransaction tx.toTransaction { flow.state with sm := flow.state.sm.push } =
        .ok (.ok receipt) state ∧ next = adopted flow tx receipt state) := by
  obtain ⟨_, _, read, ran⟩ := bind_eq_ok.mp ran
  cases read
  cases refused : flow.refusal env parent slot tx with
  | some err =>
    rw [refused] at ran
    cases ran
    exact .inl ⟨rfl, rfl⟩
  | none =>
    rw [refused] at ran
    obtain ⟨checkpoint, pushed, checked, ran⟩ := bind_eq_ok.mp ran
    cases checked
    obtain ⟨result, after, inner, ran⟩ := bind_eq_ok.mp ran
    obtain ⟨state, executed, rfl⟩ := onState_ok inner
    cases result with
    | error reason =>
      left
      obtain ⟨_, back, inner, ran⟩ := bind_eq_ok.mp ran
      obtain ⟨restored, reverted, rfl⟩ := onState_ok inner
      cases ran
      have original := Execution.refused_restored _ executed
      have same : restored = flow.state := by
        have both := reverted.symm.trans original
        cases both
        rfl
      exact ⟨rfl, by rw [same]⟩
    | ok receipt =>
      obtain ⟨_, written, updated, ran⟩ := bind_eq_ok.mp ran
      cases updated
      cases ran
      exact .inr ⟨rfl, rfl, receipt, state, executed, rfl⟩

/-! ## What was checked -/

/-- The checks of a transaction that is executed. The gas of the block stays within its limit when the sum does not wrap around. -/
structure Admitted (env : PackerEnv Digest) (parent : Parent Digest) (slot : Slot) (flow : Flow Digest) (tx : Transaction Digest) : Prop where
  gas : flow.gasUsed + tx.gas ≤ slot.gasLimit
  new : flow.findTx env parent tx.id = .ok none
  dependency : ∀ dep ∈ tx.dependsOn, flow.findTx env parent dep = .ok (some false)

theorem admitted_of_refusal (passed : flow.refusal env parent slot tx = none) : Admitted env parent slot flow tx := by
  unfold Flow.refusal at passed
  dsimp only at passed
  split at passed
  · cases passed
  split at passed
  · cases passed
  split at passed
  · cases passed
  split at passed
  · cases passed
  next gas =>
  split at passed
  · cases passed
  split at passed
  · cases passed
  · cases passed
  next new =>
  refine ⟨UInt64.not_lt.mp gas, new, ?_⟩
  intro dep depends
  unfold Flow.dependencyError at passed
  rw [Option.mem_def.mp depends] at passed
  dsimp only at passed
  split at passed
  · cases passed
  · cases passed
  · cases passed
  next found => exact found

variable {block : Block Digest Address (Transaction Digest)} {receipt : Receipt} {txID : Digest} {after state : State}

/-- The packer and the validator look for transactions in the same places. -/
theorem findTx_eq {processed found} (same : flow.processedTxs = processed) (ran : flow.findTx env parent txID = .ok found) :
    findTx (validateEnv env) (parent.header.id env.hashing) processed txID = .ok found := by
  subst same
  unfold Flow.findTx at ran
  unfold findTx
  cases known : flow.processedTxs.lookup txID with
  | some reverted => simpa [known] using ran
  | none =>
    simp only [known] at ran
    simp only [validateEnv, ran]

theorem signed_of_executed {rt : Runtime} {tx start after} (executed : rt.executeTransaction tx start = .ok (.ok receipt) after) : ∃ origin, tx.signer = .ok origin := by
  obtain ⟨outcome, paid, prepared, rest⟩ := bind_eq_ok.mp executed
  cases outcome with
  | error reason => cases rest
  | ok both =>
    have known := Execution.resolved_of_prepared rt prepared
    obtain ⟨origin, signed, -⟩ := check_bind_eq_ok.mp known
    exact ⟨origin, signed⟩

/-! ## Runs -/

/-- The sum of gas does not wrap around, and only a K-block takes a transaction without an origin. -/
def Meets (slot : Slot) (flow : Flow Digest) (tx : Transaction Digest) : Prop :=
  flow.gasUsed.toNat + tx.gas.toNat < 2 ^ 64 ∧ (slot.blockType ≠ .kBlock → ¬ tx.signer = .ok 0)

instance {slot flow} (tx : Transaction Digest) : Decidable (Meets slot flow tx) := by
  unfold Meets
  infer_instance

/-- A block that is executed in the context it was packed in. -/
structure Fits (env : PackerEnv Digest) (parent : Parent Digest) (slot : Slot) (block : Block Digest Address (Transaction Digest)) : Prop where
  parentID : block.parentID = parent.header.id env.hashing
  blockType : block.header.blockType = slot.blockType
  context : headerContext env block.header = context env parent slot

/-- The transactions so far, as a validator runs them. -/
structure Replayed (env : PackerEnv Digest) (parent : Parent Digest) (slot : Slot) (flow : Flow Digest) (state : State) : Prop where
  run : ∀ block, Fits env parent slot block →
    flow.txs.foldlM (verifyTx (validateEnv env) block) (parent.state, [], []) = .ok (state, flow.processedTxs, flow.receipts)
  regrouped : ∃ depth depth', State.Regrouped depth depth' state flow.state

theorem replayed_newFlow : Replayed env parent slot (newFlow parent) parent.state where
  run _ _ := rfl
  regrouped := ⟨_, _, .of_sameEntries rfl rfl rfl (.refl parent.held)⟩

/-- The validator runs from other levels, so it ends in other levels, with the same receipt. -/
theorem executed_regrouped {rt : Runtime} {tx mine} (known : ∃ depth depth', State.Regrouped depth depth' state mine)
    (executed : rt.executeTransaction tx { mine with sm := mine.sm.push } = .ok (.ok receipt) after) :
    ∃ ended, rt.executeTransaction tx state = .ok (.ok receipt) ended ∧ ∃ depth depth', State.Regrouped depth depth' ended after := by
  obtain ⟨depth, depth', known⟩ := known
  have pushed : State.Regrouped _ _ state { mine with sm := mine.sm.push } :=
    .of_sameEntries known.source known.seCache known.err known.sameEntries.push
  have alike := rt.executeTransaction_regrouped tx state { mine with sm := mine.sm.push } pushed
  rw [executed] at alike
  cases ran : rt.executeTransaction tx state with
  | error reason ended =>
    rw [ran] at alike
    exact alike.elim
  | ok result ended =>
    rw [ran] at alike
    obtain ⟨rfl, related⟩ := alike
    exact ⟨ended, rfl, _, _, related⟩

theorem Replayed.adopted (known : Replayed env parent slot flow state)
    (signer : slot.blockType ≠ .kBlock → ¬ tx.signer = .ok 0) (admitted : Admitted env parent slot flow tx)
    (executed : (env.runtime (context env parent slot)).executeTransaction tx.toTransaction
      { flow.state with sm := flow.state.sm.push } = .ok (.ok receipt) after) :
    ∃ ended, Replayed env parent slot (adopted flow tx receipt after) ended := by
  obtain ⟨ended, replayed, related⟩ := executed_regrouped known.regrouped executed
  refine ⟨ended, ?_, related⟩
  intro block fits
  have step : verifyTx (validateEnv env) block (state, flow.processedTxs, flow.receipts) tx =
      .ok (ended, (tx.id, receipt.reverted) :: flow.processedTxs, flow.receipts ++ [receipt]) := by
    apply verifyTx_eq_ok.mpr
    refine ⟨⟨?_, ?_, ?_⟩, receipt, ?_, rfl, rfl⟩
    · obtain ⟨origin, signed⟩ := signed_of_executed executed
      refine ⟨origin, signed, ?_⟩
      rintro ⟨none, notK⟩
      have plain : slot.blockType ≠ .kBlock := by simpa [Block.isKBlock, fits.blockType] using notK
      apply signer plain
      rw [signed, none]
      exact congrArg Except.ok env.zeroAddress_eq
    · rw [fits.parentID]
      exact findTx_eq rfl admitted.new
    · intro dep depends
      rw [fits.parentID]
      exact findTx_eq rfl (admitted.dependency dep depends)
    · change executeTransaction env block.header state tx = _
      unfold executeTransaction
      rw [fits.context, replayed]
  change (flow.txs ++ [tx]).foldlM _ _ = _
  rw [foldlM_append, known.run block fits]
  change (verifyTx (validateEnv env) block (state, flow.processedTxs, flow.receipts) tx >>= pure) = _
  rw [step]
  rfl

/-! ## Gas and dependencies -/

/-- A transaction among the first ones of a list, with the flag of its receipt. -/
def ExecutedWithin (txs : List (Transaction Digest)) (receipts : List Receipt) (bound : Nat) (txID : Digest) (reverted : Bool) : Prop :=
  ∃ (position : Nat) (tx : Transaction Digest) (receipt : Receipt), position < bound ∧ txs[position]? = some tx ∧
    receipts[position]? = some receipt ∧ tx.id = txID ∧ receipt.reverted = reverted

/-- Each transaction another one depends on is an earlier one of the list, or on the chain, and was not reverted. -/
def DependenciesExecuted (env : PackerEnv Digest) (parentID : BlockID Digest) (txs : List (Transaction Digest)) (receipts : List Receipt) : Prop :=
  ∀ (position : Nat) (tx : Transaction Digest), txs[position]? = some tx → ∀ dep ∈ tx.dependsOn,
    ExecutedWithin txs receipts position dep false ∨ env.transactionMeta dep parentID = .ok (some false)

theorem getElem?_snoc {α : Type} {list} {position : Nat} {found last : α} (known : list[position]? = some found) :
    (list ++ [last])[position]? = some found := by
  rw [List.getElem?_append_left (List.getElem?_eq_some_iff.mp known).1]
  exact known

omit [DecidableEq Digest] in
theorem ExecutedWithin.snoc {txs receipts bound reverted}
    (known : ExecutedWithin txs receipts bound txID reverted) (last : Transaction Digest) (receipt : Receipt) : ExecutedWithin (txs ++ [last]) (receipts ++ [receipt]) bound txID reverted := by
  obtain ⟨position, tx, given, before, placed, received, rest⟩ := known
  exact ⟨position, tx, given, before, getElem?_snoc placed, getElem?_snoc received, rest⟩

/-- What the flow counts and records is what its transactions and receipts say. -/
structure Accounted (env : PackerEnv Digest) (parent : Parent Digest) (slot : Slot) (flow : Flow Digest) : Prop where
  length : flow.receipts.length = flow.txs.length
  gas : flow.gasUsed.toNat = (flow.receipts.map fun receipt => receipt.gasUsed.toNat).sum
  limit : flow.gasUsed ≤ slot.gasLimit
  processed : ∀ txID reverted, flow.processedTxs.lookup txID = some reverted →
    ExecutedWithin flow.txs flow.receipts flow.txs.length txID reverted
  dependencies : DependenciesExecuted env (parent.header.id env.hashing) flow.txs flow.receipts

theorem accounted_newFlow : Accounted env parent slot (newFlow parent) where
  length := rfl
  gas := rfl
  limit := UInt64.zero_le
  processed _ _ found := by cases found
  dependencies _ _ found := by simp [newFlow] at found

theorem Accounted.dependency (known : Accounted env parent slot flow) {dep} (found : flow.findTx env parent dep = .ok (some false)) :
    ExecutedWithin flow.txs flow.receipts flow.txs.length dep false ∨
      env.transactionMeta dep (parent.header.id env.hashing) = .ok (some false) := by
  unfold Flow.findTx at found
  cases listed : flow.processedTxs.lookup dep with
  | none =>
    simp only [listed] at found
    exact .inr found
  | some reverted =>
    simp only [listed, Except.ok.injEq, Option.some.injEq] at found
    subst found
    exact .inl (known.processed dep false listed)

theorem Accounted.dependencies_adopted (known : Accounted env parent slot flow) (admitted : Admitted env parent slot flow tx)
    (receipt : Receipt) :
    DependenciesExecuted env (parent.header.id env.hashing) (flow.txs ++ [tx]) (flow.receipts ++ [receipt]) := by
  intro position other placed dep depends
  by_cases earlier : position < flow.txs.length
  · rw [List.getElem?_append_left earlier] at placed
    exact (known.dependencies position other placed dep depends).imp_left fun executed => executed.snoc tx receipt
  · have bound := (List.getElem?_eq_some_iff.mp placed).1
    have last : position = flow.txs.length := by
      rw [length_append, length_singleton] at bound
      omega
    subst last
    have same : tx = other := by simpa using placed
    subst same
    exact (known.dependency (admitted.dependency dep depends)).imp_left fun executed => executed.snoc tx receipt

theorem Accounted.processed_adopted (known : Accounted env parent slot flow) (receipt : Receipt) {reverted}
    (found : ((tx.id, receipt.reverted) :: flow.processedTxs).lookup txID = some reverted) :
    ExecutedWithin (flow.txs ++ [tx]) (flow.receipts ++ [receipt]) (flow.txs ++ [tx]).length txID reverted := by
  rw [lookup_cons] at found
  split at found
  next same =>
    cases found
    refine ⟨flow.txs.length, tx, receipt, by simp, by simp, ?_, (beq_iff_eq.mp same).symm, rfl⟩
    rw [← known.length]
    simp
  · obtain ⟨position, other, given, before, rest⟩ := (known.processed txID reverted found).snoc tx receipt
    refine ⟨position, other, given, ?_, rest⟩
    rw [length_append]
    omega

theorem Accounted.adopted (known : Accounted env parent slot flow) (admitted : Admitted env parent slot flow tx)
    (small : flow.gasUsed.toNat + tx.gas.toNat < 2 ^ 64) (used : receipt.gasUsed ≤ tx.gas) :
    Accounted env parent slot (adopted flow tx receipt after) := by
  have within := UInt64.le_iff_toNat_le.mp used
  -- the check was made on the sum that may wrap around; below 2 ^ 64 it is the sum
  have checked : flow.gasUsed.toNat + tx.gas.toNat ≤ slot.gasLimit.toNat := by
    have checked := UInt64.le_iff_toNat_le.mp admitted.gas
    rwa [UInt64.toNat_add, Nat.mod_eq_of_lt small] at checked
  have sum : (flow.gasUsed + receipt.gasUsed).toNat = flow.gasUsed.toNat + receipt.gasUsed.toNat := by
    rw [UInt64.toNat_add, Nat.mod_eq_of_lt (by omega)]
  refine ⟨?_, ?_, ?_, fun _ _ => known.processed_adopted receipt, known.dependencies_adopted admitted receipt⟩
  · simp [Packer.adopted, known.length]
  · simp [Packer.adopted, sum, known.gas]
  · apply UInt64.le_iff_toNat_le.mpr
    change (flow.gasUsed + receipt.gasUsed).toNat ≤ _
    omega

/-! ## The packed block -/

/-- One call of `Adopt`, under the condition. -/
def Adopts (env : PackerEnv Digest) (parent : Parent Digest) (slot : Slot) (flow : Flow Digest) (tx : Transaction Digest) (next : Flow Digest) : Prop :=
  Meets slot flow tx ∧ ∃ outcome, adopt env parent slot tx flow = .ok outcome next

theorem adopts_kept (frugal : ∀ ctx, (env.runtime ctx).Frugal) (known : Accounted env parent slot flow ∧ ∃ state, Replayed env parent slot flow state)
    (taken : Adopts env parent slot flow tx next) : Accounted env parent slot next ∧ ∃ state, Replayed env parent slot next state := by
  obtain ⟨⟨small, signer⟩, outcome, ran⟩ := taken
  obtain ⟨accounted, state, replayed⟩ := known
  rcases adopt_ok ran with ⟨-, rfl⟩ | ⟨-, passed, receipt, after, executed, rfl⟩
  · exact ⟨accounted, state, replayed⟩
  · have admitted := admitted_of_refusal passed
    have used := Execution.gasUsed_le _ (frugal _) executed
    exact ⟨accounted.adopted admitted small used, replayed.adopted signer admitted executed⟩

/-- The key signs for the node. -/
def Signs (env : PackerEnv Digest) : Prop := ∀ header : Header Digest Address,
  env.hashing.sigToPub (env.hashing.signingHash { header with signature := env.sign header }) (env.sign header) = .ok env.nodeMaster

structure Packed (env : PackerEnv Digest) (parent : Parent Digest) (slot : Slot) (flow : Flow Digest)
    (block : Block Digest Address (Transaction Digest)) : Prop where
  txs : block.txs = flow.txs
  root : stateRoot env flow.state = .ok block.header.stateRoot
  receiptsRoot : block.header.receiptsRoot = env.receiptsRoot flow.receipts
  gasUsed : block.header.gasUsed = flow.gasUsed.toNat
  gasLimit : block.header.gasLimit = slot.gasLimit.toNat
  fits : Fits env parent slot block

omit [DecidableEq Digest] in
theorem packed_of_pack (signs : Signs env) (numbered : parent.header.number + 1 < 2 ^ 32)
    (notS : slot.blockType ≠ .sBlock) (ran : pack env parent slot flow = .ok block) :
    Packed env parent slot flow block := by
  obtain ⟨root, staged, ran⟩ := check_bind_eq_ok.mp ran
  simp only [if_neg notS] at ran
  cases ran
  refine ⟨rfl, staged, rfl, rfl, rfl, rfl, rfl, ?_⟩
  have positive : ¬ (parent.header.number + 1) % 2 ^ 32 = 0 := by omega
  unfold headerContext context
  simp only [packedHeader, context, Header.signer, Header.number, Header.id_number] at *
  rw [if_neg positive]
  have recovered := signs (packedHeader env parent slot flow flow.txs root)
  simp only [packedHeader, context, Header.number] at recovered
  rw [recovered]
  simp

theorem Replayed.stateRoot_eq (known : Replayed env parent slot flow state) : stateRoot env state = stateRoot env flow.state := by
  obtain ⟨depth, depth', related⟩ := known.regrouped
  unfold stateRoot
  rw [related.err, related.source]
  congr 2
  exact related.sameEntries.entries

theorem Packed.verifyBlock_ok {state} (packed : Packed env parent slot flow block)
    (accounted : Accounted env parent slot flow) (replayed : Replayed env parent slot flow state) :
    verifyBlock (validateEnv env) block parent.state = .ok flow.receipts := by
  apply verifyBlock_iff.mpr
  refine ⟨state, flow.processedTxs, ?_, ?_, packed.receiptsRoot, ?_⟩
  · rw [packed.txs]
    exact replayed.run block packed.fits
  · rw [packed.gasUsed]
    change _ = (flow.receipts.map fun receipt => receipt.gasUsed.toNat).sum % 2 ^ 64
    rw [← accounted.gas, Nat.mod_eq_of_lt flow.gasUsed.toNat_lt]
  · exact replayed.stateRoot_eq.trans packed.root

section

/-- Every clause runs in the virtual machine, which uses ten million of gas where it is given more. -/
def burningRuntime (ctx : BlockContext) : Runtime :=
  { Execution.sampleRuntime with
    ctx := ⟨ctx.beneficiary, ctx.number, ctx.time⟩
    evm := fun _ _ gas _ => return (if gas < 10000000 then gas else gas - 10000000, none) }

theorem burningRuntime_frugal (ctx : BlockContext) : (burningRuntime ctx).Frugal where
  evm clause clauseIndex gas txCtx := by
    change (if gas < 10000000 then gas else gas - 10000000) ≤ gas
    split
    · exact UInt64.le_refl gas
    next enough => exact UInt64.sub_le (UInt64.not_lt.mp enough)
  modules _ _ found := by cases found

/-- The node signs with its number. The root of a state is the length of its journal. -/
def sampleEnv : PackerEnv (List Nat) where
  hashing := Blocks.listHashing
  zeroAddress_eq := rfl
  chainTag := 1
  nodeMaster := 9
  runtime := burningRuntime
  transactionMeta _ _ := .ok none
  newState _ := .ok Execution.sampleState
  stageHash _ journal := .ok [journal.length]
  txsRoot txs := [txs.length]
  receiptsRoot receipts := receipts.map fun receipt => receipt.gasUsed.toNat
  sign _ := [9]
  belowNinety _ _ := true

def sampleParent : Parent (List Nat) where
  header := ⟨⟨99, [3]⟩, 900, 20000000, 50, .mBlock, 9, 0, 100, [], [], [], [], [4]⟩
  state := Execution.sampleState
  held := cons_ne_nil _ _

def sampleSlot : Slot := ⟨9, 1000, 20000000, .mBlock, 50⟩

def callOf (id : Nat) (signer : Address) (gas : UInt64) (dependsOn : Option (List Nat)) : Transaction (List Nat) where
  signer := .ok signer
  intrinsicGas := .ok 21000
  gas := gas
  gasPriceCoef := 0
  clauses := [⟨some 8, 0, Script.mtr, [], none⟩]
  nonce := 5
  workGas := 0
  id := [id]
  chainTag := 1
  blockRef := 0
  expiration := 1000
  dependsOn := dependsOn
  ethTxValidate := .ok ()

def flowAfter (txs : List (Transaction (List Nat))) : Flow (List Nat) :=
  txs.foldl (fun flow tx => (adopt sampleEnv sampleParent sampleSlot tx).finalState flow) (newFlow sampleParent)

-- the second one does not fit into the block, the third depends on the first
def fittingCalls : List (Transaction (List Nat)) := [callOf 1 7 100000 none, callOf 2 7 50000000 none, callOf 3 7 90000 (some [1])]

theorem flowAfter_trace {txs} (all : AllMeet (fun flow tx => (adopt sampleEnv sampleParent sampleSlot tx).finalState flow)
      (fun flow tx => Meets sampleSlot flow tx ∧ (adopt sampleEnv sampleParent sampleSlot tx).fault? flow = none)
      (newFlow sampleParent) txs) :
    Trace (Adopts sampleEnv sampleParent sampleSlot) (newFlow sampleParent) txs (flowAfter txs) := by
  refine (trace_of_allMeet all).mono ?_
  rintro flow tx next ⟨⟨meets, fine⟩, rfl⟩
  exact ⟨meets, ok_of_fault? fine⟩

-- what is left of 2 ^ 64 after the first call is more than the second provides: the sum that is checked is small
def wrappingCalls : List (Transaction (List Nat)) := [callOf 1 7 11000000 none, callOf 2 7 18446744073708551616 none]

end

end MeterPov.Packer
