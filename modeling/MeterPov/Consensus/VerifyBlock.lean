import MeterPov.Blocks.Block

/-! Validation of a block received from a peer (`consensus/reactor_validate.go`).

Peers' blocks are validated without `forceValidate`: the K-block transactions are not rebuilt locally
and the PoW decision is not consulted. Reading a transaction and executing it are parameters. The
messages of errors leave out the digests they print. -/

set_option autoImplicit false

namespace MeterPov.Consensus

open Lib Blocks List

inductive ValidateError where
  | futureBlock
  | parentMissing
  | knownBlock
  | consensus (message : String)
  | other (message : String)
  deriving DecidableEq, Repr

/-- What validation reads of transactions, states and receipts, and how it executes a transaction. -/
structure ValidateEnv (Digest Address Tx State Receipt : Type) where
  hashing : Hashing Digest Address
  chainTag : Nat
  txID : Tx → Digest
  txSigner : Tx → Except String Address
  txChainTag : Tx → Nat
  txBlockRef : Tx → Nat
  txExpiration : Tx → Nat
  txDependsOn : Tx → Option Digest
  txsRoot : List Tx → Digest
  newState : Digest → Except String State
  /-- Executes one transaction in the context of a block. -/
  executeTransaction : Header Digest Address → State → Tx → Except String (State × Receipt)
  receiptGasUsed : Receipt → Nat
  receiptReverted : Receipt → Bool
  receiptsRoot : List Receipt → Digest
  stateRoot : State → Except String Digest
  /-- A transaction already on the chain that ends in the given block, with its reverted flag. -/
  transactionMeta : Digest → BlockID Digest → Except String (Option Bool)

def blockInterval : Nat := 10
def minGasLimit : Nat := 1000 * 1000
def gasLimitBoundDivisor : Nat := 1024
def kBlockEpoch : Nat := 14603
def blockMagicVersion1 : Nat := 0x76010000

def gasLimitIsValid (gasLimit parentGasLimit : Nat) : Bool :=
  if gasLimit < minGasLimit then false
  else
    let diff := if parentGasLimit < gasLimit then gasLimit - parentGasLimit else parentGasLimit - gasLimit
    diff ≤ parentGasLimit / gasLimitBoundDivisor

variable {Digest Address Tx State Receipt : Type} [DecidableEq Digest] [DecidableEq Address]

def validateBlockHeader (header parent : Header Digest Address) (nowTimestamp : Nat) (forceValidate : Bool)
    (epoch lastKBlockHeight : Nat) : Except ValidateError Unit := do
  if header.timestamp ≤ parent.timestamp then
    throw (.consensus s!"block timestamp behind parents: parent {parent.timestamp}, current {header.timestamp}")
  if (nowTimestamp + blockInterval) % 2 ^ 64 < header.timestamp then
    throw .futureBlock
  if !gasLimitIsValid header.gasLimit parent.gasLimit then
    throw (.consensus s!"block gas limit invalid: parent {parent.gasLimit}, current {header.gasLimit}")
  if header.gasLimit < header.gasUsed then
    throw (.consensus s!"block gas used exceeds limit: limit {header.gasLimit}, used {header.gasUsed}")
  if header.totalScore ≤ parent.totalScore then
    throw (.consensus s!"block total score invalid: parent {parent.totalScore}, current {header.totalScore}")
  if epoch ≠ kBlockEpoch ∧ header.lastKBlockHeight < parent.lastKBlockHeight then
    throw (.consensus
      s!"block LastKBlockHeight invalid: parent {parent.lastKBlockHeight}, current {header.lastKBlockHeight}")
  if forceValidate ∧ header.lastKBlockHeight ≠ lastKBlockHeight then
    throw (.consensus
      s!"header LastKBlockHeight invalid: header {header.lastKBlockHeight}, local {lastKBlockHeight}")

variable (env : ValidateEnv Digest Address Tx State Receipt)

/-- Any recoverable signature passes: the signer is compared with nothing. -/
def validateProposer (header : Header Digest Address) : Except ValidateError Unit :=
  match header.signer env.hashing with
  | .error reason => .error (.consensus ("block signer unavailable: " ++ reason))
  | .ok _ => .ok ()

def isExpired (tx : Tx) (blockNumber : Nat) : Bool :=
  env.txBlockRef tx + env.txExpiration tx < blockNumber

def validateTx (block : Block Digest Address Tx) (tx : Tx) : Except ValidateError Unit :=
  match env.txSigner tx with
  | .error reason => .error (.consensus ("tx signer unavailable: " ++ reason))
  | .ok signer =>
    if signer = env.hashing.zeroAddress ∧ block.isKBlock = false then
      .error (.consensus "tx signer 0x00..00 can only exist in KBlocks")
    else if env.txChainTag tx ≠ env.chainTag then
      .error (.consensus s!"tx chain tag mismatch: want {env.chainTag}, have {env.txChainTag tx}")
    else if block.number < env.txBlockRef tx then
      .error (.consensus s!"tx ref future block: ref {env.txBlockRef tx}, current {block.number}")
    else if isExpired env tx block.number then
      .error (.consensus
        s!"tx expired: ref {env.txBlockRef tx}, current {block.number}, expiration {env.txExpiration tx}")
    else .ok ()

def validateBlockBody (bestStateRoot : Digest) (block : Block Digest Address Tx) : Except ValidateError Unit :=
  if block.header.txsRoot ≠ env.txsRoot block.txs then .error (.consensus "block txs root mismatch")
  else if block.magic ≠ blockMagicVersion1 then .error (.consensus "block magic mismatch")
  else do
    if block.isKBlock then
      match env.newState bestStateRoot with
      | .error reason => throw (.other reason)
      | .ok _ => pure ()
    block.txs.forM (validateTx env block)

/-- A transaction of the block or of its chain, with its reverted flag. -/
def findTx (parentID : BlockID Digest) (processed : List (Digest × Bool)) (txID : Digest) : Except ValidateError (Option Bool) :=
  match processed.lookup txID with
  | some reverted => .ok (some reverted)
  | none =>
    match env.transactionMeta txID parentID with
    | .error reason => .error (.other reason)
    | .ok found => .ok found

/-- The checks and the execution of one transaction; `processed` is the latest first. -/
def verifyTx (block : Block Digest Address Tx) (run : State × List (Digest × Bool) × List Receipt) (tx : Tx) :
    Except ValidateError (State × List (Digest × Bool) × List Receipt) := do
  let (state, processed, receipts) := run
  match env.txSigner tx with
  | .error reason => throw (.consensus ("tx signer unavailable: " ++ reason))
  | .ok signer =>
    if signer = env.hashing.zeroAddress ∧ block.isKBlock = false then
      throw (.consensus "tx signer unavailable")
  if (← findTx env block.parentID processed (env.txID tx)).isSome then
    throw (.consensus "tx already exists")
  match env.txDependsOn tx with
  | none => pure ()
  | some dep =>
    match ← findTx env block.parentID processed dep with
    | none => throw (.consensus "tx dep broken")
    | some true => throw (.consensus "tx dep reverted")
    | some false => pure ()
  match env.executeTransaction block.header state tx with
  | .error reason => throw (.other reason)
  | .ok (next, receipt) =>
    pure (next, (env.txID tx, env.receiptReverted receipt) :: processed, receipts ++ [receipt])

def verifyBlock (block : Block Digest Address Tx) (state : State) : Except ValidateError (List Receipt) := do
  let (final, _, receipts) ← block.txs.foldlM (verifyTx env block) (state, [], [])
  let totalGasUsed := (receipts.map env.receiptGasUsed).sum % 2 ^ 64
  if block.header.gasUsed ≠ totalGasUsed then
    throw (.consensus s!"block gas used mismatch: want {block.header.gasUsed}, have {totalGasUsed}")
  if block.header.receiptsRoot ≠ env.receiptsRoot receipts then
    throw (.consensus "block receipts root mismatch")
  match env.stateRoot final with
  | .error reason => throw (.other reason)
  | .ok root =>
    if block.header.stateRoot ≠ root then throw (.consensus "block state root mismatch")
  pure receipts

/-! What `VerifyBlock` has established when it accepts: each transaction was new when it was reached, what it depends on was
executed, and the receipts are those of the transactions in order. -/

open Lib

variable {env} {block : Block Digest Address Tx} {processed : List (Digest × Bool)} {receipts : List Receipt} {state : State} {ε α : Type}

theorem forM_eq_ok {check : α → Except ε Unit} {list : List α} : list.forM check = .ok () ↔ ∀ element ∈ list, check element = .ok () := by
  induction list with
  | nil => simp [pure, Except.pure]
  | cons element rest ih =>
    rw [forall_mem_cons, ← ih]
    refine check_bind_eq_ok.trans ?_
    constructor
    · rintro ⟨⟨⟩, here, others⟩
      exact ⟨here, others⟩
    · rintro ⟨here, others⟩
      exact ⟨(), here, others⟩

omit [DecidableEq Digest] [DecidableEq Address] in
theorem validateBlockHeader_iff {header parent : Header Digest Address} {now force epoch lastKBlockHeight} :
    validateBlockHeader header parent now force epoch lastKBlockHeight = .ok () ↔
      parent.timestamp < header.timestamp ∧ header.timestamp ≤ (now + blockInterval) % 2 ^ 64 ∧
      gasLimitIsValid header.gasLimit parent.gasLimit = true ∧ header.gasUsed ≤ header.gasLimit ∧
      parent.totalScore < header.totalScore ∧
      (epoch ≠ kBlockEpoch → parent.lastKBlockHeight ≤ header.lastKBlockHeight) ∧
      (force = true → header.lastKBlockHeight = lastKBlockHeight) := by
  unfold validateBlockHeader
  simp only [guard_eq_ok, guard_eq_unit]
  simp

/-- A fold that returns went through states that satisfy an invariant over the elements already seen. -/
theorem foldlM_except {σ : Type} (holds : List α → σ → Prop) {step : σ → α → Except ε σ}
    (kept : ∀ before state element after, holds before state → step state element = .ok after → holds (before ++ [element]) after)
    {list before} {state final : σ} (start : holds before state) (ran : list.foldlM step state = .ok final) :
    holds (before ++ list) final := by
  induction list generalizing before state with
  | nil =>
    cases ran
    simpa using start
  | cons element rest ih =>
    rw [foldlM_cons, check_bind_eq_ok] at ran
    obtain ⟨next, stepped, ran⟩ := ran
    simpa using ih (kept before state element next start stepped) ran

/-- The transaction a transaction depends on was found, and was not reverted. -/
def DependencyHolds (env : ValidateEnv Digest Address Tx State Receipt) (parentID : BlockID Digest)
    (processed : List (Digest × Bool)) (tx : Tx) : Prop :=
  ∀ dep ∈ env.txDependsOn tx, findTx env parentID processed dep = .ok (some false)

/-- A transaction that is signed, or stands in a K-block. -/
def SignerAllowed (env : ValidateEnv Digest Address Tx State Receipt) (block : Block Digest Address Tx) (tx : Tx) : Prop :=
  ∃ signer, env.txSigner tx = .ok signer ∧ ¬ (signer = env.hashing.zeroAddress ∧ block.isKBlock = false)

/-- The checks before a transaction is executed. -/
structure Executable (env : ValidateEnv Digest Address Tx State Receipt) (block : Block Digest Address Tx)
    (processed : List (Digest × Bool)) (tx : Tx) : Prop where
  signer : SignerAllowed env block tx
  notFound : findTx env block.parentID processed (env.txID tx) = .ok none
  dependency : DependencyHolds env block.parentID processed tx

theorem verifyTx_eq_ok {next processed' receipts'} {tx : Tx} :
    verifyTx env block (state, processed, receipts) tx = .ok (next, processed', receipts') ↔
      Executable env block processed tx ∧ ∃ receipt, env.executeTransaction block.header state tx = .ok (next, receipt) ∧
        processed' = (env.txID tx, env.receiptReverted receipt) :: processed ∧ receipts' = receipts ++ [receipt] := by
  have split : Executable env block processed tx ↔ SignerAllowed env block tx ∧
      findTx env block.parentID processed (env.txID tx) = .ok none ∧ DependencyHolds env block.parentID processed tx :=
    ⟨fun known => ⟨known.signer, known.notFound, known.dependency⟩, fun ⟨first, second, third⟩ => ⟨first, second, third⟩⟩
  have ends : (match env.executeTransaction block.header state tx with
        | .error reason => throw (.other reason)
        | .ok (next, receipt) => pure (next, (env.txID tx, env.receiptReverted receipt) :: processed, receipts ++ [receipt]) :
          Except ValidateError (State × List (Digest × Bool) × List Receipt)) = .ok (next, processed', receipts') ↔
      ∃ receipt, env.executeTransaction block.header state tx = .ok (next, receipt) ∧
        processed' = (env.txID tx, env.receiptReverted receipt) :: processed ∧ receipts' = receipts ++ [receipt] := by
    cases env.executeTransaction block.header state tx with
    | error reason => exact iff_of_false nofun (by simp)
    | ok outcome =>
      constructor
      · rintro ⟨⟩
        exact ⟨_, rfl, rfl, rfl⟩
      · rintro ⟨_, ⟨⟩, rfl, rfl⟩
        rfl
  rw [split, ← ends]
  unfold verifyTx SignerAllowed DependencyHolds
  cases env.txSigner tx with
  | error reason => exact iff_of_false nofun (by simp)
  | ok signer =>
    cases env.txDependsOn tx with
    | none =>
      simp only [guard_eq_ok, check_bind_eq_ok]
      constructor
      · rintro ⟨allowed, value, found, absent, ran⟩
        obtain rfl := Option.not_isSome_iff_eq_none.mp absent
        exact ⟨⟨⟨signer, rfl, allowed⟩, found, nofun⟩, ran⟩
      · rintro ⟨⟨⟨_, ⟨⟩, allowed⟩, found, -⟩, ran⟩
        exact ⟨allowed, none, found, nofun, ran⟩
    | some dep =>
      simp only [guard_eq_ok, check_bind_eq_ok]
      constructor
      · rintro ⟨allowed, value, found, absent, outcome, depends, ran⟩
        obtain rfl := Option.not_isSome_iff_eq_none.mp absent
        split at ran
        · cases ran
        · cases ran
        · exact ⟨⟨⟨signer, rfl, allowed⟩, found, by simpa using depends⟩, ran⟩
      · rintro ⟨⟨⟨_, ⟨⟩, allowed⟩, found, depends⟩, ran⟩
        exact ⟨allowed, none, found, nofun, some false, depends dep rfl, ran⟩

/-- The blocks that pass: what holds at each transaction of the run over them. -/
structure Verified (env : ValidateEnv Digest Address Tx State Receipt) (block : Block Digest Address Tx) (before : List Tx)
    (run : State × List (Digest × Bool) × List Receipt) : Prop where
  length : run.2.2.length = before.length
  ids : run.2.1.map Prod.fst = (before.map env.txID).reverse
  fresh : ∀ tx ∈ before, env.transactionMeta (env.txID tx) block.parentID = .ok none
  nodup : (before.map env.txID).Nodup

omit [DecidableEq Address] in
theorem findTx_eq_none {parentID txID} (notFound : findTx env parentID processed txID = .ok none) :
    txID ∉ processed.map Prod.fst ∧ env.transactionMeta txID parentID = .ok none := by
  unfold findTx at notFound
  split at notFound
  · cases notFound
  next absent =>
    split at notFound
    · cases notFound
    next found =>
      cases notFound
      refine ⟨?_, found⟩
      intro listed
      obtain ⟨entry, among, rfl⟩ := mem_map.mp listed
      have distinct := lookup_eq_none_iff.mp absent entry among
      simp at distinct

theorem verifyTx_verified {before run after} {tx : Tx}
    (verified : Verified env block before run) (passed : verifyTx env block run tx = .ok after) :
    Verified env block (before ++ [tx]) after := by
  obtain ⟨next, processed', receipts'⟩ := after
  obtain ⟨executable, receipt, -, rfl, rfl⟩ := verifyTx_eq_ok.mp passed
  obtain ⟨unlisted, absent⟩ := findTx_eq_none executable.notFound
  obtain ⟨length, ids, fresh, nodup⟩ := verified
  refine ⟨by simp [length], by simp [ids], ?_, ?_⟩
  · intro other listed
    rcases mem_append.mp listed with earlier | here
    · exact fresh other earlier
    · rw [mem_singleton.mp here]
      exact absent
  · rw [map_append, map_singleton, nodup_append]
    refine ⟨nodup, by simp, ?_⟩
    intro first listed second here same
    rw [mem_singleton.mp here] at same
    apply unlisted
    rw [ids, mem_reverse, ← same]
    exact listed

theorem verifyBlock_iff : verifyBlock env block state = .ok receipts ↔ ∃ final processed,
      block.txs.foldlM (verifyTx env block) (state, [], []) = .ok (final, processed, receipts) ∧
      block.header.gasUsed = (receipts.map env.receiptGasUsed).sum % 2 ^ 64 ∧
      block.header.receiptsRoot = env.receiptsRoot receipts ∧ env.stateRoot final = .ok block.header.stateRoot := by
  unfold verifyBlock
  simp only [check_bind_eq_ok, guard_eq_ok, not_not]
  constructor
  · rintro ⟨⟨final, processed, computed⟩, ran, gas, root, rest⟩
    split at rest
    · cases rest
    next committed =>
      obtain ⟨same, rest⟩ := guard_eq_ok.mp rest
      cases rest
      exact ⟨final, processed, ran, gas, root, not_not.mp same ▸ committed⟩
  · rintro ⟨final, processed, ran, gas, root, committed⟩
    refine ⟨_, ran, gas, root, ?_⟩
    rw [committed]
    exact guard_eq_ok.mpr ⟨not_not.mpr rfl, rfl⟩

theorem verified_of_verifyBlock (passed : verifyBlock env block state = .ok receipts) :
    ∃ final processed, Verified env block block.txs (final, processed, receipts) := by
  obtain ⟨final, processed, ran, -⟩ := verifyBlock_iff.mp passed
  have verified : Verified env block ([] ++ block.txs) (final, processed, receipts) :=
    foldlM_except (Verified env block) (fun _ _ _ _ known passed => verifyTx_verified known passed) ⟨rfl, rfl, nofun, .nil⟩ ran
  exact ⟨final, processed, verified⟩

end MeterPov.Consensus
