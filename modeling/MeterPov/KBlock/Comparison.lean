import MeterPov.Consensus.VerifyBlock
import MeterPov.KBlock.Transaction
import MeterPov.Lib.Tally

/-! `validateBlockBody` of a proposed block (`consensus/reactor_validate.go`).

The transactions of a K-block that no one signs are compared with those built locally through three tallies of hashes.
The messages of errors leave out the digests they print; failures of the database are left out. -/

set_option autoImplicit false

namespace MeterPov.KBlock

open Lib List
open Blocks (Block)
open Consensus Accounts Auction

/-- A check that returns an error or panics. -/
abbrev Check (α : Type) := ExceptT ValidateError Exec α

structure BodyEnv (Digest : Type) where
  chainTag : Nat
  txsRoot : List Transaction → Digest
  /-- The signer of a transaction with a signature. -/
  recoverSigner : Transaction → Except String Address
  /-- Whether a wrapped Ethereum transaction agrees with its wrapper. -/
  reverseTx : Transaction → Except String Unit

variable {Digest : Type} [DecidableEq Digest] (env : BodyEnv Digest)

def signer (tx : Transaction) : Except String Address := if tx.signature = [] then .ok 0 else env.recoverSigner tx

def reservedMark : Bytes := [0xee, 0xff]

/-- The first byte of the third reserved field is read before anything is known of it. -/
def isEthTx (tx : Transaction) : Exec Bool :=
  match tx.reserved with
  | [mark, _, raw] =>
    match raw with
    | [] => .error .outOfRange
    | kind :: _ =>
      let typedTx := 0 < kind && kind < 3
      .ok (mark = reservedMark && (typedTx && 64 ≤ tx.signature.length || 65 ≤ tx.signature.length))
  | _ => .ok false

def ethTxValidate (tx : Transaction) : Check Unit := do
  if ← (isEthTx tx : Exec Bool) then
    match env.reverseTx tx with
    | .ok _ => return ()
    | .error reason => throw (.other reason)

/-! ## Tallies -/

structure UniteHashs where
  txs : Tally TxKey := ∅
  clauses : Tally ClauseKey := ∅
  scripts : Tally ScriptKey := ∅

namespace UniteHashs

def addClause (hashs : UniteHashs) (clause : Clause) : UniteHashs where
  txs := hashs.txs
  clauses := hashs.clauses.add clause.uniteHash
  scripts := match clause.localScript? with
    | none => hashs.scripts
    | some script => hashs.scripts.add script.uniteHash

def addTx (hashs : UniteHashs) (tx : Transaction) : UniteHashs :=
  tx.clauses.foldl addClause { hashs with txs := hashs.txs.add tx.uniteHash }

def ofLocal (kblockTxs : List Transaction) : UniteHashs := kblockTxs.foldl addTx {}

end UniteHashs

def takeHash {Key : Type} [DecidableEq Key] (reason : String) (tally : Tally Key) (key : Key) : Check (Tally Key) :=
  match tally.take key with
  | some after => pure after
  | none => throw (.consensus reason)

def validateClause (hashs : UniteHashs) (clause : Clause) : Check UniteHashs := do
  let clauses ← takeHash "proposed tx has clause not exist in local kblock" hashs.clauses clause.uniteHash
  match clause.script? with
  | none => return { hashs with clauses := clauses }
  | some (.error reason) => throw (.consensus reason)
  | some (.ok script) => do
    let scripts ← takeHash "proposed tx has script data not exist in local kblock" hashs.scripts script.uniteHash
    return { hashs with clauses := clauses, scripts := scripts }

/-- Only a transaction that nobody signed is compared. -/
def validateKBlockTx (signer : Address) (isKBlock : Bool) (hashs : UniteHashs) (tx : Transaction) : Check UniteHashs := do
  if signer ≠ 0 then return hashs
  else if !isKBlock then throw (.consensus "tx signer 0x00..00 can only exist in KBlocks")
  else do
    let txs ← takeHash "proposed tx don't exist in local kblock" hashs.txs tx.uniteHash
    tx.clauses.foldlM validateClause { hashs with txs := txs }

def validateReference (number : Nat) (tx : Transaction) : Check Unit := do
  if tx.chainTag ≠ env.chainTag then
    throw (.consensus s!"tx chain tag mismatch: want {env.chainTag}, have {tx.chainTag}")
  else if number < tx.refNumber then
    throw (.consensus s!"tx ref future block: ref {tx.refNumber}, current {number}")
  else if tx.isExpired number then
    throw (.consensus s!"tx expired: ref {tx.refNumber}, current {number}, expiration {tx.expiration}")

def validateTx (block : Block Digest Address Transaction) (hashs : UniteHashs) (tx : Transaction) : Check UniteHashs := do
  match signer env tx with
  | .error reason => throw (.consensus ("tx signer unavailable: " ++ reason))
  | .ok signer => do
    ethTxValidate env tx
    let hashs ← validateKBlockTx signer block.isKBlock hashs tx
    validateReference env block.number tx
    return hashs

/-- With `forceValidate`; the local transactions are there after a positive PoW decision. Of the clauses, a count below
zero is an error, and one above it is not. -/
def validateBlockBody (local? : Option (List Transaction)) (block : Block Digest Address Transaction) : Check Unit := do
  if block.header.txsRoot ≠ env.txsRoot block.txs then throw (.consensus "block txs root mismatch")
  else if block.magic ≠ blockMagicVersion1 then throw (.consensus "block magic mismatch")
  else do
    let start := if block.isKBlock then UniteHashs.ofLocal (local?.getD []) else {}
    let hashs ← block.txs.foldlM (validateTx env block) start
    if ¬ ∀ entry ∈ hashs.txs.entries, entry.2 = 0 then throw (.consensus "local kblock has more tx")
    else if ¬ ∀ entry ∈ hashs.clauses.entries, ¬ entry.2 < 0 then throw (.consensus "local kblock has more clause")
    else if ¬ ∀ entry ∈ hashs.scripts.entries, entry.2 = 0 then throw (.consensus "local kblock has more script data")

/-! What the three tallies compare: the transactions of a proposed K-block that nobody signed have the hashes of the local
ones, their clauses are some of the local ones by hash, and their scripts are the local ones by hash. -/

/-! ## Checks that accept -/

def Accepts {α : Type} (check : Check α) (value : α) : Prop := check.run = .ok (.ok value)

section

variable {α β σ : Type}

variable {value : α}

@[simp] theorem accepts_pure {given : α} : Accepts (pure given) value ↔ given = value := by
  constructor
  · intro accepted
    cases accepted
    rfl
  · rintro rfl
    rfl

@[simp] theorem not_accepts_throw {reason} : ¬ Accepts (throw reason) value := nofun

@[simp] theorem accepts_guard {condition} [Decidable condition] {reason rest} :
    Accepts (if condition then throw reason else rest) value ↔ ¬ condition ∧ Accepts rest value := by
  split
  next holds => exact iff_of_false not_accepts_throw fun known => known.1 holds
  next fails => exact ⟨fun accepted => ⟨fails, accepted⟩, And.right⟩

theorem accepts_bind {check : Check α} {next} {result : β} :
    Accepts (check >>= next) result ↔ ∃ value, Accepts check value ∧ Accepts (next value) result := by
  unfold Accepts
  rw [ExceptT.run_bind, Exec.bind_eq_ok]
  constructor
  · rintro ⟨outcome, ran, rest⟩
    cases outcome with
    | error reason => cases rest
    | ok value => exact ⟨value, ran, rest⟩
  · rintro ⟨value, ran, rest⟩
    exact ⟨.ok value, ran, rest⟩

theorem accepts_lift {computation : Exec α} : Accepts (liftM computation : Check α) value ↔ computation = .ok value := by
  cases computation with
  | ok given =>
    constructor
    · intro accepted
      cases accepted
      rfl
    · rintro ⟨⟩
      rfl
  | error fault => exact ⟨nofun, nofun⟩

theorem accepts_foldlM (holds : List α → σ → Prop) {step : σ → α → Check σ} {good : α → Prop}
    (forward : ∀ before state element after, holds before state → Accepts (step state element) after →
      good element ∧ holds (before ++ [element]) after)
    (backward : ∀ before state element, holds before state → good element → ∃ after, Accepts (step state element) after)
    (list before : List α) (state : σ) (start : holds before state) :
    (∀ after, Accepts (list.foldlM step state) after → (∀ element ∈ list, good element) ∧ holds (before ++ list) after) ∧
    ((∀ element ∈ list, good element) → ∃ after, Accepts (list.foldlM step state) after) := by
  induction list generalizing before state with
  | nil =>
    refine ⟨fun after accepted => ⟨nofun, ?_⟩, fun _ => ⟨state, rfl⟩⟩
    rw [foldlM_nil, accepts_pure] at accepted
    simpa [← accepted] using start
  | cons element rest ih =>
    constructor
    · intro after accepted
      rw [foldlM_cons, accepts_bind] at accepted
      obtain ⟨next, stepped, ran⟩ := accepted
      obtain ⟨isGood, reached⟩ := forward before state element next start stepped
      obtain ⟨others, final⟩ := (ih _ next reached).1 after ran
      exact ⟨forall_mem_cons.mpr ⟨isGood, others⟩, by simpa using final⟩
    · intro all
      obtain ⟨isGood, others⟩ := forall_mem_cons.mp all
      obtain ⟨next, stepped⟩ := backward before state element start isGood
      obtain ⟨after, ran⟩ := (ih _ next (forward before state element next start stepped).2).2 others
      exact ⟨after, by rw [foldlM_cons, accepts_bind]; exact ⟨next, stepped, ran⟩⟩

end

/-! ## Keys -/

structure Keys where
  txs : List TxKey
  clauses : List ClauseKey
  scripts : List ScriptKey

namespace Clause

variable (clause : Clause)

def scriptKey? : Option ScriptKey :=
  match clause.script? with
  | some (.ok script) => some script.uniteHash
  | _ => none

def WellFormed : Prop := ∀ reason, clause.script? ≠ some (.error reason)

end Clause

def Keys.of (txs : List Transaction) : Keys where
  txs := txs.map Transaction.uniteHash
  clauses := (txs.flatMap Transaction.clauses).map Clause.uniteHash
  scripts := (txs.flatMap Transaction.clauses).filterMap Clause.scriptKey?

structure Tallied (hashs : UniteHashs) (filled taken : Keys) : Prop where
  txs : hashs.txs.Holds filled.txs taken.txs
  clauses : hashs.clauses.Holds filled.clauses taken.clauses
  scripts : hashs.scripts.Holds filled.scripts taken.scripts

theorem accepts_takeHash {Key} [DecidableEq Key] {reason tally after} {key : Key} :
    Accepts (takeHash reason tally key) after ↔ tally.take key = some after := by
  unfold takeHash
  cases tally.take key <;> simp

theorem takeHash_spec {Key} [DecidableEq Key] {reason tally after filled taken}
    {key : Key} (holds : tally.Holds filled taken) (accepted : Accepts (takeHash reason tally key) after) :
    key ∈ filled ∧ after.Holds filled (taken ++ [key]) := by
  rw [accepts_takeHash] at accepted
  have listed : key ∈ filled := by
    by_contra absent
    rw [holds.take_eq_none absent] at accepted
    cases accepted
  obtain ⟨_, taking, holds'⟩ := holds.take listed
  rw [taking] at accepted
  cases accepted
  exact ⟨listed, holds'⟩

theorem takeHash_accepts {Key} [DecidableEq Key] (reason : String) {tally filled taken} {key : Key}
    (holds : tally.Holds filled taken) (listed : key ∈ filled) : ∃ after, Accepts (takeHash reason tally key) after := by
  obtain ⟨after, taking, -⟩ := holds.take listed
  exact ⟨after, accepts_takeHash.mpr taking⟩

/-! ## The loops -/

/-- The local block has the hashes of a clause, and its script can be read. -/
def Clause.Within (filled : Keys) (clause : Clause) : Prop :=
  clause.WellFormed ∧ clause.uniteHash ∈ filled.clauses ∧ ∀ key ∈ clause.scriptKey?, key ∈ filled.scripts

variable {hashs after : UniteHashs} {filled taken : Keys} {clause : Clause} {tx : Transaction}

theorem validateClause_spec (holds : Tallied hashs filled taken) (accepted : Accepts (validateClause hashs clause) after) :
    clause.Within filled ∧ Tallied after filled
      ⟨taken.txs, taken.clauses ++ [clause.uniteHash], taken.scripts ++ clause.scriptKey?.toList⟩ := by
  unfold validateClause at accepted
  rw [accepts_bind] at accepted
  obtain ⟨clauses, tookClause, rest⟩ := accepted
  obtain ⟨listed, clausesHold⟩ := takeHash_spec holds.clauses tookClause
  unfold Clause.Within Clause.WellFormed Clause.scriptKey?
  split at rest
  next plain =>
    rw [accepts_pure] at rest
    rw [plain, ← rest]
    exact ⟨⟨nofun, listed, nofun⟩, holds.txs, clausesHold, by simpa using holds.scripts⟩
  · exact absurd rest not_accepts_throw
  next script isScript =>
    rw [accepts_bind] at rest
    obtain ⟨scripts, tookScript, rest⟩ := rest
    obtain ⟨scriptListed, scriptsHold⟩ := takeHash_spec holds.scripts tookScript
    rw [accepts_pure] at rest
    rw [isScript, ← rest]
    exact ⟨⟨nofun, listed, by simpa using scriptListed⟩, holds.txs, clausesHold, by simpa using scriptsHold⟩

theorem validateClause_accepts (holds : Tallied hashs filled taken) (within : clause.Within filled) :
    ∃ after, Accepts (validateClause hashs clause) after := by
  obtain ⟨wellFormed, listed, scripts⟩ := within
  obtain ⟨clauses, tookClause⟩ := takeHash_accepts "proposed tx has clause not exist in local kblock" holds.clauses listed
  unfold validateClause
  unfold Clause.scriptKey? at scripts
  simp only [accepts_bind]
  cases isScript : clause.script? with
  | none => exact ⟨_, clauses, tookClause, accepts_pure.mpr rfl⟩
  | some decoded =>
    cases decoded with
    | error reason => exact absurd isScript (wellFormed reason)
    | ok script =>
      rw [isScript] at scripts
      obtain ⟨_, tookScript⟩ := takeHash_accepts "proposed tx has script data not exist in local kblock" holds.scripts
        (scripts _ rfl)
      exact ⟨_, clauses, tookClause, accepts_bind.mpr ⟨_, tookScript, accepts_pure.mpr rfl⟩⟩

def Transaction.Within (filled : Keys) (tx : Transaction) : Prop :=
  tx.uniteHash ∈ filled.txs ∧ ∀ clause ∈ tx.clauses, clause.Within filled

def Keys.add (keys : Keys) (tx : Transaction) : Keys :=
  ⟨keys.txs ++ [tx.uniteHash], keys.clauses ++ tx.clauses.map Clause.uniteHash, keys.scripts ++ tx.clauses.filterMap Clause.scriptKey?⟩

theorem Keys.of_append (txs : List Transaction) (tx : Transaction) : Keys.of (txs ++ [tx]) = (Keys.of txs).add tx := by
  simp [Keys.of, Keys.add]

theorem clauses_loop (holds : Tallied hashs filled taken) (clauses : List Clause) :
    (∀ after, Accepts (clauses.foldlM validateClause hashs) after → (∀ clause ∈ clauses, clause.Within filled) ∧
      Tallied after filled
        ⟨taken.txs, taken.clauses ++ clauses.map Clause.uniteHash, taken.scripts ++ clauses.filterMap Clause.scriptKey?⟩) ∧
    ((∀ clause ∈ clauses, clause.Within filled) → ∃ after, Accepts (clauses.foldlM validateClause hashs) after) := by
  refine accepts_foldlM (fun before hashs => Tallied hashs filled
    ⟨taken.txs, taken.clauses ++ before.map Clause.uniteHash, taken.scripts ++ before.filterMap Clause.scriptKey?⟩)
    (fun before hashs clause after holds accepted => ?_) (fun before hashs clause holds within => ?_) clauses [] hashs
    (by simpa using holds)
  · obtain ⟨within, holds'⟩ := validateClause_spec holds accepted
    refine ⟨within, ?_⟩
    have scripts : [clause].filterMap Clause.scriptKey? = clause.scriptKey?.toList := by
      cases found : clause.scriptKey? <;> simp [found]
    simpa [filterMap_append, scripts] using holds'
  · exact validateClause_accepts holds within

theorem validateKBlockTx_spec {isKBlock} (holds : Tallied hashs filled taken)
    (accepted : Accepts (validateKBlockTx 0 isKBlock hashs tx) after) :
    isKBlock = true ∧ tx.Within filled ∧ Tallied after filled (taken.add tx) := by
  unfold validateKBlockTx at accepted
  rw [if_neg (by decide), accepts_guard, accepts_bind] at accepted
  obtain ⟨kblock, txs, tookTx, rest⟩ := accepted
  obtain ⟨listed, txsHold⟩ := takeHash_spec holds.txs tookTx
  have next : Tallied { hashs with txs := txs } filled ⟨taken.txs ++ [tx.uniteHash], taken.clauses, taken.scripts⟩ :=
    ⟨txsHold, holds.clauses, holds.scripts⟩
  obtain ⟨within, holds'⟩ := (clauses_loop next tx.clauses).1 after rest
  exact ⟨by simpa using kblock, ⟨listed, within⟩, holds'⟩

theorem validateKBlockTx_accepts (holds : Tallied hashs filled taken) (within : tx.Within filled) :
    ∃ after, Accepts (validateKBlockTx 0 true hashs tx) after := by
  obtain ⟨txs, tookTx⟩ := takeHash_accepts "proposed tx don't exist in local kblock" holds.txs within.1
  have next : Tallied { hashs with txs := txs } filled ⟨taken.txs ++ [tx.uniteHash], taken.clauses, taken.scripts⟩ :=
    ⟨(takeHash_spec holds.txs tookTx).2, holds.clauses, holds.scripts⟩
  obtain ⟨after, ran⟩ := (clauses_loop next tx.clauses).2 within.2
  exact ⟨after, accepts_bind.mpr ⟨txs, tookTx, ran⟩⟩

theorem validateKBlockTx_signed {signer isKBlock} (signed : signer ≠ 0) :
    validateKBlockTx signer isKBlock hashs tx = pure hashs := if_pos signed

/-! ## The local transactions -/

def Keys.none : Keys := ⟨[], [], []⟩

/-- A script the local node can read counts the same on both sides. -/
def Clause.Readable (clause : Clause) : Prop := clause.localScript?.map ScriptData.uniteHash = clause.scriptKey?

theorem BuiltClause.readable (built : BuiltClause) : built.clause.Readable := by
  unfold Clause.Readable Clause.localScript? Clause.scriptKey? Clause.script? BuiltClause.clause
  by_cases paid : built.value = 0
  · cases built.script <;> simp [paid]
  · simp [paid]

theorem addClauses_tallied (holds : Tallied hashs filled .none) (clauses : List Clause) (readable : ∀ clause ∈ clauses, clause.Readable) :
    Tallied (clauses.foldl UniteHashs.addClause hashs)
      ⟨filled.txs, filled.clauses ++ clauses.map Clause.uniteHash, filled.scripts ++ clauses.filterMap Clause.scriptKey?⟩ .none := by
  induction clauses generalizing hashs filled with
  | nil => simpa using holds
  | cons clause rest ih =>
    obtain ⟨first, others⟩ := forall_mem_cons.mp readable
    have tallied : Tallied (hashs.addClause clause) ⟨filled.txs, filled.clauses ++ [clause.uniteHash], filled.scripts ++
        clause.scriptKey?.toList⟩ .none := by
      refine ⟨holds.txs, holds.clauses.add _, ?_⟩
      unfold UniteHashs.addClause
      rw [← first]
      cases clause.localScript? with
      | none => simpa using holds.scripts
      | some script => exact holds.scripts.add _
    have final := ih (tallied) others
    cases found : clause.scriptKey? <;> simpa [found] using final

theorem ofLocal_tallied {txs} (readable : ∀ tx ∈ txs, ∀ clause ∈ tx.clauses, clause.Readable) :
    Tallied (UniteHashs.ofLocal txs) (Keys.of txs) .none := by
  have loop : ∀ (before : List Transaction) (hashs : UniteHashs), Tallied hashs (Keys.of before) .none →
      Tallied (txs.foldl UniteHashs.addTx hashs) (Keys.of (before ++ txs)) .none := by
    induction txs with
    | nil =>
      intro before hashs holds
      simpa using holds
    | cons tx rest ih =>
      intro before hashs holds
      obtain ⟨first, others⟩ := forall_mem_cons.mp readable
      have added : Tallied (hashs.addTx tx) (Keys.of (before ++ [tx])) .none := by
        rw [Keys.of_append]
        have started : Tallied { hashs with txs := hashs.txs.add tx.uniteHash }
            ⟨(Keys.of before).txs ++ [tx.uniteHash], (Keys.of before).clauses, (Keys.of before).scripts⟩ .none :=
          ⟨holds.txs.add _, holds.clauses, holds.scripts⟩
        exact addClauses_tallied started tx.clauses first
      simpa using ih others (before ++ [tx]) _ added
  exact loop [] {} ⟨Tally.holds_empty, Tally.holds_empty, Tally.holds_empty⟩

/-! ## The block -/

section

def isSignerless (tx : Transaction) : Bool :=
  match signer env tx with
  | .ok signer => signer = 0
  | .error _ => false

def signerless (txs : List Transaction) : List Transaction := txs.filter (isSignerless env)

/-- The checks that have nothing to do with the local block. -/
structure Admissible (number : Nat) (tx : Transaction) : Prop where
  signed : ∃ addr, signer env tx = .ok addr
  ethTx : Accepts (ethTxValidate env tx) ()
  reference : Accepts (validateReference env number tx) ()

variable {env} {block : Block Digest Address Transaction}

omit [DecidableEq Digest] in
theorem signerless_append (before : List Transaction) (tx : Transaction) :
    signerless env (before ++ [tx]) = signerless env before ++ if isSignerless env tx then [tx] else [] := by
  unfold signerless
  cases known : isSignerless env tx <;> simp [known]

omit [DecidableEq Digest] in
theorem isSignerless_iff {addr} (signed : signer env tx = .ok addr) : isSignerless env tx = true ↔ addr = 0 := by
  unfold isSignerless
  rw [signed]
  exact decide_eq_true_iff

omit [DecidableEq Digest] in
theorem validateTx_spec {before} (holds : Tallied hashs filled (Keys.of (signerless env before)))
    (accepted : Accepts (validateTx env block hashs tx) after) :
    (Admissible env block.number tx ∧ (isSignerless env tx = true → block.isKBlock = true ∧ tx.Within filled)) ∧
      Tallied after filled (Keys.of (signerless env (before ++ [tx]))) := by
  rw [signerless_append]
  unfold validateTx at accepted
  split at accepted
  · exact absurd accepted not_accepts_throw
  next addr signed =>
    simp only [accepts_bind, accepts_pure] at accepted
    obtain ⟨_, ethTx, _, compared, _, reference, rfl⟩ := accepted
    have admissible : Admissible env block.number tx := ⟨⟨addr, signed⟩, ethTx, reference⟩
    by_cases zero : addr = 0
    · rw [zero] at compared
      obtain ⟨kblock, within, holds'⟩ := validateKBlockTx_spec holds compared
      rw [if_pos ((isSignerless_iff signed).mpr zero), Keys.of_append]
      exact ⟨⟨admissible, fun _ => ⟨kblock, within⟩⟩, holds'⟩
    · rw [validateKBlockTx_signed zero, accepts_pure] at compared
      have other : ¬ isSignerless env tx = true := fun known => zero ((isSignerless_iff signed).mp known)
      rw [if_neg other, append_nil, ← compared]
      exact ⟨⟨admissible, fun known => absurd known other⟩, holds⟩

omit [DecidableEq Digest] in
theorem validateTx_accepts {before} (holds : Tallied hashs filled (Keys.of (signerless env before)))
    (admissible : Admissible env block.number tx) (within : isSignerless env tx = true → block.isKBlock = true ∧ tx.Within filled) :
    ∃ after, Accepts (validateTx env block hashs tx) after := by
  obtain ⟨addr, signed⟩ := admissible.signed
  have compared : ∃ after, Accepts (validateKBlockTx addr block.isKBlock hashs tx) after := by
    by_cases zero : addr = 0
    · obtain ⟨kblock, listed⟩ := within ((isSignerless_iff signed).mpr zero)
      rw [zero, kblock]
      exact validateKBlockTx_accepts holds listed
    · rw [validateKBlockTx_signed zero]
      exact ⟨hashs, accepts_pure.mpr rfl⟩
  obtain ⟨after, compared⟩ := compared
  refine ⟨after, ?_⟩
  unfold validateTx
  rw [signed]
  simp only [accepts_bind, accepts_pure]
  exact ⟨(), admissible.ethTx, after, compared, (), admissible.reference, rfl⟩

structure Matches (proposed local_ : Keys) : Prop where
  txs : proposed.txs.Perm local_.txs
  clauses : proposed.clauses.Subperm local_.clauses
  scripts : proposed.scripts.Perm local_.scripts

theorem matches_iff {proposed local_} (holds : Tallied hashs local_ proposed)
    (txs : ∀ key ∈ proposed.txs, key ∈ local_.txs) (clauses : ∀ key ∈ proposed.clauses, key ∈ local_.clauses)
    (scripts : ∀ key ∈ proposed.scripts, key ∈ local_.scripts) :
    ((∀ entry ∈ hashs.txs.entries, entry.2 = 0) ∧ (∀ entry ∈ hashs.clauses.entries, ¬ entry.2 < 0) ∧
      ∀ entry ∈ hashs.scripts.entries, entry.2 = 0) ↔ Matches proposed local_ := by
  rw [holds.txs.all_iff (· = 0), holds.clauses.all_iff (¬ · < 0), holds.scripts.all_iff (· = 0), Tally.perm_iff_balanced txs,
    Tally.subperm_iff_covered clauses, Tally.perm_iff_balanced scripts]
  exact ⟨fun ⟨first, second, third⟩ => ⟨first, second, third⟩, fun known => ⟨known.txs, known.clauses, known.scripts⟩⟩

theorem within_iff {txs filled} :
    (∀ tx ∈ txs, tx.Within filled) ↔ (∀ tx ∈ txs, ∀ clause ∈ tx.clauses, clause.WellFormed) ∧
      (∀ key ∈ (Keys.of txs).txs, key ∈ filled.txs) ∧ (∀ key ∈ (Keys.of txs).clauses, key ∈ filled.clauses) ∧
      ∀ key ∈ (Keys.of txs).scripts, key ∈ filled.scripts := by
  simp only [Keys.of, mem_map, mem_flatMap, mem_filterMap, Transaction.Within, Clause.Within]
  constructor
  · intro within
    refine ⟨fun tx listed clause among => ((within tx listed).2 clause among).1, ?_, ?_, ?_⟩
    · rintro _ ⟨tx, listed, rfl⟩
      exact (within tx listed).1
    · rintro _ ⟨clause, ⟨tx, listed, among⟩, rfl⟩
      exact ((within tx listed).2 clause among).2.1
    · rintro key ⟨clause, ⟨tx, listed, among⟩, found⟩
      exact ((within tx listed).2 clause among).2.2 key found
  · rintro ⟨wellFormed, txs, clauses, scripts⟩ tx listed
    exact ⟨txs _ ⟨tx, listed, rfl⟩, fun clause among => ⟨wellFormed tx listed clause among,
      clauses _ ⟨clause, ⟨tx, listed, among⟩, rfl⟩, fun key found => scripts key ⟨clause, ⟨tx, listed, among⟩, found⟩⟩⟩

/-- When a K-block passes against some local transactions that can be read. -/
theorem validateBlockBody_accepts_iff (kblock : block.isKBlock = true) {local_}
    (readable : ∀ tx ∈ local_, ∀ clause ∈ tx.clauses, clause.Readable) :
    Accepts (validateBlockBody env (some local_) block) () ↔
      (block.header.txsRoot = env.txsRoot block.txs ∧ block.magic = blockMagicVersion1) ∧
      (∀ tx ∈ block.txs, Admissible env block.number tx) ∧
      (∀ tx ∈ signerless env block.txs, ∀ clause ∈ tx.clauses, clause.WellFormed) ∧
      Matches (Keys.of (signerless env block.txs)) (Keys.of local_) := by
  let good (tx : Transaction) : Prop := Admissible env block.number tx ∧
    (isSignerless env tx = true → block.isKBlock = true ∧ tx.Within (Keys.of local_))
  have loop : (∀ after, Accepts (block.txs.foldlM (validateTx env block) (UniteHashs.ofLocal local_)) after →
        (∀ tx ∈ block.txs, good tx) ∧ Tallied after (Keys.of local_) (Keys.of (signerless env block.txs))) ∧
      ((∀ tx ∈ block.txs, good tx) → ∃ after, Accepts (block.txs.foldlM (validateTx env block) (UniteHashs.ofLocal local_)) after) :=
    accepts_foldlM (fun before hashs => Tallied hashs (Keys.of local_) (Keys.of (signerless env before)))
      (fun _ _ _ _ holds accepted => validateTx_spec holds accepted) (fun _ _ _ holds good => validateTx_accepts holds good.1 good.2)
      block.txs [] _ (ofLocal_tallied readable)
  have all_good : (∀ tx ∈ block.txs, good tx) ↔
      (∀ tx ∈ block.txs, Admissible env block.number tx) ∧ ∀ tx ∈ signerless env block.txs, tx.Within (Keys.of local_) := by
    simp only [good, kblock, true_and, signerless, mem_filter]
    exact ⟨fun all => ⟨fun tx listed => (all tx listed).1, fun tx listed => (all tx listed.1).2 listed.2⟩,
      fun all tx listed => ⟨all.1 tx listed, fun known => all.2 tx ⟨listed, known⟩⟩⟩
  have start : (if block.isKBlock = true then UniteHashs.ofLocal ((some local_).getD []) else {}) = UniteHashs.ofLocal local_ :=
    if_pos kblock
  unfold validateBlockBody
  rw [start]
  simp only [accepts_guard, accepts_bind, not_not]
  constructor
  · rintro ⟨root, magic, hashs, ran, noTx, noClause, noScript, -⟩
    obtain ⟨goods, holds⟩ := loop.1 hashs ran
    obtain ⟨admissible, within⟩ := all_good.mp goods
    obtain ⟨wellFormed, txs, clauses, scripts⟩ := within_iff.mp within
    exact ⟨⟨root, magic⟩, admissible, wellFormed, (matches_iff holds txs clauses scripts).mp ⟨noTx, noClause, noScript⟩⟩
  · rintro ⟨⟨root, magic⟩, admissible, wellFormed, equal⟩
    have within := within_iff.mpr
      ⟨wellFormed, fun _ listed => equal.txs.subset listed, fun _ listed => equal.clauses.subset listed,
        fun _ listed => equal.scripts.subset listed⟩
    obtain ⟨-, txs, clauses, scripts⟩ := within_iff.mp within
    obtain ⟨hashs, ran⟩ := loop.2 (all_good.mpr ⟨admissible, within⟩)
    obtain ⟨noTx, noClause, noScript⟩ := (matches_iff (loop.1 hashs ran).2 txs clauses scripts).mpr equal
    exact ⟨root, magic, hashs, ran, noTx, noClause, noScript, rfl⟩

end

end MeterPov.KBlock
