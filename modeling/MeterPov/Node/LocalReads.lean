import MeterPov.AccountLock.Handlers
import MeterPov.Chains.ProposalMap

/-! What the execution of a transaction reads from the node it runs on (`chain/seeker.go`, `GetDraftByNum` of
`chain/chain.go`, `RestrictByAccountLock` of `script/accountlock/handler_govern.go`).

Everything else an execution reads is in the state or in the block context. So two nodes execute alike if they answer
these reads alike. -/

set_option autoImplicit false

namespace MeterPov.Node

open Lib Blocks Chains Accounts
open AccountLock (AccountLockModule restrictByAccountLock getCurrentEpoch getProfile getProfileList_run decodeProfiles
  accountLockModuleAddr)

variable {Digest Signer Tx : Type}

structure LocalNode (Digest Signer Tx : Type) where
  space : DraftSpace Digest Signer Tx
  bestPowNonce : Nat

namespace LocalNode

variable (hashing : Hashing Digest Signer) (node : LocalNode Digest Signer Tx)

def latestOf : List (DraftBlock Digest Signer Tx) → Option (DraftBlock Digest Signer Tx)
  | [] => none
  | first :: rest => some (rest.foldl (fun latest prop => if latest.round < prop.round then prop else latest) first)

def getDraftByNum (num : Nat) : Option (DraftBlock Digest Signer Tx) :=
  latestOf ((node.space.proposals.entries.filterMap fun entry => node.space.drafts[entry.2]?).filter fun prop =>
    prop.proposedBlock.number = num)

/-- `GetAncestorBlockID` looks the number up and does not use the descendant. -/
def getAncestorBlockID (num : Nat) : Option (BlockID Digest) := node.space.chain.blockHashes.lookup num

/-- `Seeker.GetID`; no ID is the zero ID and an error. -/
def getID (headBlockID : BlockID Digest) (num : Nat) : Exec (Option (BlockID Digest)) :=
  if headBlockID.number < num then .error (.raised "num exceeds head block")
  else
    match node.getDraftByNum num with
    | some draft => .ok (some (draft.proposedBlock.id hashing))
    | none => .ok (node.getAncestorBlockID num)

def lastPowNonce : Nat := node.bestPowNonce

/-- The account-lock module of the node, over its own chain. -/
def accountLock (mod : AccountLockModule) : AccountLockModule :=
  { mod with bestBlockEpoch := node.space.chain.bestBlock.getBlockEpoch }

end LocalNode

/-- The reads of an execution: those of the node and those of the state. -/
inductive LocalRead where
  | getID (num : Nat)
  | lastPowNonce
  | restrictByAccountLock (addr : Auction.Address)
  | state (method : StateMethod)

abbrev LocalRead.Answer (Digest : Type) : LocalRead → Type
  | .getID _ => Option (BlockID Digest)
  | .lastPowNonce => Nat
  | .restrictByAccountLock _ => Option (Nat × Nat)
  | .state method => method.Answer

/-- The execution of a transaction, or of any part of one. -/
abbrev Execution (Digest α : Type) := Program LocalRead (LocalRead.Answer Digest) α

def LocalRead.handle (hashing : Hashing Digest Signer) (mod : AccountLockModule) (headBlockID : BlockID Digest)
    (node : LocalNode Digest Signer Tx) : (read : LocalRead) → Action State (read.Answer Digest)
  | .getID num => liftM (node.getID hashing headBlockID num)
  | .lastPowNonce => return node.lastPowNonce
  | .restrictByAccountLock addr =>
    (AccountLock.restrictByAccountLock (some (node.accountLock mod)) addr).run
    StateMethod.handle
  | .state method => method.handle

section

variable (hashing : Hashing Digest Signer) (mod : AccountLockModule) (headBlockID : BlockID Digest)
  (first second : LocalNode Digest Signer Tx)

/-- At a number, the nodes hold the same latest draft; where only one has a draft, the other has its block in the
index; where none has, the index is the same. -/
def SameBlockAt (num : Nat) : Prop :=
  match first.getDraftByNum num, second.getDraftByNum num with
  | some draft, some other => draft.proposedBlock.id hashing = other.proposedBlock.id hashing
  | some draft, none => second.getAncestorBlockID num = some (draft.proposedBlock.id hashing)
  | none, some other => first.getAncestorBlockID num = some (other.proposedBlock.id hashing)
  | none, none => first.getAncestorBlockID num = second.getAncestorBlockID num

structure Alike : Prop where
  blocks : ∀ num ≤ headBlockID.number, SameBlockAt hashing first second num
  nonce : first.bestPowNonce = second.bestPowNonce
  epoch : getCurrentEpoch (first.accountLock mod) = getCurrentEpoch (second.accountLock mod)

variable {hashing mod headBlockID first second}

theorem getID_eq_iff {num} (inside : num ≤ headBlockID.number) :
    first.getID hashing headBlockID num = second.getID hashing headBlockID num ↔ SameBlockAt hashing first second num := by
  unfold LocalNode.getID SameBlockAt
  rw [if_neg (not_lt.mpr inside), if_neg (not_lt.mpr inside)]
  cases first.getDraftByNum num <;> cases second.getDraftByNum num <;> simp [eq_comm]

variable {one other : AccountLockModule}

theorem Alike.handle_eq (alike : Alike hashing mod headBlockID first second) (read : LocalRead) :
    read.handle hashing mod headBlockID first = read.handle hashing mod headBlockID second := by
  cases read with
  | getID num =>
    have same : first.getID hashing headBlockID num = second.getID hashing headBlockID num := by
      by_cases inside : num ≤ headBlockID.number
      · exact (getID_eq_iff inside).mpr (alike.blocks num inside)
      · simp only [LocalNode.getID, if_pos (Nat.lt_of_not_le inside)]
    simp only [LocalRead.handle, same]
  | lastPowNonce => simp only [LocalRead.handle, LocalNode.lastPowNonce, alike.nonce]
  | restrictByAccountLock addr => simp only [LocalRead.handle, AccountLock.restrictByAccountLock, alike.epoch]
  | state method => rfl

/-! ## What the reads reveal -/

/-- A state with one locked account. -/
def lockedSource (releaseEpoch : Nat) : Accounts.MapGetter Accounts.StateKey Accounts.StateKey.Value
  | .account _ => ({}, true)
  | .code _ => ([], true)
  | .storage _ .profileList => (.profiles [⟨0, [], 0, releaseEpoch, 0, 0⟩], true)
  | .storage _ _ => (.empty, true)

def lockedState (releaseEpoch : Nat) : State := ⟨.new (lockedSource releaseEpoch), {}, false⟩

theorem restrict_lockedState (one : AccountLockModule) (releaseEpoch : Nat) :
    (restrictByAccountLock (some one) 0).run StateMethod.handle (lockedState releaseEpoch) =
      match getCurrentEpoch one with
      | .error fault => .error fault (lockedState releaseEpoch)
      | .ok epoch => .ok (if releaseEpoch ≤ epoch then none else some (0, 0)) (lockedState releaseEpoch) := by
  have stored : decodeProfiles ((lockedState releaseEpoch).get (.storage accountLockModuleAddr .profileList)) =
      some [⟨0, [], 0, releaseEpoch, 0, 0⟩] := by
    change some (AccountLock.newProfileList _) = _
    simp [AccountLock.newProfileList]
  have found : getProfile [⟨0, [], 0, releaseEpoch, 0, 0⟩] 0 = some ⟨0, [], 0, releaseEpoch, 0, 0⟩ := by
    simp [getProfile, Lib.getIn, Lib.indexIn, Lib.search]
  simp only [restrictByAccountLock, Program.run_bind, Action.bind_eq, getProfileList_run, stored, found]
  cases getCurrentEpoch one with
  | error fault => rfl
  | ok epoch =>
    change Program.run StateMethod.handle (if releaseEpoch ≤ epoch then pure none else pure (some (0, 0))) _ =
      EStateM.Result.ok (if releaseEpoch ≤ epoch then none else some (0, 0)) _
    split <;> rfl

theorem epoch_eq_of_restrict (same : ∀ state, (restrictByAccountLock (some one) 0).run StateMethod.handle state =
      (restrictByAccountLock (some other) 0).run StateMethod.handle state) :
    getCurrentEpoch one = getCurrentEpoch other := by
  have reads := fun releaseEpoch => same (lockedState releaseEpoch)
  simp only [restrict_lockedState] at reads
  cases here : getCurrentEpoch one with
  | error fault =>
    cases there : getCurrentEpoch other with
    | error fault' => simpa [here, there] using reads 0
    | ok epoch => simpa [here, there] using reads 0
  | ok epoch =>
    cases there : getCurrentEpoch other with
    | error fault => simpa [here, there] using reads 0
    | ok epoch' =>
      simp only [here, there] at reads
      have notLess := reads (epoch + 1)
      have notMore := reads (epoch' + 1)
      congr 1
      by_contra different
      rcases Nat.lt_or_gt_of_ne different with less | more
      · simp [Nat.succ_le_of_lt less] at notLess
      · simp [Nat.succ_le_of_lt more] at notMore

theorem lift_injective {α} {one other : Exec α} {state} (same : (liftM one : Action State α) state = (liftM other : Action State α) state) : one = other := by
  cases one <;> cases other <;> cases same <;> rfl

end

section

def sampleBlock (parentID : BlockID (List Nat)) (timestamp epochID : Nat) : Block (List Nat) Nat Unit where
  header := ⟨parentID, timestamp, 20000000, 0, .mBlock, 0, 0, 0, [], [], [], [], [0]⟩
  txs := []
  qc := ⟨parentID.number, parentID.number, epochID, [], [], []⟩
  committeeEpoch := 0
  kBlockNonce := 0
  magic := 1

def genesisBlock : Block (List Nat) Nat Unit := sampleBlock ⟨2 ^ 32 - 1, []⟩ 0 0
def blockOne : Block (List Nat) Nat Unit := sampleBlock (genesisBlock.id listHashing) 1 0
def blockTwo : Block (List Nat) Nat Unit := sampleBlock (blockOne.id listHashing) 2 7
def rivalTwo : Block (List Nat) Nat Unit := sampleBlock (blockOne.id listHashing) 3 7
def blockThree : Block (List Nat) Nat Unit := sampleBlock (blockTwo.id listHashing) 4 7

def sampleDraft (block : Block (List Nat) Nat Unit) (round : Nat) : DraftBlock (List Nat) Nat Unit :=
  ⟨none, block.number, round, none, none, false, block, true, true, false, true⟩

/-- A node with the best block and the drafts it has seen, one round after the other. -/
def nodeWith (committed : List (Block (List Nat) Nat Unit)) (drafts : List (Block (List Nat) Nat Unit)) (bestPowNonce : Nat) :
    LocalNode (List Nat) Nat Unit where
  space :=
    { chain := ⟨committed, committed.map fun block => (block.number, block.id listHashing), committed.headD genesisBlock, genesisBlock.qc⟩
      drafts := drafts.mapIdx fun index block => sampleDraft block (index + 2)
      proposals := drafts.mapIdx (fun index block => (⟨block.id listHashing, index⟩ : (_ : BlockID (List Nat)) × Ref)) |>.toAList }
  bestPowNonce := bestPowNonce

def blockOf (node : LocalNode (List Nat) Nat Unit) (id : BlockID (List Nat)) : Option (Block (List Nat) Nat Unit) :=
  match (node.space.proposals.lookup id).bind fun ref => node.space.drafts[ref]? with
  | some draft => some draft.proposedBlock
  | none => node.space.chain.getBlock listHashing id

/-- The blocks a node holds from a block down. -/
def ancestors (node : LocalNode (List Nat) Nat Unit) : Nat → BlockID (List Nat) → List (BlockID (List Nat))
  | 0, _ => []
  | steps + 1, id =>
    match blockOf node id with
    | none => []
    | some block => id :: ancestors node steps block.parentID

def plainLock : AccountLockModule := ⟨fun _ => .error "", fun _ => 0, .ok 0⟩

end
end MeterPov.Node
