import MeterPov.Blocks.VerifyQC
import MeterPov.Chains.Chain
import MeterPov.Lib.Action

/-! Draft blocks and the proposal space (`block/draft_block.go`, `chain/proposal_map.go`).

Drafts are shared through pointers and compared by address, so they are kept in a list and named by
their position in it. A draft is read from the database when the proposal space has none; each such
reading makes a draft of its own. -/

set_option autoImplicit false

namespace MeterPov.Chains

open Lib Blocks

abbrev Ref := Nat

structure DraftQC (Digest : Type) where
  qcNode : Option Ref
  qc : QuorumCert Digest

structure DraftBlock (Digest Address Tx : Type) where
  msg : Option (Message Digest Address Tx)
  height : Nat
  round : Nat
  parent : Option Ref
  justify : Option (DraftQC Digest)
  committed : Bool
  proposedBlock : Block Digest Address Tx
  /-- Whether the function that returns the transactions to the pool is set. -/
  returnTxsToPool : Bool
  successProcessed : Bool
  /-- The only error a draft is kept with is that its block is known. -/
  knownBlock : Bool
  /-- Whether the receipts are set; those of a known block are set to nothing. -/
  receipts : Bool := false

structure DraftSpace (Digest Address Tx : Type) where
  chain : Chain Digest Address Tx
  drafts : List (DraftBlock Digest Address Tx)
  proposals : AList fun _ : BlockID Digest => Ref

namespace DraftSpace

variable {Digest Address Tx : Type}

def draft (ref : Ref) : Action (DraftSpace Digest Address Tx) (DraftBlock Digest Address Tx) := do
  let space ← get
  Exec.deref space.drafts[ref]?

def allocate (draft : DraftBlock Digest Address Tx) : Action (DraftSpace Digest Address Tx) Ref := do
  let space ← get
  set { space with drafts := space.drafts ++ [draft] }
  return space.drafts.length

def committedDraft (block : Block Digest Address Tx) (round : Nat) : DraftBlock Digest Address Tx where
  msg := none
  height := block.number
  round := round
  parent := none
  justify := none
  committed := true
  proposedBlock := block
  returnTxsToPool := false
  successProcessed := false
  knownBlock := false

variable [DecidableEq Digest] (hashing : Hashing Digest Address)

def addDraft (ref : Ref) : Action (DraftSpace Digest Address Tx) Unit := do
  let added ← draft ref
  modify fun space => { space with proposals := space.proposals.insert (added.proposedBlock.id hashing) ref }

def hasDraft (id : BlockID Digest) : Action (DraftSpace Digest Address Tx) Bool := do
  let space ← get
  return (space.proposals.lookup id).isSome

def getDraft (id : BlockID Digest) : Action (DraftSpace Digest Address Tx) (Option Ref) := do
  let space ← get
  match space.proposals.lookup id with
  | some ref => return some ref
  | none =>
    match space.chain.getBlock hashing id with
    | some block => some <$> allocate (committedDraft block ((block.qc.qcRound + 1) % 2 ^ 32))
    | none => return none

def blockMatchDraftQC (draft : DraftBlock Digest Address Tx) (escortQC : QuorumCert Digest) : Bool :=
  if draft.height = 0 ∧ escortQC.qcHeight = 0 then true
  else escortQC.voterMsgHash = draft.proposedBlock.votingHash hashing

def matchesQC (drafts : List (DraftBlock Digest Address Tx)) (qc : QuorumCert Digest) (ref : Ref) : Bool :=
  match drafts[ref]? with
  | none => false
  | some draft => draft.height = qc.qcHeight && draft.round = qc.qcRound && blockMatchDraftQC hashing draft qc

/-- The block found in the database is the one the index has at that height, whatever the hash in the
certificate. -/
def getDraftByEscortQC (qc : QuorumCert Digest) : Action (DraftSpace Digest Address Tx) (Option Ref) := do
  let space ← get
  match space.proposals.entries.find? fun entry => matchesQC hashing space.drafts qc entry.2 with
  | some entry => return some entry.2
  | none =>
    match space.chain.getTrunkBlock hashing qc.qcHeight with
    | none => return none
    | some block =>
      if block.number = qc.qcHeight then some <$> allocate (committedDraft block qc.qcRound) else return none

def removeProposal (id : BlockID Digest) : Action (DraftSpace Digest Address Tx) Unit :=
  modify fun space => { space with proposals := space.proposals.erase id }

def setCommitted (ref : Ref) : Action (DraftSpace Digest Address Tx) Unit :=
  modify fun space => { space with drafts := space.drafts.modify ref fun draft => { draft with committed := true } }

def pruneOne (lastCommitted : DraftBlock Digest Address Tx) (ref : Ref) : Action (DraftSpace Digest Address Tx) Unit := do
  let draftBlk ← draft ref
  let id := draftBlk.proposedBlock.id hashing
  if draftBlk.proposedBlock.number < lastCommitted.height then removeProposal id
  if draftBlk.proposedBlock.number = lastCommitted.height then
    if id ≠ lastCommitted.proposedBlock.id hashing then
      if draftBlk.returnTxsToPool then removeProposal id else throw .nilDereference
    else setCommitted ref

def pruneEach (lastCommitted : DraftBlock Digest Address Tx) : List Ref → Action (DraftSpace Digest Address Tx) Unit
  | [] => return ()
  | ref :: rest => do
    pruneOne hashing lastCommitted ref
    pruneEach lastCommitted rest

def pruneDraftsUpTo (lastCommitted : DraftBlock Digest Address Tx) : Action (DraftSpace Digest Address Tx) Unit := do
  let space ← get
  pruneEach hashing lastCommitted (space.proposals.entries.map fun entry => entry.2)

/-- The walk down from a head, over at most the given number of drafts. -/
def proposalsDownTo (committedID : BlockID Digest) : Nat → Option Ref → List Ref → Action (DraftSpace Digest Address Tx) (List Ref)
  | 0, _, result => return result
  | hops + 1, head, result =>
    match head with
    | none => return result
    | some ref => do
      let headDraft ← draft ref
      if headDraft.committed ∨ committedID = headDraft.proposedBlock.id hashing then return result
      proposalsDownTo committedID hops headDraft.parent (ref :: result)

def getDraftsUpTo (committedBlkID : BlockID Digest) (qcHigh : QuorumCert Digest) : Action (DraftSpace Digest Address Tx) (List Ref) := do
  let committed ← getDraft hashing committedBlkID
  let head ← getDraftByEscortQC hashing qcHigh
  match committed, head with
  | some committedRef, some _ => do
    let committedDraft ← draft committedRef
    proposalsDownTo hashing (committedDraft.proposedBlock.id hashing) 4 head []
  | _, _ => return []

end DraftSpace
end MeterPov.Chains
