import MeterPov.Chains.ProposalMap

/-! The commit rule of the pacemaker (`Update`, `OnCommit` and `UpdateQCHigh` of
`consensus/pacemaker.go`, `consensus/pacemaker_commit.go`).

The log database, the broadcast of a committed block and the scheduling of a regulation after a
K-block are left out. -/

set_option autoImplicit false

namespace MeterPov.Consensus

open Lib Blocks Chains

/-- The fields of the pacemaker that the commit rule reads and writes. -/
structure Pipeline (Digest Address Tx : Type) where
  space : DraftSpace Digest Address Tx
  qcHigh : DraftQC Digest
  lastCommitted : Ref
  /-- Every block handed to `onCommit` so far. -/
  commits : List (Block Digest Address Tx)

inductive CommitError where
  | knownBlock
  | addBlock (reason : AddBlockError)
  deriving DecidableEq, Repr

structure ChainHashing (Digest Address : Type) where
  hashing : Hashing Digest Address
  idLess : BlockID Digest → BlockID Digest → Bool

namespace Pipeline

variable {Digest Address Tx α : Type}

def onSpace (action : Action (DraftSpace Digest Address Tx) α) : Action (Pipeline Digest Address Tx) α :=
  Action.focus (fun pipeline => pipeline.space) (fun pipeline space => { pipeline with space := space }) action

def updateQCHigh (node : Option Ref) (qc : QuorumCert Digest) : Action (Pipeline Digest Address Tx) Bool := do
  let pipeline ← get
  let high := pipeline.qcHigh
  if node.isSome ∧ high.qc.qcHeight < qc.qcHeight then
    set { pipeline with qcHigh := ⟨node, qc⟩ }
    return true
  else
    -- Only now is the node of the highest certificate read; it may be nil.
    let highRef ← Exec.deref high.qcNode
    let highNode ← onSpace (DraftSpace.draft highRef)
    if qc.qcHeight = highNode.height ∧ highNode.round < qc.qcRound then
      set { pipeline with qcHigh := ⟨node, qc⟩ }
      return true
    else return false

variable [DecidableEq Digest] (env : ChainHashing Digest Address)

def commitBlock (draftBlk : DraftBlock Digest Address Tx) (escortQC : QuorumCert Digest) :
    Action (DraftSpace Digest Address Tx) (Except CommitError Unit) := do
  let space ← get
  let block := draftBlk.proposedBlock
  if block.number ≤ space.chain.bestBlock.number then return .error .knownBlock
  match space.chain.addBlock env.hashing env.idLess block escortQC with
  | .error reason => return .error (.addBlock reason)
  | .ok (chain, fork) =>
    set { space with chain := chain }
    if 0 < fork.branch.length then throw (.raised "Fork Happened ...")
    return .ok ()

def commitOne (ref : Ref) (escortQC : QuorumCert Digest) : Action (DraftSpace Digest Address Tx) Unit := do
  let draftBlk ← DraftSpace.draft ref
  if draftBlk.successProcessed && !draftBlk.knownBlock && !draftBlk.proposedBlock.isSBlock then
    -- Whatever the commit returns, the drafts below are pruned.
    let _ ← commitBlock env draftBlk escortQC
    DraftSpace.pruneDraftsUpTo env.hashing draftBlk

def onCommit : List (Ref × QuorumCert Digest) → Action (DraftSpace Digest Address Tx) Unit
  | [] => return ()
  | (ref, escortQC) :: rest => do
    commitOne env ref escortQC
    onCommit rest

/-- The blocks from `tmp` down to the last committed height, the lowest first, each with the
certificate its child carries. A parent is older than its child, so that the position of `tmp`
bounds the walk. -/
def commitReady (drafts : List (DraftBlock Digest Address Tx)) (committedHeight : Nat) :
    Nat → Ref → List (Ref × QuorumCert Digest) → Exec (List (Ref × QuorumCert Digest))
  | 0, _, ready => .ok ready
  | hops + 1, tmp, ready => do
    let child ← Exec.deref drafts[tmp]?
    let parentRef ← Exec.deref child.parent
    let parent ← Exec.deref drafts[parentRef]?
    if committedHeight < parent.height then
      commitReady drafts committedHeight hops parentRef ((parentRef, child.proposedBlock.qc) :: ready)
    else .ok ready

def recordCommits (refs : List Ref) : Action (Pipeline Digest Address Tx) Unit :=
  modify fun pipeline =>
    { pipeline with
      commits := pipeline.commits ++ refs.filterMap fun ref =>
        pipeline.space.drafts[ref]?.map fun draft => draft.proposedBlock }

def update (qc : QuorumCert Digest) : Action (Pipeline Digest Address Tx) Unit := do
  match ← onSpace (DraftSpace.getDraftByEscortQC env.hashing qc) with
  | none => return ()
  | some bPrimeRef =>
    let bPrime ← onSpace (DraftSpace.draft bPrimeRef)
    if bPrime.committed then return ()
    let justify ← Exec.deref bPrime.justify
    let bRef ← Exec.deref justify.qcNode
    let _ ← updateQCHigh (some bPrimeRef) qc
    -- A commit requires a direct parent.
    if bPrime.parent ≠ some bRef then return ()
    let pipeline ← get
    let committed ← onSpace (DraftSpace.draft pipeline.lastCommitted)
    let ready ← commitReady pipeline.space.drafts committed.height (bPrimeRef + 1) bPrimeRef []
    recordCommits (ready.map fun entry => entry.1)
    onSpace (onCommit env ready)
    modify fun pipeline => { pipeline with lastCommitted := bRef }

end Pipeline
end MeterPov.Consensus
