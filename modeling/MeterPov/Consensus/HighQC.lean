import MeterPov.Chains.Growth
import MeterPov.Consensus.CommitRule

/-! The highest certificate of the pipeline.

`UpdateQCHigh` is the only writer of it between two regulations. It takes over whatever it is handed, so
what holds of the certificate depends on the callers: `missing` tells whether one of them may hand over a
certificate without a node, and `vouched` what all of them know of a node and its certificate. -/

set_option autoImplicit false

namespace MeterPov.Consensus

open Lib Lib.Action Blocks Chains

variable {Digest Address Tx : Type}

/-- Not above the other certificate, by height and then by round. -/
def AtMost (qc other : QuorumCert Digest) : Prop :=
  qc.qcHeight < other.qcHeight ∨ qc.qcHeight = other.qcHeight ∧ qc.qcRound ≤ other.qcRound

variable (qc : QuorumCert Digest)

theorem AtMost.refl : AtMost qc qc := .inr ⟨rfl, le_refl _⟩

variable {qc : QuorumCert Digest}

theorem AtMost.trans {middle other} (first : AtMost qc middle) (second : AtMost middle other) : AtMost qc other := by
  unfold AtMost at *
  omega

/-- The certificate is above the highest one, when a node is found for it or not. -/
def replacedBy (high : DraftQC Digest) (found : Bool) (qc : QuorumCert Digest) : Bool :=
  found && decide (high.qc.qcHeight < qc.qcHeight) ||
    high.qcNode.isSome && decide (qc.qcHeight = high.qc.qcHeight) && decide (high.qc.qcRound < qc.qcRound)

theorem atMost_of_replacedBy {high found} (replaced : replacedBy high found qc = true) : AtMost high.qc qc := by
  simp only [replacedBy, Bool.or_eq_true, Bool.and_eq_true, decide_eq_true_eq] at replaced
  unfold AtMost
  omega

namespace Pipeline

section

variable (hashing : Hashing Digest Address) (missing : Prop) (vouched : BlockID Digest → QuorumCert Digest → Prop)
  (low : QuorumCert Digest)

/-- The position is that of a draft with height and round of the certificate, and both are vouched for. -/
structure Placed (space : DraftSpace Digest Address Tx) (ref : Ref) (qc : QuorumCert Digest) : Prop where
  draft : ∃ draft, space.drafts[ref]? = some draft ∧ draft.height = qc.qcHeight ∧ draft.round = qc.qcRound ∧
    vouched (draft.proposedBlock.id hashing) qc

def Node (space : DraftSpace Digest Address Tx) (high : DraftQC Digest) : Prop :=
  (missing ∧ high.qcNode = none) ∨ ∃ ref, high.qcNode = some ref ∧ Placed hashing vouched space ref high.qc

structure High (pipeline : Pipeline Digest Address Tx) : Prop where
  tidy : pipeline.space.Tidy hashing
  node : Node hashing missing vouched pipeline.space pipeline.qcHigh
  above : AtMost low pipeline.qcHigh.qc
  last : pipeline.lastCommitted < pipeline.space.drafts.length

end

variable {hashing : Hashing Digest Address} {missing : Prop} {vouched : BlockID Digest → QuorumCert Digest → Prop}
  {low : QuorumCert Digest} {space : DraftSpace Digest Address Tx} {pipeline : Pipeline Digest Address Tx}

variable {origin : DraftSpace Digest Address Tx}

theorem Placed.grows (grows : origin.Grows hashing space) {ref} (placed : Placed hashing vouched origin ref qc) : Placed hashing vouched space ref qc := by
  obtain ⟨draft, found, height, round, known⟩ := placed.draft
  obtain ⟨later, foundLater, outline, -⟩ := grows.kept ref draft found
  rw [DraftBlock.eq_of_outline outline] at foundLater
  exact ⟨_, foundLater, height, round, known⟩

theorem High.withSpace (high : High hashing missing vouched low pipeline) (grows : pipeline.space.Grows hashing space) :
    High hashing missing vouched low { pipeline with space := space } := by
  refine ⟨grows.tidy, ?_, high.above, lt_of_lt_of_le high.last grows.length_le⟩
  rcases high.node with gone | ⟨ref, isNode, placed⟩
  · exact .inl gone
  · exact .inr ⟨ref, isNode, placed.grows grows⟩

theorem onSpace_high {α} {action : Action (DraftSpace Digest Address Tx) α} (growing : DraftSpace.Growing hashing action) :
    Always (High hashing missing vouched low) (onSpace action) (High hashing missing vouched low) :=
  .focused fun pipeline high => ((growing pipeline.space).start high.tidy).conseq (fun _ same => same)
    (fun _ _ grows => high.withSpace grows) fun _ _ grows => high.withSpace grows

variable {start : Pipeline Digest Address Tx} {node : Option Ref}

/-- What `UpdateQCHigh` may be handed. -/
def Offered (hashing : Hashing Digest Address) (missing : Prop) (vouched : BlockID Digest → QuorumCert Digest → Prop)
    (node : Option Ref) (qc : QuorumCert Digest) (pipeline : Pipeline Digest Address Tx) : Prop :=
  replacedBy pipeline.qcHigh node.isSome qc = true → Node hashing missing vouched pipeline.space ⟨node, qc⟩

theorem High.replaced (high : High hashing missing vouched low pipeline) (replaced : replacedBy pipeline.qcHigh node.isSome qc = true)
    (offered : Offered hashing missing vouched node qc pipeline) :
    High hashing missing vouched low { pipeline with qcHigh := ⟨node, qc⟩ } :=
  ⟨high.tidy, offered replaced, high.above.trans (atMost_of_replacedBy replaced), high.last⟩

/-- The node of the highest certificate has its height and round, so that the certificate itself tells what replaces it. -/
theorem High.replaces_iff (high : High hashing missing vouched low pipeline) :
    Replaces pipeline node qc ↔ replacedBy pipeline.qcHigh node.isSome qc = true := by
  simp only [replacedBy, Bool.or_eq_true, Bool.and_eq_true, decide_eq_true_eq, Replaces]
  refine or_congr Iff.rfl ?_
  rcases high.node with ⟨-, gone⟩ | ⟨ref, isNode, ⟨draft, found, height, round, -⟩⟩
  · simp [gone]
  · simp [isNode, found, height, round]

theorem updateQCHigh_high : Triple (fun pipeline : Pipeline Digest Address Tx => High hashing missing vouched low pipeline ∧
        Offered hashing missing vouched node qc pipeline) (updateQCHigh node qc)
      (fun updated pipeline => High hashing missing vouched low pipeline ∧ (updated = true → pipeline.qcHigh.qc = qc) ∧
        (updated = false → replacedBy pipeline.qcHigh node.isSome qc = false)) (High hashing missing vouched low) := by
  refine .each fun start ⟨high, offered⟩ => (updateQCHigh_spec False False.elim).conseq (fun _ same => same) ?_ fun _ _ stopped => stopped.1 ▸ high
  rintro updated state (⟨rfl, replaces, rfl⟩ | ⟨rfl, notReplaced, rfl⟩)
  · exact ⟨high.replaced (high.replaces_iff.mp replaces) offered, fun _ => rfl, nofun⟩
  · exact ⟨high, nofun, fun _ => Bool.eq_false_iff.mpr fun replaced => notReplaced (high.replaces_iff.mpr replaced)⟩

/-! ## Committing -/

variable [DecidableEq Digest] {env : ChainHashing Digest Address}

omit [DecidableEq Digest] in
theorem Moved.grows (moved : Moved origin space) (tidy : origin.Tidy hashing) : origin.Grows hashing space :=
  have stored := tidy.withChain moved.blocks
  stored.trans (moved.pruned.grows stored.tidy)

theorem onCommit_growing (ready : List (Ref × QuorumCert Digest)) :
    DraftSpace.Growing hashing (onCommit env ready : Action (DraftSpace Digest Address Tx) Unit) :=
  .of_stays (onCommit_moved ready) (fun _ _ => .refl) fun _ _ => Moved.grows

/-- Every proposal the certificate matches is vouched for, if the certificate is about to replace the highest one. -/
def MatchesVouched (hashing : Hashing Digest Address) (vouched : BlockID Digest → QuorumCert Digest → Prop)
    (qc : QuorumCert Digest) (pipeline : Pipeline Digest Address Tx) : Prop :=
  replacedBy pipeline.qcHigh true qc = true → ∀ entry ∈ pipeline.space.proposals.entries,
    ∀ draft, pipeline.space.drafts[entry.2]? = some draft → draft.committed = false →
      DraftSpace.matchesQC hashing pipeline.space.drafts qc entry.2 = true → vouched (draft.proposedBlock.id hashing) qc

/-- A draft that is not committed is a proposal that was there before the search. -/
theorem Reached.high (high : High hashing missing vouched low start) (known : MatchesVouched hashing vouched qc start)
    (reached : Reached hashing start qc pipeline) : High hashing missing vouched low pipeline := by
  obtain ⟨space, _, rfl, searched, adopted⟩ := reached
  have highFound := high.withSpace (searched.grows high.tidy)
  rcases adopted with rfl | ⟨ref, draft, rfl, replaces, foundFor, isOpen⟩
  · exact highFound
  · refine highFound.replaced (highFound.replaces_iff.mp replaces) fun replaced => ?_
    obtain ⟨entry, member, rfl, before, isMatch⟩ := foundFor.proposal isOpen
    exact .inr ⟨entry.2, rfl, draft, foundFor.placed, foundFor.height, foundFor.round, known replaced entry member draft before isOpen isMatch⟩

theorem update_high : Always (fun pipeline : Pipeline Digest Address Tx => High env.hashing missing vouched low pipeline ∧
        MatchesVouched env.hashing vouched qc pipeline) (update env qc) (High env.hashing missing vouched low) := by
  refine .each fun start ⟨high, known⟩ => update_rule False False.elim False.elim (fun _ _ reached _ => reached.high high known)
    (fun _ reached => reached.high high known) fun bPrimeRef bRef bPrime committed middle ready batch _ => ?_
  have highMiddle := batch.reached.high high known
  obtain ⟨justify, isJustify, isRef⟩ := batch.node
  have inside := (highMiddle.tidy.linked bPrime (List.mem_of_getElem? batch.found.placed)).node justify isJustify bRef isRef
  refine ((onCommit_growing ready middle.space).start highMiddle.tidy).conseq (fun _ same => same) (fun _ space grows => ?_) fun _ space grows => ?_
  · have highAfter := highMiddle.withSpace grows
    exact ⟨highAfter.tidy, highAfter.node, highAfter.above, lt_of_lt_of_le inside grows.length_le⟩
  · have highAfter := highMiddle.withSpace grows
    exact ⟨highAfter.tidy, highAfter.node, highAfter.above, highAfter.last⟩

end Pipeline
end MeterPov.Consensus
