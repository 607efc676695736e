import MeterPov.Consensus.HighQC
import MeterPov.Consensus.Voting

/-! Looking up drafts that were committed and pruned (`chain/proposal_map.go`).

A draft that has left the map is made anew from the stored block. Its round is guessed from the certificate of the block when
it is looked up by its ID, and its hash is not compared when it is looked up by a certificate. -/

set_option autoImplicit false

namespace MeterPov.Chains

open Lib Blocks Action

variable {Digest Address Tx : Type} [DecidableEq Digest] {hashing : Hashing Digest Address}

namespace DraftSpace

variable {space after : DraftSpace Digest Address Tx} {last : DraftBlock Digest Address Tx} {ref : Ref}

/-! ## Pruning -/

/-- A draft that is passed over leaves the map if it is below the height, or beside the committed one. -/
theorem pruneOne_ok (ran : pruneOne hashing last ref space = .ok () after) : ∃ draft, space.drafts[ref]? = some draft ∧
      ((draft.proposedBlock.number = last.height → draft.proposedBlock.id hashing ≠ last.proposedBlock.id hashing) ∧
          draft.proposedBlock.number ≤ last.height ∧ after.proposals = space.proposals.erase (draft.proposedBlock.id hashing) ∨
        last.height ≤ draft.proposedBlock.number ∧ after.proposals = space.proposals) := by
  obtain ⟨draft, middle, read, rest⟩ := bind_eq_ok.mp ran
  obtain ⟨found, rfl⟩ := draft_eq_ok.mp read
  split at rest
  next below =>
    obtain ⟨_, removed, erased, done⟩ := bind_eq_ok.mp rest
    cases erased
    rw [if_neg (by omega)] at done
    cases done
    exact ⟨draft, found, Or.inl ⟨by omega, by omega, rfl⟩⟩
  next notBelow =>
    split at rest
    next same =>
      split at rest
      next differs =>
        split at rest
        · cases rest
          exact ⟨draft, found, Or.inl ⟨fun _ => differs, by omega, rfl⟩⟩
        · cases rest
      · cases rest
        exact ⟨draft, found, Or.inr ⟨by omega, rfl⟩⟩
    · cases rest
      exact ⟨draft, found, Or.inr ⟨by omega, rfl⟩⟩

theorem key_ne_of_mem_erase {id} {map : AList fun _ : BlockID Digest => Ref} {entry} (member : entry ∈ (map.erase id).entries) : entry.1 ≠ id := by
  rintro rfl
  have found := AList.mem_lookup_iff.mpr member
  rw [AList.lookup_erase] at found
  cases found

/-- What pruning leaves: entries that were there before, at the height or above it, the committed one among them. -/
structure Cleared (hashing : Hashing Digest Address) (last : DraftBlock Digest Address Tx) (refs : List Ref)
    (space after : DraftSpace Digest Address Tx) : Prop where
  pruned : space.Pruned after
  height_le : ∀ entry ∈ after.proposals.entries, entry.2 ∈ refs → last.height ≤ entry.1.number
  kept : last.height = last.proposedBlock.number → ∀ ref, space.proposals.lookup (last.proposedBlock.id hashing) = some ref →
    after.proposals.lookup (last.proposedBlock.id hashing) = some ref

theorem pruneEach_ok (refs : List Ref) (named : space.Named hashing) (ran : pruneEach hashing last refs space = .ok () after) :
    Cleared hashing last refs space after := by
  induction refs generalizing space with
  | nil =>
    cases ran
    exact ⟨.refl, by simp, fun _ _ found => found⟩
  | cons ref rest ih =>
    obtain ⟨_, middle, one, ran⟩ := bind_eq_ok.mp ran
    have pruned := (pruneOne_pruned space).of_ok .refl one
    obtain ⟨draft, found, outcome⟩ := pruneOne_ok one
    have later := ih (fun entry member => pruned.names (named entry (pruned.fewer entry member))) ran
    refine ⟨pruned.trans later.pruned, ?_, ?_⟩
    · intro entry member listed
      have stays := later.pruned.fewer entry member
      rcases List.mem_cons.mp listed with isRef | inRest
      · -- the entry was passed over here, and has the ID of its draft
        obtain ⟨_, placed, name⟩ := named entry (pruned.fewer entry stays)
        rw [isRef] at placed
        obtain rfl := Option.some.inj (placed.symm.trans found)
        rcases outcome with ⟨-, -, erased⟩ | ⟨high, -⟩
        · rw [erased] at stays
          exact absurd name.symm (key_ne_of_mem_erase stays)
        · rw [← name, Block.id_number]
          exact high
      · exact later.height_le entry member inRest
    · intro isHeight place listed
      apply later.kept isHeight
      rcases outcome with ⟨differs, -, erased⟩ | ⟨-, same⟩
      · have notErased : last.proposedBlock.id hashing ≠ draft.proposedBlock.id hashing := by
          intro sameID
          have number : draft.proposedBlock.number = last.height := by
            rw [isHeight, ← Block.id_number draft.proposedBlock hashing, ← sameID, Block.id_number]
          exact differs number sameID.symm
        rw [erased, AList.lookup_erase_ne notErased]
        exact listed
      · rw [same]
        exact listed

theorem pruneDraftsUpTo_ok (named : space.Named hashing) (ran : pruneDraftsUpTo hashing last space = .ok () after) :
    Cleared hashing last (space.proposals.entries.map fun entry => entry.2) space after :=
  pruneEach_ok _ named ran

/-! ## Reading from the database -/

theorem getDraft_stored {id block} (absent : space.proposals.lookup id = none) (stored : space.chain.getBlock hashing id = some block) :
    getDraft hashing id space = .ok (some space.drafts.length)
      { space with drafts := space.drafts ++ [committedDraft block ((block.qc.qcRound + 1) % 2 ^ 32)] } := by
  unfold getDraft
  simp only [Action.bind_eq, get, getThe, MonadStateOf.get, EStateM.get, absent, stored]
  rfl

theorem getDraftByEscortQC_eq (qc : QuorumCert Digest) : getDraftByEscortQC hashing qc space =
      match space.proposals.entries.find? fun entry => matchesQC hashing space.drafts qc entry.2 with
      | some entry => .ok (some entry.2) space
      | none =>
        match space.chain.getTrunkBlock hashing qc.qcHeight with
        | none => .ok none space
        | some block =>
          if block.number = qc.qcHeight then
            .ok (some space.drafts.length) { space with drafts := space.drafts ++ [committedDraft block qc.qcRound] }
          else .ok none space := by
  unfold getDraftByEscortQC
  simp only [Action.bind_eq, get, getThe, MonadStateOf.get, EStateM.get]
  cases space.proposals.entries.find? fun entry => matchesQC hashing space.drafts qc entry.2 with
  | some entry => rfl
  | none =>
    cases space.chain.getTrunkBlock hashing qc.qcHeight with
    | none => rfl
    | some block =>
      dsimp only
      split
      · rfl
      · rfl

theorem votingHash_of_matchesQC {qc draft} (positive : 0 < qc.qcHeight)
    (found : space.drafts[ref]? = some draft) (isMatch : matchesQC hashing space.drafts qc ref = true) :
    draft.proposedBlock.votingHash hashing = qc.voterMsgHash := by
  have notGenesis : ¬ (draft.height = 0 ∧ qc.qcHeight = 0) := by omega
  simp only [matchesQC, found, blockMatchDraftQC, if_neg notGenesis, Bool.and_eq_true, decide_eq_true_eq] at isMatch
  exact isMatch.2.symm

/-- A lookup by a certificate finds the block that was voted on exactly if a draft in the map matches it, or the block that the
index has at its height has its hash. -/
theorem hash_found_iff {qc} (positive : 0 < qc.qcHeight) :
    (∀ ref after draft, getDraftByEscortQC hashing qc space = .ok (some ref) after → after.drafts[ref]? = some draft →
      draft.proposedBlock.votingHash hashing = qc.voterMsgHash) ↔
      (∃ entry ∈ space.proposals.entries, matchesQC hashing space.drafts qc entry.2 = true) ∨
        ∀ block, space.chain.getTrunkBlock hashing qc.qcHeight = some block → block.number = qc.qcHeight →
          block.votingHash hashing = qc.voterMsgHash := by
  rw [getDraftByEscortQC_eq]
  cases found : space.proposals.entries.find? fun entry => matchesQC hashing space.drafts qc entry.2 with
  | some entry =>
    have isMatch := List.find?_some found
    have there : ∃ entry ∈ space.proposals.entries, matchesQC hashing space.drafts qc entry.2 = true :=
      ⟨entry, List.mem_of_find?_eq_some found, isMatch⟩
    refine ⟨fun _ => Or.inl there, fun _ ref after draft ran placed => ?_⟩
    cases ran
    exact votingHash_of_matchesQC positive placed isMatch
  | none =>
    have nothing : ¬ ∃ entry ∈ space.proposals.entries, matchesQC hashing space.drafts qc entry.2 = true := by
      rintro ⟨entry, member, isMatch⟩
      exact absurd isMatch (List.find?_eq_none.mp found entry member)
    cases indexed : space.chain.getTrunkBlock hashing qc.qcHeight with
    | none => exact ⟨fun _ => Or.inr nofun, fun _ _ _ _ ran => nomatch ran⟩
    | some block =>
      dsimp only
      by_cases isHeight : block.number = qc.qcHeight
      · rw [if_pos isHeight]
        constructor
        · intro faithful
          refine Or.inr fun other isOther _ => ?_
          cases isOther
          exact faithful _ _ (committedDraft block qc.qcRound) rfl List.getElem?_concat_length
        · rintro (there | same) ref after draft ran placed
          · exact absurd there nothing
          · cases ran
            obtain rfl := Option.some.inj (List.getElem?_concat_length.symm.trans placed)
            exact same block rfl isHeight
      · rw [if_neg isHeight]
        refine ⟨fun _ => Or.inr fun other isOther high => ?_, fun _ _ _ _ ran => nomatch ran⟩
        cases isOther
        exact absurd high isHeight

end DraftSpace
end MeterPov.Chains

namespace MeterPov.Consensus

open Lib Blocks Chains Pipeline

variable {Digest Address Tx : Type} [DecidableEq Digest] {env : ChainHashing Digest Address}
  {space after : DraftSpace Digest Address Tx} {block : Block Digest Address Tx}

/-! ## Committing -/

/-- The chain has the block at its number, not above its head. -/
structure Stands (hashing : Hashing Digest Address) (block : Block Digest Address Tx) (chain : Chain Digest Address Tx) : Prop where
  indexed : chain.getTrunkBlock hashing block.number = some block
  notAbove : block.number ≤ chain.bestBlock.number

theorem Stands.getBlock {hashing chain} (stands : Stands hashing block chain) :
    chain.getBlock hashing (block.id hashing) = some block := by
  have found := stands.indexed
  unfold Chain.getTrunkBlock at found
  split at found
  · cases found
  next id _ =>
    rw [(Chain.mem_of_getBlock found).2]
    exact found

variable {qc : QuorumCert Digest} {result : Except CommitError Unit}

variable {draft : DraftBlock Digest Address Tx}

theorem commitBlock_ok (ran : commitBlock env draft qc space = .ok result after) : (∃ reason, result = .error reason) ∧ after = space ∨
      result = .ok () ∧ space.chain.bestBlock.number < draft.proposedBlock.number ∧
        after = { space with chain := ⟨draft.proposedBlock :: space.chain.blocks,
          (draft.proposedBlock.number, draft.proposedBlock.id env.hashing) :: space.chain.blockHashes, draft.proposedBlock, qc⟩ } := by
  obtain ⟨state, middle, read, rest⟩ := Action.bind_eq_ok.mp ran
  cases read
  split at rest
  · cases rest
    exact Or.inl ⟨⟨_, rfl⟩, rfl⟩
  next above =>
    cases added : space.chain.addBlock env.hashing env.idLess draft.proposedBlock qc with
    | error reason =>
      rw [added] at rest
      cases rest
      exact Or.inl ⟨⟨_, rfl⟩, rfl⟩
    | ok pair =>
      rw [added] at rest
      obtain ⟨_, stored, isStored, done⟩ := Action.bind_eq_ok.mp rest
      cases isStored
      split at done
      · cases done
      next noBranch =>
        cases done
        refine Or.inr ⟨rfl, by omega, ?_⟩
        -- a block beside the trunk would be a branch
        unfold Chain.addBlock at added
        split at added
        · cases added
        · split at added
          · cases added
          · split at added
            · split at added
              · cases added
              · cases added
                rfl
            · cases added
              simp at noBranch

theorem grows_of_committed (tidy : space.Tidy env.hashing) (ran : commitBlock env draft qc space = .ok result after) : space.Grows env.hashing after := by
  rcases commitBlock_ok ran with ⟨-, rfl⟩ | ⟨-, -, rfl⟩
  · exact tidy
  · exact tidy.withChain fun _ member => List.mem_cons_of_mem _ member

theorem Stands.committed (stands : Stands env.hashing block space.chain) (ran : commitBlock env draft qc space = .ok result after) :
    Stands env.hashing block after.chain := by
  rcases commitBlock_ok ran with ⟨-, rfl⟩ | ⟨-, above, rfl⟩
  · exact stands
  · have low := stands.notAbove
    have higher : block.number < draft.proposedBlock.number := by omega
    have otherNumber : (block.number == draft.proposedBlock.number) = false := by
      simpa using ne_of_lt higher
    refine ⟨?_, le_of_lt higher⟩
    have found := stands.indexed
    unfold Chain.getTrunkBlock at found ⊢
    rw [List.lookup_cons, otherNumber]
    split at found
    · cases found
    next id isID =>
      simp only [isID]
      have sameID := (Chain.mem_of_getBlock found).2
      have otherID : draft.proposedBlock.id env.hashing ≠ id := by
        intro same
        have number : draft.proposedBlock.number = block.number := by
          rw [← Block.id_number draft.proposedBlock env.hashing, same, ← sameID, Block.id_number]
        omega
      unfold Chain.getBlock at found ⊢
      rw [List.find?_cons_of_neg (by simpa using otherID)]
      exact found

/-! ## Drafts that have left the map -/

/-- The committed draft is still in the map, or nothing at its height or below is. -/
structure Settling (env : ChainHashing Digest Address) (ref : Ref) (block : Block Digest Address Tx) (space : DraftSpace Digest Address Tx) :
    Prop where
  tidy : space.Tidy env.hashing
  stands : Stands env.hashing block space.chain
  left : space.proposals.lookup (block.id env.hashing) = some ref ∨ ∀ entry ∈ space.proposals.entries, block.number < entry.1.number

theorem Settling.commitOne {ref other}
    (settling : Settling env ref block space) (found : space.drafts[other]? = some draft) (above : block.number < draft.height)
    (ran : commitOne env other qc space = .ok () after) : Settling env ref block after ∧ space.Grows env.hashing after := by
  have grows : space.Grows env.hashing after := ((commitOne_moved space).of_ok .refl ran).grows settling.tidy
  refine ⟨?_, grows⟩
  have commitOneOk : after = space ∨ ∃ result committed, commitBlock env draft qc space = .ok result committed ∧
      DraftSpace.pruneDraftsUpTo env.hashing draft committed = .ok () after := by
    obtain ⟨read, middle, isRead, rest⟩ := Action.bind_eq_ok.mp ran
    obtain ⟨placed, rfl⟩ := DraftSpace.draft_eq_ok.mp isRead
    obtain rfl := Option.some.inj (found.symm.trans placed)
    split at rest
    · obtain ⟨result, committed, isCommitted, pruned⟩ := Action.bind_eq_ok.mp rest
      exact Or.inr ⟨result, committed, isCommitted, pruned⟩
    · cases rest
      exact Or.inl rfl
  rcases commitOneOk with rfl | ⟨result, committed, isCommitted, isPruned⟩
  · exact settling
  · have pruned := DraftSpace.pruneDraftsUpTo_ok (grows_of_committed settling.tidy isCommitted).tidy.named isPruned
    refine ⟨grows.tidy, ?_, Or.inr fun entry member => ?_⟩
    · rw [pruned.pruned.chain]
      exact settling.stands.committed isCommitted
    · have high := pruned.height_le entry member (List.mem_map.mpr ⟨entry, pruned.pruned.fewer entry member, rfl⟩)
      exact lt_of_lt_of_le above high

theorem Settling.onCommit {ref} (later : List (Ref × QuorumCert Digest)) {origin : DraftSpace Digest Address Tx}
    (settling : Settling env ref block space) (grows : origin.Grows env.hashing space)
    (above : ∀ entry ∈ later, ∃ draft, origin.drafts[entry.1]? = some draft ∧ block.number < draft.height)
    (ran : onCommit env later space = .ok () after) : Settling env ref block after := by
  induction later generalizing space with
  | nil =>
    cases ran
    exact settling
  | cons entry rest ih =>
    obtain ⟨_, middle, one, ran⟩ := Action.bind_eq_ok.mp ran
    obtain ⟨draft, found, high⟩ := above entry List.mem_cons_self
    obtain ⟨now, placed, outline, -⟩ := grows.kept entry.1 draft found
    have sameHeight : now.height = draft.height := by rw [DraftBlock.eq_of_outline outline]
    obtain ⟨settled, grown⟩ := settling.commitOne placed (by rw [sameHeight]; exact high) one
    exact ih settled (grows.trans grown) (fun other member => above other (List.mem_cons_of_mem _ member)) ran

/-- The lookup returns a draft with the same block, height and round. -/
def Finds (lookup : Action (DraftSpace Digest Address Tx) (Option Ref)) (space : DraftSpace Digest Address Tx)
    (draft : DraftBlock Digest Address Tx) : Prop :=
  ∃ ref after found, lookup space = .ok (some ref) after ∧ after.drafts[ref]? = some found ∧
    found.proposedBlock = draft.proposedBlock ∧ found.height = draft.height ∧ found.round = draft.round

/-- The certificate is the one for the draft. -/
structure Escorts (hashing : Hashing Digest Address) (qc : QuorumCert Digest) (draft : DraftBlock Digest Address Tx) : Prop where
  height : qc.qcHeight = draft.height
  round : qc.qcRound = draft.round
  hash : qc.voterMsgHash = draft.proposedBlock.votingHash hashing

section

variable {draft : DraftBlock Digest Address Tx} {ref : Ref}

theorem Settling.getDraft_finds_iff (settling : Settling env ref draft.proposedBlock space)
    (pruned : space.proposals.lookup (draft.proposedBlock.id env.hashing) = none) (isHeight : draft.height = draft.proposedBlock.number) :
    Finds (DraftSpace.getDraft env.hashing (draft.proposedBlock.id env.hashing)) space draft ↔
      draft.round = (draft.proposedBlock.qc.qcRound + 1) % 2 ^ 32 := by
  unfold Finds
  rw [DraftSpace.getDraft_stored pruned settling.stands.getBlock]
  constructor
  · rintro ⟨_, _, found, ran, placed, -, -, round⟩
    cases ran
    obtain rfl := Option.some.inj (List.getElem?_concat_length.symm.trans placed)
    exact round.symm
  · intro round
    exact ⟨_, _, _, rfl, List.getElem?_concat_length, rfl, isHeight.symm, round.symm⟩

theorem Settling.getDraftByEscortQC_finds (settling : Settling env ref draft.proposedBlock space)
    (pruned : space.proposals.lookup (draft.proposedBlock.id env.hashing) = none) (isHeight : draft.height = draft.proposedBlock.number)
    (escorts : Escorts env.hashing qc draft) : Finds (DraftSpace.getDraftByEscortQC env.hashing qc) space draft := by
  have above : ∀ entry ∈ space.proposals.entries, draft.proposedBlock.number < entry.1.number := by
    rcases settling.left with listed | above
    · rw [pruned] at listed
      cases listed
    · exact above
  have noMatch : (space.proposals.entries.find? fun entry => DraftSpace.matchesQC env.hashing space.drafts qc entry.2) = none := by
    rw [List.find?_eq_none]
    intro entry member isMatch
    obtain ⟨other, placed, name⟩ := settling.tidy.named entry member
    have linked := settling.tidy.linked other (List.mem_of_getElem? placed)
    have high := above entry member
    rw [← name, Block.id_number, ← linked.height] at high
    simp only [DraftSpace.matchesQC, placed, Bool.and_eq_true, decide_eq_true_eq] at isMatch
    have same := isMatch.1.1
    rw [escorts.height] at same
    omega
  have number := escorts.height.trans isHeight
  unfold Finds
  rw [DraftSpace.getDraftByEscortQC_eq, noMatch, number]
  simp only [settling.stands.indexed, if_true]
  exact ⟨_, _, _, rfl, List.getElem?_concat_length, rfl, isHeight.symm, escorts.round⟩

theorem Settling.of_committed {committed} (tidy : space.Tidy env.hashing)
    (found : space.drafts[ref]? = some draft) (listed : space.proposals.lookup (draft.proposedBlock.id env.hashing) = some ref)
    (isCommitted : commitBlock env draft qc space = .ok (.ok ()) committed)
    (isPruned : DraftSpace.pruneDraftsUpTo env.hashing draft committed = .ok () after) :
    Settling env ref draft.proposedBlock after := by
  have grown := grows_of_committed tidy isCommitted
  have pruned := DraftSpace.pruneDraftsUpTo_ok grown.tidy.named isPruned
  have isHeight := (tidy.linked draft (List.mem_of_getElem? found)).height
  have proposals : committed.proposals = space.proposals := by
    rcases commitBlock_ok isCommitted with ⟨-, rfl⟩ | ⟨-, -, rfl⟩
    · rfl
    · rfl
  refine ⟨(pruned.pruned.grows grown.tidy).tidy, ?_, Or.inl (pruned.kept isHeight ref (proposals ▸ listed))⟩
  rw [pruned.pruned.chain]
  rcases commitBlock_ok isCommitted with ⟨⟨reason, failed⟩, -⟩ | ⟨-, -, rfl⟩
  · cases failed
  · constructor
    · simp [Chain.getTrunkBlock, Chain.getBlock]
    · exact le_refl _

end

/-- The first part is about any lookup by a certificate above the first block, the second about a draft in the map that is committed
with its certificate, and leaves the map as later ones are committed. -/
theorem lookup_faithful_iff (env : ChainHashing Digest Address) :
    (∀ (space : DraftSpace Digest Address Tx) (qc : QuorumCert Digest), 0 < qc.qcHeight →
      ((∀ ref after draft, DraftSpace.getDraftByEscortQC env.hashing qc space = .ok (some ref) after →
        after.drafts[ref]? = some draft → draft.proposedBlock.votingHash env.hashing = qc.voterMsgHash) ↔
        (∃ entry ∈ space.proposals.entries, DraftSpace.matchesQC env.hashing space.drafts qc entry.2 = true) ∨
          ∀ block, space.chain.getTrunkBlock env.hashing qc.qcHeight = some block → block.number = qc.qcHeight →
            block.votingHash env.hashing = qc.voterMsgHash)) ∧
    ∀ (start committed middle after : DraftSpace Digest Address Tx) (ref : Ref) (draft : DraftBlock Digest Address Tx)
      (qc : QuorumCert Digest) (later : List (Ref × QuorumCert Digest)),
      start.Tidy env.hashing → start.drafts[ref]? = some draft →
      start.proposals.lookup (draft.proposedBlock.id env.hashing) = some ref → Escorts env.hashing qc draft →
      commitBlock env draft qc start = .ok (.ok ()) committed →
      DraftSpace.pruneDraftsUpTo env.hashing draft committed = .ok () middle →
      (∀ entry ∈ later, ∃ other, middle.drafts[entry.1]? = some other ∧ draft.proposedBlock.number < other.height) →
      onCommit env later middle = .ok () after → after.proposals.lookup (draft.proposedBlock.id env.hashing) = none →
      (Finds (DraftSpace.getDraft env.hashing (draft.proposedBlock.id env.hashing)) after draft ↔
        draft.round = (draft.proposedBlock.qc.qcRound + 1) % 2 ^ 32) ∧
      Finds (DraftSpace.getDraftByEscortQC env.hashing qc) after draft := by
  refine ⟨fun space qc positive => DraftSpace.hash_found_iff positive, ?_⟩
  intro start committed middle after ref draft qc later tidy found listed escorts isCommitted isPruned above ran gone
  have settling := Settling.of_committed tidy found listed isCommitted isPruned
  have settled := settling.onCommit later settling.tidy above ran
  have isHeight := (tidy.linked draft (List.mem_of_getElem? found)).height
  exact ⟨settled.getDraft_finds_iff gone isHeight, settled.getDraftByEscortQC_finds gone isHeight escorts⟩

namespace LookupSample

def hashingEnv : ChainHashing (List Nat) Nat := ⟨listHashing, fun _ _ => false⟩

/-- Block 6 proposed in the given round on block 5, whose certificate is of round 5, and block 7 in the next one. -/
def sixth (round : Nat) : DraftBlock (List Nat) Nat Unit :=
  { DraftSpace.committedDraft firstChild round with
    msg := some (propose 2 round firstChild), parent := some 0, justify := some ⟨some 0, firstChild.qc⟩, committed := false,
    successProcessed := true }

def seventh (round : Nat) : DraftBlock (List Nat) Nat Unit :=
  { DraftSpace.committedDraft grandChild round with
    msg := some (propose 3 round grandChild), parent := some 1, justify := some ⟨some 1, grandChild.qc⟩, committed := false,
    successProcessed := true }

def startSpace (round : Nat) : DraftSpace (List Nat) Nat Unit where
  chain := ⟨[baseBlock], [(5, baseBlock.id listHashing)], baseBlock, certify baseBlock 5⟩
  drafts := [DraftSpace.committedDraft baseBlock 5, sixth round, seventh (round + 1)]
  proposals := ((AList.singleton (baseBlock.id listHashing) 0).insert (firstChild.id listHashing) 1).insert (grandChild.id listHashing) 2

theorem tidy (round : Nat) : (startSpace round).Tidy listHashing := by
  apply DraftSpace.tidy_of
  · intro entry member
    have cases : entry = ⟨grandChild.id listHashing, 2⟩ ∨ entry = ⟨firstChild.id listHashing, 1⟩ ∨ entry = ⟨baseBlock.id listHashing, 0⟩ := by
      rcases Lib.mem_entries_insert member with isLast | member
      · exact Or.inl isLast
      · rcases Lib.mem_entries_insert member with isNext | member
        · exact Or.inr (Or.inl isNext)
        · exact Or.inr (Or.inr (List.mem_singleton.mp member))
    rcases cases with rfl | rfl | rfl
    · exact ⟨seventh (round + 1), rfl, rfl⟩
    · exact ⟨sixth round, rfl, rfl⟩
    · exact ⟨DraftSpace.committedDraft baseBlock 5, rfl, rfl⟩
  · intro draft member
    simp only [startSpace, List.mem_cons, List.not_mem_nil, or_false] at member
    rcases member with rfl | rfl | rfl
    · exact ⟨nofun, nofun, nofun, fun _ => List.mem_cons_self, rfl⟩
    · exact ⟨by rintro ref ⟨⟩; simp [startSpace], by rintro justify ⟨⟩ ref ⟨⟩; simp [startSpace], fun _ => ⟨rfl, rfl, rfl⟩, nofun, rfl⟩
    · exact ⟨by rintro ref ⟨⟩; simp [startSpace], by rintro justify ⟨⟩ ref ⟨⟩; simp [startSpace], fun _ => ⟨rfl, rfl, rfl⟩, nofun, rfl⟩

def committedSpace (round : Nat) : DraftSpace (List Nat) Nat Unit :=
  (commitBlock hashingEnv (sixth round) (certify firstChild round)).finalState (startSpace round)

def prunedSpace (round : Nat) : DraftSpace (List Nat) Nat Unit :=
  (DraftSpace.pruneDraftsUpTo listHashing (sixth round)).finalState (committedSpace round)

def finalSpace (round : Nat) : DraftSpace (List Nat) Nat Unit :=
  (onCommit hashingEnv [(2, certify grandChild (round + 1))]).finalState (prunedSpace round)

theorem later_above (round : Nat) : ∀ entry ∈ [(2, certify grandChild (round + 1))], ∃ other, (prunedSpace round).drafts[entry.1]? = some other ∧
    firstChild.number < other.height := by
  intro entry member
  obtain rfl := List.mem_singleton.mp member
  exact ⟨seventh (round + 1), by with_unfolding_all rfl, (by decide : firstChild.number < grandChild.number)⟩

end LookupSample

open LookupSample in
theorem sixth_found_after_pruning : (finalSpace 6).proposals.lookup (firstChild.id listHashing) = none ∧
      Finds (DraftSpace.getDraft listHashing (firstChild.id listHashing)) (finalSpace 6) (sixth 6) ∧
      Finds (DraftSpace.getDraftByEscortQC listHashing (certify firstChild 6)) (finalSpace 6) (sixth 6) := by
  have gone : (finalSpace 6).proposals.lookup (firstChild.id listHashing) = none := by with_unfolding_all rfl
  have both := (lookup_faithful_iff hashingEnv).2 (startSpace 6) (committedSpace 6) (prunedSpace 6) (finalSpace 6) 1 (sixth 6) (certify firstChild 6)
    [(2, certify grandChild 7)] (tidy 6) rfl (by with_unfolding_all rfl) ⟨rfl, rfl, rfl⟩ (by with_unfolding_all rfl)
    (by with_unfolding_all rfl) (later_above 6) (by with_unfolding_all rfl) gone
  exact ⟨gone, both.1.mpr rfl, both.2⟩

open LookupSample in
/-- A certificate with another hash leads to block 5. Block 6 was proposed in round 9, and after blocks 6 and 7 are committed it is
no longer found with that round. -/
theorem lookup_unfaithful :
    (∃ ref final draft, DraftSpace.getDraftByEscortQC listHashing ⟨5, 5, 0, [], [7], []⟩ (startSpace 6) = .ok (some ref) final ∧
      final.drafts[ref]? = some draft ∧ draft.proposedBlock.votingHash listHashing ≠ [7]) ∧
    commitBlock hashingEnv (sixth 9) (certify firstChild 9) (startSpace 9) = .ok (.ok ()) (committedSpace 9) ∧
    DraftSpace.pruneDraftsUpTo listHashing (sixth 9) (committedSpace 9) = .ok () (prunedSpace 9) ∧
    onCommit hashingEnv [(2, certify grandChild 10)] (prunedSpace 9) = .ok () (finalSpace 9) ∧
    (finalSpace 9).proposals.lookup (firstChild.id listHashing) = none ∧
    ¬ Finds (DraftSpace.getDraft listHashing (firstChild.id listHashing)) (finalSpace 9) (sixth 9) := by
  have isCommitted : commitBlock hashingEnv (sixth 9) (certify firstChild 9) (startSpace 9) = .ok (.ok ()) (committedSpace 9) := by
    with_unfolding_all rfl
  have isPruned : DraftSpace.pruneDraftsUpTo listHashing (sixth 9) (committedSpace 9) = .ok () (prunedSpace 9) := by with_unfolding_all rfl
  have ran : onCommit hashingEnv [(2, certify grandChild 10)] (prunedSpace 9) = .ok () (finalSpace 9) := by with_unfolding_all rfl
  have gone : (finalSpace 9).proposals.lookup (firstChild.id listHashing) = none := by with_unfolding_all rfl
  refine ⟨⟨3, _, DraftSpace.committedDraft baseBlock 5, by with_unfolding_all rfl, rfl, by decide⟩, isCommitted, isPruned, ran, gone, ?_⟩
  have settling := @Settling.of_committed _ _ _ _ hashingEnv _ _ _ _ 1 _ (tidy 9) rfl (by with_unfolding_all rfl) isCommitted isPruned
  have settled := settling.onCommit _ settling.tidy (later_above 9) ran
  exact fun found => absurd ((settled.getDraft_finds_iff gone rfl).mp found) (by decide)

end MeterPov.Consensus
