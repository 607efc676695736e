import MeterPov.Consensus.HighQC
import MeterPov.Consensus.Voting

/-! What `Update` commits, and in which order.

A batch is the path from the parent of the certified draft down to the last committed height. `OnCommit` goes
through it from below and skips what it cannot commit, and `Update` moves on to the top of the batch whatever
was skipped. -/

set_option autoImplicit false

namespace MeterPov.Chains

open Blocks

variable {Digest Address Tx : Type}

/-- The blocks continue the chain from its best block, each on the one before it. -/
def Continues (hashing : Hashing Digest Address) :
    Block Digest Address Tx → List (Block Digest Address Tx) → Block Digest Address Tx → Prop
  | best, [], last => last = best
  | best, block :: rest, last => block.parentID = best.id hashing ∧ block.number = best.number + 1 ∧ Continues hashing block rest last

variable {best : Block Digest Address Tx}

theorem Continues.append {hashing middle last first second} (left : Continues hashing best first middle)
    (right : Continues hashing middle second last) : Continues hashing best (first ++ second) last := by
  induction first generalizing best with
  | nil =>
    rw [show middle = best from left] at right
    exact right
  | cons block rest ih => exact ⟨left.1, left.2.1, ih left.2.2⟩

theorem number_of_onBest {hashing} {block : Block Digest Address Tx}
    (onBest : block.parentID = best.id hashing) (above : best.number < block.number) :
    block.number = best.number + 1 := by
  have number : block.number = (best.number + 1) % 2 ^ 32 := by
    rw [← Block.id_number best hashing, ← onBest]
    rfl
  omega

namespace Chain

variable [DecidableEq Digest] {chain : Chain Digest Address Tx} {hashing : Hashing Digest Address}

/-- The block is stored under no other form. -/
def Agrees (hashing : Hashing Digest Address) (chain : Chain Digest Address Tx) (block : Block Digest Address Tx) : Prop :=
  ∀ stored ∈ chain.getBlock hashing (block.id hashing), stored.number = block.number ∧ stored.parentID = block.parentID ∧
    stored.header.signature = block.header.signature ∧ stored.header.receiptsRoot = block.header.receiptsRoot ∧
    stored.timestamp = block.timestamp

variable {block : Block Digest Address Tx}

theorem addBlock_onBest (idLess : BlockID Digest → BlockID Digest → Bool) (qc : QuorumCert Digest)
    (stored : (chain.getBlock hashing (chain.bestBlock.id hashing)).isSome = true)
    (onBest : block.parentID = chain.bestBlock.id hashing) (above : chain.bestBlock.number < block.number)
    (score : chain.bestBlock.header.totalScore < block.header.totalScore) (agrees : chain.Agrees hashing block) :
    ∃ parent, chain.addBlock hashing idLess block qc =
      .ok (⟨block :: chain.blocks, (block.number, block.id hashing) :: chain.blockHashes, block, qc⟩, ⟨parent, [block], []⟩) := by
  obtain ⟨parent, isParent⟩ := Option.isSome_iff_exists.mp stored
  have parentID := (mem_of_getBlock isParent).2
  have parentNumber : parent.number = chain.bestBlock.number := by
    rw [← Block.id_number parent hashing, parentID, Block.id_number]
  have trunk : chain.isTrunk hashing idLess block = true := by
    unfold isTrunk
    simp [not_lt.mpr (le_of_lt score), score]
  -- one step down from the block to its parent, and the two paths meet
  have fork : chain.buildFork hashing (block.number + chain.bestBlock.number + 1) block chain.bestBlock [] [] =
      some ⟨parent, [block], []⟩ := by
    obtain ⟨rounds, enough⟩ : ∃ rounds, block.number + chain.bestBlock.number + 1 = rounds + 2 :=
      ⟨block.number + chain.bestBlock.number - 1, by omega⟩
    rw [enough]
    simp [buildFork, above, onBest, isParent, parentNumber, parentID]
  refine ⟨parent, ?_⟩
  unfold addBlock
  have false : chain.alreadyThere hashing block = false := by
    unfold alreadyThere
    cases found : chain.getBlock hashing (block.id hashing) with
    | none => rfl
    | some stored =>
      obtain ⟨number, parent, signature, receipts, timestamp⟩ := agrees stored found
      simp only [number, parent, signature, receipts, timestamp, isBlockFinalized, onBest, Block.id_number]
      simp [not_le.mpr above]
  simp [false, onBest, isParent, trunk, fork]

end Chain
end MeterPov.Chains

namespace MeterPov.Consensus

open Lib Lib.Action Blocks Chains

variable {Digest Address Tx : Type}

/-! ## A batch in order -/

/-- Going through the blocks of a batch, each that is neither an S-block nor below the best block is added on top of
the best block. -/
def Committed (hashing : Hashing Digest Address) : Block Digest Address Tx → List (Block Digest Address Tx) →
    List (Block Digest Address Tx) → Block Digest Address Tx → Prop
  | best, [], added, last => added = [] ∧ last = best
  | best, block :: rest, added, last =>
    if block.isSBlock = true ∨ block.number ≤ best.number then Committed hashing best rest added last
    else ∃ more, added = block :: more ∧ block.parentID = best.id hashing ∧ block.number = best.number + 1 ∧
      Committed hashing block rest more last

variable {best : Block Digest Address Tx}

variable {last : Block Digest Address Tx} {batch added : List (Block Digest Address Tx)}

theorem Committed.continues {hashing} (committed : Committed hashing best batch added last) :
    Continues hashing best added last := by
  induction batch generalizing best added with
  | nil =>
    obtain ⟨rfl, rfl⟩ := committed
    rfl
  | cons block rest ih =>
    unfold Committed at committed
    split at committed
    · exact ih committed
    · obtain ⟨more, rfl, parent, number, committed⟩ := committed
      exact ⟨parent, number, ih committed⟩

theorem Committed.append {hashing middle first second more} (left : Committed hashing best first added middle)
    (right : Committed hashing middle second more last) :
    Committed hashing best (first ++ second) (added ++ more) last := by
  induction first generalizing best added with
  | nil =>
    obtain ⟨rfl, rfl⟩ := left
    exact right
  | cons block rest ih =>
    rw [List.cons_append]
    unfold Committed at left ⊢
    split at left
    next skipped =>
      rw [if_pos skipped]
      exact ih left
    next taken =>
      rw [if_neg taken]
      obtain ⟨tail, rfl, parent, number, left⟩ := left
      exact ⟨tail ++ more, rfl, parent, number, ih left⟩

section

variable [DecidableEq Digest] (hashing : Hashing Digest Address) (chain : Chain Digest Address Tx)

/-- A draft `OnCommit` does not skip and the chain takes on top of the block. -/
@[mk_iff addable_iff]
structure Addable (best : Block Digest Address Tx) (draft : DraftBlock Digest Address Tx) : Prop where
  processed : draft.successProcessed = true
  unknown : draft.knownBlock = false
  onBest : draft.proposedBlock.parentID = best.id hashing
  score : best.header.totalScore < draft.proposedBlock.header.totalScore
  agrees : chain.Agrees hashing draft.proposedBlock

def InOrder : Block Digest Address Tx → List (DraftBlock Digest Address Tx) → Prop
  | _, [] => True
  | best, draft :: rest =>
    if draft.proposedBlock.isSBlock = true ∨ draft.proposedBlock.number ≤ best.number then InOrder best rest
    else Addable hashing chain best draft ∧ InOrder draft.proposedBlock rest

instance {block} : Decidable (chain.Agrees hashing block) :=
  inferInstanceAs (Decidable (∀ stored ∈ chain.getBlock hashing (block.id hashing), _ ∧ _ ∧ _ ∧ _ ∧ _))

instance {best draft} : Decidable (Addable hashing chain best draft) :=
  decidable_of_iff _ (addable_iff hashing chain best draft).symm

instance InOrder.decidable : ∀ (best : Block Digest Address Tx) (drafts : List (DraftBlock Digest Address Tx)),
    Decidable (InOrder hashing chain best drafts)
  | _, [] => .isTrue trivial
  | best, draft :: rest =>
    have := InOrder.decidable best rest
    have := InOrder.decidable draft.proposedBlock rest
    inferInstanceAs (Decidable (if draft.proposedBlock.isSBlock = true ∨ draft.proposedBlock.number ≤ best.number
      then InOrder hashing chain best rest else Addable hashing chain best draft ∧ InOrder hashing chain draft.proposedBlock rest))

end

namespace Pipeline

variable [DecidableEq Digest] {env : ChainHashing Digest Address} {start : DraftSpace Digest Address Tx}

/-- The space once some blocks were added on top of the best block it started with. -/
structure Extended (hashing : Hashing Digest Address) (start : DraftSpace Digest Address Tx)
    (batch added : List (Block Digest Address Tx)) (space : DraftSpace Digest Address Tx) : Prop where
  grows : start.Grows hashing space
  blocks : space.chain.blocks = added.reverse ++ start.chain.blocks
  committed : Committed hashing start.chain.bestBlock batch added space.chain.bestBlock
  stored : (space.chain.getBlock hashing (space.chain.bestBlock.id hashing)).isSome = true

omit [DecidableEq Digest] in
theorem number_le_of_continues {hashing} (continues : Continues hashing best added last) :
    best.number ≤ last.number ∧ ∀ block ∈ added, block.number ≤ last.number := by
  induction added generalizing best with
  | nil =>
    rw [show last = best from continues]
    simp
  | cons block rest ih =>
    obtain ⟨-, number, continues⟩ := continues
    have after := ih continues
    refine ⟨by omega, fun other member => ?_⟩
    rcases List.mem_cons.mp member with rfl | member
    · exact after.1
    · exact after.2 other member

variable {drafts : List (DraftBlock Digest Address Tx)} {remaining : List (Block Digest Address Tx)}
  {block : Block Digest Address Tx}

variable {space : DraftSpace Digest Address Tx}

theorem Extended.agrees (extended : Extended env.hashing start batch added space) (above : space.chain.bestBlock.number < block.number)
    (agrees : start.chain.Agrees env.hashing block) : space.chain.Agrees env.hashing block := by
  have lower := (number_le_of_continues extended.committed.continues).2
  have same : space.chain.getBlock env.hashing (block.id env.hashing) = start.chain.getBlock env.hashing (block.id env.hashing) := by
    unfold Chain.getBlock
    rw [extended.blocks, List.find?_append, List.find?_eq_none.mpr, Option.none_or]
    intro other member sameID
    have otherLower := lower other (List.mem_reverse.mp member)
    have sameNumber : other.number = block.number := by
      rw [← Block.id_number other env.hashing, of_decide_eq_true sameID, Block.id_number]
    omega
  unfold Chain.Agrees
  rw [same]
  exact agrees

theorem Extended.pruned {later} (extended : Extended env.hashing start batch added space) (pruned : space.Pruned later) :
    Extended env.hashing start batch added later := by
  refine ⟨extended.grows.trans (pruned.grows extended.grows.tidy), ?_, ?_, ?_⟩ <;> rw [pruned.chain]
  · exact extended.blocks
  · exact extended.committed
  · exact extended.stored

theorem Extended.skip (extended : Extended env.hashing start batch added space)
    (skipped : block.isSBlock = true ∨ block.number ≤ space.chain.bestBlock.number) :
    Extended env.hashing start (batch ++ [block]) added space := by
  refine ⟨extended.grows, extended.blocks, ?_, extended.stored⟩
  have none : Committed env.hashing space.chain.bestBlock [block] [] space.chain.bestBlock := by
    unfold Committed
    rw [if_pos skipped]
    exact ⟨rfl, rfl⟩
  have both := extended.committed.append none
  rwa [List.append_nil] at both

variable {draft : DraftBlock Digest Address Tx} {qc : QuorumCert Digest}

theorem commitBlock_extended (extended : Extended env.hashing start batch added space) (notSBlock : draft.proposedBlock.isSBlock = false)
    (addable : space.chain.bestBlock.number < draft.proposedBlock.number →
      Addable env.hashing start.chain space.chain.bestBlock draft) {crash} :
    Triple (· = space) (commitBlock env draft qc)
      (fun _ later => ∃ more, Extended env.hashing start (batch ++ [draft.proposedBlock]) (added ++ more) later ∧
        later.chain.bestBlock =
          if draft.proposedBlock.number ≤ space.chain.bestBlock.number then space.chain.bestBlock else draft.proposedBlock) crash := by
  refine .readThen fun state same => ?_
  subst same
  refine .branch (fun known => .ret ?_) fun unknown => ?_
  · rintro later rfl
    refine ⟨[], ?_, (if_pos known).symm⟩
    rw [List.append_nil]
    exact extended.skip (.inr known)
  · have above := Nat.lt_of_not_le unknown
    have taken := addable above
    have number := number_of_onBest taken.onBest above
    obtain ⟨parent, added_eq⟩ := Chain.addBlock_onBest env.idLess qc extended.stored taken.onBest above taken.score
      (extended.agrees above taken.agrees)
    rw [added_eq]
    refine .putThen (.branch (fun forked => absurd forked (by simp)) fun _ => .ret ?_)
    rintro later rfl
    refine ⟨[draft.proposedBlock], ⟨extended.grows.trans (extended.grows.tidy.withChain fun _ member => List.mem_cons_of_mem _ member), ?_, ?_, ?_⟩, (if_neg unknown).symm⟩
    · simp [extended.blocks]
    · apply extended.committed.append
      unfold Committed
      rw [if_neg (by simp [notSBlock, above])]
      exact ⟨[], rfl, taken.onBest, number, rfl, rfl⟩
    · simp [Chain.getBlock]

/-- Where a batch stops: what was gone through was committed in order. -/
def Stopped (hashing : Hashing Digest Address) (start : DraftSpace Digest Address Tx) (batch remaining : List (Block Digest Address Tx))
    (space : DraftSpace Digest Address Tx) : Prop :=
  ∃ done rest added, remaining = done ++ rest ∧ Extended hashing start (batch ++ done) added space

theorem Stopped.cons (stopped : Stopped env.hashing start (batch ++ [block]) remaining space) :
    Stopped env.hashing start batch (block :: remaining) space := by
  obtain ⟨done, rest, added, rfl, extended⟩ := stopped
  refine ⟨block :: done, rest, added, rfl, ?_⟩
  rwa [List.append_cons]

theorem commitOne_extended
    (extended : Extended env.hashing start batch added space) {ref} (placed : start.drafts[ref]? = some draft)
    (addable : draft.proposedBlock.isSBlock = false → space.chain.bestBlock.number < draft.proposedBlock.number →
      Addable env.hashing start.chain space.chain.bestBlock draft) :
    Triple (· = space) (commitOne env ref qc)
      (fun _ later => ∃ more, Extended env.hashing start (batch ++ [draft.proposedBlock]) (added ++ more) later ∧
        later.chain.bestBlock = if draft.proposedBlock.isSBlock = true ∨ draft.proposedBlock.number ≤ space.chain.bestBlock.number
          then space.chain.bestBlock else draft.proposedBlock)
      (Stopped env.hashing start batch (draft.proposedBlock :: remaining)) := by
  have untouched : Stopped env.hashing start batch (draft.proposedBlock :: remaining) space :=
    ⟨[], _, added, rfl, by rwa [List.append_nil]⟩
  obtain ⟨later, placedLater, outline, -⟩ := extended.grows.kept ref draft placed
  have sameDraft := DraftBlock.eq_of_outline outline
  refine DraftSpace.draft_read (fun _ => untouched) fun read found => ?_
  obtain rfl := Option.some.inj (found.symm.trans placedLater)
  rw [sameDraft]
  refine .branch (fun commits => ?_) fun skips => .ret ?_
  · simp only [Bool.and_eq_true, Bool.not_eq_true'] at commits
    obtain ⟨-, notSBlock⟩ := commits
    have block : ∀ {crash : DraftSpace Digest Address Tx → Prop}, Triple (· = space)
        (commitBlock env { draft with committed := read.committed } qc)
        (fun _ later => ∃ more, Extended env.hashing start (batch ++ [draft.proposedBlock]) (added ++ more) later ∧
          later.chain.bestBlock =
            if draft.proposedBlock.number ≤ space.chain.bestBlock.number then space.chain.bestBlock else draft.proposedBlock) crash :=
      commitBlock_extended extended notSBlock fun above => by
        have known := addable notSBlock above
        exact ⟨known.processed, known.unknown, known.onBest, known.score, known.agrees⟩
    refine .seq block fun _ => .each fun added' ⟨more, extendedAfter, best⟩ => ?_
    refine ((DraftSpace.pruneDraftsUpTo_pruned added').start .refl).conseq (fun _ same => same) (fun _ pruned given => ?_) fun _ pruned given => ?_
    · refine ⟨more, extendedAfter.pruned given, ?_⟩
      rw [given.chain, best]
      simp [notSBlock]
    · exact ⟨[draft.proposedBlock], remaining, added ++ more, rfl, extendedAfter.pruned given⟩
  · rintro state rfl
    have skipped : draft.proposedBlock.isSBlock = true ∨ draft.proposedBlock.number ≤ state.chain.bestBlock.number := by
      by_contra fresh
      simp only [not_or, Bool.not_eq_true, not_le] at fresh
      have known := addable fresh.1 fresh.2
      simp [known.processed, known.unknown, fresh.1] at skips
    refine ⟨[], ?_, (if_pos skipped).symm⟩
    rw [List.append_nil]
    exact extended.skip skipped

variable {ready : List (Ref × QuorumCert Digest)}

theorem onCommit_extended (placed : List.Forall₂ (fun entry draft => start.drafts[entry.1]? = some draft) ready drafts)
    (extended : Extended env.hashing start batch added space)
    (inOrder : InOrder env.hashing start.chain space.chain.bestBlock drafts) :
    Triple (· = space) (onCommit env ready)
      (fun _ later => ∃ more, Extended env.hashing start (batch ++ drafts.map fun draft => draft.proposedBlock) more later)
      (Stopped env.hashing start batch (drafts.map fun draft => draft.proposedBlock)) := by
  induction placed generalizing batch added space with
  | nil =>
    refine .ret ?_
    rintro later rfl
    exact ⟨added, by simpa using extended⟩
  | @cons entry draft ready drafts first _ ih =>
    unfold InOrder at inOrder
    have addable : draft.proposedBlock.isSBlock = false → space.chain.bestBlock.number < draft.proposedBlock.number →
        Addable env.hashing start.chain space.chain.bestBlock draft := by
      intro notSBlock above
      rw [if_neg (by simp [notSBlock, above])] at inOrder
      exact inOrder.1
    refine .seq (commitOne_extended extended first addable) fun _ => .each fun middle ⟨more, extendedMiddle, best⟩ => ?_
    have rest : InOrder env.hashing start.chain middle.chain.bestBlock drafts := by
      rw [best]
      split at inOrder
      next skipped => rwa [if_pos skipped]
      next taken =>
        rw [if_neg taken]
        exact inOrder.2
    refine (ih extendedMiddle rest).conseq (fun _ same => same) (fun _ later given => ?_) fun later stopped => stopped.cons
    rwa [List.map_cons, List.append_cons]

/-! ## The path a batch is made of -/

omit [DecidableEq Digest] in
theorem commitReady_grows {hashing} (tidy : start.Tidy hashing)
    (grows : start.Grows hashing space) {committedHeight} (hops : Nat) {tmp : Ref} (inside : tmp < start.drafts.length)
    (ready : List (Ref × QuorumCert Digest)) :
    commitReady space.drafts committedHeight hops tmp ready = commitReady start.drafts committedHeight hops tmp ready := by
  induction hops generalizing tmp ready with
  | zero => rfl
  | succ hops ih =>
    have placed := List.getElem?_eq_getElem inside
    obtain ⟨child, placedLater, outline, -⟩ := grows.kept tmp _ placed
    have sameChild := DraftBlock.eq_of_outline outline
    simp only [commitReady, placed, placedLater, Exec.deref_some, Exec.ok_bind]
    rw [sameChild]
    cases isParent : start.drafts[tmp].parent with
    | none => rfl
    | some parentRef =>
      have parentInside := (tidy.linked _ (List.getElem_mem inside)).parent parentRef isParent
      have parentPlaced := List.getElem?_eq_getElem parentInside
      obtain ⟨parent, parentLater, parentOutline, -⟩ := grows.kept parentRef _ parentPlaced
      have sameParent := DraftBlock.eq_of_outline parentOutline
      simp only [Exec.deref_some, Exec.ok_bind, parentPlaced, parentLater]
      rw [sameParent, ih parentInside]

omit [DecidableEq Digest] in
theorem commitReady_above {height hops tmp result} (walked : commitReady drafts height hops tmp ready = .ok result)
    (above : ∀ entry ∈ ready, ∃ draft, drafts[entry.1]? = some draft ∧ height < draft.height) :
    ∀ entry ∈ result, ∃ draft, drafts[entry.1]? = some draft ∧ height < draft.height := by
  induction hops generalizing tmp ready with
  | zero =>
    obtain rfl := Except.ok.inj walked
    exact above
  | succ hops ih =>
    simp only [commitReady, Exec.bind_eq_ok, Exec.deref_eq_ok] at walked
    obtain ⟨child, -, parentRef, -, parent, parentPlaced, walked⟩ := walked
    split at walked
    next higher =>
      refine ih walked fun entry member => ?_
      rcases List.mem_cons.mp member with rfl | member
      · exact ⟨parent, parentPlaced, higher⟩
      · exact above entry member
    · obtain rfl := Except.ok.inj walked
      exact above

/-- The drafts above a height on the way down from the parent of a draft, the lowest first. -/
def pathAbove (drafts : List (DraftBlock Digest Address Tx)) (height : Nat) (ref : Ref) : List (DraftBlock Digest Address Tx) :=
  match commitReady drafts height (ref + 1) ref [] with
  | .error _ => []
  | .ok ready => ready.filterMap fun entry => drafts[entry.1]?

omit [DecidableEq Digest] in
theorem forall₂_filterMap (placed : ∀ entry ∈ ready, (drafts[entry.1]?).isSome = true) :
    List.Forall₂ (fun entry draft => drafts[entry.1]? = some draft) ready (ready.filterMap fun entry => drafts[entry.1]?) := by
  induction ready with
  | nil => exact .nil
  | cons entry rest ih =>
    obtain ⟨draft, found⟩ := Option.isSome_iff_exists.mp (placed entry List.mem_cons_self)
    simp only [List.filterMap_cons, found]
    exact .cons found (ih fun other member => placed other (List.mem_cons_of_mem _ member))

/-! ## One call -/

/-- The height of the last committed draft. -/
def committedHeight (pipeline : Pipeline Digest Address Tx) : Nat :=
  (pipeline.space.drafts[pipeline.lastCommitted]?.map fun draft => draft.height).getD 0

/-- Above the last committed height, the drafts below a certified one can be committed one after another. -/
def CommitsInOrder (hashing : Hashing Digest Address) (qc : QuorumCert Digest) (pipeline : Pipeline Digest Address Tx) : Prop :=
  let space := pipeline.space
  ∀ entry ∈ space.proposals.entries, DraftSpace.matchesQC hashing space.drafts qc entry.2 = true →
    ∀ bPrime ∈ space.drafts[entry.2]?, bPrime.committed = false → ∀ b ∈ bPrime.parent.bind fun ref => space.drafts[ref]?,
      pipeline.committedHeight ≤ b.height ∧
      InOrder hashing space.chain space.chain.bestBlock (pathAbove space.drafts pipeline.committedHeight entry.2)

/-- The blocks gone through are added on top of the best block, each exactly once. If a block of the batch is not gone
through, none after it is, and the last committed draft stays. Its height does not go down. -/
structure Consistent (hashing : Hashing Digest Address) (before after : Pipeline Digest Address Tx) : Prop where
  batch : ∃ done rest added, after.commits = before.commits ++ (done ++ rest) ∧
    after.space.chain.blocks = added.reverse ++ before.space.chain.blocks ∧
    Committed hashing before.space.chain.bestBlock done added after.space.chain.bestBlock ∧
    (rest ≠ [] → after.lastCommitted = before.lastCommitted)
  height : before.committedHeight ≤ after.committedHeight

/-- What every call finds. -/
structure Ready (hashing : Hashing Digest Address) (pipeline : Pipeline Digest Address Tx) : Prop where
  tidy : pipeline.space.Tidy hashing
  stored : (pipeline.space.chain.getBlock hashing (pipeline.space.chain.bestBlock.id hashing)).isSome = true
  last : pipeline.lastCommitted < pipeline.space.drafts.length

/-- Drafts may have come, but no block was committed. -/
structure Unmoved (hashing : Hashing Digest Address) (before after : Pipeline Digest Address Tx) : Prop where
  grows : before.space.Grows hashing after.space
  chain : after.space.chain = before.space.chain
  commits : after.commits = before.commits
  last : after.lastCommitted = before.lastCommitted

variable {before after : Pipeline Digest Address Tx}

omit [DecidableEq Digest] in
theorem committedHeight_grows {hashing}
    (grows : before.space.Grows hashing after.space) (last : after.lastCommitted = before.lastCommitted)
    (inside : before.lastCommitted < before.space.drafts.length) : after.committedHeight = before.committedHeight := by
  have placed := List.getElem?_eq_getElem inside
  obtain ⟨later, placedLater, outline, -⟩ := grows.kept _ _ placed
  unfold committedHeight
  rw [last, placed, placedLater, DraftBlock.eq_of_outline outline]
  rfl

theorem Unmoved.consistent {hashing} (unmoved : Unmoved hashing before after) (ready : Ready hashing before) : Consistent hashing before after ∧ Ready hashing after := by
  refine ⟨⟨⟨[], [], [], by simp [unmoved.commits], by simp [unmoved.chain], ?_, by simp⟩, ?_⟩, ⟨unmoved.grows.tidy, ?_, ?_⟩⟩
  · rw [unmoved.chain]
    exact ⟨rfl, rfl⟩
  · rw [committedHeight_grows unmoved.grows unmoved.last ready.last]
  · rw [unmoved.chain]
    exact ready.stored
  · rw [unmoved.last]
    exact lt_of_lt_of_le ready.last unmoved.grows.length_le

variable {pipeline : Pipeline Digest Address Tx}

omit [DecidableEq Digest] in
theorem Reached.unmoved {hashing} [DecidableEq Digest] (reached : Reached hashing before qc pipeline) (tidy : before.space.Tidy hashing) :
    Unmoved hashing before pipeline := by
  obtain ⟨space, _, rfl, searched, -⟩ := reached
  exact ⟨searched.grows tidy, searched.chain, rfl, rfl⟩

theorem update_consistent (ready : Ready env.hashing before) (inOrder : CommitsInOrder env.hashing qc before) :
    Triple (· = before) (update env qc) (fun _ after => Consistent env.hashing before after ∧ Ready env.hashing after)
      (fun after => Consistent env.hashing before after ∧ Ready env.hashing after) := by
  refine update_rule False False.elim False.elim (fun _ _ reached _ => (reached.unmoved ready.tidy).consistent ready)
    (fun _ reached => (reached.unmoved ready.tidy).consistent ready) fun bPrimeRef bRef bPrime committed middle entries batch walked => ?_
  have unmoved := batch.reached.unmoved ready.tidy
  obtain ⟨entry, member, rfl, placedBefore, isMatch⟩ := batch.found.proposal batch.isOpen
  obtain ⟨b, placedB⟩ : ∃ b, before.space.drafts[bRef]? = some b :=
    ⟨_, List.getElem?_eq_getElem ((ready.tidy.linked bPrime (List.mem_of_getElem? placedBefore)).parent bRef batch.parent)⟩
  obtain ⟨higher, ordered⟩ := inOrder entry member isMatch bPrime placedBefore batch.isOpen b (by rw [batch.parent]; exact placedB)
  have isHeight : committed.height = before.committedHeight := by
    rw [← committedHeight_grows unmoved.grows unmoved.last ready.last]
    unfold committedHeight
    rw [batch.last]
    rfl
  -- the start has the batch as the state it is committed from
  rw [isHeight, commitReady_grows ready.tidy unmoved.grows _ (List.getElem?_eq_some_iff.mp placedBefore).1] at walked
  have entriesPlaced (entry : Ref × QuorumCert Digest) (member : entry ∈ entries) : (before.space.drafts[entry.1]?).isSome = true := by
    obtain ⟨draft, placed, -⟩ := commitReady_above walked (by simp) entry member
    exact Option.isSome_of_eq_some placed
  simp only [pathAbove, walked] at ordered
  let blocks := (entries.filterMap fun entry => before.space.drafts[entry.1]?).map fun draft => draft.proposedBlock
  have recorded : (middle.recorded entries).commits = before.commits ++ blocks := by
    rw [Pipeline.recorded, unmoved.commits, List.filterMap_map]
    simp only [blocks, List.map_filterMap]
    congr 1
    exact List.filterMap_congr fun entry member => unmoved.grows.block_eq (entriesPlaced entry member)
  have extended : Extended env.hashing before.space [] [] middle.space := by
    refine ⟨unmoved.grows, by simp [unmoved.chain], ?_, ?_⟩ <;> rw [unmoved.chain]
    · exact ⟨rfl, rfl⟩
    · exact ready.stored
  refine Triple.conseq (onCommit_extended (forall₂_filterMap entriesPlaced) extended (by rw [unmoved.chain]; exact ordered))
    (fun _ same => same) ?_ ?_
  · rintro - space ⟨added, extended⟩
    obtain ⟨later, placedLater, outline, -⟩ := extended.grows.kept bRef b placedB
    refine ⟨⟨⟨blocks, [], added, ?_, extended.blocks, extended.committed, by simp⟩, ?_⟩, extended.grows.tidy, extended.stored, ?_⟩
    · rw [List.append_nil]
      exact recorded
    · have height : later.height = b.height := congrArg (fun draft => draft.height) outline
      unfold committedHeight at higher ⊢
      simpa only [placedLater, Option.map_some, Option.getD_some, height] using higher
    · exact (List.getElem?_eq_some_iff.mp placedLater).1
  · rintro space ⟨done, rest, added, isBatch, extended⟩
    refine ⟨⟨⟨done, rest, added, ?_, extended.blocks, extended.committed, fun _ => unmoved.last⟩, ?_⟩, extended.grows.tidy,
      extended.stored, ?_⟩
    · rw [recorded]
      exact congrArg (before.commits ++ ·) isBatch
    · refine le_of_eq (@committedHeight_grows _ _ _ _ _ env.hashing ?_ ?_ ready.last).symm
      · exact extended.grows
      · exact unmoved.last
    · rw [unmoved.last]
      exact lt_of_lt_of_le ready.last extended.grows.length_le

/-! ## Runs -/

inductive Event (Digest Address Tx : Type) where
  /-- Whatever else happens to the drafts and to the highest certificate. -/
  | drafts (space : DraftSpace Digest Address Tx) (qcHigh : DraftQC Digest)
  | update (qc : QuorumCert Digest)

/-- A run of `Update` calls on a growing tree of drafts; a call may also end in a panic. -/
abbrev Run (env : ChainHashing Digest Address) (meets : QuorumCert Digest → Pipeline Digest Address Tx → Prop) :=
  Trace fun (before : Pipeline Digest Address Tx) (event : Event Digest Address Tx) after =>
    match event with
    | .drafts space qcHigh => before.space.Grows env.hashing space ∧ space.chain = before.space.chain ∧
        { before with space := space, qcHigh := qcHigh } = after
    | .update qc => meets qc before ∧ (update env qc).finalState before = after

/-- What the calls of a run leave: blocks on top of the best block of its start, and no lower last committed draft. -/
structure Advanced (hashing : Hashing Digest Address) (start pipeline : Pipeline Digest Address Tx) : Prop where
  blocks : ∃ added, pipeline.space.chain.blocks = added.reverse ++ start.space.chain.blocks ∧
    Continues hashing start.space.chain.bestBlock added pipeline.space.chain.bestBlock
  height : start.committedHeight ≤ pipeline.committedHeight

omit [DecidableEq Digest] in
theorem Advanced.call {hashing start} (advanced : Advanced hashing start before) (consistent : Consistent hashing before after) : Advanced hashing start after := by
  obtain ⟨added, blocks, continues⟩ := advanced.blocks
  obtain ⟨done, rest, more, -, moreBlocks, committed, -⟩ := consistent.batch
  refine ⟨⟨added ++ more, ?_, continues.append committed.continues⟩, le_trans advanced.height consistent.height⟩
  rw [moreBlocks, blocks, List.reverse_append, List.append_assoc]

theorem update_step (ready : Ready env.hashing before) (inOrder : CommitsInOrder env.hashing qc before) :
    Consistent env.hashing before ((update env qc).finalState before) ∧ Ready env.hashing ((update env qc).finalState before) := by
  have called := update_consistent ready inOrder
  exact Triple.finalState_of called rfl

theorem advanced_of_run {start events} (ready : Ready env.hashing start) (run : Run env (CommitsInOrder env.hashing) start events pipeline) :
    Advanced env.hashing start pipeline ∧ Ready env.hashing pipeline := by
  refine run.invariant (fun pipeline => Advanced env.hashing start pipeline ∧ Ready env.hashing pipeline)
    ⟨⟨⟨[], rfl, rfl⟩, le_refl _⟩, ready⟩ ?_
  rintro before event after ⟨advanced, ready⟩ step
  cases event with
  | drafts space qcHigh =>
    obtain ⟨grows, chain, rfl⟩ := step
    have unmoved : Unmoved env.hashing before { before with space := space, qcHigh := qcHigh } := ⟨grows, chain, rfl, rfl⟩
    have still := unmoved.consistent ready
    exact ⟨advanced.call still.1, still.2⟩
  | update qc =>
    obtain ⟨inOrder, rfl⟩ := step
    have called := update_step ready inOrder
    exact ⟨advanced.call called.1, called.2⟩

/-- In a run whose calls all find drafts that can be committed one after another, the added blocks continue the chain from
the best block of the start, the height of the last committed draft does not go down, and the next such call goes through
its batch in order, stops where it cannot go on, and then leaves the last committed draft as it is. -/
theorem commits_consistent {start pipeline : Pipeline Digest Address Tx} {events : List (Event Digest Address Tx)}
    (ready : Ready env.hashing start) (run : Run env (CommitsInOrder env.hashing) start events pipeline) :
    Advanced env.hashing start pipeline ∧
    ∀ qc, CommitsInOrder env.hashing qc pipeline → Consistent env.hashing pipeline ((update env qc).finalState pipeline) := by
  have reached := advanced_of_run ready run
  exact ⟨reached.1, fun qc inOrder => (update_step reached.2 inOrder).1⟩

instance {hashing qc} {pipeline : Pipeline Digest Address Tx} : Decidable (CommitsInOrder hashing qc pipeline) := by
  unfold CommitsInOrder
  infer_instance

section

def greatGrandChild : Block (List Nat) Nat Unit := blockOn (grandChild.id listHashing) 80 (certify grandChild 7)

def draftOn (block : Block (List Nat) Nat Unit) (round : Nat) (parent : Ref) (processed : Bool) : DraftBlock (List Nat) Nat Unit where
  msg := some (propose 0 round block)
  height := block.number
  round := round
  parent := some parent
  justify := some ⟨some parent, block.qc⟩
  committed := false
  proposedBlock := block
  returnTxsToPool := true
  successProcessed := processed
  knownBlock := false

def pipelineOf (blocks : List (Block (List Nat) Nat Unit)) (best : Block (List Nat) Nat Unit)
    (drafts : List (DraftBlock (List Nat) Nat Unit)) (lastCommitted : Ref) : Pipeline (List Nat) Nat Unit where
  space := ⟨⟨blocks, blocks.map fun block => (block.number, block.id listHashing), best, certify best 5⟩, drafts,
    (drafts.zipIdx.map fun entry => ⟨entry.1.proposedBlock.id listHashing, entry.2⟩).toAList⟩
  qcHigh := ⟨some 0, certify baseBlock 5⟩
  lastCommitted := lastCommitted
  commits := []

/-- Blocks 6, 7 and 8 on block 5; whether the execution of block 6 was completed is left open. -/
def pathOfThree (processed : Bool) : Pipeline (List Nat) Nat Unit :=
  pipelineOf [baseBlock] baseBlock
    [DraftSpace.committedDraft baseBlock 5, draftOn firstChild 6 0 processed, draftOn grandChild 7 1 true, draftOn greatGrandChild 8 2 true] 0

/-- Block 6 is committed, and there is another draft of that height on block 5. -/
def lowerFork : Pipeline (List Nat) Nat Unit :=
  pipelineOf [firstChild, baseBlock] firstChild
    [DraftSpace.committedDraft baseBlock 5, draftOn firstChild 6 0 true, draftOn secondChild 6 0 true] 1

theorem draftOn_linked {space block round parent processed} (inside : parent < space.drafts.length) : (draftOn block round parent processed).Linked space := by
  constructor
  · rintro ref ⟨⟩
    exact inside
  · rintro justify ⟨⟩ ref ⟨⟩
    exact inside
  · exact fun _ => ⟨rfl, rfl, rfl⟩
  · exact fun gone => by cases gone
  · rfl

theorem ready_of_decided {pipeline : Pipeline (List Nat) Nat Unit} (named : ∀ entry ∈ pipeline.space.proposals.entries,
      (pipeline.space.drafts[entry.2]?.map fun draft => draft.proposedBlock.id listHashing) = some entry.1)
    (linked : ∀ draft ∈ pipeline.space.drafts, draft.Linked pipeline.space)
    (stored : (pipeline.space.chain.getBlock listHashing (pipeline.space.chain.bestBlock.id listHashing)).isSome = true)
    (last : pipeline.lastCommitted < pipeline.space.drafts.length) : Ready listHashing pipeline := by
  refine ⟨DraftSpace.tidy_of (fun entry member => ?_) linked, stored, last⟩
  obtain ⟨draft, found, same⟩ := Option.map_eq_some_iff.mp (named entry member)
  exact ⟨draft, found, same⟩

theorem pathOfThree_ready (processed : Bool) : Ready listHashing (pathOfThree processed) := by
  refine ready_of_decided (by cases processed <;> decide +kernel) ?_ (by cases processed <;> decide +kernel) (by cases processed <;> decide)
  intro draft member
  simp only [pathOfThree, pipelineOf, List.mem_cons, List.not_mem_nil, or_false] at member
  rcases member with rfl | rfl | rfl | rfl
  · exact DraftSpace.committedDraft_linked (by simp [pathOfThree, pipelineOf]) 5
  all_goals exact draftOn_linked (by simp [pathOfThree, pipelineOf])

theorem lowerFork_ready : Ready listHashing lowerFork := by
  refine ready_of_decided (by decide +kernel) ?_ (by decide +kernel) (by decide)
  intro draft member
  simp only [lowerFork, pipelineOf, List.mem_cons, List.not_mem_nil, or_false] at member
  rcases member with rfl | rfl | rfl
  · exact DraftSpace.committedDraft_linked (by simp [lowerFork, pipelineOf]) 5
  all_goals exact draftOn_linked (by simp [lowerFork, pipelineOf])

/-- The certificate of block 8 commits the blocks 6 and 7. -/
theorem path_committed :
    ((update sampleEnv.toChainHashing (certify greatGrandChild 8)).finalState (pathOfThree true)).space.chain.blocks =
      [grandChild, firstChild, baseBlock] ∧
    Advanced listHashing (pathOfThree true)
      ((update sampleEnv.toChainHashing (certify greatGrandChild 8)).finalState (pathOfThree true)) := by
  have run : Run sampleEnv.toChainHashing (CommitsInOrder listHashing) (pathOfThree true) ([] ++ [.update (certify greatGrandChild 8)])
      ((update sampleEnv.toChainHashing (certify greatGrandChild 8)).finalState (pathOfThree true)) :=
    .snoc .nil ⟨by decide +kernel, rfl⟩
  exact ⟨by decide +kernel, (commits_consistent (pathOfThree_ready true) run).1⟩

/-- Block 6 was not executed and is skipped, block 7 is refused, and still the last committed draft is that of block 7,
two blocks above the best one. A certificate for another draft at height 6 moves the last committed draft down to block 5. -/
theorem committed_past_best : Ready listHashing (pathOfThree false) ∧
    ((update sampleEnv.toChainHashing (certify greatGrandChild 8)).finalState (pathOfThree false)).commits = [firstChild, grandChild] ∧
    ((update sampleEnv.toChainHashing (certify greatGrandChild 8)).finalState (pathOfThree false)).space.chain.blocks = [baseBlock] ∧
    ((update sampleEnv.toChainHashing (certify greatGrandChild 8)).finalState (pathOfThree false)).committedHeight = 7 ∧
    ((update sampleEnv.toChainHashing (certify greatGrandChild 8)).finalState (pathOfThree false)).space.chain.bestBlock.number = 5 ∧
    Ready listHashing lowerFork ∧ lowerFork.committedHeight = 6 ∧
    ((update sampleEnv.toChainHashing (certify secondChild 6)).finalState lowerFork).committedHeight = 5 :=
  ⟨pathOfThree_ready false, by decide +kernel, by decide +kernel, by decide +kernel, by decide +kernel, lowerFork_ready,
    by decide +kernel, by decide +kernel⟩

end

end Pipeline
end MeterPov.Consensus
