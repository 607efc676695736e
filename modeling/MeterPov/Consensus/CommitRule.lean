import MeterPov.Chains.Drafts
import MeterPov.Consensus.Pipeline
import MeterPov.Lib.Ancestry

/-! Which blocks the commit rule commits.

A commit starts at a draft found for a certificate and takes ancestors of that draft only. What it
means for a block to be certified is left open here: all that the commit rule needs is that the
certificate it is given stands for a certified block. -/

set_option autoImplicit false

namespace MeterPov.Consensus

open Lib Lib.Action Blocks Chains Relation List Option DraftSpace

variable {Digest Address Tx : Type}

/-- The parent relation on block IDs. -/
def Extends (Tx : Type) (hashing : Hashing Digest Address) (child parent : BlockID Digest) : Prop :=
  ∃ block : Block Digest Address Tx, block.Recoverable hashing ∧ block.id hashing = child ∧ block.parentID = parent

section

variable (hashing : Hashing Digest Address) (floor : Nat) (certified : BlockID Digest → Prop)

/-- The certificate stands for a certified block, unless it is one of the blocks up to the floor or up
to the first block, which need none. -/
def Backed (Tx : Type) (qc : QuorumCert Digest) : Prop :=
  ∀ block : Block Digest Address Tx, block.Recoverable hashing → block.votingHash hashing = qc.voterMsgHash →
    block.number = qc.qcHeight → max 1 floor < block.number → certified (block.id hashing)

/-- The block is below a certified one. -/
def Anchored (block : Block Digest Address Tx) : Prop :=
  ∃ top : Block Digest Address Tx, top.Recoverable hashing ∧ certified (top.id hashing) ∧ max 1 floor < top.number ∧
    ReflTransGen (Extends Tx hashing) top.parentID (block.id hashing)

structure Pipeline.Sound (pipeline : Pipeline Digest Address Tx) : Prop where
  space : pipeline.space.WellFormed hashing floor
  high : floor ≤ pipeline.qcHigh.qc.qcHeight
  node : ∀ ref, pipeline.qcHigh.qcNode = some ref →
    (pipeline.space.drafts.map fun draft => draft.height)[ref]? = some pipeline.qcHigh.qc.qcHeight
  commits : ∀ block ∈ pipeline.commits, Anchored hashing floor certified block

end

namespace Pipeline

variable {hashing : Hashing Digest Address} {floor : Nat} {certified : BlockID Digest → Prop}

variable {pipeline : Pipeline Digest Address Tx}

theorem Sound.mono {more} (implies : ∀ id, certified id → more id) (sound : pipeline.Sound hashing floor certified) : pipeline.Sound hashing floor more := by
  refine ⟨sound.space, sound.high, sound.node, fun block member => ?_⟩
  obtain ⟨top, recoverable, isCertified, rest⟩ := sound.commits block member
  exact ⟨top, recoverable, implies _ isCertified, rest⟩

/-! ## The batch of a commit -/

theorem number_of_parent {child parent : Block Digest Address Tx} (isParent : parent.id hashing = child.parentID)
    (positive : 0 < child.number) : child.number = parent.number + 1 := by
  have below : parent.number < 2 ^ 32 := Nat.mod_lt _ (by decide)
  have same : child.number = (parent.number + 1) % 2 ^ 32 := by
    rw [← parent.id_number hashing, isParent]
    rfl
  omega

variable {committedHeight : Nat}

variable {ready : List (Ref × QuorumCert Digest)}

/-- Every block of the batch is an ancestor of the draft the walk starts at, whose parent is above the
committed height. -/
theorem commitReady_mem {drafts}
    (fits : ∀ (ref : Ref) (draft : DraftBlock Digest Address Tx), drafts[ref]? = some draft → draft.Fits hashing floor drafts)
    {hops tmp result} (walked : commitReady drafts committedHeight hops tmp ready = .ok result) {entry} (member : entry ∈ result) :
    entry ∈ ready ∨ ∃ (child draft : DraftBlock Digest Address Tx) (parent : Block Digest Address Tx),
      drafts[tmp]? = some child ∧ parent.id hashing = child.proposedBlock.parentID ∧ committedHeight < parent.number ∧
      drafts[entry.1]? = some draft ∧
      ReflTransGen (Extends Tx hashing) child.proposedBlock.parentID (draft.proposedBlock.id hashing) := by
  induction hops generalizing tmp ready with
  | zero =>
    cases walked
    exact .inl member
  | succ hops ih =>
    simp only [commitReady, Exec.bind_eq_ok, Exec.deref_eq_ok] at walked
    obtain ⟨child, found, parentRef, isParent, parent, parentFound, walked⟩ := walked
    obtain ⟨same, sameFound, sameID⟩ := (fits tmp child found).parent parentRef isParent
    obtain rfl : parent = same := Option.some.inj (parentFound.symm.trans sameFound)
    have parentFits := fits parentRef parent parentFound
    split at walked
    · rename_i above
      rw [parentFits.height] at above
      rcases ih walked with earlier | ⟨again, draft, -, againFound, -, -, draftFound, path⟩
      · rcases mem_cons.mp earlier with rfl | old
        · exact .inr ⟨child, parent, parent.proposedBlock, found, sameID, above, parentFound, sameID ▸ .refl⟩
        · exact .inl old
      · obtain rfl : parent = again := Option.some.inj (parentFound.symm.trans againFound)
        refine .inr ⟨child, draft, parent.proposedBlock, found, sameID, above, draftFound, .head ?_ path⟩
        exact ⟨parent.proposedBlock, parentFits.recoverable, sameID, rfl⟩
    · cases walked
      exact .inl member

/-! ## Acting on the space -/

variable {pipeline start : Pipeline Digest Address Tx} {space : DraftSpace Digest Address Tx}

theorem Sound.later (sound : pipeline.Sound hashing floor certified) (later : space.Later hashing floor pipeline.space) :
    Sound hashing floor certified { pipeline with space := space } :=
  ⟨later.wellFormed, sound.high, fun ref isNode => later.heights ref _ (sound.node ref isNode), sound.commits⟩

variable {fail : Fault → Pipeline Digest Address Tx → Prop}

theorem onSpace_searched {α action} {found : α → DraftSpace Digest Address Tx → Prop}
    (searched : Ends (· = start.space) action (fun value space => start.space.Searched space ∧ found value space)
      fun reason space => fail reason { start with space := space }) :
    Ends (· = start) (onSpace action)
      (fun value pipeline => start.space.Searched pipeline.space ∧ pipeline = { start with space := pipeline.space } ∧
        found value pipeline.space) fail := by
  refine .focused fun pipeline same => ?_
  subst same
  exact searched.mono fun _ _ given => ⟨given.1, rfl, given.2⟩

theorem onSpace_read {α ref next} {post : α → Pipeline Digest Address Tx → Prop}
    (stops : start.space.drafts[ref]? = none → fail .nilDereference start)
    (found : ∀ draft, start.space.drafts[ref]? = some draft → Ends (· = start) (next draft) post fail) :
    Ends (· = start) (onSpace (DraftSpace.draft ref) >>= next) post fail := by
  refine .via (fun draft pipeline => start.space.drafts[ref]? = some draft ∧ pipeline = start) (.focused fun pipeline same => ?_)
    fun draft => .assuming (found draft)
  subst same
  have read : Ends (· = pipeline.space) (DraftSpace.draft ref >>= pure) (fun draft space => pipeline.space.drafts[ref]? = some draft ∧
      { pipeline with space := space } = pipeline) fun reason space => fail reason { pipeline with space := space } :=
    draft_read stops fun draft placed => .here ⟨placed, rfl⟩
  rwa [bind_pure] at read

/-- Whether the certificate replaces the highest one, by its height or by its round. -/
def Replaces (pipeline : Pipeline Digest Address Tx) (node : Option Ref) (qc : QuorumCert Digest) : Prop :=
  (node.isSome = true ∧ pipeline.qcHigh.qc.qcHeight < qc.qcHeight) ∨
    ∃ ref draft, pipeline.qcHigh.qcNode = some ref ∧ pipeline.space.drafts[ref]? = some draft ∧
      qc.qcHeight = draft.height ∧ draft.round < qc.qcRound

variable {qc : QuorumCert Digest}

/-- A certificate that replaces the highest one is taken over with its node; otherwise nothing changes. `inPlace` stands for
what rules out that a nil pointer is followed; where that does not matter, it is false. -/
theorem updateQCHigh_spec (inPlace : Prop) {node}
    (whole : inPlace → ∃ ref, start.qcHigh.qcNode = some ref ∧ ref < start.space.drafts.length) :
    Ends (· = start) (updateQCHigh node qc)
      (fun updated pipeline => (updated = true ∧ Replaces start node qc ∧ pipeline = { start with qcHigh := ⟨node, qc⟩ }) ∨
        (updated = false ∧ ¬ Replaces start node qc ∧ pipeline = start))
      fun reason pipeline => pipeline = start ∧ (inPlace → reason ≠ .nilDereference) := by
  refine .readThen fun pipeline same => ?_
  subst same
  have taken {fail : Fault → Pipeline Digest Address Tx → Prop} (replaces : Replaces pipeline node qc) : Ends (· = pipeline)
      (do set { pipeline with qcHigh := ⟨node, qc⟩ }; return true : Action (Pipeline Digest Address Tx) Bool)
      (fun updated after => (updated = true ∧ Replaces pipeline node qc ∧ after = { pipeline with qcHigh := ⟨node, qc⟩ }) ∨
        (updated = false ∧ ¬ Replaces pipeline node qc ∧ after = pipeline)) fail :=
    .putThen (.ret fun _ same => .inl ⟨rfl, replaces, same⟩)
  refine .branch (fun higher => taken (.inl higher)) fun notHigher => ?_
  refine .deref (fun gone _ same => ⟨same, fun sane => ?_⟩) fun highRef isNode => onSpace_read (fun gone => ⟨rfl, fun sane => ?_⟩)
    fun highNode found => ?_
  · obtain ⟨_, isNode, -⟩ := whole sane
    exact absurd (isNode.symm.trans gone) nofun
  · obtain ⟨_, isRef, inside⟩ := whole sane
    obtain rfl := Option.some.inj (isNode.symm.trans isRef)
    exact absurd (List.getElem?_eq_none_iff.mp gone) (not_le.mpr inside)
  refine .branch (fun newer => taken (.inr ⟨highRef, highNode, isNode, found, newer⟩)) fun notNewer => .ret fun _ same => ?_
  refine .inr ⟨rfl, ?_, same⟩
  rintro (higher | ⟨ref, draft, sameNode, placed, newer⟩)
  · exact notHigher higher
  · obtain rfl := Option.some.inj (isNode.symm.trans sameNode)
    obtain rfl := Option.some.inj (found.symm.trans placed)
    exact notNewer newer

theorem Sound.replaced (sound : start.Sound hashing floor certified) {node} (replaces : Replaces start node qc)
    (placed : ∀ ref, node = some ref → (start.space.drafts.map fun draft => draft.height)[ref]? = some qc.qcHeight) :
    Sound hashing floor certified { start with qcHigh := ⟨node, qc⟩ } := by
  refine ⟨sound.space, ?_, placed, sound.commits⟩
  have high := sound.high
  rcases replaces with ⟨-, higher⟩ | ⟨ref, draft, isNode, found, height, -⟩
  · exact le_trans high (le_of_lt higher)
  · have known := sound.node ref isNode
    rw [List.getElem?_map, found, map_some, Option.some.injEq] at known
    exact height ▸ known ▸ high

/-! ## The commit -/

variable [DecidableEq Digest] {env : ChainHashing Digest Address}

/-- A commit stores blocks of drafts and prunes. -/
structure Moved (origin space : DraftSpace Digest Address Tx) : Prop where
  pruned : DraftSpace.Pruned { origin with chain := space.chain } space
  blocks : ∀ block ∈ origin.chain.blocks, block ∈ space.chain.blocks
  stored : ∀ block ∈ space.chain.blocks, block ∈ origin.chain.blocks ∨ ∃ draft ∈ origin.drafts, draft.proposedBlock = block

omit [DecidableEq Digest] in
theorem Moved.refl : Moved space space := ⟨.refl, fun _ member => member, fun _ member => .inl member⟩

variable {origin : DraftSpace Digest Address Tx}

omit [DecidableEq Digest] in
theorem Moved.pruned_trans {middle} (moved : Moved origin middle) (pruned : middle.Pruned space) :
    Moved origin space := by
  have same := pruned.chain
  refine ⟨?_, same ▸ moved.blocks, same ▸ moved.stored⟩
  rw [same]
  exact moved.pruned.trans pruned

omit [DecidableEq Digest] in
theorem Moved.later (moved : Moved origin space) (wellFormed : origin.WellFormed hashing floor) : space.Later hashing floor origin := by
  have stored : DraftSpace.WellFormed hashing floor { origin with chain := space.chain } := by
    refine ⟨wellFormed.drafts, wellFormed.proposals, fun block member => ?_⟩
    rcases moved.stored block member with old | ⟨draft, isDraft, rfl⟩
    · exact wellFormed.chain block old
    · obtain ⟨ref, found⟩ := mem_iff_getElem?.mp isDraft
      exact (wellFormed.drafts ref draft found).recoverable
  have later := moved.pruned.later stored
  exact ⟨later.wellFormed, later.heights⟩

theorem commitBlock_spec {draftBlk escortQC post} (same : post space)
    (added : ∀ chain fork, space.chain.addBlock env.hashing env.idLess draftBlk.proposedBlock escortQC = .ok (chain, fork) →
      chain.blocks = draftBlk.proposedBlock :: space.chain.blocks → post { space with chain := chain }) :
    Ends (· = space) (commitBlock env draftBlk escortQC) (fun _ => post) fun reason after => post after ∧ reason ≠ .nilDereference := by
  refine .readThen fun state isSame => ?_
  subst isSame
  refine .branch (fun _ => .here same) fun _ => ?_
  rcases state.chain.addBlock_cases env.hashing env.idLess draftBlk.proposedBlock with ⟨reason, failed⟩ | ⟨fork, known⟩
  · rw [failed]
    exact .here same
  · obtain ⟨head, headQC, known⟩ := known escortQC
    have after := added _ _ known rfl
    rw [known]
    exact .via (fun _ => post) (.put fun _ _ => after) fun _ =>
      .branch (fun _ => .fault fun _ given => ⟨given, nofun⟩) fun _ => .ret fun _ given => given

omit [DecidableEq Digest] in
theorem Moved.withBlock (moved : Moved origin space) {ref : Ref} {draft}
    (found : space.drafts[ref]? = some draft) {chain} (blocks : chain.blocks = draft.proposedBlock :: space.chain.blocks) :
    Moved origin { space with chain := chain } := by
  obtain ⟨before, placed, same, -⟩ := moved.pruned.before found
  have isBlock : draft.proposedBlock = before.proposedBlock := by rw [same]
  refine ⟨⟨moved.pruned.length, moved.pruned.marked, moved.pruned.fewer, rfl⟩, fun block member => ?_, fun block member => ?_⟩
  · exact blocks ▸ mem_cons_of_mem _ (moved.blocks block member)
  · rcases mem_cons.mp (blocks ▸ member) with rfl | old
    · exact .inr ⟨before, mem_of_getElem? placed, isBlock.symm⟩
    · exact moved.stored block old

theorem commitOne_moved {ref escortQC} :
    Action.Stays (Moved : DraftSpace Digest Address Tx → _) (commitOne env ref escortQC) := by
  refine fun origin => .each fun start moved => draft_read (fun _ => moved) fun draft found =>
    .branch (fun _ => .seq ((commitBlock_spec moved fun chain fork _ blocks => moved.withBlock found blocks).conseq (fun _ same => same)
      (fun _ _ given => given) fun _ _ stopped => stopped.1) fun _ => .each fun middle moved => ?_) fun _ => .here moved
  exact ((pruneDraftsUpTo_pruned middle).start .refl).conseq (fun _ same => same) (fun _ _ => moved.pruned_trans)
    fun _ _ => moved.pruned_trans

theorem onCommit_moved (ready : List (Ref × QuorumCert Digest)) :
    Action.Stays (Moved : DraftSpace Digest Address Tx → _) (onCommit env ready) := by
  induction ready with
  | nil => exact Action.Stays.ret
  | cons entry rest ih => exact .seq commitOne_moved fun _ => ih

omit [DecidableEq Digest] in
/-! ## One call -/

/-- Before it commits, a call has searched the drafts, and the certificate may have become the highest one. -/
def Reached (hashing : Hashing Digest Address) (start : Pipeline Digest Address Tx) (qc : QuorumCert Digest)
    (pipeline : Pipeline Digest Address Tx) : Prop :=
  ∃ space high, pipeline = { start with space := space, qcHigh := high } ∧ start.space.Searched space ∧
    (high = start.qcHigh ∨ ∃ ref draft, high = ⟨some ref, qc⟩ ∧ Replaces { start with space := space } (some ref) qc ∧
      start.space.FoundFor hashing space qc ref draft ∧ draft.committed = false)

/-- A certified draft on top of a direct parent, and the last committed draft. -/
structure Batch (hashing : Hashing Digest Address) (start : Pipeline Digest Address Tx) (qc : QuorumCert Digest) (bPrimeRef bRef : Ref)
    (bPrime committed : DraftBlock Digest Address Tx) (middle : Pipeline Digest Address Tx) : Prop where
  reached : Reached hashing start qc middle
  found : start.space.FoundFor hashing middle.space qc bPrimeRef bPrime
  isOpen : bPrime.committed = false
  node : ∃ justify, bPrime.justify = some justify ∧ justify.qcNode = some bRef
  parent : bPrime.parent = some bRef
  last : middle.space.drafts[middle.lastCommitted]? = some committed

abbrev recorded (pipeline : Pipeline Digest Address Tx) (ready : List (Ref × QuorumCert Digest)) : Pipeline Digest Address Tx :=
  { pipeline with
    commits := pipeline.commits ++ (ready.map fun entry => entry.1).filterMap fun ref =>
      pipeline.space.drafts[ref]?.map fun draft => draft.proposedBlock }

theorem update_rule (inPlace : Prop) {post : Pipeline Digest Address Tx → Prop}
    (whole : inPlace → start.lastCommitted < start.space.drafts.length ∧
      (∃ ref, start.qcHigh.qcNode = some ref ∧ ref < start.space.drafts.length) ∧
      ∀ draft ∈ start.space.drafts, draft.committed = false → (draft.justify.bind fun justify => justify.qcNode).isSome)
    (paths : inPlace → ∀ bPrimeRef bRef bPrime committed middle, Batch env.hashing start qc bPrimeRef bRef bPrime committed middle →
      commitReady middle.space.drafts committed.height (bPrimeRef + 1) bPrimeRef [] ≠ .error .nilDereference)
    (stops : ∀ reason pipeline, Reached env.hashing start qc pipeline → (inPlace → reason ≠ .nilDereference) → fail reason pipeline)
    (idle : ∀ pipeline, Reached env.hashing start qc pipeline → post pipeline)
    (commits : ∀ bPrimeRef bRef bPrime committed middle ready, Batch env.hashing start qc bPrimeRef bRef bPrime committed middle →
      commitReady middle.space.drafts committed.height (bPrimeRef + 1) bPrimeRef [] = .ok ready →
      Ends (· = middle.space) (onCommit env ready) (fun _ space => post { middle.recorded ready with space := space, lastCommitted := bRef })
        fun reason space => fail reason { middle.recorded ready with space := space }) :
    Ends (· = start) (update env qc) (fun _ => post) fail := by
  refine .seq (onSpace_searched getDraftByEscortQC_spec) fun node => .each fun found ⟨searched, same, _, isNode⟩ => ?_
  have reached : Reached env.hashing start qc found := ⟨found.space, start.qcHigh, same, searched, .inl rfl⟩
  cases node with
  | none => exact .here (idle found reached)
  | some bPrimeRef =>
    obtain ⟨bPrime, foundFor⟩ := isNode bPrimeRef rfl
    refine onSpace_read (fun gone => absurd (foundFor.placed.symm.trans gone) nofun) fun read placed =>
      .branch (fun _ => .here (idle found reached)) fun isNot => ?_
    obtain rfl := Option.some.inj (placed.symm.trans foundFor.placed)
    have isOpen : read.committed = false := by simpa using isNot
    have pointers (sane : inPlace) : ∃ justify, read.justify = some justify ∧ justify.qcNode.isSome := by
      obtain ⟨entry, -, -, before, -⟩ := foundFor.proposal isOpen
      obtain ⟨ref, isRef⟩ := isSome_iff_exists.mp ((whole sane).2.2 read (mem_of_getElem? before) isOpen)
      obtain ⟨justify, isJustify, isNode⟩ := bind_eq_some_iff.mp isRef
      exact ⟨justify, isJustify, isSome_of_eq_some isNode⟩
    refine .deref (fun gone _ isFound => isFound ▸ stops _ found reached fun sane => ?_) fun justify isJustify =>
      .deref (fun gone _ isFound => isFound ▸ stops _ found reached fun sane => ?_) fun bRef isRef => ?_
    · obtain ⟨_, isJustify, -⟩ := pointers sane
      exact absurd (isJustify.symm.trans gone) nofun
    · obtain ⟨_, also, isNode⟩ := pointers sane
      obtain rfl := Option.some.inj (isJustify.symm.trans also)
      simp [gone] at isNode
    refine .seq ((updateQCHigh_spec inPlace fun sane => ?_).conseq (fun _ same => same) (fun _ _ given => given)
      fun reason _ stopped => stopped.1 ▸ stops reason found reached stopped.2) fun _ => .each fun adopted outcome => ?_
    · obtain ⟨ref, isHigh, inside⟩ := (whole sane).2.1
      exact ⟨ref, by rw [same]; exact isHigh, lt_of_lt_of_le inside searched.length_le⟩
    have reachedToo : Reached env.hashing start qc adopted ∧ adopted.space = found.space := by
      rcases outcome with ⟨-, replaces, rfl⟩ | ⟨-, -, rfl⟩
      · refine ⟨⟨found.space, _, ?_, searched, .inr ⟨bPrimeRef, read, rfl, same ▸ replaces, foundFor, isOpen⟩⟩, rfl⟩
        rw [same]
      · exact ⟨reached, rfl⟩
    refine .branch (fun _ => .here (idle adopted reachedToo.1)) fun direct => .readThen fun pipeline isAdopted => ?_
    subst isAdopted
    have lastInside (sane : inPlace) : pipeline.lastCommitted < pipeline.space.drafts.length := by
      obtain ⟨⟨space, high, rfl, searched, -⟩, -⟩ := reachedToo
      exact lt_of_lt_of_le (whole sane).1 searched.length_le
    refine onSpace_read (fun gone => stops _ pipeline reachedToo.1 fun sane => ?_) fun committed isLast => ?_
    · exact absurd (List.getElem?_eq_none_iff.mp gone) (not_le.mpr (lastInside sane))
    have batch : Batch env.hashing start qc bPrimeRef bRef read committed pipeline :=
      ⟨reachedToo.1, reachedToo.2 ▸ foundFor, isOpen, ⟨justify, isJustify, isRef⟩, by simpa using direct, isLast⟩
    refine .lifting (fun reason failed _ same => ?_) fun ready walked => ?_
    · subst same
      exact stops reason _ reachedToo.1 fun sane isNil => paths sane _ _ _ _ _ batch (isNil ▸ failed)
    refine .via (fun _ state => state = pipeline.recorded ready) (.write fun _ same => by rw [same]) fun _ =>
      .via (fun _ state => ∃ space, state = { pipeline.recorded ready with space := space } ∧ post { state with lastCommitted := bRef })
        (.focused fun state same => ?_) fun _ => .write ?_
    · subst same
      exact (commits _ _ _ _ _ ready batch walked).mono fun _ space known => ⟨space, rfl, known⟩
    · rintro state ⟨space, rfl, known⟩
      exact known

theorem Reached.sound (sound : start.Sound hashing floor certified)
    (reached : Reached hashing start qc pipeline) : pipeline.Sound hashing floor certified := by
  obtain ⟨space, high, rfl, searched, adopted⟩ := reached
  have soundFound := sound.later (searched.later sound.space)
  rcases adopted with rfl | ⟨ref, draft, rfl, replaces, foundFor, -⟩
  · exact soundFound
  · refine soundFound.replaced replaces ?_
    rintro other ⟨⟩
    rw [List.getElem?_map, foundFor.placed, map_some, foundFor.height]

/-- A certificate that stands for a certified block commits only blocks below that one. -/
theorem update_spec (backed : Backed env.hashing floor certified Tx qc) :
    Always (fun pipeline : Pipeline Digest Address Tx => pipeline.Sound env.hashing floor certified) (update env qc) (Sound env.hashing floor certified) := by
  refine .each fun start sound => update_rule False False.elim False.elim (fun _ _ reached _ => reached.sound sound)
    (fun _ reached => reached.sound sound) fun bPrimeRef bRef bPrime committed middle ready batch walked => ?_
  have soundMiddle := batch.reached.sound sound
  have fits := soundMiddle.space.drafts bPrimeRef bPrime batch.found.placed
  have soundRecorded : (middle.recorded ready).Sound env.hashing floor certified := by
    refine ⟨soundMiddle.space, soundMiddle.high, soundMiddle.node, fun block member => ?_⟩
    rcases mem_append.mp member with old | new
    · exact soundMiddle.commits block old
    · -- the batch lies below the draft the certificate was found for
      obtain ⟨ref, isReady, isBlock⟩ := mem_filterMap.mp new
      obtain ⟨entry, inReady, rfl⟩ := mem_map.mp isReady
      rcases commitReady_mem soundMiddle.space.drafts walked inReady with
        none | ⟨child, draft, parent, childFound, isParent, above, draftFound, path⟩
      · simp at none
      obtain rfl : bPrime = child := Option.some.inj (batch.found.placed.symm.trans childFound)
      have higher := fits.above batch.isOpen
      have number := number_of_parent isParent (by omega)
      have high : max 1 floor < bPrime.proposedBlock.number := by omega
      rw [draftFound, map_some, Option.some.injEq] at isBlock
      subst isBlock
      refine ⟨bPrime.proposedBlock, fits.recoverable, ?_, high, path⟩
      exact backed bPrime.proposedBlock fits.recoverable (batch.found.votingHash fits batch.isOpen)
        (fits.height.symm.trans batch.found.height) high
  have kept {space : DraftSpace Digest Address Tx} (moved : Moved middle.space space) := soundRecorded.later (moved.later soundMiddle.space)
  exact ((onCommit_moved ready middle.space).start .refl).conseq (fun _ same => same)
    (fun _ _ moved => ⟨(kept moved).space, (kept moved).high, (kept moved).node, (kept moved).commits⟩) fun _ _ moved => kept moved

end Pipeline
end MeterPov.Consensus
