import MeterPov.Chains.Drafts

/-! Drafts once made stay as they are: only their mark of being committed is ever set.

What is known of a draft at a position therefore carries over to every later state. The pointers of a
draft lead to drafts, and a draft without them is one that was read from the database. -/

set_option autoImplicit false

namespace MeterPov.Chains

open Lib Lib.Action Blocks List

variable {Digest Address Tx : Type}

namespace DraftBlock

/-- A draft without its mark. -/
def outline (draft : DraftBlock Digest Address Tx) : DraftBlock Digest Address Tx := { draft with committed := false }

theorem eq_of_outline {later draft : DraftBlock Digest Address Tx} (same : later.outline = draft.outline) :
    later = { draft with committed := later.committed } := by
  cases later
  cases draft
  simp_all [outline]

/-- Its pointers lead to drafts. Where one of them is nil, the draft is committed; where that of its parent is nil,
it is one of a stored block. -/
structure Linked (space : DraftSpace Digest Address Tx) (draft : DraftBlock Digest Address Tx) : Prop where
  parent : ∀ ref, draft.parent = some ref → ref < space.drafts.length
  node : ∀ justify, draft.justify = some justify → ∀ ref, justify.qcNode = some ref → ref < space.drafts.length
  pointers : draft.committed = false → draft.parent.isSome ∧ draft.msg.isSome ∧ (draft.justify.bind fun justify => justify.qcNode).isSome
  stored : draft.parent = none → draft.proposedBlock ∈ space.chain.blocks
  height : draft.height = draft.proposedBlock.number

end DraftBlock

namespace DraftSpace

structure Grows (hashing : Hashing Digest Address) (origin space : DraftSpace Digest Address Tx) : Prop where
  kept : ∀ (ref : Ref) (draft : DraftBlock Digest Address Tx), origin.drafts[ref]? = some draft →
    ∃ later, space.drafts[ref]? = some later ∧ later.outline = draft.outline ∧
      (draft.committed = true → later.committed = true)
  blocks : ∀ block ∈ origin.chain.blocks, block ∈ space.chain.blocks
  named : ∀ entry ∈ space.proposals.entries, space.Names hashing entry.2 entry.1
  linked : ∀ draft ∈ space.drafts, draft.Linked space

/-- The space is one that grew from itself: its names and pointers are right. -/
def Tidy (hashing : Hashing Digest Address) (space : DraftSpace Digest Address Tx) : Prop := space.Grows hashing space

variable {hashing : Hashing Digest Address} {origin space : DraftSpace Digest Address Tx}

theorem tidy_of (named : ∀ entry ∈ space.proposals.entries, space.Names hashing entry.2 entry.1)
    (linked : ∀ draft ∈ space.drafts, draft.Linked space) : space.Tidy hashing :=
  ⟨fun _ draft found => ⟨draft, found, rfl, fun committed => committed⟩, fun _ member => member, named, linked⟩

theorem Grows.tidy (grows : Grows hashing origin space) : space.Tidy hashing := tidy_of grows.named grows.linked

variable {crash : DraftSpace Digest Address Tx → Prop} {new : DraftBlock Digest Address Tx}
  {middle start : DraftSpace Digest Address Tx} {block : Block Digest Address Tx} {qc : QuorumCert Digest}
  {id : BlockID Digest} {ref : Ref}

theorem Grows.trans (first : Grows hashing origin middle) (second : Grows hashing middle space) : Grows hashing origin space := by
  refine ⟨fun ref draft found => ?_, fun block member => second.blocks block (first.blocks block member), second.named,
    second.linked⟩
  obtain ⟨between, foundBetween, sameFirst, markFirst⟩ := first.kept ref draft found
  obtain ⟨later, foundLater, sameSecond, markSecond⟩ := second.kept ref between foundBetween
  exact ⟨later, foundLater, sameSecond.trans sameFirst, fun committed => markSecond (markFirst committed)⟩

theorem Grows.length_le (grows : Grows hashing origin space) : origin.drafts.length ≤ space.drafts.length := by
  rcases Nat.eq_zero_or_pos origin.drafts.length with empty | positive
  · omega
  · obtain ⟨later, found, -⟩ := grows.kept (origin.drafts.length - 1) _ (List.getElem?_eq_getElem (by omega))
    have := (List.getElem?_eq_some_iff.mp found).1
    omega

theorem Grows.block_eq (grows : Grows hashing origin space) (placed : (origin.drafts[ref]?).isSome = true) :
    (space.drafts[ref]?.map fun draft => draft.proposedBlock) = origin.drafts[ref]?.map fun draft => draft.proposedBlock := by
  obtain ⟨draft, found⟩ := Option.isSome_iff_exists.mp placed
  obtain ⟨later, foundLater, outline, -⟩ := grows.kept ref draft found
  rw [found, foundLater, DraftBlock.eq_of_outline outline]
  rfl

theorem Linked.mono {draft : DraftBlock Digest Address Tx} (linked : draft.Linked origin)
    (length : origin.drafts.length ≤ space.drafts.length) (blocks : ∀ block ∈ origin.chain.blocks, block ∈ space.chain.blocks) : draft.Linked space where
  parent ref isParent := lt_of_lt_of_le (linked.parent ref isParent) length
  node justify isJustify ref isNode := lt_of_lt_of_le (linked.node justify isJustify ref isNode) length
  pointers := linked.pointers
  stored missing := blocks _ (linked.stored missing)
  height := linked.height

theorem Tidy.withChain (tidy : start.Tidy hashing) {chain} (blocks : ∀ block ∈ start.chain.blocks, block ∈ chain.blocks) : start.Grows hashing { start with chain := chain } :=
  ⟨tidy.kept, blocks, tidy.named, fun draft member => Linked.mono (tidy.linked draft member) (le_refl _) blocks⟩

theorem Tidy.append (tidy : start.Tidy hashing) {extra} (linked : ∀ draft ∈ extra, draft.Linked start) : start.Grows hashing { start with drafts := start.drafts ++ extra } := by
  have longer : start.drafts.length ≤ (start.drafts ++ extra).length := by simp
  refine ⟨fun ref draft found => ⟨draft, getElem?_append_of_some found, rfl, fun committed => committed⟩, fun _ member => member,
    fun entry member => (tidy.named entry member).append, fun draft member => ?_⟩
  exact (mem_append.mp member).elim (fun old => Linked.mono (tidy.linked draft old) longer fun _ stored => stored)
    fun isNew => Linked.mono (linked draft isNew) longer fun _ stored => stored

theorem committedDraft_linked (stored : block ∈ space.chain.blocks) (round : Nat) : (committedDraft block round).Linked space where
  parent ref isParent := by simp [committedDraft] at isParent
  node justify isJustify := by simp [committedDraft] at isJustify
  pointers isNot := by simp [committedDraft] at isNot
  stored _ := stored
  height := rfl

theorem Searched.grows (searched : start.Searched space) (tidy : start.Tidy hashing) : start.Grows hashing space := by
  obtain ⟨extra, rfl, stored⟩ := searched
  refine tidy.append fun draft member => ?_
  obtain ⟨block, isStored, round, rfl⟩ := stored draft member
  exact committedDraft_linked isStored round

theorem Pruned.grows (pruned : Pruned start space) (tidy : start.Tidy hashing) : start.Grows hashing space := by
  refine ⟨fun ref draft found => ?_, fun block member => pruned.chain.symm ▸ member, fun entry member =>
    pruned.names (tidy.named entry (pruned.fewer entry member)), fun draft member => ?_⟩
  · obtain ⟨committed, marked, kept⟩ := pruned.marked ref draft found
    exact ⟨_, marked, rfl, kept⟩
  · obtain ⟨ref, found⟩ := mem_iff_getElem?.mp member
    obtain ⟨before, placed, same, kept⟩ := pruned.before found
    have linked : before.Linked space :=
      Linked.mono (tidy.linked before (mem_of_getElem? placed)) (le_of_eq pruned.length.symm)
        fun block member => pruned.chain.symm ▸ member
    rw [same]
    refine ⟨linked.parent, linked.node, fun isOpen => linked.pointers ?_, linked.stored, linked.height⟩
    exact Bool.eq_false_iff.mpr fun committed => by simp [kept committed] at isOpen

/-! ## Actions under which the space grows -/

/-- Whether it returns or panics, the action lets the space grow. -/
abbrev Growing {α : Type} (hashing : Hashing Digest Address) (action : Action (DraftSpace Digest Address Tx) α) : Prop :=
  Stays (Grows hashing) action

theorem Growing.of_stays {α} {action : Action (DraftSpace Digest Address Tx) α} {relation} (stays : Stays relation action)
    (refl : ∀ start, start.Tidy hashing → relation start start)
    (grows : ∀ start space, relation start space → start.Tidy hashing → start.Grows hashing space) : Growing hashing action := by
  refine fun origin => .each fun start known => (stays start).conseq ?_ (fun _ space given => known.trans (grows start space given known.tidy))
    fun space given => known.trans (grows start space given known.tidy)
  rintro space rfl
  exact refl space known.tidy

theorem Searching.growing {α} {action : Action (DraftSpace Digest Address Tx) α} (searching : Searching action) :
    Growing hashing action :=
  .of_stays searching (fun _ _ => .refl) fun _ _ => Searched.grows

variable [DecidableEq Digest]

theorem Grows.matchesQC_eq (grows : origin.Grows hashing space) (named : origin.Names hashing ref id)
    (qc : QuorumCert Digest) : matchesQC hashing space.drafts qc ref = matchesQC hashing origin.drafts qc ref := by
  obtain ⟨draft, found, -⟩ := named
  obtain ⟨later, foundLater, outline, -⟩ := grows.kept ref draft found
  rw [DraftBlock.eq_of_outline outline] at foundLater
  simp only [matchesQC, found, foundLater]
  rfl

theorem nodeFor_isSome (tidy : space.Tidy hashing) {entry}
    (member : entry ∈ space.proposals.entries) (isMatch : matchesQC hashing space.drafts qc entry.2 = true) :
    (space.nodeFor hashing qc).isSome = true := by
  unfold nodeFor
  split
  next first known =>
    obtain ⟨draft, found, -⟩ := tidy.named first (mem_of_find?_eq_some known)
    rw [found]
    rfl
  next unknown =>
    have never := List.find?_eq_none.mp unknown entry member
    exact absurd isMatch never

theorem Enters.grows (enters : start.Enters hashing new space) (tidy : start.Tidy hashing) (linked : new.Linked start) :
    start.Grows hashing space := by
  have appended := tidy.append fun draft member => mem_singleton.mp member ▸ linked
  have entered (entry : Sigma fun _ : BlockID Digest => Ref) (member : entry ∈ space.proposals.entries) := enters.entries member
  obtain ⟨proposals, rfl, -⟩ := enters
  refine ⟨appended.kept, appended.blocks, fun entry member => ?_, fun draft member =>
    Linked.mono (appended.linked draft member) (le_refl _) fun _ stored => stored⟩
  rcases entered entry member with old | ⟨name, placed⟩
  · exact appended.named entry old
  · exact ⟨new, placed, name.symm⟩

theorem Tidy.addDraft (tidy : start.Tidy hashing) (found : start.drafts[ref]? = some new) :
    start.Grows hashing { start with proposals := start.proposals.insert (new.proposedBlock.id hashing) ref } := by
  refine ⟨tidy.kept, fun _ member => member, fun entry member => ?_, fun draft member => ?_⟩
  · rcases Lib.mem_entries_insert member with rfl | old
    · exact ⟨new, found, rfl⟩
    · exact tidy.named entry old
  · exact Linked.mono (tidy.linked draft member) (le_refl _) fun _ stored => stored

theorem Growing.addDraft : Growing hashing (DraftSpace.addDraft hashing ref : Action (DraftSpace Digest Address Tx) Unit) := by
  refine fun origin => .each fun start grows => addDraft_spec.conseq (fun _ same => same) ?_ fun _ same => same ▸ grows
  rintro _ space ⟨draft, found, rfl⟩
  exact grows.trans (grows.tidy.addDraft found)

end DraftSpace

/-! Where the proposal space is read and written without following a nil pointer. -/

open Lib.Action

/-- From a state with `pre`, the action returns with `post`, or it panics without following a nil pointer. -/
abbrev NilFree {State α : Type} (pre : State → Prop) (action : Action State α) (post : α → State → Prop) : Prop :=
  Avoids .nilDereference pre action post

namespace DraftSpace

variable [DecidableEq Digest] {hashing : Hashing Digest Address} {start : DraftSpace Digest Address Tx}
  {lastCommitted draft : DraftBlock Digest Address Tx} {id : BlockID Digest} {ref : Ref}

/-! ## Pruning -/

/-- A draft beside the committed one has a function that returns its transactions. -/
def Returnable (lastCommitted draft : DraftBlock Digest Address Tx) : Prop :=
  draft.proposedBlock.number = lastCommitted.height → draft.returnTxsToPool = true

theorem pruneOne_nilFree (placed : start.drafts[ref]? = some draft) (returnable : Returnable lastCommitted draft) :
    NilFree (· = start) (pruneOne hashing lastCommitted ref) (fun _ _ => True) := by
  refine draft_read (fun gone => absurd (placed.symm.trans gone) nofun) fun read isRead => ?_
  obtain rfl := Option.some.inj (placed.symm.trans isRead)
  have second {pre : DraftSpace Digest Address Tx → Prop} : NilFree pre (if draft.proposedBlock.number = lastCommitted.height then
        if draft.proposedBlock.id hashing ≠ lastCommitted.proposedBlock.id hashing then
          if draft.returnTxsToPool then removeProposal (draft.proposedBlock.id hashing) else throw .nilDereference
        else setCommitted ref
      else (pure () : Action (DraftSpace Digest Address Tx) Unit)) (fun _ _ => True) := by
    refine .branch (fun sameHeight => .branch (fun _ => ?_) fun _ => .write fun _ _ => trivial) fun _ => .ret fun _ _ => trivial
    rw [if_pos (returnable sameHeight)]
    exact .write fun _ _ => trivial
  dsimp only
  split
  · exact .seq (.write fun _ _ => trivial : NilFree (· = start) _ fun _ _ => True) fun _ => second
  · exact second

theorem pruneEach_nilFree (refs : List Ref)
    (returnable : ∀ ref ∈ refs, ∃ draft, start.drafts[ref]? = some draft ∧ Returnable lastCommitted draft) :
    NilFree start.Pruned (pruneEach hashing lastCommitted refs) (fun _ _ => True) := by
  induction refs with
  | nil => exact .ret fun _ _ => trivial
  | cons ref rest ih =>
    refine .each fun space pruned => ?_
    obtain ⟨draft, placed, known⟩ := returnable ref mem_cons_self
    obtain ⟨_, placedLater, -⟩ := pruned.marked ref draft placed
    have one := (@pruneOne_nilFree _ _ Tx _ hashing _ lastCommitted _ _ placedLater known).also ((pruneOne_pruned start).start pruned)
    exact .seq (one.mono fun _ _ given => given.2) fun _ => ih fun other member => returnable other (mem_cons_of_mem _ member)

theorem pruneDraftsUpTo_nilFree (named : start.Named hashing)
    (returnable : ∀ entry ∈ start.proposals.entries, ∀ draft, start.drafts[entry.2]? = some draft → Returnable lastCommitted draft) :
    NilFree (· = start) (pruneDraftsUpTo hashing lastCommitted) (fun _ _ => True) := by
  refine .readThen fun state same => ?_
  subst same
  refine (pruneEach_nilFree _ fun ref member => ?_).start .refl
  obtain ⟨entry, isEntry, rfl⟩ := mem_map.mp member
  obtain ⟨draft, placed, -⟩ := named entry isEntry
  exact ⟨draft, placed, returnable entry isEntry draft placed⟩

/-! ## Walking down the proposals -/

/-- Positions of drafts that have their message. -/
def Sendable (refs : List Ref) (space : DraftSpace Digest Address Tx) : Prop :=
  ∀ ref ∈ refs, ∃ draft, space.drafts[ref]? = some draft ∧ draft.msg.isSome = true

theorem proposalsDownTo_nilFree (tidy : start.Tidy hashing) (hops : Nat) {head : Option Ref}
    (inside : ∀ ref, head = some ref → ref < start.drafts.length) {result} (sendable : start.Sendable result) :
    NilFree (· = start) (proposalsDownTo hashing id hops head result) (fun refs space => space.Sendable refs) := by
  induction hops generalizing head result with
  | zero => exact .here sendable
  | succ hops ih =>
    cases head with
    | none => exact .here sendable
    | some ref =>
      refine draft_read (fun gone => absurd (inside ref rfl) (not_lt.mpr (List.getElem?_eq_none_iff.mp gone))) fun draft placed =>
        .branch (fun _ => .here sendable) fun further => ?_
      have linked := tidy.linked draft (mem_of_getElem? placed)
      refine ih (fun parent isParent => linked.parent parent isParent) fun other member => ?_
      rcases mem_cons.mp member with rfl | member
      · simp only [not_or, Bool.not_eq_true] at further
        exact ⟨draft, placed, (linked.pointers further.1).2.1⟩
      · exact sendable other member

theorem getDraftsUpTo_nilFree (tidy : start.Tidy hashing) {qcHigh} :
    NilFree (· = start) (getDraftsUpTo hashing id qcHigh) (fun refs space => space.Sendable refs) := by
  refine .seq getDraft_spec fun committed => .each fun middle ⟨searched, gets⟩ => ?_
  refine .seq getDraftByEscortQC_spec fun head => .each fun found ⟨searchedAgain, _, isHead⟩ => ?_
  have nothing : found.Sendable [] := fun _ member => absurd member not_mem_nil
  cases committed with
  | none => exact .here nothing
  | some committedRef =>
    cases head with
    | none => exact .here nothing
    | some headRef =>
      obtain ⟨draft, placed, -⟩ := gets.draft searched tidy.named
      obtain ⟨headDraft, foundFor⟩ := isHead headRef rfl
      refine draft_read (fun gone => absurd ((searchedAgain.getElem? placed).symm.trans gone) nofun) fun _ _ => ?_
      refine proposalsDownTo_nilFree ((searched.trans searchedAgain).grows tidy).tidy 4 ?_ nothing
      rintro ref ⟨⟩
      exact (List.getElem?_eq_some_iff.mp foundFor.placed).1

end DraftSpace
end MeterPov.Chains
