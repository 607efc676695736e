import MeterPov.Chains.ProposalMap
import MeterPov.Lib.Maps

/-! What holds of the drafts and of the proposal space at all times.

Drafts refer to each other by position and positions are never reused, so a draft that was found once
can be found again. Reading may add drafts of stored blocks, and pruning may mark drafts and drop
proposals; nothing else of the space changes then. -/

set_option autoImplicit false

namespace MeterPov.Chains

open Lib Lib.Action Blocks

variable {Digest Address Tx : Type} (hashing : Hashing Digest Address) (floor : Nat)

/-- A draft that fits among the others; one above the floor need not be committed. -/
structure DraftBlock.Fits (drafts : List (DraftBlock Digest Address Tx)) (draft : DraftBlock Digest Address Tx) : Prop where
  height : draft.height = draft.proposedBlock.number
  recoverable : draft.proposedBlock.Recoverable hashing
  above : draft.committed = false → floor < draft.proposedBlock.number
  parent : ∀ ref, draft.parent = some ref →
    ∃ parent, drafts[ref]? = some parent ∧ parent.proposedBlock.id hashing = draft.proposedBlock.parentID
  msg : ∀ message, draft.msg = some message → ∃ proposal, message.body = .proposal proposal

namespace DraftSpace

variable (space : DraftSpace Digest Address Tx)

/-- The position holds a draft of the block with the given ID. -/
def Names (ref : Ref) (id : BlockID Digest) : Prop :=
  ∃ draft, space.drafts[ref]? = some draft ∧ draft.proposedBlock.id hashing = id

/-- The proposals are in place. -/
abbrev Named : Prop := ∀ entry ∈ space.proposals.entries, space.Names hashing entry.2 entry.1

structure WellFormed : Prop where
  drafts : ∀ (ref : Ref) (draft : DraftBlock Digest Address Tx), space.drafts[ref]? = some draft →
    draft.Fits hashing floor space.drafts
  proposals : ∀ entry ∈ space.proposals.entries, space.Names hashing entry.2 entry.1
  chain : ∀ block ∈ space.chain.blocks, block.Recoverable hashing

/-- A later space: every draft is where it was, at its height. -/
structure Later (origin : DraftSpace Digest Address Tx) : Prop where
  wellFormed : space.WellFormed hashing floor
  heights : ∀ (ref : Ref) (height : Nat), (origin.drafts.map fun draft => draft.height)[ref]? = some height →
    (space.drafts.map fun draft => draft.height)[ref]? = some height

variable {hashing floor space} {origin start : DraftSpace Digest Address Tx}
  {new : DraftBlock Digest Address Tx} {extra : List (DraftBlock Digest Address Tx)} {block : Block Digest Address Tx}
  {ref : Ref} {id : BlockID Digest}

/-! ## More drafts -/

variable {drafts : List (DraftBlock Digest Address Tx)}

theorem getElem?_append_of_some (found : drafts[ref]? = some new) : (drafts ++ extra)[ref]? = some new :=
  (List.getElem?_append_left (List.getElem?_eq_some_iff.mp found).1).trans found

theorem Names.append (named : space.Names hashing ref id) : Names hashing { space with drafts := space.drafts ++ extra } ref id := by
  obtain ⟨draft, found, same⟩ := named
  exact ⟨draft, getElem?_append_of_some found, same⟩

theorem Fits.append (fits : new.Fits hashing floor drafts) : new.Fits hashing floor (drafts ++ extra) := by
  refine { fits with parent := fun ref isParent => ?_ }
  obtain ⟨parent, found, same⟩ := fits.parent ref isParent
  exact ⟨parent, getElem?_append_of_some found, same⟩

theorem WellFormed.append (wellFormed : space.WellFormed hashing floor) (fits : ∀ draft ∈ extra, draft.Fits hashing floor space.drafts) :
    Later hashing floor { space with drafts := space.drafts ++ extra } space := by
  refine ⟨⟨fun ref draft found => ?_, fun entry member => (wellFormed.proposals entry member).append, wellFormed.chain⟩,
    fun ref height known => ?_⟩
  · rcases List.mem_append.mp (List.mem_of_getElem? found) with old | isNew
    · obtain ⟨position, placed⟩ := List.mem_iff_getElem?.mp old
      exact Fits.append (wellFormed.drafts position draft placed)
    · exact Fits.append (fits draft isNew)
  · rw [List.map_append]
    exact (List.getElem?_append_left (List.getElem?_eq_some_iff.mp known).1).trans known

theorem committedDraft_fits (recoverable : block.Recoverable hashing) (round : Nat)
    (drafts : List (DraftBlock Digest Address Tx)) : (committedDraft block round).Fits hashing floor drafts where
  height := rfl
  recoverable := recoverable
  above isNot := by simp [committedDraft] at isNot
  parent ref isParent := by simp [committedDraft] at isParent
  msg message isMessage := by simp [committedDraft] at isMessage

/-! ## Reading and allocating -/

theorem draft_eq_ok {after found} :
    draft ref space = .ok found after ↔ space.drafts[ref]? = some found ∧ after = space := by
  cases listed : space.drafts[ref]? with
  | none => simp [draft, Action.bind_eq, get, getThe, MonadStateOf.get, EStateM.get, listed, Exec.deref, liftM, monadLift,
      MonadLift.monadLift, Action.lift]
  | some other => simp [draft, Action.bind_eq, get, getThe, MonadStateOf.get, EStateM.get, listed, Exec.deref, liftM, monadLift,
      MonadLift.monadLift, Action.lift, eq_comm]

theorem draft_spec {pre : DraftSpace Digest Address Tx → Prop} :
    Triple pre (draft ref) (fun draft space => pre space ∧ space.drafts[ref]? = some draft) pre := by
  refine .each fun start given => .readThen fun state same => .lifted (fun draft found now unchanged => ?_) ?_
  · subst same unchanged
    exact ⟨given, Exec.deref_eq_ok.mp found⟩
  · rintro reason - now rfl
    exact given

variable {fail : Fault → DraftSpace Digest Address Tx → Prop}

theorem draft_read {α next} {post : α → DraftSpace Digest Address Tx → Prop}
    (stops : start.drafts[ref]? = none → fail .nilDereference start)
    (found : ∀ draft, start.drafts[ref]? = some draft → Ends (· = start) (next draft) post fail) :
    Ends (· = start) (draft ref >>= next) post fail := by
  refine .via (fun draft space => start.drafts[ref]? = some draft ∧ space = start) ?_ fun draft => .assuming (found draft)
  refine .readThen fun state same => .lifted (fun draft isDraft now unchanged => ?_) fun reason failed now unchanged => ?_
  · exact ⟨same ▸ Exec.deref_eq_ok.mp isDraft, unchanged⟩
  · subst same unchanged
    cases missing : now.drafts[ref]? with
    | none =>
      rw [missing] at failed
      cases failed
      exact stops missing
    | some draft =>
      rw [missing] at failed
      cases failed

theorem draft_stays {relation : DraftSpace Digest Address Tx → DraftSpace Digest Address Tx → Prop} : Stays relation (draft ref) :=
  fun _ => draft_spec.mono fun _ _ given => given.1

theorem allocate_spec {post} (holds : post start.drafts.length { start with drafts := start.drafts ++ [new] }) :
    Ends (· = start) (allocate new) post fail := by
  rintro state rfl
  exact holds

/-! ## Searching -/

/-- What a search leaves: drafts of stored blocks may have come. -/
def Searched (start space : DraftSpace Digest Address Tx) : Prop :=
  ∃ extra, space = { start with drafts := start.drafts ++ extra } ∧
    ∀ draft ∈ extra, ∃ block ∈ start.chain.blocks, ∃ round, draft = committedDraft block round

theorem Searched.refl : Searched space space := ⟨[], by simp, by simp⟩

variable {middle : DraftSpace Digest Address Tx}

theorem Searched.trans (first : Searched origin middle) (second : Searched middle space) : Searched origin space := by
  obtain ⟨earlier, rfl, early⟩ := first
  obtain ⟨later, rfl, late⟩ := second
  refine ⟨earlier ++ later, by simp, fun draft member => ?_⟩
  exact (List.mem_append.mp member).elim (early draft) (late draft)

theorem Searched.proposals (searched : Searched start space) : space.proposals = start.proposals := by
  obtain ⟨extra, rfl, -⟩ := searched
  rfl

theorem Searched.chain (searched : Searched start space) : space.chain = start.chain := by
  obtain ⟨extra, rfl, -⟩ := searched
  rfl

theorem Searched.getElem? (searched : Searched start space) (found : start.drafts[ref]? = some new) : space.drafts[ref]? = some new := by
  obtain ⟨extra, rfl, -⟩ := searched
  exact getElem?_append_of_some found

theorem Searched.length_le (searched : Searched start space) : start.drafts.length ≤ space.drafts.length := by
  obtain ⟨extra, rfl, -⟩ := searched
  simp

theorem Searched.names (searched : Searched start space) (named : start.Names hashing ref id) : space.Names hashing ref id := by
  obtain ⟨draft, found, same⟩ := named
  exact ⟨draft, searched.getElem? found, same⟩

theorem Searched.named (searched : Searched start space) (named : start.Named hashing) : space.Named hashing :=
  fun entry member => searched.names (named entry (searched.proposals ▸ member))

theorem Searched.later (searched : Searched start space) (wellFormed : start.WellFormed hashing floor) :
    space.Later hashing floor start := by
  obtain ⟨extra, rfl, stored⟩ := searched
  refine wellFormed.append fun draft member => ?_
  obtain ⟨block, isStored, round, rfl⟩ := stored draft member
  exact committedDraft_fits (wellFormed.chain block isStored) round _

theorem readBlock_searched {round} (stored : block ∈ start.chain.blocks) :
    Ends (· = start) (some <$> allocate (committedDraft block round))
      (fun found space => start.Searched space ∧ ∃ ref, found = some ref ∧
        space.drafts[ref]? = some (committedDraft block round)) fail := by
  refine .via (fun ref space => start.Searched space ∧ space.drafts[ref]? = some (committedDraft block round))
    (allocate_spec ⟨⟨_, rfl, fun draft member => ?_⟩, by simp⟩) fun ref => .ret fun space given => ⟨given.1, ref, rfl, given.2⟩
  exact ⟨block, stored, round, List.mem_singleton.mp member⟩

/-! ## Pruning -/

/-- A panic in a search; where all is in place, no nil pointer is followed. -/
def Fails (start : DraftSpace Digest Address Tx) (inPlace : Prop) (reason : Fault) (space : DraftSpace Digest Address Tx) : Prop :=
  start.Searched space ∧ (inPlace → reason ≠ .nilDereference)

/-- What pruning can do: drafts are marked as committed, and proposals are dropped. -/
structure Pruned (origin space : DraftSpace Digest Address Tx) : Prop where
  length : space.drafts.length = origin.drafts.length
  marked : ∀ (ref : Ref) (draft : DraftBlock Digest Address Tx), origin.drafts[ref]? = some draft →
    ∃ committed, space.drafts[ref]? = some { draft with committed := committed } ∧ (draft.committed = true → committed = true)
  fewer : ∀ entry ∈ space.proposals.entries, entry ∈ origin.proposals.entries
  chain : space.chain = origin.chain

theorem Pruned.refl : Pruned space space :=
  ⟨rfl, fun _ draft found => ⟨draft.committed, found, fun committed => committed⟩, fun _ member => member, rfl⟩

theorem Pruned.trans (first : Pruned origin middle) (second : Pruned middle space) : Pruned origin space := by
  refine ⟨second.length.trans first.length, fun ref draft found => ?_, fun entry member =>
    first.fewer entry (second.fewer entry member), second.chain.trans first.chain⟩
  obtain ⟨_, between, keptFirst⟩ := first.marked ref draft found
  obtain ⟨committed, marked, keptSecond⟩ := second.marked ref _ between
  exact ⟨committed, marked, fun isCommitted => keptSecond (keptFirst isCommitted)⟩

theorem Pruned.before (pruned : Pruned origin space) (found : space.drafts[ref]? = some new) :
    ∃ draft, origin.drafts[ref]? = some draft ∧ new = { draft with committed := new.committed } ∧
      (draft.committed = true → new.committed = true) := by
  have inside : ref < origin.drafts.length := pruned.length ▸ (List.getElem?_eq_some_iff.mp found).1
  have placed := List.getElem?_eq_getElem inside
  obtain ⟨committed, marked, kept⟩ := pruned.marked ref _ placed
  obtain rfl := Option.some.inj (found.symm.trans marked)
  exact ⟨_, placed, rfl, kept⟩

theorem Pruned.names (pruned : Pruned origin space) (named : origin.Names hashing ref id) : space.Names hashing ref id := by
  obtain ⟨draft, found, same⟩ := named
  obtain ⟨committed, marked, -⟩ := pruned.marked ref draft found
  exact ⟨_, marked, same⟩

theorem Pruned.later (pruned : Pruned origin space) (wellFormed : origin.WellFormed hashing floor) :
    space.Later hashing floor origin := by
  refine ⟨⟨fun ref draft found => ?_, fun entry member => pruned.names (wellFormed.proposals entry (pruned.fewer entry member)),
    pruned.chain ▸ wellFormed.chain⟩, fun ref height known => ?_⟩
  · obtain ⟨before, placed, same, kept⟩ := pruned.before found
    have fits := wellFormed.drafts ref before placed
    rw [same]
    refine ⟨fits.height, fits.recoverable, fun isOpen => fits.above ?_, fun ref isParent => pruned.names (fits.parent ref isParent), fits.msg⟩
    exact Bool.eq_false_iff.mpr fun committed => by simp [kept committed] at isOpen
  · rw [List.getElem?_map, Option.map_eq_some_iff] at known ⊢
    obtain ⟨draft, found, same⟩ := known
    obtain ⟨committed, marked, -⟩ := pruned.marked ref draft found
    exact ⟨_, marked, same⟩

variable [DecidableEq Digest]

/-! ## Finding a draft -/

def blockAt (hashing : Hashing Digest Address) (space : DraftSpace Digest Address Tx) (id : BlockID Digest) :
    Option (Block Digest Address Tx) :=
  match space.proposals.lookup id with
  | some ref => space.drafts[ref]?.map fun draft => draft.proposedBlock
  | none => space.chain.getBlock hashing id

/-- What `getDraft` comes to: a proposal, or else a draft of the stored block. -/
def GetsDraft (hashing : Hashing Digest Address) (start space : DraftSpace Digest Address Tx) (id : BlockID Digest) : Option Ref → Prop
  | none => start.proposals.lookup id = none ∧ start.chain.getBlock hashing id = none
  | some ref => start.proposals.lookup id = some ref ∨
      start.proposals.lookup id = none ∧ ∃ block round, start.chain.getBlock hashing id = some block ∧
        space.drafts[ref]? = some (committedDraft block round)

theorem getDraft_spec : Ends (· = start) (getDraft hashing id)
      (fun found space => start.Searched space ∧ GetsDraft hashing start space id found) fail := by
  refine .readThen fun state same => ?_
  subst same
  split
  next ref known => exact .here ⟨.refl, .inl known⟩
  next unknown =>
    split
    next block stored =>
      refine (readBlock_searched (Chain.mem_of_getBlock stored).1).mono fun found space given => ⟨given.1, ?_⟩
      obtain ⟨ref, rfl, placed⟩ := given.2
      exact .inr ⟨unknown, block, _, stored, placed⟩
    next missing => exact .here ⟨.refl, unknown, missing⟩

theorem GetsDraft.known (gets : GetsDraft hashing start space id (some ref)) (searched : start.Searched space)
    (other : DraftSpace Digest Address Tx) : ¬ GetsDraft hashing space other id none := by
  rintro ⟨unlisted, unstored⟩
  rw [searched.proposals] at unlisted
  rw [searched.chain] at unstored
  rcases gets with listed | ⟨-, block, round, stored, -⟩
  · exact absurd (listed.symm.trans unlisted) nofun
  · exact absurd (stored.symm.trans unstored) nofun

theorem GetsDraft.draft (gets : GetsDraft hashing start space id (some ref)) (searched : start.Searched space)
    (named : start.Named hashing) :
    ∃ draft, space.drafts[ref]? = some draft ∧ draft.proposedBlock.id hashing = id ∧
      start.blockAt hashing id = some draft.proposedBlock := by
  unfold blockAt
  rcases gets with known | ⟨unknown, block, round, stored, placed⟩
  · obtain ⟨draft, found, name⟩ := named ⟨id, ref⟩ (AList.mem_lookup_iff.mp known)
    exact ⟨draft, searched.getElem? found, name, by simp only [known, found, Option.map_some]⟩
  · exact ⟨_, placed, (Chain.mem_of_getBlock stored).2, by simp only [unknown, stored, committedDraft]⟩

def nodeFor (hashing : Hashing Digest Address) (space : DraftSpace Digest Address Tx) (qc : QuorumCert Digest) :
    Option (Block Digest Address Tx) :=
  match space.proposals.entries.find? fun entry => matchesQC hashing space.drafts qc entry.2 with
  | some entry => space.drafts[entry.2]?.map fun draft => draft.proposedBlock
  | none =>
    match space.chain.getTrunkBlock hashing qc.qcHeight with
    | none => none
    | some block => if block.number = qc.qcHeight then some block else none

/-- A draft found for a certificate has its height and round; one that is not committed is a proposal that matches. -/
structure FoundFor (hashing : Hashing Digest Address) (start space : DraftSpace Digest Address Tx) (qc : QuorumCert Digest)
    (ref : Ref) (draft : DraftBlock Digest Address Tx) : Prop where
  placed : space.drafts[ref]? = some draft
  height : draft.height = qc.qcHeight
  round : draft.round = qc.qcRound
  block : nodeFor hashing start qc = some draft.proposedBlock
  proposal : draft.committed = false → ∃ entry ∈ start.proposals.entries, entry.2 = ref ∧ start.drafts[ref]? = some draft ∧
    matchesQC hashing start.drafts qc ref = true

variable {qc : QuorumCert Digest}

theorem getDraftByEscortQC_spec : Ends (· = start) (getDraftByEscortQC hashing qc)
      (fun found space => start.Searched space ∧ (found = none → nodeFor hashing start qc = none) ∧
        ∀ ref, found = some ref → ∃ draft, FoundFor hashing start space qc ref draft) fail := by
  refine .readThen fun state same => ?_
  subst same
  split
  next entry known =>
    have isMatch := List.find?_some known
    have parts := isMatch
    cases found : state.drafts[entry.2]? with
    | none => simp [matchesQC, found] at isMatch
    | some draft =>
      simp only [matchesQC, found, Bool.and_eq_true, decide_eq_true_eq] at parts
      refine .here ⟨.refl, nofun, ?_⟩
      rintro ref ⟨⟩
      refine ⟨draft, found, parts.1.1, parts.1.2, ?_, fun _ => ⟨entry, List.mem_of_find?_eq_some known, rfl, found, isMatch⟩⟩
      simp only [nodeFor, known, found, Option.map_some]
  next unknown =>
    split
    next missing => exact .here ⟨.refl, fun _ => by simp only [nodeFor, unknown, missing], nofun⟩
    next block stored =>
      refine .branch (fun height => ?_) fun other => .here ⟨.refl, fun _ => ?_, nofun⟩
      · refine (readBlock_searched (Chain.mem_of_getTrunkBlock stored)).mono fun found space given => ⟨given.1, ?_⟩
        obtain ⟨ref, rfl, placed⟩ := given.2
        refine ⟨nofun, ?_⟩
        rintro other ⟨⟩
        refine ⟨_, placed, height, rfl, ?_, fun isNot => by simp [committedDraft] at isNot⟩
        simp only [nodeFor, unknown, stored, height, if_true, committedDraft]
      · simp only [nodeFor, unknown, stored, other, if_false]

theorem FoundFor.votingHash (foundFor : FoundFor hashing start space qc ref new)
    (fits : new.Fits hashing floor space.drafts) (isOpen : new.committed = false) :
    new.proposedBlock.votingHash hashing = qc.voterMsgHash := by
  obtain ⟨entry, -, -, placed, isMatch⟩ := foundFor.proposal isOpen
  simp only [matchesQC, placed, Bool.and_eq_true, decide_eq_true_eq] at isMatch
  -- Without a hash to compare, the draft is at height zero, where every draft is committed.
  have positive : ¬ (new.height = 0 ∧ qc.qcHeight = 0) := by
    have := fits.above isOpen
    have := fits.height
    omega
  simpa [blockMatchDraftQC, positive, eq_comm] using isMatch.2

/-- Only a search, whether it returns or panics. -/
abbrev Searching {α : Type} (action : Action (DraftSpace Digest Address Tx) α) : Prop := Stays Searched action

theorem getDraft_searching : Searching (getDraft hashing id : Action (DraftSpace Digest Address Tx) _) :=
  fun _ => .each fun _ known => getDraft_spec.mono fun _ _ given => known.trans given.1

theorem getDraftByEscortQC_searching : Searching (getDraftByEscortQC hashing qc : Action (DraftSpace Digest Address Tx) _) :=
  fun _ => .each fun _ known => getDraftByEscortQC_spec.mono fun _ _ given => known.trans given.1

theorem getDraftsUpTo_searching {qcHigh} :
    Searching (getDraftsUpTo hashing id qcHigh : Action (DraftSpace Digest Address Tx) _) := by
  have walk (id : BlockID Digest) (hops : Nat) (head : Option Ref) (result : List Ref) :
      Searching (proposalsDownTo hashing id hops head result : Action (DraftSpace Digest Address Tx) _) := by
    induction hops generalizing head result with
    | zero => exact Stays.ret
    | succ hops ih =>
      cases head with
      | none => exact Stays.ret
      | some ref => exact Stays.seq draft_stays fun draft => .branch .ret (ih _ _)
  refine Stays.seq getDraft_searching fun committed => .seq getDraftByEscortQC_searching fun head => ?_
  split
  · exact Stays.seq draft_stays fun draft => walk _ _ _ _
  · exact Stays.ret

/-! ## Writing -/

theorem addDraft_spec : Triple (· = start) (addDraft hashing ref)
      (fun _ space => ∃ draft, start.drafts[ref]? = some draft ∧
        space = { start with proposals := start.proposals.insert (draft.proposedBlock.id hashing) ref }) (· = start) :=
  draft_read (fun _ => rfl) fun draft found => .write fun space same => ⟨draft, found, by rw [same]⟩

/-- A new draft at the end, which may have become the proposal of its ID. -/
def Enters (hashing : Hashing Digest Address) (start : DraftSpace Digest Address Tx) (new : DraftBlock Digest Address Tx)
    (space : DraftSpace Digest Address Tx) : Prop :=
  ∃ proposals, space = { start with drafts := start.drafts ++ [new], proposals := proposals } ∧
    (proposals = start.proposals ∨ proposals = start.proposals.insert (new.proposedBlock.id hashing) start.drafts.length)

theorem Enters.entries (enters : start.Enters hashing new space) {entry} (member : entry ∈ space.proposals.entries) :
    entry ∈ start.proposals.entries ∨ entry.1 = new.proposedBlock.id hashing ∧ space.drafts[entry.2]? = some new := by
  obtain ⟨proposals, rfl, same | added⟩ := enters
  · exact .inl (same ▸ member)
  · rcases Lib.mem_entries_insert (added ▸ member) with rfl | old
    · exact .inr ⟨rfl, by simp⟩
    · exact .inl old

theorem Enters.later (enters : start.Enters hashing new space) (wellFormed : start.WellFormed hashing floor)
    (fits : new.Fits hashing floor start.drafts) : space.Later hashing floor start := by
  have appended := wellFormed.append fun draft member => List.mem_singleton.mp member ▸ fits
  have entered (entry : Sigma fun _ : BlockID Digest => Ref) (member : entry ∈ space.proposals.entries) := enters.entries member
  obtain ⟨proposals, rfl, -⟩ := enters
  refine ⟨⟨appended.wellFormed.drafts, fun entry member => ?_, wellFormed.chain⟩, appended.heights⟩
  rcases entered entry member with old | ⟨name, placed⟩
  · exact appended.wellFormed.proposals entry old
  · exact ⟨new, placed, name.symm⟩

theorem removeProposal_pruned : Stays Pruned (removeProposal id : Action (DraftSpace Digest Address Tx) Unit) :=
  fun _ => .write fun _ pruned =>
    ⟨pruned.length, pruned.marked, fun entry member => pruned.fewer entry ((List.kerase_sublist _ _).subset member), pruned.chain⟩

omit [DecidableEq Digest] in
theorem setCommitted_pruned : Stays Pruned (setCommitted ref : Action (DraftSpace Digest Address Tx) Unit) := by
  refine fun origin => .write fun space pruned => ⟨by simp [pruned.length], fun position draft found => ?_, pruned.fewer, pruned.chain⟩
  obtain ⟨committed, marked, kept⟩ := pruned.marked position draft found
  rw [List.getElem?_modify, marked]
  by_cases same : ref = position
  · exact ⟨true, by simp [same], fun _ => rfl⟩
  · exact ⟨committed, by simp [same], kept⟩

variable {lastCommitted : DraftBlock Digest Address Tx}

theorem pruneOne_pruned : Stays Pruned (pruneOne hashing lastCommitted ref) := by
  refine Stays.seq draft_stays fun draft => ?_
  have second : Stays Pruned (if draft.proposedBlock.number = lastCommitted.height then
        if draft.proposedBlock.id hashing ≠ lastCommitted.proposedBlock.id hashing then
          if draft.returnTxsToPool then removeProposal (draft.proposedBlock.id hashing) else throw .nilDereference
        else setCommitted ref
      else (pure () : Action (DraftSpace Digest Address Tx) Unit)) :=
    .branch (.branch (.branch removeProposal_pruned .fault) setCommitted_pruned) .ret
  dsimp only
  split
  · exact Stays.seq removeProposal_pruned fun _ => second
  · exact second

theorem pruneDraftsUpTo_pruned : Stays Pruned (pruneDraftsUpTo hashing lastCommitted) := by
  have each (refs : List Ref) : Stays Pruned (pruneEach hashing lastCommitted refs) := by
    induction refs with
    | nil => exact .ret
    | cons ref rest ih => exact .seq pruneOne_pruned fun _ => ih
  exact .readThen fun _ => each _

end DraftSpace
end MeterPov.Chains
