import MeterPov.Consensus.Handlers
import MeterPov.Lib.Walk
import MeterPov.Replay.Rewrapped

/-! What a replica has executed when it votes (`consensus/pacemaker.go`, `consensus/pacemaker_assist.go`).

A proposal is validated, its draft is stored and, if it extends the last committed block, it is voted
for. When no state opens for the checkpoint, validation returns no error and nothing is executed. -/

set_option autoImplicit false

namespace MeterPov.Node

open Lib Blocks Chains Consensus Consensus.Pacemaker List Action

/-! ## Searching the drafts -/

section

variable {Digest Address Tx : Type}

/-- What a search leaves: drafts of stored blocks are added. -/
structure Extends (start space : DraftSpace Digest Address Tx) : Prop where
  chain : space.chain = start.chain
  proposals : space.proposals = start.proposals
  drafts : ∃ extra, space.drafts = start.drafts ++ extra ∧ ∀ draft ∈ extra, draft.committed = true

variable {start middle space after : DraftSpace Digest Address Tx} {ref : Ref} {draft : DraftBlock Digest Address Tx}

theorem Extends.trans (first : Extends start middle) (second : Extends middle space) : Extends start space := by
  obtain ⟨firstExtra, firstDrafts, firstCommitted⟩ := first.drafts
  obtain ⟨secondExtra, secondDrafts, secondCommitted⟩ := second.drafts
  refine ⟨second.chain.trans first.chain, second.proposals.trans first.proposals, firstExtra ++ secondExtra, ?_, ?_⟩
  · rw [secondDrafts, firstDrafts, append_assoc]
  · intro draft member
    exact (mem_append.mp member).elim (firstCommitted draft) (secondCommitted draft)

theorem Extends.getElem? (extended : Extends start space) (found : start.drafts[ref]? = some draft) :
    space.drafts[ref]? = some draft := by
  obtain ⟨extra, same, -⟩ := extended.drafts
  obtain ⟨inside, -⟩ := List.getElem?_eq_some_iff.mp found
  rw [same, List.getElem?_append_left inside]
  exact found

theorem Extends.of_searched (searched : start.Searched space) : Extends start space := by
  obtain ⟨extra, rfl, stored⟩ := searched
  refine ⟨rfl, rfl, extra, rfl, fun draft member => ?_⟩
  obtain ⟨block, _, round, rfl⟩ := stored draft member
  rfl

variable [DecidableEq Digest]

theorem getDraft_ok {hashing id found} (ran : DraftSpace.getDraft hashing id space = .ok found after) :
    Extends space after ∧ ∀ ref, space.proposals.lookup id = some ref → found = some ref := by
  have spec : Action.Ends (· = space) (DraftSpace.getDraft hashing id) _ fun _ _ => False := DraftSpace.getDraft_spec
  obtain ⟨searched, gets⟩ := spec.of_ok rfl ran
  refine ⟨.of_searched searched, fun ref listed => ?_⟩
  cases found with
  | none => exact absurd (listed.symm.trans gets.1) nofun
  | some other =>
    rcases gets with same | ⟨missing, -⟩
    · exact same.symm.trans listed
    · exact absurd (listed.symm.trans missing) nofun

/-- The proposal that an uncommitted draft was made on. -/
def up (space : DraftSpace Digest Address Tx) (ref : Ref) : Option Ref :=
  match space.drafts[ref]? with
  | none => none
  | some draft => if draft.committed then none else space.proposals.lookup draft.proposedBlock.parentID

theorem up_eq_some {place above} :
    up space place = some above ↔ ∃ draft, space.drafts[place]? = some draft ∧ draft.committed = false ∧
      space.proposals.lookup draft.proposedBlock.parentID = some above := by
  unfold up
  cases found : space.drafts[place]? with
  | none => simp
  | some draft => simp

theorem up_lt {place above} (link : up space place = some above) : place < space.drafts.length := by
  obtain ⟨draft, found, -⟩ := up_eq_some.mp link
  exact (List.getElem?_eq_some_iff.mp found).1

/-- An uncommitted draft below a block. -/
structure Below (space : DraftSpace Digest Address Tx) (block : Block Digest Address Tx) (draft : DraftBlock Digest Address Tx) :
    Prop where
  reached : ∃ parent steps place, space.proposals.lookup block.parentID = some parent ∧
    walk (up space) steps parent = some place ∧ space.drafts[place]? = some draft
  uncommitted : draft.committed = false

end

section

variable {Digest Address Tx Key Sig QCID : Type} [DecidableEq Digest] {env : PacemakerEnv Digest Address Tx Key Sig QCID}
  {start space after : DraftSpace Digest Address Tx}

/-- The walk collects the transactions of all drafts it can come to in its steps. -/
theorem txsInCache_covers {steps tmp known result} (extended : Extends start space)
    (ran : txsInCache env steps tmp known space = .ok result after) :
    Extends start after ∧ (∀ id ∈ known, id ∈ result) ∧
      ∀ ref, tmp = some ref → ∀ fewer < steps, ∀ place draft, walk (up start) fewer ref = some place →
        start.drafts[place]? = some draft → draft.committed = false → ∀ tx ∈ draft.proposedBlock.txs, env.txID tx ∈ result := by
  induction steps generalizing tmp known space with
  | zero =>
    cases ran
    exact ⟨extended, fun _ member => member, fun _ _ fewer none => absurd none (Nat.not_lt_zero _)⟩
  | succ steps ih =>
    cases tmp with
    | none =>
      cases ran
      exact ⟨extended, fun _ member => member, fun _ none => by cases none⟩
    | some ref =>
      obtain ⟨draftBlk, read, atDraft, rest⟩ := bind_eq_ok.mp ran
      obtain ⟨found, rfl⟩ := DraftSpace.draft_eq_ok.mp atDraft
      -- a draft of the start is still the one that is read
      have same : ∀ draft, start.drafts[ref]? = some draft → draft = draftBlk := by
        intro draft listed
        exact Option.some.inj ((extended.getElem? listed).symm.trans found)
      by_cases committed : draftBlk.committed = true
      · rw [if_pos committed] at rest
        cases rest
        refine ⟨extended, fun _ member => member, ?_⟩
        rintro _ ⟨⟩ fewer _ place draft reached listed uncommitted
        cases fewer with
        | zero =>
          cases reached
          rw [same draft listed, committed] at uncommitted
          cases uncommitted
        | succ fewer =>
          obtain ⟨above, link, -⟩ := Option.bind_eq_some_iff.mp reached
          obtain ⟨first, atFirst, open_, -⟩ := up_eq_some.mp link
          rw [same first atFirst, committed] at open_
          cases open_
      · rw [if_neg committed] at rest
        obtain ⟨next, middle, looked, rest⟩ := bind_eq_ok.mp rest
        obtain ⟨extends_, isNext⟩ := getDraft_ok looked
        obtain ⟨done, kept, covered⟩ := ih (extended.trans extends_) rest
        refine ⟨done, fun id member => kept id (mem_append_left _ member), ?_⟩
        rintro _ ⟨⟩ fewer few place draft reached listed uncommitted tx member
        cases fewer with
        | zero =>
          cases reached
          rw [same draft listed] at member
          exact kept _ (mem_append_right _ (mem_map_of_mem member))
        | succ fewer =>
          obtain ⟨above, link, reachedAbove⟩ := Option.bind_eq_some_iff.mp reached
          obtain ⟨first, atFirst, -, listedAbove⟩ := up_eq_some.mp link
          rw [same first atFirst, ← extended.proposals] at listedAbove
          exact covered above (isNext above listedAbove) fewer (by omega) place draft reachedAbove listed uncommitted tx member

/-- A block that repeats no transaction repeats none of an uncommitted draft below it. -/
theorem repeatsTx_false {blk parent} (extended : Extends start space)
    (isParent : ∀ ref, start.proposals.lookup blk.parentID = some ref → ref = parent)
    (ran : repeatsTx env parent blk space = .ok false after) :
    Extends start after ∧ ∀ draft, Below start blk draft → ∀ tx ∈ blk.txs, ∀ other ∈ draft.proposedBlock.txs,
      env.txID tx ≠ env.txID other := by
  unfold repeatsTx at ran
  by_cases empty : blk.txs.length = 0
  · rw [if_pos empty] at ran
    cases ran
    refine ⟨extended, fun _ _ tx member => ?_⟩
    rw [eq_nil_of_length_eq_zero empty] at member
    cases member
  · rw [if_neg empty] at ran
    obtain ⟨_, _, read, rest⟩ := bind_eq_ok.mp ran
    cases read
    obtain ⟨known, middle, walked, rest⟩ := bind_eq_ok.mp rest
    obtain ⟨done, -, covered⟩ := txsInCache_covers extended walked
    obtain ⟨rfl, unknown⟩ : middle = after ∧ (blk.txs.any fun tx => known.contains (env.txID tx)) = false := by
      simp only [pure, EStateM.pure, EStateM.Result.ok.injEq] at rest
      exact ⟨rest.2, rest.1⟩
    refine ⟨done, ?_⟩
    rintro draft ⟨⟨ref, steps, place, isRef, reached, listed⟩, uncommitted⟩ tx member other otherMember sameID
    obtain ⟨fewer, few, reached⟩ := walk_within (fun _ _ link => up_lt link) reached
    have longer : start.drafts.length ≤ space.drafts.length := by
      obtain ⟨extra, drafts, -⟩ := extended.drafts
      simp [drafts]
    have collected := covered parent rfl fewer (by omega) place draft (isParent ref isRef ▸ reached) listed uncommitted other otherMember
    have fresh := any_eq_false.mp unknown tx member
    rw [sameID] at fresh
    exact fresh (contains_iff_mem.mpr collected)

/-- No transaction of the block is one of an uncommitted draft below it. -/
def RepeatsNone (env : PacemakerEnv Digest Address Tx Key Sig QCID) (space : DraftSpace Digest Address Tx)
    (blk : Block Digest Address Tx) : Prop :=
  ∀ draft, Below space blk draft → ∀ tx ∈ blk.txs, ∀ other ∈ draft.proposedBlock.txs, env.txID tx ≠ env.txID other

theorem acceptDraft_ok {surroundings mi round blk parent ref} (extended : Extends start space)
    (isParent : ∀ ref, start.proposals.lookup blk.parentID = some ref → ref = parent)
    (ran : acceptDraft env surroundings mi round blk parent space = .ok (some ref) after) :
    ∃ executed extra, Processed env surroundings.execution start.chain (RepeatsNone env start blk) (newDraft mi round blk parent) executed ∧
      after.drafts = start.drafts ++ extra ∧ after.drafts[ref]? = some executed ∧
      after.proposals = if (start.proposals.lookup (blk.id env.hashing)).isSome then start.proposals
        else start.proposals.insert (blk.id env.hashing) ref := by
  have accepts : Action.Ends (· = space) (acceptDraft env surroundings mi round blk parent) _ (space.Fails False) :=
    acceptDraft_spec False.elim False.elim False.elim fun _ _ searched isNew =>
      (repeatsTx_false (extended.trans (.of_searched searched)) isParent isNew).2
  rcases accepts.of_ok rfl ran with ⟨gone, -⟩ | ⟨found, _, executed, isRef, processed, accepts⟩
  · cases gone
  obtain rfl := Option.some.inj isRef
  obtain ⟨extra, drafts, -⟩ := (extended.trans (.of_searched accepts.searched)).drafts
  have sameBlock : executed.proposedBlock = blk := by
    obtain ⟨_, _, _, _, rfl⟩ := processed.marks
    rfl
  refine ⟨executed, extra ++ [executed], extended.chain ▸ processed, ?_, accepts.placed, ?_⟩
  · rw [accepts.space_eq, drafts, append_assoc]
  · rw [accepts.space_eq, sameBlock, extended.proposals]

end

/-! ## Sending votes -/

section

variable {Digest Address Tx Key Sig QCID : Type} {env : PacemakerEnv Digest Address Tx Key Sig QCID} {keys : ReplicaKeys Digest Key}
  {sent : List (Message Digest Address Tx)} {surroundings : Surroundings} {mi : IncomingMsg Digest Address Tx Key}

def VoteSent (before after : Pacemaker Digest Address Tx Key Sig QCID) (id : BlockID Digest) : Prop :=
  ∃ new, after.sent = before.sent ++ new ∧ ∃ message ∈ new, ∃ vote, message.body = .vote vote ∧ vote.voteBlockID = id

/-- At most one message was sent, for which the property holds. -/
def SentAtMost (sent : List (Message Digest Address Tx)) (property : MessageBody Digest Address Tx → Prop)
    (after : Pacemaker Digest Address Tx Key Sig QCID) : Prop :=
  after.sent = sent ∨ ∃ message, after.sent = sent ++ [message] ∧ property message.body

variable {property : MessageBody Digest Address Tx → Prop}

theorem SentAtMost.property_of_vote {before after : Pacemaker Digest Address Tx Key Sig QCID}
    (few : SentAtMost before.sent property after) {id} (voted : VoteSent before after id) :
    ∃ vote, property (.vote vote) ∧ vote.voteBlockID = id := by
  obtain ⟨new, sent, message, member, vote, isVote, isID⟩ := voted
  rcases few with none | ⟨only, one, holds⟩
  · rw [none, self_eq_append_right] at sent
    rw [sent] at member
    cases member
  · rw [one, append_cancel_left_eq] at sent
    rw [← sent, mem_singleton] at member
    subst member
    exact ⟨vote, isVote ▸ holds, isID⟩

theorem sendMsg_spec {message} (holds : property message.body) :
    Action.Triple (fun state : Pacemaker Digest Address Tx Key Sig QCID => state.sent = sent) (sendMsg message)
      (fun _ state => SentAtMost sent property state) (SentAtMost sent property) :=
  .write fun _ kept => Or.inr ⟨message, by rw [kept], holds⟩

theorem parentMissing_sends {blk} :
    Action.Triple (fun state : Pacemaker Digest Address Tx Key Sig QCID => state.sent = sent)
      (parentMissing env keys surroundings mi blk)
      (fun _ state => SentAtMost sent (fun body => ∃ id, body = .query id) state)
      (SentAtMost sent fun body => ∃ id, body = .query id) := by
  have queried : Action.Triple (fun state : Pacemaker Digest Address Tx Key Sig QCID => state.sent = sent)
      (sendQuery env keys surroundings) (fun _ state => SentAtMost sent (fun body => ∃ id, body = .query id) state)
      (SentAtMost sent fun body => ∃ id, body = .query id) := by
    refine .readThen fun state _ => .seq (draft_keeps.within fun _ kept => Or.inl kept) fun draft => .seq buildMessage_spec fun built => ?_
    cases built with
    | none => exact .ret fun _ given => Or.inl given.1
    | some message =>
      refine .each fun now given => ?_
      have isQuery : ∃ id, message.body = .query id := ⟨_, given.2 message rfl⟩
      exact (sendMsg_spec isQuery).start given.1
  have delayed : Action.Triple (SentAtMost sent fun body => ∃ id, body = .query id) (delayedAdd mi)
      (fun _ state => SentAtMost sent (fun body => ∃ id, body = .query id) (state : Pacemaker Digest Address Tx Key Sig QCID))
      (SentAtMost sent fun body => ∃ id, body = .query id) :=
    .write fun _ few => few
  refine .readThen fun state _ => .branch (fun _ => ?_) fun _ => .ret fun _ kept => Or.inl kept
  refine .branch (fun _ => .seq queried fun _ => delayed) fun _ => ?_
  exact delayed.conseq (fun _ kept => Or.inl kept) (fun _ _ few => few) fun _ few => few

variable [DecidableEq Digest]

theorem voteFor_sends {round blk} :
    Action.Triple (fun state : Pacemaker Digest Address Tx Key Sig QCID => state.sent = sent)
      (voteFor env keys surroundings mi round blk)
      (fun _ state => SentAtMost sent (fun body => ∀ vote, body = .vote vote → vote.voteBlockID = blk.id env.hashing) state)
      (SentAtMost sent fun body => ∀ vote, body = .vote vote → vote.voteBlockID = blk.id env.hashing) := by
  have built : Action.Triple (fun state : Pacemaker Digest Address Tx Key Sig QCID => state.sent = sent)
      (buildVoteMessage env keys surroundings.now mi round blk)
      (fun built state => state.sent = sent ∧ ∀ message vote, built = some (message, vote) →
        ∀ other, message.body = .vote other → other.voteBlockID = blk.id env.hashing)
      (fun state => state.sent = sent) := by
    refine .readThen fun state _ => .seq buildMessage_spec fun built => ?_
    cases built with
    | none => exact .ret fun _ given => ⟨given.1, by simp⟩
    | some message =>
      refine .via (fun _ state => state.sent = sent ∧ ∀ made, some message = some made → made.body = _)
        (.write fun _ given => given) fun _ => .ret fun _ given => ⟨given.1, ?_⟩
      rintro made vote ⟨⟩ other isOther
      rw [given.2 message rfl] at isOther
      cases isOther
      rfl
  refine .seq (built.conseq (fun _ kept => kept) (fun _ _ given => given) fun _ kept => Or.inl kept) fun result => ?_
  match result with
  | none => exact .ret fun _ given => Or.inl given.1
  | some (message, vote) =>
    refine .each fun now given => ?_
    have fits := given.2 message vote rfl
    refine .via (fun _ state => state.sent = sent) (.focused fun state same _ _ => ?_) fun _ => .seq (sendMsg_spec fits) fun _ => ?_
    · split
      · exact same ▸ given.1
      · exact Or.inl (same ▸ given.1)
    refine .via (fun _ state => SentAtMost sent (fun body => ∀ vote, body = .vote vote → vote.voteBlockID = blk.id env.hashing) state)
      (.write fun _ few => few) fun _ => .write fun state few => ?_
    split
    · exact few
    · split
      · exact few
      · exact few

end

/-! ## Voting for a proposal -/

section

variable {Digest Address Tx Key Sig QCID : Type} [DecidableEq Digest] [DecidableEq QCID]
  {env : PacemakerEnv Digest Address Tx Key Sig QCID} {keys : ReplicaKeys Digest Key} {surroundings : Surroundings}
  {mi : IncomingMsg Digest Address Tx Key} {proposal : Proposal Digest Address Tx}
  {pacemaker : Pacemaker Digest Address Tx Key Sig QCID}

/-- The draft that a search for the parent comes to. -/
def FindsParent (hashing : Hashing Digest Address) (space found : DraftSpace Digest Address Tx) (blk : Block Digest Address Tx)
    (parent : Ref) : Prop :=
  space.proposals.lookup blk.parentID = some parent ∨
    space.proposals.lookup blk.parentID = none ∧ ∃ block round, space.chain.getBlock hashing blk.parentID = some block ∧
      found.drafts[parent]? = some (DraftSpace.committedDraft block round)

/-- The proposal was accepted as the draft at a position, in the space that the vote is decided in. -/
structure AcceptedAs (env : PacemakerEnv Digest Address Tx Key Sig QCID) (surroundings : Surroundings)
    (mi : IncomingMsg Digest Address Tx Key) (proposal : Proposal Digest Address Tx) (space : DraftSpace Digest Address Tx)
    (blk : Block Digest Address Tx) (parent ref : Ref) (before voting : DraftSpace Digest Address Tx) : Prop where
  decoded : proposal.decodedBlock = some blk
  extended : Extends space before
  found : FindsParent env.hashing space before blk parent
  accepted : acceptDraft env surroundings mi proposal.round blk parent before = .ok (some ref) voting

theorem onReceiveProposal_votes : Action.Triple (· = pacemaker) (onReceiveProposal env keys surroundings mi proposal)
      (fun _ after => ∀ id, VoteSent pacemaker after id → ∃ blk parent ref before voting, blk.id env.hashing = id ∧
        AcceptedAs env surroundings mi proposal pacemaker.pipeline.space blk parent ref before voting)
      (fun after => ∀ id, VoteSent pacemaker after id → ∃ blk parent ref before voting, blk.id env.hashing = id ∧
        AcceptedAs env surroundings mi proposal pacemaker.pipeline.space blk parent ref before voting) := by
  -- nothing was voted for as long as no message was sent
  have silent {conclusion : BlockID Digest → Prop} {after : Pacemaker Digest Address Tx Key Sig QCID}
      (kept : after.sent = pacemaker.sent) : ∀ id, VoteSent pacemaker after id → conclusion id := by
    intro id voted
    have few : SentAtMost pacemaker.sent (fun _ => False) after := Or.inl kept
    obtain ⟨_, impossible, _⟩ := few.property_of_vote voted
    exact impossible.elim
  refine onReceiveProposal_rule False False.elim False.elim False.elim False.elim (fun _ _ _ _ _ => silent rfl) (fun _ _ _ => silent rfl)
    (fun blk space _ => ?_) fun blk parent ref parentDraft space voting validQCs arrives => ⟨silent rfl, fun _ => ?_⟩
  · have noVote {after : Pacemaker Digest Address Tx Key Sig QCID} (few : SentAtMost pacemaker.sent (fun body => ∃ id, body = .query id) after)
        {conclusion : BlockID Digest → Prop} : ∀ id, VoteSent pacemaker after id → conclusion id := by
      intro id voted
      obtain ⟨vote, ⟨_, isQuery⟩, _⟩ := few.property_of_vote voted
      cases isQuery
    exact Action.Ends.start (parentMissing_sends.conseq (fun _ same => same) (fun _ _ few => noVote few) fun _ few => noVote few) rfl
  · have accepted {after : Pacemaker Digest Address Tx Key Sig QCID} (few : SentAtMost pacemaker.sent
        (fun body => ∀ vote, body = .vote vote → vote.voteBlockID = blk.id env.hashing) after) : ∀ id, VoteSent pacemaker after id →
          ∃ blk parent ref before voting, blk.id env.hashing = id ∧
            AcceptedAs env surroundings mi proposal pacemaker.pipeline.space blk parent ref before voting := by
      intro id voted
      obtain ⟨vote, isBlock, isID⟩ := few.property_of_vote voted
      exact ⟨blk, parent, ref, space, voting, (isBlock vote rfl).symm.trans isID, arrives.decoded, .of_searched arrives.searched,
        arrives.gets, arrives.accepted⟩
    exact Action.Ends.start (voteFor_sends.conseq (fun _ same => same) (fun _ _ few => accepted few) fun _ few => accepted few) rfl

end

/-! ## Executing the proposals -/

section

open KBlock Replay

variable {Digest State Receipt Key Sig QCID : Type} [DecidableEq Digest] [DecidableEq QCID]

/-- A pacemaker whose blocks hold transactions. -/
def executing (replay : ReplayEnv Digest State Receipt) (env : PacemakerEnv Digest Auction.Address Transaction Key Sig QCID) :
    PacemakerEnv Digest Auction.Address Transaction Key Sig QCID :=
  { env with hashing := replay.hashing, txID := Replay.id replay.toTxEnv }

/-- What a proposal meets beside the pacemaker: the rest of the ledger, the K-block built locally, the clock and the database. -/
structure Setting (Digest : Type) where
  now : Nat
  force : Force
  txMetas : Digest → List (TxMeta Digest)
  flattern : Nat
  stageCommits : Bool
  lastVote : Nat

def Setting.ledger (setting : Setting Digest) (space : DraftSpace Digest Auction.Address Transaction) :
    Ledger Digest Auction.Address Transaction :=
  ⟨space.chain, setting.txMetas, setting.flattern⟩

/-- The block that a proposal is executed on. -/
def parentBlock? (hashing : Hashing Digest Auction.Address) (space : DraftSpace Digest Auction.Address Transaction)
    (blk : Block Digest Auction.Address Transaction) : Option (Block Digest Auction.Address Transaction) :=
  match space.proposals.lookup blk.parentID with
  | some ref => space.drafts[ref]?.map DraftBlock.proposedBlock
  | none => space.chain.getBlock hashing blk.parentID

def accepted (check : KBlock.Check (Option (List Receipt))) : Bool :=
  match check.run with
  | .ok (.ok (some _)) => true
  | _ => false

variable (replay : ReplayEnv Digest State Receipt) (setting : Setting Digest)
  (space : DraftSpace Digest Auction.Address Transaction)

/-- The checkpoint is made on the state of the best block, and the block is executed on that of its parent. -/
def execution (blk? : Option (Block Digest Auction.Address Transaction)) : Consensus.Execution where
  stateOpens := (replay.newState space.chain.bestBlock.header.stateRoot).isOk
  valid :=
    match blk? with
    | none => false
    | some blk =>
      match parentBlock? replay.hashing space blk with
      | none => false
      | some parent => accepted (processProposedBlock replay (setting.ledger space) parent blk setting.now setting.force)
  stageCommits := setting.stageCommits

def surroundings (proposal : Proposal Digest Auction.Address Transaction) : Surroundings :=
  ⟨setting.now, execution replay setting space proposal.decodedBlock, setting.lastVote⟩

def Done (space : DraftSpace Digest Auction.Address Transaction) (ref : Ref) : Prop :=
  ∃ draft, space.drafts[ref]? = some draft ∧ draft.successProcessed = true ∧ draft.receipts = true

/-- What a vote for a block is to stand for, in the space it is decided in. -/
structure Executed (blk : Block Digest Auction.Address Transaction) (ref : Ref)
    (voting : DraftSpace Digest Auction.Address Transaction) : Prop where
  done : Done voting ref
  processed : (space.chain.getBlock replay.hashing (blk.id replay.hashing)).isSome ∨ ∃ parent receipts,
    parentBlock? replay.hashing space blk = some parent ∧
      Accepts (processProposedBlock replay (setting.ledger space) parent blk setting.now setting.force) (some receipts)
  fresh : ∀ draft, Below space blk draft → ∀ tx ∈ blk.txs, ∀ other ∈ draft.proposedBlock.txs,
    Replay.id replay.toTxEnv tx ≠ Replay.id replay.toTxEnv other
  stored : ∃ place, voting.proposals.lookup (blk.id replay.hashing) = some place ∧ Done voting place

variable {replay setting space}

theorem exists_of_accepted {check : KBlock.Check (Option (List Receipt))} (holds : accepted check = true) :
    ∃ receipts, Accepts check (some receipts) := by
  unfold accepted at holds
  split at holds
  · next receipts ran => exact ⟨receipts, ran⟩
  · cases holds

theorem exists_of_valid {blk} (valid : (execution replay setting space (some blk)).valid = true) : ∃ parent receipts,
      parentBlock? replay.hashing space blk = some parent ∧
        Accepts (processProposedBlock replay (setting.ledger space) parent blk setting.now setting.force) (some receipts) := by
  simp only [execution] at valid
  cases found : parentBlock? replay.hashing space blk with
  | none => simp [found] at valid
  | some parent =>
    simp only [found] at valid
    obtain ⟨receipts, accepts⟩ := exists_of_accepted valid
    exact ⟨parent, receipts, rfl, accepts⟩

variable {env : PacemakerEnv Digest Auction.Address Transaction Key Sig QCID} {mi : IncomingMsg Digest Auction.Address Transaction Key}
  {proposal : Proposal Digest Auction.Address Transaction} {blk : Block Digest Auction.Address Transaction}
  {parent ref : Ref} {before voting : DraftSpace Digest Auction.Address Transaction}

omit [DecidableEq QCID] in
theorem AcceptedAs.executed_iff
    (given : AcceptedAs (executing replay env) (surroundings replay setting space proposal) mi proposal space blk parent ref before voting)
    (placed : ∀ place, space.proposals.lookup (blk.id replay.hashing) = some place → place < space.drafts.length) :
    Executed replay setting space blk ref voting ↔
      (replay.newState space.chain.bestBlock.header.stateRoot).isOk = true ∧
        ∀ place, space.proposals.lookup (blk.id replay.hashing) = some place → Done space place := by
  have isParent : ∀ other, space.proposals.lookup blk.parentID = some other → other = parent := by
    intro other listed
    rcases given.found with found | ⟨missing, -⟩
    · exact Option.some.inj (listed.symm.trans found)
    · rw [missing] at listed
      cases listed
  obtain ⟨executed, extra, processed, drafts, atRef, proposals⟩ := acceptDraft_ok given.extended isParent given.accepted
  change voting.proposals = if (space.proposals.lookup (blk.id replay.hashing)).isSome then _ else space.proposals.insert
    (blk.id replay.hashing) ref at proposals
  -- drafts that were there before are found at their places
  have kept : ∀ place, place < space.drafts.length → voting.drafts[place]? = space.drafts[place]? := by
    intro place inside
    rw [drafts, List.getElem?_append_left inside]
  constructor
  · intro holds
    constructor
    · obtain ⟨draft, isDraft, success, -⟩ := holds.done
      cases Option.some.inj (isDraft.symm.trans atRef)
      cases processed with
      | unopened closed => cases success
      | known opens => exact opens
      | executed opens => exact opens
    · intro place listed
      obtain ⟨other, isOther, draft, found, marks⟩ := holds.stored
      rw [if_pos (by rw [listed]; rfl)] at proposals
      rw [proposals, listed] at isOther
      cases isOther
      rw [kept place (placed place listed)] at found
      exact ⟨draft, found, marks⟩
  · rintro ⟨opens, stored⟩
    have success : executed.successProcessed = true ∧ executed.receipts = true := by
      cases processed with
      | unopened closed => exact absurd (opens.symm.trans closed) (by simp)
      | known => exact ⟨rfl, rfl⟩
      | executed => exact ⟨rfl, rfl⟩
    refine ⟨⟨executed, atRef, success⟩, ?_, ?_, ?_⟩
    · cases processed with
      | unopened closed => exact absurd (opens.symm.trans closed) (by simp)
      | known _ _ isStored => exact Or.inl isStored
      | executed _ _ _ valid =>
        simp only [surroundings, given.decoded] at valid
        exact Or.inr (exists_of_valid valid)
    · cases processed with
      | unopened closed => exact absurd (opens.symm.trans closed) (by simp)
      | known _ new => exact new
      | executed _ new => exact new
    · cases listed : space.proposals.lookup (blk.id replay.hashing) with
      | some place =>
        rw [if_pos (by rw [listed]; rfl)] at proposals
        obtain ⟨draft, found, marks⟩ := stored place listed
        exact ⟨place, by rw [proposals, listed], draft, by rw [kept place (placed place listed), found], marks⟩
      | none =>
        rw [if_neg (by rw [listed]; simp)] at proposals
        exact ⟨ref, by rw [proposals, AList.lookup_insert], executed, atRef, success⟩

end

/-! ## A replica that can no longer open the state of its best block -/

namespace Sample

open KBlock Replay

def signers : PacemakerEnv Replay.Symbol Auction.Address Transaction Bytes Bytes (QuorumCert Replay.Symbol) where
  hashing := symbolicHashing
  idLess _ _ := false
  bls := listedSigners
  qcID qc := qc
  timeoutVotingHash _ _ := .zero
  messages := ⟨fun _ _ _ _ => .zero, fun _ signature => some signature⟩
  txID _ := .zero
  genesisNonce := 0

def keys : ReplicaKeys Replay.Symbol Bytes := ⟨[0], fun _ => .ok [0], fun _ => [0]⟩

/-- A certificate for block 1 by the first three members: the text is `BA\x7b4:xxx_\x7d`. -/
def firstQC : QuorumCert Replay.Symbol := ⟨1, 5, 0, [66, 65, 123, 52, 58, 120, 120, 120, 95, 125], .zero, [0, 1, 2]⟩

def best : Block Replay.Symbol Auction.Address Transaction where
  header :=
    { parentID := ⟨0, .zero⟩, timestamp := 0, gasLimit := 1000000, lastKBlockHeight := 0, blockType := .mBlock, beneficiary := 0,
      gasUsed := 0, totalScore := 0, txsRoot := .txs [], stateRoot := .executed, receiptsRoot := .zero, evidenceDataRoot := .zero,
      signature := [1] }
  txs := []
  qc := noQC
  committeeEpoch := 0
  kBlockNonce := 0
  magic := blockMagicVersion1

def second : Block Replay.Symbol Auction.Address Transaction := { child best [] with qc := firstQC }

def replica : Pacemaker Replay.Symbol Auction.Address Transaction Bytes Bytes (QuorumCert Replay.Symbol) where
  reactor := plainReactor (numberedCommittee 4)
  validQCs := .empty
  inQueue := ⟨[], .empty, [], []⟩
  pipeline :=
    { space := ⟨⟨[best], [(1, best.id symbolicHashing)], best, firstQC⟩, [DraftSpace.committedDraft best 5],
        AList.singleton (best.id symbolicHashing) 0⟩
      qcHigh := ⟨some 0, firstQC⟩
      lastCommitted := 0
      commits := [] }
  currentRound := 6
  lastVotingHeight := 0
  lastVoteMsg := none
  lastOnBeatRound := 5
  tcHigh := none
  curProposal := none
  qcVoteManager := VoteManager.new 4
  tcVoteManager := VoteManager.new 4
  sent := []
  signed := []

def setting : Setting Replay.Symbol := ⟨1, ⟨0, none, true⟩, fun _ => [], 0, true, 0⟩

def proposed : Proposal Replay.Symbol Auction.Address Transaction := ⟨6, some second, none⟩

def incoming : IncomingMsg Replay.Symbol Auction.Address Transaction Bytes :=
  ⟨⟨0, 0, 2, .proposal proposed, [2]⟩, (numberedCommittee 4)[2]?, 0⟩

/-- The replica after it has handled the proposal for block 2. -/
def afterProposal (replay : ReplayEnv Replay.Symbol Unit Unit) :
    Pacemaker Replay.Symbol Auction.Address Transaction Bytes Bytes (QuorumCert Replay.Symbol) :=
  (onReceiveProposal (executing replay signers) keys (surroundings replay setting replica.pipeline.space proposed) incoming
    proposed).finalState replica

def unavailable : ReplayEnv Replay.Symbol Unit Unit := { Replay.symbolicEnv with newState := fun _ => .error "missing trie node" }

def votedFor (message : Message Replay.Symbol Auction.Address Transaction) : Option (BlockID Replay.Symbol) :=
  match message.body with
  | .vote vote => some vote.voteBlockID
  | _ => none

theorem voteSent_of_votedFor {after id} (voted : after.sent.map votedFor = [some id]) : VoteSent replica after id := by
  match listed : after.sent with
  | [message] =>
    rw [listed] at voted
    refine ⟨[message], listed, message, mem_singleton.mpr rfl, ?_⟩
    replace voted : votedFor message = some id := (List.cons.inj voted).1
    unfold votedFor at voted
    split at voted
    · next vote isVote => exact ⟨vote, isVote, Option.some.inj voted⟩
    · cases voted
  | [] => simp [listed] at voted
  | _ :: _ :: _ => simp [listed] at voted

end Sample

end MeterPov.Node
