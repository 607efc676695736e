import MeterPov.Consensus.CommitRule
import MeterPov.Consensus.Pacemaker

/-! What the handlers of the pacemaker can do, said once for everything that is shown of them.

A handler that panics has only searched the drafts by then, unless it is voting or adopting a certificate.
`inPlace` stands for what rules out that it follows a nil pointer; where that does not matter, it is false. -/

set_option autoImplicit false

namespace MeterPov.Consensus.Pacemaker

open Lib Lib.Action Blocks Chains DraftSpace

variable {Digest Address Tx Key Sig QCID : Type} {env : PacemakerEnv Digest Address Tx Key Sig QCID} {keys : ReplicaKeys Digest Key}

/-! ## The space of a pacemaker -/

section

variable {start : Pacemaker Digest Address Tx Key Sig QCID} {α : Type} {post : α → Pacemaker Digest Address Tx Key Sig QCID → Prop}
  {fail : Fault → Pacemaker Digest Address Tx Key Sig QCID → Prop}

abbrev withSpace (pacemaker : Pacemaker Digest Address Tx Key Sig QCID) (space : DraftSpace Digest Address Tx) :
    Pacemaker Digest Address Tx Key Sig QCID :=
  { pacemaker with pipeline := { pacemaker.pipeline with space := space } }

theorem onSpace_spec {action} (spec : Ends (· = start.pipeline.space) action (fun value space => post value (start.withSpace space))
      fun reason space => fail reason (start.withSpace space)) : Ends (· = start) (onSpace action) post fail := by
  refine .focused fun state same => .focused fun pipeline isPipeline => ?_
  subst same isPipeline
  exact spec

theorem onSpace_read {ref next} (stops : start.pipeline.space.drafts[ref]? = none → fail .nilDereference start)
    (found : ∀ draft, start.pipeline.space.drafts[ref]? = some draft → Ends (· = start) (next draft) post fail) :
    Ends (· = start) (onSpace (DraftSpace.draft ref) >>= next) post fail := by
  refine .via (fun draft state => start.pipeline.space.drafts[ref]? = some draft ∧ state = start) (onSpace_spec ?_)
    fun draft => .assuming (found draft)
  have read : Ends (· = start.pipeline.space) (DraftSpace.draft ref >>= pure) (fun draft space =>
      start.pipeline.space.drafts[ref]? = some draft ∧ start.withSpace space = start) fun reason space =>
        fail reason (start.withSpace space) :=
    draft_read stops fun draft placed => .here ⟨placed, rfl⟩
  rwa [bind_pure] at read

theorem onSpace_search {β action next} {found : β → DraftSpace Digest Address Tx → Prop}
    (search : Ends (· = start.pipeline.space) action (fun value space => start.pipeline.space.Searched space ∧ found value space)
      fun reason space => fail reason (start.withSpace space))
    (goes : ∀ value space, start.pipeline.space.Searched space → found value space →
      Ends (· = start.withSpace space) (next value) post fail) :
    Ends (· = start) (onSpace action >>= next) post fail := by
  refine .via (fun value state => ∃ space, (start.pipeline.space.Searched space ∧ found value space) ∧ state = start.withSpace space)
    (onSpace_spec (search.mono fun _ space given => ⟨space, given, rfl⟩)) fun value => .each ?_
  rintro state ⟨space, ⟨searched, isFound⟩, rfl⟩
  exact goes value space searched isFound

end

variable {body : MessageBody Digest Address Tx} {pre : Pacemaker Digest Address Tx Key Sig QCID → Prop}

variable {fail : Fault → Pacemaker Digest Address Tx Key Sig QCID → Prop}

theorem buildMessage_spec {now at_} : Ends pre (buildMessage env keys now at_ body)
      (fun built state => pre state ∧ ∀ message, built = some message → message.body = body) fail := by
  refine .readThen fun pacemaker _ => ?_
  dsimp only
  split
  · exact .ret fun _ given => ⟨given, nofun⟩
  · refine .ret fun _ given => ⟨given, ?_⟩
    rintro message ⟨⟩
    rfl

/-! ## Sending -/

section

/-- The state but for the messages sent and the current round. -/
def unsent (pacemaker : Pacemaker Digest Address Tx Key Sig QCID) : Pacemaker Digest Address Tx Key Sig QCID :=
  { pacemaker with sent := [], currentRound := 0 }

variable {value : Pacemaker Digest Address Tx Key Sig QCID} {surroundings : Surroundings} {at_ round : Nat}

theorem draft_keeps {View} {view : Pacemaker Digest Address Tx Key Sig QCID → View} {value ref} :
    Keeps view value (onSpace (DraftSpace.draft ref)) := by
  refine Ends.each fun start known => ?_
  rw [← bind_pure (onSpace _)]
  exact onSpace_read (fun _ => known) fun _ _ => .here known

theorem enterRound_spec : Ends pre (enterRound round) (fun _ state => ∃ before, pre before ∧ state.unsent = before.unsent) fail := by
  refine .write fun state given => ⟨state, given, ?_⟩
  split
  · rfl
  · split <;> rfl

theorem enterRound_sends : Keeps unsent value (enterRound round : Action (Pacemaker Digest Address Tx Key Sig QCID) Unit) := by
  have spec : Ends (unsent · = value) (enterRound round) _ fun _ state => state.unsent = value := enterRound_spec
  exact spec.mono fun _ _ ⟨_, known, same⟩ => same.trans known

theorem buildMessage_keeps {View view} {value : View} {now} : Keeps view value (buildMessage env keys now at_ body) :=
  buildMessage_spec.mono fun _ _ given => given.1

theorem sendBuilt_sends {now} : Keeps unsent value
      (do
        match ← buildMessage env keys now at_ body with
        | none => return ()
        | some message => sendMsg message) := by
  refine .seq buildMessage_keeps fun built => ?_
  cases built with
  | none => exact .ret
  | some message => exact .write fun _ => rfl

theorem sendQuery_sends : Keeps unsent value (sendQuery env keys surroundings) :=
  .readThen fun _ _ => .seq draft_keeps fun _ => sendBuilt_sends

theorem onRoundTimeout_sends : Keeps unsent value (onRoundTimeout env keys surroundings at_ round) :=
  .seq enterRound_sends fun _ => .readThen fun _ _ => sendBuilt_sends

theorem forwardAll_sends (refs : List Ref) :
    Keeps unsent value (forwardAll refs : Action (Pacemaker Digest Address Tx Key Sig QCID) Unit) := by
  induction refs with
  | nil => exact .ret
  | cons ref rest ih => exact .seq draft_keeps fun _ => .seq .lifted fun _ => .seq (.write fun _ => rfl) fun _ => ih

theorem onBroadcastProposal_sends :
    Keeps unsent value (onBroadcastProposal : Action (Pacemaker Digest Address Tx Key Sig QCID) Unit) := by
  refine .readThen fun state _ => ?_
  split
  · exact .ret
  · refine .seq draft_keeps fun draft => .seq .lifted fun epoch => .branch .ret ?_
    split
    · exact .ret
    · exact .write fun _ => rfl

end

variable [DecidableEq Digest]

/-! ## Validating a proposal -/

section

variable {start : DraftSpace Digest Address Tx} {inPlace new : Prop} {execution : Execution} {b executed : DraftBlock Digest Address Tx}
  {parent : Ref} {blk : Block Digest Address Tx}

theorem txsInCache_spec (named : inPlace → start.Named env.hashing) (steps : Nat) (tmp : Option Ref) (known : List Digest) :
    Ends (fun space => start.Searched space ∧ (inPlace → ∀ ref, tmp = some ref → ref < space.drafts.length))
      (txsInCache env steps tmp known) (fun _ => start.Searched) (start.Fails inPlace) := by
  induction steps generalizing tmp known with
  | zero => exact .ret fun _ given => given.1
  | succ steps ih =>
    cases tmp with
    | none => exact .ret fun _ given => given.1
    | some ref =>
      refine .each fun space ⟨searched, inside⟩ => draft_read (fun gone => ⟨searched, fun whole _ => ?_⟩) fun draft _ =>
        .branch (fun _ => .here searched) fun _ => .seq getDraft_spec fun next => ?_
      · exact not_lt.mpr (List.getElem?_eq_none_iff.mp gone) (inside whole ref rfl)
      · refine (ih next _).conseq (fun after given => ⟨searched.trans given.1, fun whole other isNext => ?_⟩) (fun _ _ given => given)
          fun _ _ stopped => stopped
        subst isNext
        obtain ⟨_, placed, -⟩ := given.2.draft given.1 (searched.named (named whole))
        exact (List.getElem?_eq_some_iff.mp placed).1

theorem repeatsTx_spec (named : inPlace → start.Named env.hashing) (inside : inPlace → parent < start.drafts.length) :
    Ends start.Searched (repeatsTx env parent blk) (fun _ => start.Searched) (start.Fails inPlace) := by
  refine .branch (fun _ => .ret fun _ searched => searched) fun _ => .readThen fun _ _ => .seq (Ends.conseq
    (txsInCache_spec named _ _ _) (fun space searched => ⟨searched, ?_⟩) (fun _ _ searched => searched) fun _ _ stopped => stopped)
    fun known => .ret fun _ searched => searched
  rintro whole ref ⟨⟩
  exact lt_of_lt_of_le (inside whole) searched.length_le

/-- What becomes of a new draft for which no error is returned; `new` is what the check for repeated transactions tells. -/
inductive Processed (env : PacemakerEnv Digest Address Tx Key Sig QCID) (execution : Execution) (chain : Chain Digest Address Tx)
    (new : Prop) (b : DraftBlock Digest Address Tx) : DraftBlock Digest Address Tx → Prop
  | unopened (closed : execution.stateOpens = false) : Processed env execution chain new b b
  | known (opens : execution.stateOpens = true) (isNew : new)
      (stored : (chain.getBlock env.hashing (b.proposedBlock.id env.hashing)).isSome) :
      Processed env execution chain new b { b with returnTxsToPool := true, successProcessed := true, knownBlock := true, receipts := true }
  | executed (opens : execution.stateOpens = true) (isNew : new) (recoverable : b.proposedBlock.Recoverable env.hashing)
      (valid : execution.valid = true) :
      Processed env execution chain new b { b with returnTxsToPool := true, successProcessed := true, receipts := true }

theorem Processed.marks {chain} (processed : Processed env execution chain new b executed) :
    ∃ returns processed known receipts, executed =
      { b with returnTxsToPool := returns, successProcessed := processed, knownBlock := known, receipts := receipts } := by
  cases processed <;> exact ⟨_, _, _, _, rfl⟩

/-- The outcome of a check of a proposal. -/
def Checked (env : PacemakerEnv Digest Address Tx Key Sig QCID) (execution : Execution) (start : DraftSpace Digest Address Tx)
    (new : Prop) (b : DraftBlock Digest Address Tx) (result : Option (DraftBlock Digest Address Tx)) (space : DraftSpace Digest Address Tx) :
    Prop :=
  start.Searched space ∧ ∀ executed, result = some executed → Processed env execution start.chain new b executed

theorem executeProposal_spec (named : inPlace → start.Named env.hashing) (inside : inPlace → parent < start.drafts.length)
    (fresh : b.successProcessed = false) (hasParent : b.parent = some parent)
    (checks : ∀ space after, start.Searched space → repeatsTx env parent b.proposedBlock space = .ok false after → new) :
    Ends start.Searched (executeProposal env execution b) (Checked env execution start new b) (start.Fails inPlace) := by
  have returns {result : DraftBlock Digest Address Tx} (processed : Processed env execution start.chain new b result)
      (space : DraftSpace Digest Address Tx) (searched : start.Searched space) :
      Checked env execution start new b (some result) space := ⟨searched, by rintro _ ⟨⟩; exact processed⟩
  have refused (space : DraftSpace Digest Address Tx) (searched : start.Searched space) : Checked env execution start new b none space :=
    ⟨searched, fun _ gone => nomatch gone⟩
  refine .branch (fun done => absurd done (by simp [fresh])) fun _ => ?_
  split
  next gone => exact absurd (gone.symm.trans hasParent) nofun
  rename_i other isOther
  obtain rfl := Option.some.inj (isOther.symm.trans hasParent)
  refine .branch (fun closed => .ret (returns (.unopened closed))) fun opens => ?_
  have opens : execution.stateOpens = true := by simpa using opens
  refine .each fun space searched => .seq ((repeatsTx_spec named inside).start searched).ran fun repeats => ?_
  refine .branch (fun _ => .ret fun after given => refused after given.1) fun isNew => .each fun after ⟨searchedToo, ran⟩ => ?_
  obtain rfl : repeats = false := by simpa using isNew
  have isNew := checks space after searched ran
  refine .readThen fun state same => .branch (fun stored => .here (returns (.known opens isNew ?_) after searchedToo)) fun _ => ?_
  · rw [← searchedToo.chain, ← same]
    exact stored
  split
  · exact .here (refused after searchedToo)
  · rename_i signer recovered
    refine .branch (fun valid => .here (returns (.executed opens isNew ⟨signer, recovered⟩ ?_) after searchedToo)) fun _ =>
      .here (refused after searchedToo)
    exact (Bool.and_eq_true_iff.mp valid).1

theorem validateProposal_spec (named : inPlace → start.Named env.hashing) (inside : inPlace → parent < start.drafts.length)
    (known : inPlace → ¬ start.GetsDraft env.hashing start b.proposedBlock.parentID none) (fresh : b.successProcessed = false)
    (hasParent : b.parent = some parent)
    (checks : ∀ space after, start.Searched space → repeatsTx env parent b.proposedBlock space = .ok false after → new) :
    Ends (· = start) (validateProposal env execution b) (Checked env execution start new b) (start.Fails inPlace) := by
  have executes := @executeProposal_spec _ _ Tx _ _ _ env _ start inPlace new execution b parent named inside fresh hasParent checks
  refine .branch (fun _ => .seq getDraft_spec fun found => .each fun space ⟨searched, gets⟩ => ?_) fun _ => executes.start .refl
  refine .deref (fun gone state same => ?_) fun ref isRef => draft_read (fun gone => ⟨searched, fun whole => ?_⟩) fun draft _ =>
    .branch (fun _ => .here ⟨searched, fun _ gone => nomatch gone⟩) fun _ => executes.start searched
  · subst gone same
    exact ⟨searched, fun whole => absurd gets (known whole)⟩
  · subst isRef
    obtain ⟨_, placed, -⟩ := gets.draft searched (named whole)
    rw [placed] at gone
    cases gone

/-- The draft that a proposal is stored as. -/
def newDraft (mi : IncomingMsg Digest Address Tx Key) (round : Nat) (blk : Block Digest Address Tx) (parent : Ref) :
    DraftBlock Digest Address Tx where
  msg := some mi.msg
  height := blk.number
  round := round
  parent := some parent
  justify := some ⟨some parent, blk.qc⟩
  committed := false
  proposedBlock := blk
  returnTxsToPool := false
  successProcessed := false
  knownBlock := false

/-- The draft of an accepted proposal enters the space, and the proposals unless its ID is taken. -/
structure Accepts (env : PacemakerEnv Digest Address Tx Key Sig QCID) (start found space : DraftSpace Digest Address Tx) (ref : Ref)
    (executed : DraftBlock Digest Address Tx) : Prop where
  searched : start.Searched found
  ref_eq : ref = found.drafts.length
  space_eq : space = { found with
    drafts := found.drafts ++ [executed]
    proposals := if (start.proposals.lookup (executed.proposedBlock.id env.hashing)).isSome then start.proposals
      else start.proposals.insert (executed.proposedBlock.id env.hashing) ref }

variable {found space : DraftSpace Digest Address Tx}

theorem Accepts.enters {ref} (accepts : Accepts env start found space ref executed) : found.Enters env.hashing executed space := by
  refine ⟨_, accepts.space_eq, ?_⟩
  rw [← accepts.searched.proposals, accepts.ref_eq]
  split
  · exact .inl rfl
  · exact .inr rfl

theorem Accepts.placed {ref} (accepts : Accepts env start found space ref executed) : space.drafts[ref]? = some executed := by
  rw [accepts.space_eq, accepts.ref_eq]
  exact List.getElem?_concat_length

theorem admit_spec {id} (isID : executed.proposedBlock.id env.hashing = id) {fail} :
    Ends (· = found)
      (do
        let ref ← DraftSpace.allocate executed
        if !(← DraftSpace.hasDraft id) then DraftSpace.addDraft env.hashing ref
        return some ref)
      (fun accepted space => accepted = some found.drafts.length ∧ space = { found with
        drafts := found.drafts ++ [executed]
        proposals := if (found.proposals.lookup id).isSome then found.proposals
          else found.proposals.insert id found.drafts.length }) fail := by
  let entered : DraftSpace Digest Address Tx := { found with drafts := found.drafts ++ [executed] }
  refine .via (fun ref space => ref = found.drafts.length ∧ space = entered) (allocate_spec ⟨rfl, rfl⟩) fun ref =>
    .assuming fun isRef => ?_
  refine .via (fun has space => has = (found.proposals.lookup id).isSome ∧ space = entered)
    (.readThen fun space same => .here ⟨by rw [same], rfl⟩) fun has => .assuming fun isHas => ?_
  subst isRef isHas
  split
  next absent =>
    refine .via (fun _ space => space = { entered with proposals := found.proposals.insert id found.drafts.length })
      (draft_read (fun gone => ?_) fun draft placed => .write fun space same => ?_) fun _ => .ret fun space same => ⟨rfl, ?_⟩
    · simp [entered] at gone
    · obtain rfl : executed = draft := by simpa [entered] using placed
      rw [same, isID]
    · rw [same, if_neg (by simpa using absent)]
  next present =>
    refine .here ⟨rfl, ?_⟩
    rw [if_pos (by simpa [Option.isSome_iff_ne_none] using present)]

theorem acceptDraft_spec {surroundings mi round}
    (named : inPlace → start.Named env.hashing) (inside : inPlace → parent < start.drafts.length)
    (known : inPlace → ¬ start.GetsDraft env.hashing start blk.parentID none)
    (checks : ∀ space after, start.Searched space → repeatsTx env parent blk space = .ok false after → new) :
    Ends (· = start) (acceptDraft env surroundings mi round blk parent)
      (fun accepted space => (accepted = none ∧ start.Searched space) ∨ ∃ found ref executed, accepted = some ref ∧
        Processed env surroundings.execution start.chain new (newDraft mi round blk parent) executed ∧
        Accepts env start found space ref executed) (start.Fails inPlace) := by
  refine .seq (validateProposal_spec named inside known rfl rfl checks) fun result => ?_
  cases result with
  | none => exact .ret fun space given => .inl ⟨rfl, given.1⟩
  | some executed =>
    refine .each fun found ⟨searched, processed⟩ => ?_
    have processed := processed executed rfl
    have sameBlock : executed.proposedBlock = blk := by
      obtain ⟨_, _, _, _, rfl⟩ := processed.marks
      rfl
    refine (admit_spec (by rw [sameBlock])).mono fun accepted space given => .inr ?_
    refine ⟨found, found.drafts.length, executed, given.1, processed, searched, rfl, ?_⟩
    rw [given.2, searched.proposals, sameBlock]

end

/-! ## Receiving a proposal -/

section

variable {start : Pacemaker Digest Address Tx Key Sig QCID} {α : Type} {post : α → Pacemaker Digest Address Tx Key Sig QCID → Prop}
  {fail : Fault → Pacemaker Digest Address Tx Key Sig QCID → Prop} {surroundings : Surroundings}

abbrev validation (env : PacemakerEnv Digest Address Tx Key Sig QCID) (pacemaker : Pacemaker Digest Address Tx Key Sig QCID) :
    ValidationEnv Digest Address Key Sig QCID :=
  ⟨env.hashing, env.bls, pacemaker.reactor, pacemaker.pipeline.space.chain.bestBlock.number, env.qcID⟩

theorem validateQC_spec [DecidableEq QCID] {block qc next}
    (stops : ∀ reason, Consensus.validateQC (validation env start) start.validQCs block qc = .error reason → fail reason start)
    (goes : ∀ valid validQCs, Consensus.validateQC (validation env start) start.validQCs block qc = .ok (valid, validQCs) →
      Ends (· = { start with validQCs := validQCs }) (next valid) post fail) :
    Ends (· = start) (validateQC env block qc >>= next) post fail := by
  unfold validateQC
  rw [bind_assoc]
  refine .readThen fun state same => ?_
  subst same
  rw [bind_assoc]
  refine .lifting (fun reason failed => ?_) fun result returned => ?_
  · rintro state rfl
    exact stops reason failed
  · rw [bind_assoc]
    exact .putThen (goes result.1 result.2 returned)

variable [DecidableEq QCID] {mi : IncomingMsg Digest Address Tx Key} {proposal : Proposal Digest Address Tx}

/-- A proposal whose parent was found and whose certificate and round were accepted, and the draft made of it. -/
structure Arrives (env : PacemakerEnv Digest Address Tx Key Sig QCID) (surroundings : Surroundings) (mi : IncomingMsg Digest Address Tx Key)
    (proposal : Proposal Digest Address Tx) (start : Pacemaker Digest Address Tx Key Sig QCID) (blk : Block Digest Address Tx)
    (parentRef ref : Ref) (parent : DraftBlock Digest Address Tx) (space voting : DraftSpace Digest Address Tx)
    (validQCs : ValidQCs QCID) : Prop where
  decoded : proposal.decodedBlock = some blk
  searched : start.pipeline.space.Searched space
  gets : start.pipeline.space.GetsDraft env.hashing space blk.parentID (some parentRef)
  placed : space.drafts[parentRef]? = some parent
  verdict : Consensus.validateQC (validation env start) start.validQCs parent.proposedBlock blk.qc = .ok (true, validQCs)
  accepted : acceptDraft env surroundings mi proposal.round blk parentRef space = .ok (some ref) voting

/-- Before it votes, a proposal leaves a search and a validated certificate; then it may leave a new draft. -/
theorem onReceiveProposal_rule (inPlace : Prop) {post}
    (whole : inPlace → proposal.decodedBlock.isSome ∧ (start.pipeline.space.drafts[start.pipeline.lastCommitted]?).isSome)
    (named : inPlace → start.pipeline.space.Named env.hashing)
    (verdicts : inPlace → ∀ blk ∈ proposal.decodedBlock, ∀ parent : Block Digest Address Tx, parent.id env.hashing = blk.parentID →
      Consensus.validateQC (validation env start) start.validQCs parent blk.qc ≠ .error .nilDereference)
    (rounds : inPlace → ∀ parent, roundAccepted env start.reactor parent proposal ≠ .error .nilDereference)
    (stops : ∀ reason space validQCs, start.pipeline.space.Searched space → (inPlace → reason ≠ .nilDereference) →
      fail reason { start.withSpace space with validQCs := validQCs })
    (idle : ∀ space validQCs, start.pipeline.space.Searched space → post { start.withSpace space with validQCs := validQCs })
    (missing : ∀ blk space, start.pipeline.space.Searched space → Ends (· = start.withSpace space)
      (parentMissing env keys surroundings mi blk) (fun _ => post) fail)
    (accepts : ∀ blk parentRef ref parent space voting validQCs, Arrives env surroundings mi proposal start blk parentRef ref parent space
      voting validQCs → post { start.withSpace voting with validQCs := validQCs } ∧ (start.lastVotingHeight ≤ blk.number →
        Ends (· = { start.withSpace voting with validQCs := validQCs }) (voteFor env keys surroundings mi proposal.round blk)
          (fun _ => post) fail)) :
    Ends (· = start) (onReceiveProposal env keys surroundings mi proposal) (fun _ => post) fail := by
  refine .deref (fun gone state same => ?_) fun blk decoded => .readThen fun state same => ?_
  · subst same
    refine stops .nilDereference _ state.validQCs .refl fun sane => ?_
    simp [gone] at whole
    exact (whole sane).elim
  subst same
  refine onSpace_read (fun gone => stops .nilDereference _ state.validQCs .refl fun sane => ?_) fun lastCommitted _ =>
    .branch (fun _ => .here (idle _ state.validQCs .refl)) fun _ => ?_
  · have := (whole sane).2
    simp [gone] at this
  refine onSpace_search getDraft_spec fun found space searched gets => ?_
  cases found with
  | none => exact missing blk space searched
  | some parentRef =>
    have parentOf (sane : inPlace) := gets.draft searched (named sane)
    refine onSpace_read (fun gone => stops .nilDereference _ state.validQCs searched fun sane => ?_) fun parent placed => ?_
    · obtain ⟨_, placed, -⟩ := parentOf sane
      rw [placed] at gone
      cases gone
    have sameChain : validation env (state.withSpace space) = validation env state := by
      simp only [validation, searched.chain]
    refine validateQC_spec (fun reason failed => stops reason _ state.validQCs searched fun sane isNil => ?_) fun valid validQCs verdict => ?_
    · obtain ⟨_, also, isParent, -⟩ := parentOf sane
      obtain rfl := Option.some.inj (placed.symm.trans also)
      subst isNil
      exact verdicts sane blk decoded _ isParent (sameChain ▸ failed)
    rw [sameChain] at verdict
    refine .branch (fun _ => .here (idle space validQCs searched)) fun isValid => .readThen fun _ isState => .lifting
      (fun reason failed now same => ?_) fun accepted _ => .branch (fun _ => .here (idle space validQCs searched)) fun _ => ?_
    · subst same isState
      exact stops reason space validQCs searched fun sane isNil => rounds sane parent (isNil ▸ failed)
    obtain rfl : valid = true := by simpa using isValid
    refine .via (fun result after => ∃ voting, after = { state.withSpace voting with validQCs := validQCs } ∧
      ((result = none ∧ state.pipeline.space.Searched voting) ∨ ∃ ref, result = some ref ∧
        Arrives env surroundings mi proposal state blk parentRef ref parent space voting validQCs)) (onSpace_spec ?_) fun result => ?_
    · have accepts : Ends (· = space) (acceptDraft env surroundings mi proposal.round blk parentRef) _ (space.Fails inPlace) :=
        (acceptDraft_spec (fun sane => searched.named (named sane)) (fun _ => (List.getElem?_eq_some_iff.mp placed).1)
          (fun _ => gets.known searched space) fun _ _ _ _ => trivial).ran
      refine accepts.conseq (fun _ same => same) (fun result voting given => ⟨voting, rfl, ?_⟩) fun reason after failed =>
        stops reason after validQCs (searched.trans failed.1) failed.2
      rcases given with ⟨⟨rfl, more⟩ | ⟨_, ref, _, rfl, -, -⟩, ran⟩
      · exact .inl ⟨rfl, searched.trans more⟩
      · exact .inr ⟨ref, rfl, decoded, searched, gets, placed, verdict, ran⟩
    · refine .each fun after ⟨voting, isAfter, outcome⟩ => ?_
      subst isAfter
      rcases outcome with ⟨rfl, more⟩ | ⟨ref, rfl, arrives⟩
      · exact .here (idle voting validQCs more)
      · obtain ⟨kept, votes⟩ := accepts blk parentRef ref parent space voting validQCs arrives
        refine .readThen fun now same => .branch (fun may => votes ?_) fun _ => .here kept
        subst same
        exact may.1

end

/-! ## Collecting a vote -/

section

variable {start : Pacemaker Digest Address Tx Key Sig QCID} {surroundings : Surroundings} {index : Nat} {vote : Vote Digest}

section

variable (env : PacemakerEnv Digest Address Tx Key Sig QCID) (surroundings : Surroundings)

def completedQC (pacemaker : Pacemaker Digest Address Tx Key Sig QCID) (index : Nat) (vote : Vote Digest) : Option (QuorumCert Digest) :=
  (QCVoteManager.addVote env.bls surroundings.lastVote pacemaker.qcVoteManager index pacemaker.reactor.curEpoch
    vote.voteRound vote.voteBlockID vote.voteSignature vote.voteHash).2

def filed (index : Nat) (vote : Vote Digest)
    (pacemaker : Pacemaker Digest Address Tx Key Sig QCID) : Pacemaker Digest Address Tx Key Sig QCID :=
  { pacemaker with
    qcVoteManager := (QCVoteManager.addVote env.bls surroundings.lastVote pacemaker.qcVoteManager index pacemaker.reactor.curEpoch
      vote.voteRound vote.voteBlockID vote.voteSignature vote.voteHash).1 }

end

theorem addQCVote_spec {α next} {post : α → Pacemaker Digest Address Tx Key Sig QCID → Prop}
    (goes : Ends (· = filed env surroundings index vote start) (next (completedQC env surroundings start index vote)) post fail) :
    Ends (· = start) (addQCVote env surroundings index vote >>= next) post fail := by
  rintro state rfl
  exact goes _ rfl

/-- A vote that is handled leaves a search, or waits for its block, or is on file and completes a certificate or not. -/
theorem onReceiveVote_rule [DecidableEq Key] (inPlace : Prop) {mi post} (named : inPlace → start.pipeline.space.Named env.hashing)
    (stops : ∀ reason space, start.pipeline.space.Searched space → (inPlace → reason ≠ .nilDereference) →
      fail reason (start.withSpace space)) (idle : ∀ space, start.pipeline.space.Searched space → post (start.withSpace space))
    (waits : ∀ space, start.pipeline.space.Searched space → Ends (· = start.withSpace space) (delayedAdd mi) (fun _ => post) fail)
    (files : ∀ space, start.pipeline.space.Searched space → post (filed env surroundings mi.msg.signerIndex vote (start.withSpace space)))
    (completes : ∀ ref b qc space, start.pipeline.space.Searched space →
      start.pipeline.space.GetsDraft env.hashing space vote.voteBlockID (some ref) → space.drafts[ref]? = some b → b.round = vote.voteRound →
      completedQC env surroundings start mi.msg.signerIndex vote = some qc →
      Ends (· = filed env surroundings mi.msg.signerIndex vote (start.withSpace space)) (do
          if ← onPipeline (Pipeline.updateQCHigh (some ref) qc) then
            onPipeline (Pipeline.update env.toChainHashing qc)
            enterRound ((vote.voteRound + 1) % 2 ^ 32)) (fun _ => post) fail) :
    Ends (· = start) (onReceiveVote env keys surroundings mi vote) (fun _ => post) fail := by
  have quiet : Ends (· = start) (pure () : Action (Pacemaker Digest Address Tx Key Sig QCID) Unit) (fun _ => post) fail :=
    .here (idle _ .refl)
  refine .readThen fun _ _ => .branch (fun _ => quiet) fun _ => .branch (fun _ => quiet) fun _ => ?_
  refine onSpace_search getDraft_spec fun found space searched gets => ?_
  cases found with
  | none => exact waits space searched
  | some ref =>
    refine onSpace_read (fun gone => stops .nilDereference space searched fun sane => ?_) fun b placed =>
      .branch (fun _ => .here (idle space searched)) fun sameRound => addQCVote_spec ?_
    · obtain ⟨_, placed, -⟩ := gets.draft searched (named sane)
      exact absurd (placed.symm.trans gone) nofun
    · cases completed : completedQC env surroundings (start.withSpace space) mi.msg.signerIndex vote with
      | none => exact .here (files space searched)
      | some qc => exact completes ref b qc space searched gets placed (not_not.mp sameRound) completed

end

/-! ## Proposing -/

section

variable {start : DraftSpace Digest Address Tx} {packing : Packing Digest Address Tx} {parent : Block Digest Address Tx}

theorem skipsStopBlock_searching : DraftSpace.Searching (skipsStopBlock env parent) := by
  refine Action.Stays.seq getDraftByEscortQC_searching fun found => ?_
  cases found with
  | none => exact Action.Stays.ret
  | some ref =>
    refine Action.Stays.seq draft_stays fun draft => .seq getDraftByEscortQC_searching fun found => ?_
    cases found with
    | none => exact Action.Stays.ret
    | some ref => exact Action.Stays.seq draft_stays fun draft => .ret

omit [DecidableEq Digest] in
theorem pack_spec {block qc blockType} (packed : pack env packing parent qc blockType = some block) :
    block.parentID = parent.id env.hashing ∧ block.Recoverable env.hashing := by
  dsimp only [pack] at packed
  split at packed
  · rename_i signer _ recovered
    cases packed
    exact ⟨rfl, signer, recovered⟩
  · contradiction

/-- A new leaf: its pointers are the parent and the certificate it was made from. -/
structure LeafOf (hashing : Hashing Digest Address) (start : DraftSpace Digest Address Tx) (parentRef : Ref) (justify : DraftQC Digest)
    (leaf : DraftBlock Digest Address Tx) : Prop where
  parent : leaf.parent = some parentRef
  justify : leaf.justify = some justify
  height : leaf.height = leaf.proposedBlock.number
  recoverable : leaf.proposedBlock.Recoverable hashing
  named : start.Names hashing parentRef leaf.proposedBlock.parentID

theorem createLeaf_spec {reactor} {timeout : Bool} {parentRef : Ref} {justify} {round : Nat} :
    Triple (· = start) (createLeaf env packing reactor timeout parentRef justify round)
      (fun made space => start.Searched space ∧ ∀ leaf, made = some leaf → LeafOf env.hashing start parentRef justify leaf)
      start.Searched := by
  refine draft_read (fun _ => .refl) fun parent found => ?_
  have refused : Triple start.Searched (pure none : Action (DraftSpace Digest Address Tx) (Option (DraftBlock Digest Address Tx)))
      (fun made space => start.Searched space ∧ ∀ leaf, made = some leaf → LeafOf env.hashing start parentRef justify leaf)
      start.Searched := .ret fun _ searched => ⟨searched, fun _ gone => nomatch gone⟩
  have packed (blockType : BlockType) : Triple start.Searched
      (pure ((pack env packing parent.proposedBlock justify.qc blockType).map fun block =>
        { msg := none, height := block.number, round := round, parent := some parentRef, justify := some justify
          committed := false, proposedBlock := block, returnTxsToPool := true, successProcessed := true
          knownBlock := false, receipts := true }) : Action (DraftSpace Digest Address Tx) (Option (DraftBlock Digest Address Tx)))
      (fun made space => start.Searched space ∧ ∀ leaf, made = some leaf → LeafOf env.hashing start parentRef justify leaf)
      start.Searched := by
    refine .ret fun _ searched => ⟨searched, fun leaf made => ?_⟩
    obtain ⟨block, isBlock, rfl⟩ := Option.map_eq_some_iff.mp made
    obtain ⟨parentID, recoverable⟩ := pack_spec isBlock
    exact ⟨rfl, rfl, rfl, recoverable, parent, found, parentID.symm⟩
  refine Ends.start (.branch (fun _ => .seq (skipsStopBlock_searching start) fun _ => .branch (fun _ => refused) fun _ => packed _) fun _ => ?_) .refl
  exact .branch (fun _ => packed _) fun _ => .branch (fun _ => refused) fun _ => packed _

/-- A leaf on the highest certificate, with its message. -/
structure NewLeaf (hashing : Hashing Digest Address) (start : Pipeline Digest Address Tx) (found : DraftSpace Digest Address Tx)
    (leaf : DraftBlock Digest Address Tx) : Prop where
  searched : start.space.Searched found
  made : ∃ parentRef bare message proposal, LeafOf hashing found parentRef start.qcHigh bare ∧ leaf = { bare with msg := some message } ∧
    message.body = .proposal proposal ∧ start.qcHigh.qc.qcHeight < bare.height

variable {pacemaker : Pacemaker Digest Address Tx Key Sig QCID} {surroundings : Surroundings} {round : Nat}

theorem onPropose_spec : Triple (· = pacemaker) (onPropose env keys surroundings packing round)
      (fun made state => (made = none ∧ ∃ space, pacemaker.pipeline.space.Searched space ∧ state = pacemaker.withSpace space) ∨
        ∃ found leaf, NewLeaf env.hashing pacemaker.pipeline found leaf ∧ made = some found.drafts.length ∧
          state = { pacemaker.withSpace { found with drafts := found.drafts ++ [leaf] } with curProposal := some found.drafts.length })
      (fun state => ∃ space, pacemaker.pipeline.space.Searched space ∧ state = pacemaker.withSpace space) := by
  refine .readThen fun state same => ?_
  subst same
  refine onSpace_search getDraftByEscortQC_spec fun node middle searched _ => ?_
  refine .deref (fun _ now same => ⟨middle, searched, same⟩) fun parentRef _ => onSpace_search (createLeaf_spec.conseq (fun _ same => same)
    (fun _ _ given => given) fun space more => ⟨space, searched.trans more, rfl⟩) fun made found more isLeaf => ?_
  have refused : Triple (· = state.withSpace found) (pure none : Action (Pacemaker Digest Address Tx Key Sig QCID) (Option Ref))
      (fun made after => (made = none ∧ ∃ space, state.pipeline.space.Searched space ∧ after = state.withSpace space) ∨
        ∃ found leaf, NewLeaf env.hashing state.pipeline found leaf ∧ made = some found.drafts.length ∧
          after = { state.withSpace { found with drafts := found.drafts ++ [leaf] } with curProposal := some found.drafts.length })
      (fun after => ∃ space, state.pipeline.space.Searched space ∧ after = state.withSpace space) :=
    .here (.inl ⟨rfl, found, searched.trans more, rfl⟩)
  cases made with
  | none => exact refused
  | some bnew =>
    refine .branch (fun _ => refused) fun above => .seq buildMessage_spec fun built => ?_
    cases built with
    | none => exact .each fun _ given => given.1 ▸ refused
    | some message =>
      refine .each fun now ⟨same, isBody⟩ => ?_
      subst same
      let entered : DraftSpace Digest Address Tx := { found with drafts := found.drafts ++ [{ bnew with msg := some message }] }
      refine .via (fun ref after => ref = found.drafts.length ∧ after = state.withSpace entered)
        (onSpace_spec (allocate_spec ⟨rfl, rfl⟩)) fun ref => .assuming fun isRef => ?_
      refine .via (fun _ after => after = { state.withSpace entered with curProposal := some found.drafts.length })
        (.write fun after same => by rw [same, isRef]) fun _ => .ret fun after same => .inr ⟨found, _, ⟨searched.trans more, ?_⟩, by rw [isRef], same⟩
      have leaf := isLeaf bnew rfl
      exact ⟨parentRef, bnew, message, _, { leaf with named := more.names leaf.named }, rfl, isBody message rfl, not_le.mp above⟩

/-- What a beat leaves: a search, or a new leaf. -/
def Beats (env : PacemakerEnv Digest Address Tx Key Sig QCID) (start state : Pacemaker Digest Address Tx Key Sig QCID) : Prop :=
  ∃ space beat proposed timeout, state = { start.withSpace space with lastOnBeatRound := beat, curProposal := proposed, tcHigh := timeout } ∧
    (start.pipeline.space.Searched space ∨ ∃ found leaf, NewLeaf env.hashing start.pipeline found leaf ∧ found.Enters env.hashing leaf space)

theorem onBeat_spec [DecidableEq Key] {at_} :
    Always (· = pacemaker) (onBeat env keys surroundings packing at_ round) (Beats env pacemaker) := by
  have searches {space : DraftSpace Digest Address Tx} {beat : Int} (searched : pacemaker.pipeline.space.Searched space) :
      Beats env pacemaker { pacemaker.withSpace space with lastOnBeatRound := beat } := ⟨space, beat, _, _, rfl, .inl searched⟩
  refine .readThen fun _ _ => .branch (fun _ => .here (searches .refl)) fun _ => .branch (fun _ => .here (searches .refl)) fun _ =>
    .branch (fun _ => .here (searches .refl)) fun _ => ?_
  refine .via (fun _ state => state = { pacemaker with lastOnBeatRound := toInt32 round }) (.write fun _ same => by rw [same]) fun _ => ?_
  refine onSpace_search (getDraftByEscortQC_spec) fun node space searched _ => ?_
  cases node with
  | none => exact .here (searches searched)
  | some _ =>
    refine .seq (onPropose_spec.conseq (fun _ same => same) (fun _ _ given => given) ?_) fun made => .each fun state outcome => ?_
    · rintro state ⟨after, more, rfl⟩
      exact searches (searched.trans more)
    rcases outcome with ⟨rfl, after, more, rfl⟩ | ⟨found, leaf, isNew, rfl, rfl⟩
    · exact .here (searches (searched.trans more))
    · have isNew : NewLeaf env.hashing pacemaker.pipeline found leaf := ⟨searched.trans isNew.searched, isNew.made⟩
      refine .via (fun _ after => ∃ space, found.Enters env.hashing leaf space ∧ after = { pacemaker.withSpace space with
          lastOnBeatRound := toInt32 round, curProposal := some found.drafts.length })
        (onSpace_spec (addDraft_spec.conseq (fun _ same => same) ?_ ?_)) fun _ => .write ?_
      · rintro _ space ⟨draft, placed, rfl⟩
        obtain rfl : leaf = draft := by simpa using placed
        exact ⟨_, ⟨_, rfl, .inr rfl⟩, rfl⟩
      · rintro space rfl
        exact ⟨_, _, _, _, rfl, .inr ⟨found, leaf, isNew, _, rfl, .inl rfl⟩⟩
      · rintro state ⟨space, enters, rfl⟩
        exact ⟨space, _, _, _, rfl, .inr ⟨found, leaf, isNew, enters⟩⟩

end

end MeterPov.Consensus.Pacemaker
