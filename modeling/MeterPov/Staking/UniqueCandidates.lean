import MeterPov.Staking.Runs

/-! No two listed candidates share a name, a public key or an address of their node.

Most operations leave what identifies a candidate alone, or take a candidate off the list. A candidate
that is listed or updated has been compared with all the others. -/

set_option autoImplicit false

namespace MeterPov.Staking

open Lib Accounts Auction

abbrev CandidateList := SortedList Candidate.addr

/-- Two candidates of a list differ in everything that identifies them. -/
def CandidatesUnique (list : CandidateList) : Prop :=
  ∀ first ∈ list.items, ∀ second ∈ list.items, first ≠ second →
    first.addr ≠ second.addr ∧ first.name ≠ second.name ∧ first.pubKey ≠ second.pubKey ∧ first.ipAddr ≠ second.ipAddr

instance {list} : Decidable (CandidatesUnique list) := by
  unfold CandidatesUnique
  infer_instance

/-- What identifies a candidate beside its address. -/
structure Candidate.SameNode (candidate other : Candidate) : Prop where
  name : candidate.name = other.name
  pubKey : candidate.pubKey = other.pubKey
  ipAddr : candidate.ipAddr = other.ipAddr

/-- Every candidate of the later list is in the earlier one, as the same node. -/
def Inherits (later earlier : CandidateList) : Prop :=
  ∀ addr candidate, later.get addr = some candidate → ∃ before, earlier.get addr = some before ∧ candidate.SameNode before

namespace Inherits

variable {list later earlier : CandidateList} {addr : Address}

theorem refl : Inherits list list := fun _ candidate held => ⟨candidate, held, rfl, rfl, rfl⟩

theorem trans {first second third} (newer : Inherits first second) (older : Inherits second third) :
    Inherits first third := by
  intro addr candidate held
  obtain ⟨between, heldBetween, same⟩ := newer addr candidate held
  obtain ⟨before, heldBefore, same'⟩ := older addr between heldBetween
  exact ⟨before, heldBefore, same.name.trans same'.name, same.pubKey.trans same'.pubKey, same.ipAddr.trans same'.ipAddr⟩

theorem remove (list : CandidateList) (addr : Address) : Inherits (list.remove addr) list := by
  intro other candidate held
  rw [list.get_remove] at held
  split at held
  · cases held
  · exact refl other candidate held

theorem replace {before after} (held : list.get after.addr = some before) (same : after.SameNode before) :
    Inherits (list.add after) list := by
  intro other candidate found
  rw [list.get_add] at found
  split at found
  next named =>
    cases found
    exact ⟨before, named ▸ held, same⟩
  · exact refl other candidate found

theorem modify {update} (keyed : ∀ candidate, (update candidate).addr = candidate.addr)
    (same : ∀ candidate, (update candidate).SameNode candidate) : Inherits (list.modify addr update) list := by
  cases held : list.get addr with
  | none =>
    rw [list.get_modify_none held]
    exact refl
  | some before =>
    rw [list.modify_of_get held]
    apply replace
    · rw [keyed, list.key_of_get held, held]
    · exact same before

theorem ite {condition} [Decidable condition] (inherits : Inherits later list) :
    Inherits (if condition then list else later) list := by
  split
  · exact refl
  · exact inherits

theorem unique (inherits : Inherits later earlier) (unique : CandidatesUnique earlier) : CandidatesUnique later := by
  intro first listed second listed' different
  have held := later.mem_items.mp listed
  have held' := later.mem_items.mp listed'
  have apart : first.addr ≠ second.addr := by
    intro same
    rw [same, held'] at held
    exact different (Option.some.inj held).symm
  obtain ⟨before, heldBefore, same⟩ := inherits _ first held
  obtain ⟨before', heldBefore', same'⟩ := inherits _ second held'
  obtain ⟨member, keyed⟩ := earlier.get_eq_some.mp heldBefore
  obtain ⟨member', keyed'⟩ := earlier.get_eq_some.mp heldBefore'
  have distinct : before ≠ before' := by
    rintro rfl
    exact apart (keyed.symm.trans keyed')
  obtain ⟨-, name, pubKey, ipAddr⟩ := unique before member before' member' distinct
  rw [same.name, same.pubKey, same.ipAddr, same'.name, same'.pubKey, same'.ipAddr]
  exact ⟨apart, name, pubKey, ipAddr⟩

end Inherits

theorem CandidatesUnique.add {list new} (unique : CandidatesUnique list) (unused : ∀ record ∈ list.items, record.addr ≠ new.addr →
      record.pubKey ≠ new.pubKey ∧ record.ipAddr ≠ new.ipAddr ∧ record.name ≠ new.name) :
    CandidatesUnique (list.add new) := by
  intro first listed second listed' different
  rcases list.mem_add.mp listed with rfl | ⟨old, apart⟩
  · rcases list.mem_add.mp listed' with rfl | ⟨old', apart'⟩
    · exact absurd rfl different
    · obtain ⟨pubKey, ip, name⟩ := unused second old' apart'
      exact ⟨apart'.symm, name.symm, pubKey.symm, ip.symm⟩
  · rcases list.mem_add.mp listed' with rfl | ⟨old', -⟩
    · obtain ⟨pubKey, ip, name⟩ := unused first old apart
      exact ⟨apart, name, pubKey, ip⟩
    · exact unique first old second old' different

section

variable [Primitives] {world next : World} {list : CandidateList} {addr : Address}

variable (bucket : Bucket)

theorem Candidate.removeBucket_sameNode (candidate : Candidate) : (candidate.removeBucket bucket).SameNode candidate := by
  unfold Candidate.removeBucket
  split <;> exact ⟨rfl, rfl, rfl⟩

theorem inherits_addBucket : Inherits (list.modify addr (·.addBucket bucket)) list :=
  .modify (fun candidate => candidate.addBucket_addr bucket) fun _ => ⟨rfl, rfl, rfl⟩

theorem inherits_removeBucket : Inherits (list.modify addr (·.removeBucket bucket)) list :=
  .modify (fun candidate => candidate.removeBucket_addr bucket) (Candidate.removeBucket_sameNode bucket)

omit [Primitives] in
theorem inherits_addVotes (votes : Int) : Inherits (list.modify addr (.addVotes votes)) list :=
  .modify (fun _ => rfl) fun _ => ⟨rfl, rfl, rfl⟩

omit [Primitives] in
theorem inherits_addSplit (votes : Int) (id : Bytes32) : Inherits (list.modify addr (·.addSplit votes id)) list :=
  .modify (fun _ => rfl) fun _ => ⟨rfl, rfl, rfl⟩

theorem inherits_dropVotes : Inherits (dropVotes list bucket) list := by
  unfold dropVotes
  split
  · exact .refl
  next candidate held =>
    split
    · exact .remove list candidate.addr
    · apply Inherits.replace
      · rw [Candidate.removeBucket_addr, list.key_of_get held, held]
      · exact candidate.removeBucket_sameNode bucket

theorem inherits_governed (ts : UInt64) (book : Book) : Inherits (book.unboundAndCalcBonus ts).1.candidateList book.candidateList := by
  apply unboundAndCalcBonus_induction (motive := fun later => Inherits later.candidateList book.candidateList)
  · intro later bkt inherits _
    exact (inherits_dropVotes bkt).trans inherits
  · intro later id inherits
    unfold Book.accrue
    split
    · exact inherits
    · split
      · split
        · exact inherits
        · exact (inherits_addVotes _).trans inherits
      · exact inherits
  · exact .refl

variable {info : CandidateInfo} {operation : Operation}

/-- An update that comes too soon leaves the name, which was not shared before. -/
theorem unique_described {before after : Book} (unused : info.Unused (before.candidateList.items.filter fun record => record.addr ≠ addr))
    (described : before.Described after addr info) (unique : CandidatesUnique before.candidateList) :
    CandidatesUnique after.candidateList := by
  obtain ⟨commission, late, updated⟩ := described.candidates
  rw [updated]
  cases held : before.candidateList.get addr with
  | none => rwa [before.candidateList.get_modify_none held]
  | some record =>
    obtain ⟨member, keyed⟩ := before.candidateList.get_eq_some.mp held
    have named : (record.updated info commission late).addr = addr := by
      unfold Candidate.updated
      split <;> exact keyed
    rw [before.candidateList.modify_of_get held]
    refine unique.add fun other listed apart => ?_
    rw [named] at apart
    have free := unused other (List.mem_filter.mpr ⟨listed, by simpa using apart⟩)
    have distinct : other ≠ record := by
      rintro rfl
      exact apart keyed
    obtain ⟨-, name, -, -⟩ := unique other listed record member distinct
    unfold Candidate.updated
    split
    · exact free
    · exact ⟨free.1, free.2.1, name⟩

theorem unique_effect {after} (unique : CandidatesUnique world.candidateList) (effect : Effect world operation after) :
    CandidatesUnique after.candidateList := by
  cases effect with
  | idle | bail | close => exact unique
  | deposit => exact (Inherits.ite (inherits_addVotes _)).unique unique
  | join => exact (Inherits.ite (inherits_addBucket _)).unique unique
  | withdraw | sub => exact (inherits_addSplit _ _).unique unique
  | move => exact ((inherits_addBucket _).trans (inherits_removeBucket _)).unique unique
  | enter => exact (inherits_addBucket _).unique unique
  | leave => exact (inherits_removeBucket _).unique unique
  | merge => exact ((inherits_addVotes _).trans (inherits_removeBucket _)).unique unique
  | transfer => exact ((inherits_addVotes _).trans (inherits_addVotes _)).unique unique
  | enlist _ _ _ unused => exact unique.add fun record listed _ => unused record listed
  | describe unused described => exact unique_described unused described unique
  | delist => exact (Inherits.remove _ _).unique unique
  | @govern _ env distribution _ ran =>
    have inherits := inherits_governed env.time { world.toBook with ledger := world.ledger.distribute distribution }
    rw [ran] at inherits
    exact inherits.unique unique

/-- Along every run of staking operations, candidates that differ at the start and those that join or change later differ in
address, name, public key and node address. -/
theorem candidates_stay_unique {operations : List Operation} (recent : ∀ operation ∈ operations, operation.AtFork 10)
    (unique : CandidatesUnique world.candidateList) : CandidatesUnique (world.afterAll operations).candidateList := by
  apply World.afterAll_keeps (motive := fun world => CandidatesUnique world.candidateList)
  · intro world next operation listed unique ran
    exact unique_effect unique (effect_of_run (recent operation listed) ran)
  · exact unique

end

section

attribute [local instance] plainPrimitives

/-- Account 3 lists itself, from the address 3.3.3.3 and with a name and a key of its own. -/
def listThree : Operation :=
  .listAsCandidate 3 ⟨[3], [], [3], [51, 46, 51, 46, 51, 46, 51], 8670⟩ (mtrgAmount 2000) 100 commissionRateMin 1000 6

/-- It then asks for the address of account 1, which is refused. -/
def moveThree : Operation :=
  .candidateUpdate 3 ⟨[3], [], [3], [49, 46, 49, 46, 49, 46, 49], 8670⟩ 100 commissionRateMin 2000

theorem two_candidates_unique : (unstakedWorld.afterAll [listOne, listThree, moveThree]).candidateList.items.length = 2 ∧
      CandidatesUnique (unstakedWorld.afterAll [listOne, listThree, moveThree]).candidateList := by
  have recent : ∀ operation ∈ [listOne, listThree, moveThree], operation.AtFork 10 := by
    simp [listOne, listThree, moveThree, Operation.AtFork]
  exact ⟨by decide +kernel, candidates_stay_unique recent fun _ => nofun⟩

end

end MeterPov.Staking
