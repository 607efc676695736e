import MeterPov.Staking.Runs

/-! The stakeholder list as an index of the buckets by their owners.

The scripts keep the two lists in step. Of the native calls, those that open, split off or merge
buckets, and the deposit, change the buckets of an owner and leave its record as it was. -/

set_option autoImplicit false

namespace MeterPov.Staking

open Lib Auction Option

section

variable [Primitives] {world next : World} {bl : BucketList} {sl : SortedList Stakeholder.holder} {id : Bytes32}
  {old new : Bucket} {update : Bucket → Bucket} {change : Int}

/-- A record lists the buckets of its holder, each once, with the sum of their values; and every owner has a record. -/
structure StakeIndex (bl : BucketList) (sl : SortedList Stakeholder.holder) : Prop where
  recorded : ∀ addr record, sl.get addr = some record →
    Recorded Bucket.owner Bucket.value bl addr record.buckets record.totalStake
  covered : ∀ id bucket, bl.get id = some bucket → (sl.get bucket.owner).isSome

/-- A bucket of the same owner whose value has changed. -/
structure Restaked (old new : Bucket) (change : Int) : Prop where
  id : new.bucketID = old.bucketID
  owner : new.owner = old.owner
  value : new.value = old.value + change

def Stakeholder.restaked (change : Int) (stakeholder : Stakeholder) : Stakeholder :=
  { stakeholder with totalStake := stakeholder.totalStake + change }

omit [Primitives] in
theorem Stakeholder.restaked_holder (change : Int) (stakeholder : Stakeholder) :
    (stakeholder.restaked change).holder = stakeholder.holder := rfl

theorem Bucket.released_restaked (bucket : Bucket) : Restaked bucket bucket.released 0 := by
  obtain ⟨_, _, released⟩ := bucket.released_eq
  rw [released]
  exact ⟨rfl, rfl, (add_zero _).symm⟩

namespace StakeIndex

theorem empty : StakeIndex .empty .empty := ⟨nofun, nofun⟩

section

variable (index : StakeIndex bl sl)

include index

/-- One bucket of an owner changes, appears or goes, and at most the record of this owner with it. -/
theorem follow {later : BucketList} {sl' before after owner}
    (changes : Changes bl later id before after) (gone : ∀ b ∈ before, b.owner = owner) (come : ∀ b ∈ after, b.owner = owner)
    (elsewhere : ∀ addr, addr ≠ owner → sl'.get addr = sl.get addr) (here : ∀ record, sl'.get owner = some record →
      Recorded Bucket.owner Bucket.value later owner record.buckets record.totalStake)
    (there : (∃ id b, later.get id = some b ∧ b.owner = owner) → (sl'.get owner).isSome) : StakeIndex later sl' where
  recorded addr record found := by
    by_cases same : addr = owner
    · subst same
      exact here record found
    · rw [elsewhere addr same] at found
      exact (index.recorded addr record found).other changes (fun b held => (gone b held).trans_ne (Ne.symm same))
        fun b held => (come b held).trans_ne (Ne.symm same)
  covered other b found := by
    by_cases same : b.owner = owner
    · rw [same]
      exact there ⟨other, b, found, same⟩
    · rw [elsewhere _ same]
      rw [changes.get] at found
      split at found
      · exact absurd (come b found) same
      · exact index.covered other b found

theorem restake (held : bl.get id = some old) (restaked : Restaked old (update old) change) :
    StakeIndex (bl.modify id update) (sl.modify old.owner (.restaked change)) := by
  have changes := Changes.modify held restaked.id
  refine index.follow changes (by rintro _ ⟨⟩; rfl) (by rintro _ ⟨⟩; exact restaked.owner) ?_ ?_ ?_
  · intro addr apart
    rw [sl.get_modify (Stakeholder.restaked_holder change), if_neg apart]
  · intro record found
    rw [sl.get_modify (Stakeholder.restaked_holder change), if_pos rfl] at found
    obtain ⟨before, found', rfl⟩ := map_eq_some_iff.mp found
    have stayed := (index.recorded _ before found').stay changes restaked.owner
    rw [share_of_eq rfl, share_of_eq restaked.owner, restaked.value] at stayed
    have sum : before.totalStake - old.value + (old.value + change) = before.totalStake + change := by omega
    rwa [sum] at stayed
  · intro _
    rw [sl.isSome_get_modify (Stakeholder.restaked_holder change)]
    exact index.covered id old held

theorem edit (held : bl.get id = some old) (restaked : Restaked old (update old) 0) : StakeIndex (bl.modify id update) sl := by
  have restaked := index.restake held restaked
  rwa [sl.modify_eq_self fun record => by simp [Stakeholder.restaked]] at restaked

theorem addStake (fresh : bl.get new.bucketID = none) : StakeIndex (bl.add new) (addStake sl new) := by
  -- the record that is there, or an empty one
  have records (record : Stakeholder) (holder : record.holder = new.owner)
      (recorded : Recorded Bucket.owner Bucket.value bl new.owner record.buckets record.totalStake) :
      StakeIndex (bl.add new) (sl.add (record.addBucket new)) := by
    have changes : Changes bl (bl.add new) new.bucketID none (some new) := .insert fresh
    refine index.follow changes nofun (by rintro _ ⟨⟩; rfl) ?_ ?_ ?_
    · intro addr apart
      rw [sl.get_add, Stakeholder.addBucket_holder, holder, if_neg apart]
    · intro other found
      rw [sl.get_add, Stakeholder.addBucket_holder, holder, if_pos rfl] at found
      cases found
      exact recorded.join changes nofun rfl
    · intro _
      rw [sl.get_add, Stakeholder.addBucket_holder, holder, if_pos rfl]
      rfl
  unfold Staking.addStake
  split
  next absent =>
    refine records _ rfl (.empty fun id bucket found same => ?_)
    have covered := index.covered id bucket found
    rw [same, absent] at covered
    cases covered
  next record found => exact records record (sl.key_of_get found) (index.recorded _ record found)

theorem addSplit (held : bl.get id = some old) (restaked : Restaked old (update old) (-new.value)) (owner : new.owner = old.owner)
    (fresh : bl.get new.bucketID = none) :
    StakeIndex ((bl.modify id update).add new) (sl.modify old.owner (·.addID new.bucketID)) := by
  have added := (index.restake held restaked).addStake (bl.get_modify_fresh held restaked.id fresh)
  obtain ⟨record, found⟩ := isSome_iff_exists.mp (index.covered id old held)
  have lowered : (sl.modify old.owner (.restaked (-new.value))).get old.owner = some (record.restaked (-new.value)) := by
    rw [sl.get_modify (Stakeholder.restaked_holder _), if_pos rfl, found, map_some]
  unfold Staking.addStake at added
  rw [owner, lowered] at added
  dsimp only at added
  rw [← SortedList.modify_of_get _ lowered (·.addBucket new),
    sl.modify_modify (Stakeholder.restaked_holder _) fun record => record.addBucket_holder new] at added
  have together : (fun record : Stakeholder => (record.restaked (-new.value)).addBucket new) = (·.addID new.bucketID) := by
    funext record
    simp [Stakeholder.restaked, Stakeholder.addBucket, Stakeholder.addID]
  rwa [together] at added

theorem transfer {target receiver receive} (apart : id ≠ target)
    (held : bl.get id = some old) (given : Restaked old (update old) (-change)) (heldTarget : bl.get target = some receiver)
    (received : Restaked receiver (receive receiver) change) (owner : receiver.owner = old.owner) :
    StakeIndex ((bl.modify id update).modify target receive) sl := by
  have heldAfter : (bl.modify id update).get target = some receiver :=
    (bl.get_modify_of_ne held given.id apart.symm).trans heldTarget
  have moved := (index.restake held given).restake heldAfter received
  rw [owner, sl.modify_modify (Stakeholder.restaked_holder _) (Stakeholder.restaked_holder _)] at moved
  rwa [sl.modify_eq_self fun record => by simp [Stakeholder.restaked]] at moved

theorem dropStake (nonneg : ∀ b ∈ bl.items, 0 ≤ b.value) (held : bl.get old.bucketID = some old) :
    StakeIndex (bl.remove old.bucketID) (dropStake sl old) := by
  have changes := Changes.erase held
  obtain ⟨record, found⟩ := isSome_iff_exists.mp (index.covered _ old held)
  have before := index.recorded _ record found
  have holder := sl.key_of_get found
  have after : Recorded Bucket.owner Bucket.value (bl.remove old.bucketID) old.owner (record.removeBucket old).buckets
      (record.removeBucket old).totalStake := by
    -- the sum of the record is at least the value that it loses
    have enough := before.weight_le_sum nonneg held rfl
    have listed := (before.mem_ids _).mpr ⟨old, held, rfl⟩
    rw [Stakeholder.removeBucket, if_pos listed, max_eq_right (by omega)]
    exact before.leave changes rfl nofun
  unfold Staking.dropStake
  rw [found]
  dsimp only
  split
  next empty =>
    rw [List.isEmpty_iff.mp empty] at after
    refine index.follow changes (by rintro _ ⟨⟩; rfl) nofun ?_ ?_ ?_
    · intro addr apart
      rw [sl.get_remove, holder, if_neg apart]
    · intro other kept
      rw [sl.get_remove, holder, if_pos rfl] at kept
      cases kept
    · rintro ⟨id, b, kept, same⟩
      exact absurd same (after.none_of_nil id b kept)
  · refine index.follow changes (by rintro _ ⟨⟩; rfl) nofun ?_ ?_ ?_
    · intro addr apart
      rw [sl.get_add, Stakeholder.removeBucket_holder, holder, if_neg apart]
    · intro other kept
      rw [sl.get_add, Stakeholder.removeBucket_holder, holder, if_pos rfl] at kept
      cases kept
      exact after
    · intro _
      rw [sl.get_add, Stakeholder.removeBucket_holder, holder, if_pos rfl]
      rfl

end

variable {info : CandidateInfo} {book : Book}

theorem accrued {ts} (index : StakeIndex book.bucketList book.stakeholderList) (id : Bytes32) :
    StakeIndex (book.accrue ts id).bucketList (book.accrue ts id).stakeholderList := by
  unfold Book.accrue
  split
  · exact index
  next bkt held =>
    split
    · exact index.edit held ⟨rfl, rfl, (add_zero _).symm⟩
    · exact index

theorem governed (index : StakeIndex book.bucketList book.stakeholderList) (ts : UInt64) (nonneg : book.ValuesNonneg) :
    StakeIndex (book.unboundAndCalcBonus ts).1.bucketList (book.unboundAndCalcBonus ts).1.stakeholderList := by
  let kept (book : Book) : Prop := StakeIndex book.bucketList book.stakeholderList ∧ book.ValuesNonneg
  refine (unboundAndCalcBonus_induction (motive := kept) ?_ ?_ book ⟨index, nonneg⟩).1
  · intro book bkt ⟨index, nonneg⟩ held
    exact ⟨index.dropStake nonneg held, nonneg.release bkt⟩
  · intro book id ⟨index, nonneg⟩
    exact ⟨index.accrued id, nonneg.accrue ts id⟩

theorem delisted (index : StakeIndex book.bucketList book.stakeholderList) (record : Candidate) :
    StakeIndex (book.delist record).bucketList (book.delist record).stakeholderList := by
  apply releaseBuckets_induction (motive := fun bl => StakeIndex bl book.stakeholderList)
  · intro bl id b index held _
    exact index.edit held b.released_restaked
  · exact index

theorem described {before after : Book} {addr} (described : before.Described after addr info)
    (index : StakeIndex before.bucketList before.stakeholderList) :
    StakeIndex after.bucketList after.stakeholderList := by
  rw [described.stakeholders]
  rcases described.buckets with same | ⟨id, autobid, edited⟩
  · rw [same]
    exact index
  · rw [edited]
    cases held : before.bucketList.get id with
    | none => rwa [before.bucketList.get_modify_none held]
    | some b => exact index.edit held ⟨rfl, rfl, (add_zero _).symm⟩

end StakeIndex

theorem stakeIndex_effect {operation after} (tells : operation.tellsStakeholders = true)
    (index : StakeIndex world.bucketList world.stakeholderList)
    (fresh : ∀ new, world.opens operation = some new → world.bucketList.get new.bucketID = none) (effect : Effect world operation after) : StakeIndex after.bucketList after.stakeholderList := by
  have told {same : Prop} (silent : operation.tellsStakeholders = false) : same := by
    rw [tells] at silent
    cases silent
  cases effect with
  | idle | bail => exact index
  | close held | move held | enter _ held | leave held => exact index.edit held ⟨rfl, rfl, (add_zero _).symm⟩
  | deposit held update =>
    rcases update with rfl | ⟨rfl, nothing⟩
    · exact index.restake held ⟨rfl, rfl, rfl⟩
    · obtain rfl := nothing tells
      exact index.edit held ⟨rfl, rfl, rfl⟩
  | join opens _ _ _ _ update =>
    obtain rfl := update.resolve_right told
    exact index.addStake (fresh _ opens)
  | withdraw _ _ _ silent | merge _ _ _ _ silent => exact told silent
  | sub held opens => exact index.addSplit held ⟨rfl, rfl, Int.sub_eq_add_neg⟩ rfl (fresh _ opens)
  | transfer apart heldFrom heldTo owner =>
    exact index.transfer apart heldFrom ⟨rfl, rfl, Int.sub_eq_add_neg⟩ heldTo ⟨rfl, rfl, rfl⟩ owner
  | enlist opens => exact index.addStake (fresh _ opens)
  | describe _ described => exact index.described described
  | delist => exact index.delisted _
  | @govern _ env distribution _ ran =>
    let started : Book := { world.toBook with ledger := world.ledger.distribute distribution }
    have before : StakeIndex started.bucketList started.stakeholderList := index
    have governed := before.governed env.time fun b listed => (world.encodes.1 b listed).1
    rw [ran] at governed
    exact governed

/-- In a run without calls that leave the records behind, every record lists the buckets of its holder and every owner has one. -/
theorem stakeIndex_of_told {operations : List Operation} (recent : ∀ operation ∈ operations, operation.AtFork 10)
    (told : ∀ operation ∈ operations, operation.tellsStakeholders = true) (distinct : world.DistinctlyOpened operations)
    (index : StakeIndex world.bucketList world.stakeholderList) :
    StakeIndex (world.afterAll operations).bucketList (world.afterAll operations).stakeholderList := by
  apply World.afterAll_induction (motive := fun world => StakeIndex world.bucketList world.stakeholderList)
  · exact recent
  · intro world next operation listed index ran fresh
    exact stakeIndex_effect (told operation listed) index fresh (effect_of_run (recent operation listed) ran)
  · exact distinct
  · exact index

end

section

attribute [local instance] plainPrimitives

def boundThree : Operation :=
  .script .bound ⟨10, 1000, 7, 0, 0⟩
    { opcode := opBound, option := oneWeekLock, holderAddr := 3, candAddr := 1, amount := mtrgAmount 100, token := mtrg }

/-- The record of account 3 after it has voted for account 1 with a script. -/
theorem bound_three_recorded : ∃ record, (unstakedWorld.afterAll [listOne, boundThree]).stakeholderList.get 3 = some record ∧
      Recorded Bucket.owner Bucket.value (unstakedWorld.afterAll [listOne, boundThree]).bucketList 3 record.buckets
        record.totalStake := by
  have recent : ∀ operation ∈ [listOne, boundThree], operation.AtFork 10 := by simp [listOne, boundThree, Operation.AtFork]
  have distinct : unstakedWorld.DistinctlyOpened [listOne, boundThree] := ⟨by decide +kernel, fun _ _ _ => nofun⟩
  have index := stakeIndex_of_told recent (by decide) distinct .empty
  have recorded : ((unstakedWorld.afterAll [listOne, boundThree]).stakeholderList.get 3).isSome := by decide +kernel
  obtain ⟨record, held⟩ := isSome_iff_exists.mp recorded
  exact ⟨record, held, index.recorded 3 record held⟩

def openThree : Operation := .bucketOpen 3 1 (mtrgAmount 100) 1000 6

/-- The same vote with a native call: account 3 owns a bucket and has no record. -/
theorem open_three_unrecorded :
    StakeIndex unstakedWorld.bucketList unstakedWorld.stakeholderList ∧ unstakedWorld.DistinctlyOpened [listOne, openThree] ∧
      ¬StakeIndex (unstakedWorld.afterAll [listOne, openThree]).bucketList
        (unstakedWorld.afterAll [listOne, openThree]).stakeholderList := by
  refine ⟨.empty, ⟨by decide +kernel, fun _ _ _ => nofun⟩, fun index => ?_⟩
  have held : (unstakedWorld.afterAll [listOne, openThree]).bucketList.get (openedBucket 3 1 (mtrgAmount 100) 1000 6).bucketID =
      some (openedBucket 3 1 (mtrgAmount 100) 1000 6) := by decide +kernel
  have covered := index.covered _ _ held
  revert covered
  decide +kernel

end

end MeterPov.Staking
