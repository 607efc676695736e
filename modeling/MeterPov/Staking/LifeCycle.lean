import MeterPov.Staking.Conservation

/-! Where the buckets of a run come from, and what no operation takes back. -/

set_option autoImplicit false
namespace MeterPov.Staking

open Lib Auction List

/-- A bucket keeps its origin and its token, and once it is unbounded it stays so. -/
structure Bucket.Ages (old new : Bucket) : Prop where
  origin : new.origin = old.origin
  token : new.token = old.token
  unbounded : old.unbounded = true → new.unbounded = true

section

variable [Primitives] {world next : World} {book after : Book} {operation : Operation} {bl : BucketList} {target : Bytes32}
  {source : Bytes32 → Bucket → Prop}

/-- Every bucket of the list goes back to a source with its ID. -/
def Aged (source : Bytes32 → Bucket → Prop) (bl : BucketList) : Prop :=
  ∀ id new, bl.get id = some new → ∃ old, source id old ∧ old.Ages new

theorem Aged.modify {update} (aged : Aged source bl) (ages : ∀ bucket : Bucket, bucket.Ages (update bucket)) :
    Aged source (bl.modify target update) := by
  intro id new held
  rw [bl.get_modify fun bucket => bucketID_eq_iff.mpr (ages bucket).origin] at held
  split at held
  · obtain ⟨middle, before, rfl⟩ := Option.map_eq_some_iff.mp held
    obtain ⟨old, known, first⟩ := aged id middle before
    have second := ages middle
    exact ⟨old, known, second.origin.trans first.origin, second.token.trans first.token, second.unbounded ∘ first.unbounded⟩
  · exact aged id new held

theorem Aged.remove (aged : Aged source bl) : Aged source (bl.remove target) := by
  intro id new held
  rw [bl.get_remove] at held
  split at held
  · cases held
  · exact aged id new held

theorem Aged.add {added} (aged : Aged source bl) (known : source added.bucketID added) : Aged source (bl.add added) := by
  intro id new held
  rw [bl.get_add] at held
  split at held
  next same =>
    obtain rfl := Option.some.inj held
    exact ⟨added, same ▸ known, rfl, rfl, fun closed => closed⟩
  · exact aged id new held

theorem Aged.governed (ts : UInt64) (aged : Aged source book.bucketList) : Aged source (book.unboundAndCalcBonus ts).1.bucketList := by
  apply unboundAndCalcBonus_induction (motive := fun later => Aged source later.bucketList)
  · exact fun _ _ aged _ => aged.remove
  · intro later _ aged
    unfold Book.accrue
    split
    · exact aged
    · split
      · exact aged.modify fun _ => ⟨rfl, rfl, id⟩
      · exact aged
  · exact aged

theorem Aged.delisted (record : Candidate) (aged : Aged source book.bucketList) : Aged source (book.delist record).bucketList := by
  apply releaseBuckets_induction (motive := Aged source)
  · intro later id b aged _ _
    refine aged.modify fun bucket => ?_
    obtain ⟨_, _, released⟩ := bucket.released_eq
    rw [released]
    exact ⟨rfl, rfl, fun closed => closed⟩
  · exact aged

theorem Aged.effect (aged : Aged source world.bucketList) (known : ∀ new, world.opens operation = some new → source new.bucketID new)
    (effect : Effect world operation after) : Aged source after.bucketList := by
  cases effect with
  | idle | bail => exact aged
  | close => exact aged.modify fun _ => ⟨rfl, rfl, fun _ => rfl⟩
  | deposit | move | enter | leave => exact aged.modify fun _ => ⟨rfl, rfl, id⟩
  | join opens | enlist opens => exact aged.add (known _ opens)
  | withdraw _ opens | sub _ opens => exact .add (.modify aged fun _ => ⟨rfl, rfl, id⟩) (known _ opens)
  | merge => exact .remove (.modify aged fun _ => ⟨rfl, rfl, id⟩)
  | transfer => exact .modify (.modify aged fun _ => ⟨rfl, rfl, id⟩) fun _ => ⟨rfl, rfl, id⟩
  | describe _ described =>
    rcases described.buckets with same | ⟨_, _, changed⟩
    · exact same ▸ aged
    · exact changed ▸ aged.modify fun _ => ⟨rfl, rfl, id⟩
  | delist => exact aged.delisted _
  | @govern _ env distribution _ ran =>
    have governed := @Aged.governed _ { world.toBook with ledger := world.ledger.distribute distribution } source env.time aged
    rwa [ran] at governed

theorem Aged.afterAll {operations} (recent : ∀ operation ∈ operations, operation.AtFork 10)
    (known : ∀ new ∈ world.openedBy operations, source new.bucketID new) (aged : Aged source world.bucketList) :
    Aged source (world.afterAll operations).bucketList := by
  induction operations generalizing world with
  | nil => exact aged
  | cons operation rest ih =>
    simp only [World.openedBy, mem_append, Option.mem_toList] at known
    apply ih (fun other listed => recent other (mem_cons_of_mem _ listed)) fun new later => known new (.inr later)
    cases ran : world.run operation with
    | error failure => simpa [World.after, ran] using aged
    | ok next =>
      have left := aged.effect (fun new opens => known new (.inl (by simp [World.opened, ran, opens])))
        (effect_of_run (recent operation mem_cons_self) ran)
      simpa [World.after, ran] using left

/-- Every bucket after a run goes back to one of the start, or to one that was opened on the way. -/
theorem buckets_descend {operations} (recent : ∀ operation ∈ operations, operation.AtFork 10) :
    Aged (fun id old => world.bucketList.get id = some old ∨ old ∈ world.openedBy operations ∧ old.bucketID = id)
      (world.afterAll operations).bucketList :=
  Aged.afterAll recent (fun _ opened => .inr ⟨opened, rfl⟩) fun _ old held => ⟨old, .inl held, rfl, rfl, id⟩

end

section

attribute [local instance] plainPrimitives

/-- Account 3 closes the bucket that it opened for account 1. -/
def closeThree : Operation := .bucketClose 3 (Primitives.bucketID 3 6 1000) 2000

theorem closed_descends : (unstakedWorld.afterAll [listOne, openThree, closeThree]).bucketList.items.any Bucket.unbounded = true ∧
    Aged (fun id old => old ∈ unstakedWorld.openedBy [listOne, openThree, closeThree] ∧ old.bucketID = id)
      (unstakedWorld.afterAll [listOne, openThree, closeThree]).bucketList := by
  constructor
  · decide +kernel
  · intro id new held
    obtain ⟨old, listed | opened, ages⟩ := buckets_descend (by simp [listOne, openThree, closeThree, Operation.AtFork]) id new held
    · cases listed
    · exact ⟨old, opened, ages⟩

end

end MeterPov.Staking
