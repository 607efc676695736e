import MeterPov.Governor.RewardMap

/-! What each delegate is paid, and the list that is made of a reward map (`ComputeRewardMap` and `RewardMap.ToList`).

A delegate that is no distributor of its own is paid as a distributor of others only: neither its base
reward nor its commission is added. -/

set_option autoImplicit false

namespace MeterPov.Governor

open Lib Auction List

theorem worth_add (first second : Int × Int) : worth (first + second) = worth first + worth second := by
  simp only [worth, Prod.fst_add, Prod.snd_add]
  omega

namespace Delegate

variable (delegate : Delegate) (rewards votingPowerSum : Int)

def earned : Int := delegate.commissionOf (delegate.eachReward rewards votingPowerSum)

def actualReward : Int := delegate.eachReward rewards votingPowerSum - delegate.earned rewards votingPowerSum

/-- What the delegate's part brings to a distributor other than itself. -/
def portionFor (addr : Address) : Int :=
  ((delegate.others.filter fun dist => dist.address = addr).map fun dist =>
    portionOf (delegate.actualReward rewards votingPowerSum) dist.shares).sum

/-- What is paid to the address by the delegates that it votes for, itself left out. -/
def voterIncome (delegates : List Delegate) (addr : Address) : Int :=
  (delegates.map fun delegate => delegate.portionFor rewards votingPowerSum addr).sum

/-- Own shares pay the base reward and the commission, unless the rest is negative. Without them
the other delegates have to bring as much. -/
def Covered (v3 : Bool) (base income : Int) : Prop :=
  match delegate.selfDistributor v3 with
  | some self => 0 ≤ portionOf (delegate.actualReward rewards votingPowerSum) self.shares + income
  | none => base + delegate.earned rewards votingPowerSum ≤ income

/-- What the delegate is paid for its own shares. -/
def selfPay (v3 : Bool) (base : Int) : Int :=
  match delegate.selfDistributor v3 with
  | some self =>
    base + delegate.earned rewards votingPowerSum + portionOf (delegate.actualReward rewards votingPowerSum) self.shares
  | none => 0

variable {delegate rewards votingPowerSum} {base : Int} {addr : Address}

theorem covered_iff (v3 : Bool) (income : Int) : delegate.Covered rewards votingPowerSum v3 base income ↔
      base + delegate.earned rewards votingPowerSum ≤ delegate.selfPay rewards votingPowerSum v3 base + income := by
  unfold Covered selfPay
  split <;> omega

theorem voterCredits_credited (actualReward : Int) (dists : List Distributor) :
    worth (credited (delegate.voterCredits actualReward dists) addr) =
      (((dists.filter fun dist => dist.address ≠ delegate.address).filter fun dist => dist.address = addr).map fun dist =>
        portionOf actualReward dist.shares).sum := by
  unfold voterCredits
  induction dists.filter fun dist => dist.address ≠ delegate.address with
  | nil => rfl
  | cons dist rest ih =>
    rw [map_cons, credited_cons, worth_add, ih]
    by_cases hit : dist.address = addr
    · simp [hit, worth, split_sum]
    · simp [hit, worth]

theorem selfCredits_credited (v3 : Bool) : worth (credited (delegate.selfCredits v3 base (delegate.earned rewards votingPowerSum)
        (delegate.actualReward rewards votingPowerSum)) addr) =
      if delegate.address = addr then delegate.selfPay rewards votingPowerSum v3 base else 0 := by
  unfold selfCredits selfPay
  split
  next found => simp [found, worth]
  next self found =>
      simp only [found, credited_cons, credited_nil, add_zero]
      split
      · exact split_sum _ _
      · rfl

theorem paidCredits_credited (v3 : Bool) :
    worth (credited (delegate.paidCredits v3 base (delegate.eachReward rewards votingPowerSum)) addr) =
      (if delegate.address = addr then delegate.selfPay rewards votingPowerSum v3 base else 0) +
        delegate.portionFor rewards votingPowerSum addr := by
  have self := @selfCredits_credited delegate rewards votingPowerSum base addr v3
  have voters := @voterCredits_credited delegate addr (delegate.actualReward rewards votingPowerSum) delegate.distList
  unfold paidCredits
  rw [credited_append, worth_add]
  exact congrArg₂ (· + ·) self voters

/-- Every delegate of the list pays as a delegate once and as many times as it is voted for. -/
theorem flatMap_credited (v3 : Bool) (delegates : List Delegate) : worth (credited (delegates.flatMap fun delegate =>
        delegate.paidCredits v3 base (delegate.eachReward rewards votingPowerSum)) addr) =
      (delegates.map fun delegate =>
        if delegate.address = addr then delegate.selfPay rewards votingPowerSum v3 base else 0).sum +
        voterIncome rewards votingPowerSum delegates addr := by
  induction delegates with
  | nil => rfl
  | cons delegate rest ih =>
    simp only [voterIncome] at ih ⊢
    rw [flatMap_cons, credited_append, worth_add, ih, paidCredits_credited]
    simp only [map_cons, sum_cons]
    omega

theorem sum_selfPay {delegates : List Delegate} (distinct : (delegates.map Delegate.address).Nodup) (member : delegate ∈ delegates)
    (v3 : Bool) :
    (delegates.map fun other =>
      if other.address = delegate.address then other.selfPay rewards votingPowerSum v3 base else 0).sum =
      delegate.selfPay rewards votingPowerSum v3 base := by
  have own := sum_ite_key distinct (mem_map_of_mem member) (delegate.selfPay rewards votingPowerSum v3 base)
  rw [map_map] at own
  rw [← own]
  congr 1
  apply map_congr_left
  intro other listed
  by_cases same : other.address = delegate.address
  · have equal := inj_on_of_nodup_map distinct listed member same
    simp [equal]
  · simp [same, Ne.symm same]

theorem portionFor_nonneg (shared : sharesSum delegate.distList ≤ 1000000000)
    (nonneg : 0 ≤ delegate.actualReward rewards votingPowerSum) : 0 ≤ delegate.portionFor rewards votingPowerSum addr := by
  apply sum_nonneg
  intro amount member
  obtain ⟨dist, listed, rfl⟩ := mem_map.mp member
  exact portionOf_nonneg nonneg (shares_le shared (mem_others (mem_of_mem_filter listed)))

end Delegate

section

variable (baseReward totalRewards : Int) (delegates : List Delegate) (v3 : Bool)

/-- The map of `computeRewardMap` when the pool exceeds the base rewards. -/
theorem computeRewardMap_amount (voted : 0 < votingPowerSum delegates) (above : baseReward * delegates.length < totalRewards) :
    ∃ rmap, computeRewardMap baseReward totalRewards delegates v3 = some rmap ∧
      ∀ key, rmap.amount key = credited (delegates.flatMap fun delegate => delegate.paidCredits v3 baseReward
        (delegate.eachReward (totalRewards - baseReward * delegates.length) (votingPowerSum delegates))) key := by
  have some : delegates ≠ [] := by
    rintro rfl
    exact absurd voted (by decide)
  have size : 0 < (delegates.length : Int) := by exact_mod_cast length_pos_iff.mpr some
  simp only [computeRewardMap]
  rw [if_neg (by omega), if_neg (by omega), if_neg voted.ne', Int.mul_ediv_cancel _ size.ne']
  have empty : Delegate.Own ⟨baseReward, ∅⟩ := fun _ _ found => by cases found
  exact ⟨_, rfl, (Delegate.foldl_pay_holds v3 _ _ delegates ⟨RewardMap.Records.empty baseReward, empty⟩).1.amount⟩

/-- Exactly the delegates that are covered get the base reward and their commission. A distributor
of its own is covered whenever votes are non-negative and shares are parts of the whole. -/
theorem members_paid_iff (distinct : (delegates.map Delegate.address).Nodup) (voted : 0 < votingPowerSum delegates)
    (above : baseReward * delegates.length < totalRewards) :
    let rewards := totalRewards - baseReward * delegates.length
    let income := Delegate.voterIncome rewards (votingPowerSum delegates) delegates
    (∃ rmap, computeRewardMap baseReward totalRewards delegates v3 = some rmap ∧
      ∀ delegate ∈ delegates,
        baseReward + delegate.commissionOf (delegate.eachReward rewards (votingPowerSum delegates)) ≤
            (rmap.amount delegate.address).1 + (rmap.amount delegate.address).2 ↔
          delegate.Covered rewards (votingPowerSum delegates) v3 baseReward (income delegate.address)) ∧
      ((∀ delegate ∈ delegates, 0 ≤ delegate.votingPower.toInt ∧ delegate.commission.toNat ≤ 1000000000 ∧
          Delegate.sharesSum delegate.distList ≤ 1000000000 ∧ ∀ dist ∈ delegate.distList, dist.autobid.toNat ≤ 100) →
        ∀ delegate ∈ delegates, (delegate.selfDistributor v3).isSome →
          delegate.Covered rewards (votingPowerSum delegates) v3 baseReward (income delegate.address)) := by
  intro rewards income
  constructor
  · obtain ⟨rmap, computed, amount⟩ := computeRewardMap_amount baseReward totalRewards delegates v3 voted above
    refine ⟨rmap, computed, ?_⟩
    intro delegate member
    have paid : worth (rmap.amount delegate.address) =
        delegate.selfPay rewards (votingPowerSum delegates) v3 baseReward + income delegate.address := by
      rw [amount, Delegate.flatMap_credited, Delegate.sum_selfPay distinct member]
    rw [Delegate.covered_iff, ← paid]
    rfl
  · intro ordinary delegate member own
    obtain ⟨self, found⟩ := Option.isSome_iff_exists.mp own
    have actual : ∀ other ∈ delegates, 0 ≤ other.actualReward rewards (votingPowerSum delegates) := by
      intro other listed
      obtain ⟨votes, rate, _⟩ := ordinary other listed
      have each := portion_nonneg (show 0 ≤ rewards by omega) votes voted
      exact Int.sub_nonneg_of_le (Delegate.commissionOf_bounds rate each).2
    have incomeNonneg : 0 ≤ income delegate.address := by
      apply sum_nonneg
      intro amount paid
      obtain ⟨other, listed, rfl⟩ := mem_map.mp paid
      exact Delegate.portionFor_nonneg (ordinary other listed).2.2.1 (actual other listed)
    obtain ⟨_, _, shared, percentages⟩ := ordinary delegate member
    have small := (Delegate.selfDistributor_spec shared percentages found).1
    have portion := Delegate.portionOf_nonneg (actual delegate member) (show self.shares.toNat ≤ 1000000000 by omega)
    simp only [Delegate.Covered, found]
    omega

end

namespace Sample

/-- Everything is voted by another address than the delegate. -/
def voted : Delegate := ⟨1, 10, 100000000, [⟨9, 0, 1000000000⟩]⟩

end Sample

theorem votedByOthers_unpaid : Sample.voted.commissionOf (Sample.voted.eachReward 970 10) = 97 ∧
      (computeRewardMap 30 1000 [Sample.voted] true).map RewardMap.entries = some [(9, 873, 0)] := by
  decide +kernel

theorem two_delegates_covered : ∃ rmap, computeRewardMap 30 1000 Sample.delegates true = some rmap ∧
      ∀ delegate ∈ Sample.delegates, 30 + delegate.commissionOf (delegate.eachReward 940 100) ≤
          (rmap.amount delegate.address).1 + (rmap.amount delegate.address).2 ↔
        delegate.Covered 940 100 true 30 (Delegate.voterIncome 940 100 Sample.delegates delegate.address) :=
  (members_paid_iff 30 1000 Sample.delegates true (by decide) (by decide) (by decide)).1

/-! Both sums are kept in the receiver of the additions from the first entry on. -/

/-- What a sum points to: the zero that it starts with or the receiver of all additions. -/
inductive SumCell where
  | zero
  | r

structure Sums where
  r : Int
  distSum : SumCell
  autobidSum : SumCell

namespace Sums

variable (sums : Sums)

def value : SumCell → Int
  | .zero => 0
  | .r => sums.r

def addEntry (info : Address × Int × Int) : Sums :=
  let sums := { sums with r := sums.value sums.distSum + info.2.1, distSum := .r }
  { sums with r := sums.value sums.autobidSum + info.2.2, autobidSum := .r }

end Sums

/-- The entries come in the order in which the map is ranged over. -/
def toList (infos : List (Address × Int × Int)) : Int × Int × List (Address × Int × Int) :=
  let sums := infos.foldl Sums.addEntry ⟨0, .zero, .zero⟩
  (sums.value sums.distSum, sums.value sums.autobidSum, infos.mergeSort fun first second => first.1 ≤ second.1)

variable (infos : List (Address × Int × Int))

theorem foldl_addEntry (r : Int) : infos.foldl Sums.addEntry ⟨r, .r, .r⟩ = ⟨r + (infos.map fun info => worth info.2).sum, .r, .r⟩ := by
  induction infos generalizing r with
  | nil => simp
  | cons info rest ih =>
    refine (ih _).trans ?_
    simp [worth, Sums.value, add_assoc]

def distTotal (infos : List (Address × Int × Int)) : Int := (infos.map fun info => info.2.1).sum

def autobidTotal (infos : List (Address × Int × Int)) : Int := (infos.map fun info => info.2.2).sum

theorem sum_worth : (infos.map fun info => worth info.2).sum = distTotal infos + autobidTotal infos :=
  sum_map_add

theorem toList_sums_iff : (toList infos).1 = distTotal infos ∧ (toList infos).2.1 = autobidTotal infos ↔
      ∀ first ∈ infos.head?, first.2.1 = distTotal infos ∧ first.2.1 = autobidTotal infos := by
  cases infos with
  | nil => exact ⟨nofun, fun _ => ⟨rfl, rfl⟩⟩
  | cons info rest =>
    have toListCons : (toList (info :: rest)).1 = distTotal (info :: rest) + autobidTotal (info :: rest) - info.2.1 ∧ (toList
        (info :: rest)).2.1 = (toList (info :: rest)).1 := by
      have first : Sums.addEntry ⟨0, .zero, .zero⟩ info = ⟨info.2.2, .r, .r⟩ := by simp [Sums.addEntry, Sums.value]
      simp only [toList, foldl_cons, first, foldl_addEntry, Sums.value, ← sum_worth, and_true]
      simp only [map_cons, sum_cons, worth]
      omega
    obtain ⟨sum, same⟩ := toListCons
    simp only [List.head?_cons, Option.mem_some_iff, forall_eq']
    omega

/-- The list has all entries by address. The sums are those of the entries, whatever the order of the
map, only if each `DistAmount` is all of either sum. -/
theorem toList_spec (rmap : RewardMap) : (∀ infos, infos.Perm rmap.entries →
      (toList infos).2.2.Perm rmap.entries ∧ (toList infos).2.2.Pairwise fun first second => first.1 ≤ second.1) ∧
    ((∀ infos, infos.Perm rmap.entries → (toList infos).1 = distTotal rmap.entries ∧ (toList infos).2.1 = autobidTotal rmap.entries) ↔
      ∀ info ∈ rmap.entries, info.2.1 = distTotal rmap.entries ∧ info.2.1 = autobidTotal rmap.entries) := by
  have dist : ∀ {infos}, infos.Perm rmap.entries → distTotal infos = distTotal rmap.entries :=
    fun ranged => (ranged.map _).sum_eq
  have autobid : ∀ {infos}, infos.Perm rmap.entries → autobidTotal infos = autobidTotal rmap.entries :=
    fun ranged => (ranged.map _).sum_eq
  refine ⟨?_, ?_, ?_⟩
  · intro infos ranged
    refine ⟨(mergeSort_perm _ _).trans ranged, ?_⟩
    refine (pairwise_mergeSort ?_ ?_ infos).imp (by simp)
    · intro first second third lower upper
      simp only [decide_eq_true_eq] at lower upper ⊢
      exact lower.trans upper
    · intro first second
      simp only [Bool.or_eq_true, decide_eq_true_eq]
      exact le_total _ _
  · intro right info member
    -- the order that starts with this entry
    have ranged := (perm_cons_erase member).symm
    have sums := right _ ranged
    rw [← dist ranged, ← autobid ranged, toList_sums_iff] at sums
    rw [← dist ranged, ← autobid ranged]
    exact sums info rfl
  · intro each infos ranged
    rw [← dist ranged, ← autobid ranged, toList_sums_iff]
    intro first leads
    rw [dist ranged, autobid ranged]
    exact each first (ranged.mem_iff.mp (mem_of_mem_head? leads))

theorem twoEntries_toList : let rmap := ((⟨0, ∅⟩ : RewardMap).add (.own 5) 7 1).add (.own 30) 1 2
    distTotal rmap.entries = 35 ∧ autobidTotal rmap.entries = 8 ∧ (toList rmap.entries).1 = 13 ∧ (toList rmap.entries).2.1 = 13 := by
  decide

end MeterPov.Governor
