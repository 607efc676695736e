import MeterPov.Auction.ControlBlock
import MeterPov.Lib.Portions

/-! The rewards of an epoch's validators (`consensus/governor/reward_calc.go` and `types.go`).

The map stores pointers to the amounts and adds to them in place. Where a delegate has no distributor
of its own, the pointer is the one to the base reward, so that entries can share it. -/

set_option autoImplicit false

namespace MeterPov.Governor

open Lib Auction List AList

structure Distributor where
  address : Address
  autobid : UInt8
  shares : UInt64
  deriving DecidableEq, Repr

structure Delegate where
  address : Address
  votingPower : Int64
  commission : UInt64
  distList : List Distributor
  deriving DecidableEq, Repr

/-- What a `DistAmount` points to: a number of its own or the base reward. -/
inductive Cell where
  | own (amount : Int)
  | base
  deriving DecidableEq, Repr

structure RewardInfo where
  distAmount : Cell
  autobidAmount : Int
  deriving DecidableEq, Repr

structure RewardMap where
  baseReward : Int
  infos : AList fun _ : Address => RewardInfo

namespace RewardMap

variable (rmap : RewardMap)

def value : Cell → Int
  | .own amount => amount
  | .base => rmap.baseReward

def add (dist : Cell) (autobid : Int) (addr : Address) : RewardMap :=
  match rmap.infos.lookup addr with
  | some ⟨.own amount, old⟩ =>
    { rmap with infos := rmap.infos.insert addr ⟨.own (amount + rmap.value dist), old + autobid⟩ }
  | some ⟨.base, old⟩ =>
    -- every entry with this pointer changes
    { baseReward := rmap.baseReward + rmap.value dist, infos := rmap.infos.insert addr ⟨.base, old + autobid⟩ }
  | none => { rmap with infos := rmap.infos.insert addr ⟨dist, autobid⟩ }

/-- The address, `DistAmount` and `AutobidAmount` of every entry. -/
def entries : List (Address × Int × Int) :=
  rmap.infos.entries.map fun entry => (entry.1, rmap.value entry.2.distAmount, entry.2.autobidAmount)

end RewardMap

namespace Delegate

variable (delegate : Delegate)

def getSelfDistributor : Option Distributor :=
  delegate.distList.find? fun dist => dist.address = delegate.address

def mergeSelf (merged : UInt64 × UInt8) (dist : Distributor) : UInt64 × UInt8 :=
  if dist.address = delegate.address then
    (merged.1 + dist.shares, if merged.2 < dist.autobid then dist.autobid else merged.2)
  else merged

def getSelfDistributorV3 : Option Distributor :=
  let (shares, autobid) := delegate.distList.foldl delegate.mergeSelf (0, 0)
  if 0 < shares then some ⟨delegate.address, autobid, shares⟩ else none

def selfDistributor (v3 : Bool) : Option Distributor :=
  if v3 then delegate.getSelfDistributorV3 else delegate.getSelfDistributor

def autobidOf (amount : Int) (autobid : UInt8) : Int := amount * autobid.toNat / 100

def payBase (v3 : Bool) (rmap : RewardMap) : RewardMap :=
  match delegate.selfDistributor v3 with
  | none => rmap.add .base 0 delegate.address
  | some self =>
    let autobidAmount := autobidOf rmap.baseReward self.autobid
    rmap.add (.own (rmap.baseReward - autobidAmount)) autobidAmount delegate.address

def portionOf (actualReward : Int) (shares : UInt64) : Int := actualReward * shares.toInt64.toInt / 1000000000

def payVoter (actualReward : Int) (rmap : RewardMap) (dist : Distributor) : RewardMap :=
  if dist.address = delegate.address then rmap
  else
    let voterReward := portionOf actualReward dist.shares
    let autobidReward := autobidOf voterReward dist.autobid
    rmap.add (.own (voterReward - autobidReward)) autobidReward dist.address

def paySelf (v3 : Bool) (commission actualReward : Int) (rmap : RewardMap) : RewardMap :=
  match delegate.selfDistributor v3 with
  | none => rmap
  | some self =>
    let delegateSelf := rmap.baseReward + commission + portionOf actualReward self.shares
    let autobidAmount := autobidOf delegateSelf self.autobid
    rmap.add (.own (delegateSelf - autobidAmount)) autobidAmount delegate.address

def eachReward (rewards votingPowerSum : Int) : Int := rewards * delegate.votingPower.toInt / votingPowerSum

def commissionOf (eachReward : Int) : Int := eachReward * delegate.commission.toInt64.toInt / 1000000000

def pay (v3 : Bool) (rewards votingPowerSum : Int) (rmap : RewardMap) : RewardMap :=
  let eachReward := delegate.eachReward rewards votingPowerSum
  let commission := delegate.commissionOf eachReward
  let actualReward := eachReward - commission
  delegate.distList.foldl (delegate.payVoter actualReward) (delegate.paySelf v3 commission actualReward rmap)

end Delegate

def votingPowerSum (delegates : List Delegate) : Int := (delegates.map fun delegate => delegate.votingPower.toInt).sum

/-- Dividing by no voting power panics. -/
def computeRewardMap (baseReward totalRewards : Int) (delegates : List Delegate) (v3 : Bool) : Option RewardMap :=
  let size : Int := delegates.length
  let baseRewards := baseReward * size
  if size ≤ 0 then some ⟨baseReward, ∅⟩
  else if baseRewards ≥ totalRewards then
    some (delegates.foldl (fun rmap delegate => delegate.payBase v3 rmap) ⟨totalRewards / size, ∅⟩)
  else if votingPowerSum delegates = 0 then none
  else
    let rewards := totalRewards - baseRewards
    some (delegates.foldl (fun rmap delegate => delegate.pay v3 rewards (votingPowerSum delegates) rmap)
      ⟨baseRewards / size, ∅⟩)

/-! Entries that share no pointer hold what is credited to them. -/

namespace RewardMap

variable {rmap : RewardMap} {base : Int} {credits : List (Address × Int × Int)} {addr : Address}

def amount (rmap : RewardMap) (addr : Address) : Int × Int :=
  match rmap.infos.lookup addr with
  | none => 0
  | some info => (rmap.value info.distAmount, info.autobidAmount)

def Unshared (rmap : RewardMap) (addr : Address) : Prop :=
  ∀ info, rmap.infos.lookup addr = some info → info.distAmount ≠ .base

structure Records (rmap : RewardMap) (base : Int) (credits : List (Address × Int × Int)) : Prop where
  baseReward : rmap.baseReward = base
  amount : ∀ key, rmap.amount key = credited credits key
  keys : ∀ key, key ∈ rmap.infos.keys ↔ key ∈ credits.map Prod.fst

theorem amount_insert (infos : AList fun _ : Address => RewardInfo) (info : RewardInfo) (addr key : Address) :
    amount ⟨base, infos.insert addr info⟩ key =
      if addr = key then (value ⟨base, infos⟩ info.distAmount, info.autobidAmount) else amount ⟨base, infos⟩ key := by
  have same : ∀ cell, value ⟨base, infos.insert addr info⟩ cell = value ⟨base, infos⟩ cell := by
    intro cell
    cases cell <;> rfl
  by_cases hit : addr = key
  · subst hit
    simp [amount, same]
  · simp [amount, hit, lookup_insert_ne (Ne.symm hit), same]

theorem Unshared.add_baseReward (unshared : rmap.Unshared addr) (dist : Cell) (autobid : Int) :
    (rmap.add dist autobid addr).baseReward = rmap.baseReward := by
  unfold RewardMap.add
  split
  · rfl
  next old found => exact absurd rfl (unshared _ found)
  · rfl

theorem Unshared.add_amount (unshared : rmap.Unshared addr) (dist : Cell) (autobid : Int) (key : Address) :
    (rmap.add dist autobid addr).amount key =
      rmap.amount key + if addr = key then (rmap.value dist, autobid) else 0 := by
  unfold RewardMap.add
  split
  next amount old found =>
      rw [amount_insert]
      by_cases hit : addr = key
      · subst hit
        simp [RewardMap.amount, found, value]
      · simp [hit]
  next old found => exact absurd rfl (unshared _ found)
  next absent =>
      rw [amount_insert]
      by_cases hit : addr = key
      · subst hit
        simp [RewardMap.amount, absent]
      · simp [hit]

theorem mem_add (dist : Cell) (autobid : Int) (key : Address) :
    key ∈ (rmap.add dist autobid addr).infos.keys ↔ key = addr ∨ key ∈ rmap.infos.keys := by
  unfold RewardMap.add
  split <;> exact mem_insert _

theorem Records.add (records : rmap.Records base credits) (unshared : rmap.Unshared addr) (dist : Cell) (autobid : Int) :
    (rmap.add dist autobid addr).Records base (credits ++ [(addr, rmap.value dist, autobid)]) where
  baseReward := (unshared.add_baseReward dist autobid).trans records.baseReward
  amount := by
    intro key
    rw [unshared.add_amount, records.amount]
    simp
  keys := by
    intro key
    rw [mem_add, records.keys]
    simp [or_comm]

theorem Records.empty (base : Int) : Records ⟨base, ∅⟩ base [] where
  baseReward := rfl
  amount := fun _ => rfl
  keys := fun _ => by simp

end RewardMap

namespace Delegate

variable {delegate : Delegate} {rmap : RewardMap} {base : Int} {credits : List (Address × Int × Int)}

def split (amount : Int) (autobid : UInt8) : Int × Int := (amount - autobidOf amount autobid, autobidOf amount autobid)

theorem split_sum (amount : Int) (autobid : UInt8) : (split amount autobid).1 + (split amount autobid).2 = amount := by
  simp [split]

theorem split_nonneg {amount autobid} (nonneg : 0 ≤ amount) (percentage : autobid.toNat ≤ 100) :
    0 ≤ split amount autobid := by
  have low : 0 ≤ autobidOf amount autobid := portion_nonneg nonneg (Int.natCast_nonneg _) (by decide)
  have high : autobidOf amount autobid ≤ amount := portion_le nonneg (by omega) (by decide)
  exact ⟨Int.sub_nonneg_of_le high, low⟩

def baseCredit (delegate : Delegate) (v3 : Bool) (base : Int) : Address × Int × Int :=
  match delegate.selfDistributor v3 with
  | none => (delegate.address, base, 0)
  | some self => (delegate.address, split base self.autobid)

theorem payBase_records (records : rmap.Records base credits) (fresh : delegate.address ∉ credits.map Prod.fst) (v3 : Bool) :
    (delegate.payBase v3 rmap).Records base (credits ++ [delegate.baseCredit v3 base]) := by
  have absent : rmap.infos.lookup delegate.address = none := by
    rw [lookup_eq_none]
    exact fun member => fresh ((records.keys _).mp member)
  have unshared : rmap.Unshared delegate.address := by
    intro info found
    rw [absent] at found
    cases found
  unfold payBase baseCredit
  split
  next =>
      have added := records.add unshared .base 0
      rwa [show rmap.value .base = base from records.baseReward] at added
  next self _ =>
      have added := records.add unshared (.own (rmap.baseReward - autobidOf rmap.baseReward self.autobid))
        (autobidOf rmap.baseReward self.autobid)
      rw [records.baseReward] at added ⊢
      exact added

/-- Each delegate is paid once, so that nothing is added to a shared pointer. -/
theorem foldl_payBase_records {delegates : List Delegate} (distinct : (delegates.map Delegate.address).Nodup)
    (records : rmap.Records base credits) (fresh : ∀ delegate ∈ delegates, delegate.address ∉ credits.map Prod.fst) (v3 : Bool) :
    (delegates.foldl (fun rmap delegate => delegate.payBase v3 rmap) rmap).Records base
      (credits ++ delegates.map fun delegate => delegate.baseCredit v3 base) := by
  induction delegates generalizing rmap credits with
  | nil => simpa using records
  | cons delegate rest ih =>
    obtain ⟨apart, restDistinct⟩ := nodup_cons.mp distinct
    have first := payBase_records records (fresh delegate mem_cons_self) v3
    have restFresh : ∀ other ∈ rest, other.address ∉ (credits ++ [delegate.baseCredit v3 base]).map Prod.fst := by
      intro other member
      have addressed : (delegate.baseCredit v3 base).1 = delegate.address := by
        unfold baseCredit
        split <;> rfl
      have different : other.address ≠ delegate.address := fun same => apart (same ▸ mem_map_of_mem member)
      have old := fresh other (mem_cons_of_mem _ member)
      simp only [map_append, map_cons, map_nil, mem_append, mem_singleton, addressed, not_or]
      exact ⟨old, different⟩
    have rest := ih restDistinct first restFresh
    simpa using rest

/-! When the pool exceeds the base rewards every entry has numbers of its own. -/

def Own (rmap : RewardMap) : Prop := ∀ addr, rmap.Unshared addr

theorem Own.add (own : Own rmap) (amount autobid : Int) (addr : Address) : Own (rmap.add (.own amount) autobid addr) := by
  intro key info found
  unfold RewardMap.add at found
  by_cases hit : key = addr
  · subst hit
    split at found
    next =>
        rw [lookup_insert] at found
        cases found
        exact Cell.noConfusion
    next shared => exact absurd rfl (own _ _ shared)
    next =>
        rw [lookup_insert] at found
        cases found
        exact Cell.noConfusion
  · split at found
    next =>
        rw [lookup_insert_ne hit] at found
        exact own key info found
    next =>
        rw [lookup_insert_ne hit] at found
        exact own key info found
    next =>
        rw [lookup_insert_ne hit] at found
        exact own key info found

/-- A map without shared pointers that holds the credits. -/
def Holds (rmap : RewardMap) (base : Int) (credits : List (Address × Int × Int)) : Prop :=
  rmap.Records base credits ∧ Own rmap

theorem Holds.add (holds : Holds rmap base credits) (amount : Int) (autobid : UInt8) (addr : Address) :
    Holds (rmap.add (.own (amount - autobidOf amount autobid)) (autobidOf amount autobid) addr) base
      (credits ++ [(addr, split amount autobid)]) :=
  ⟨holds.1.add (holds.2 addr) _ _, holds.2.add _ _ _⟩

def voterCredits (delegate : Delegate) (actualReward : Int) (dists : List Distributor) : List (Address × Int × Int) :=
  (dists.filter fun dist => dist.address ≠ delegate.address).map fun dist =>
    (dist.address, split (portionOf actualReward dist.shares) dist.autobid)

theorem foldl_payVoter_holds (actualReward : Int) (dists : List Distributor) (holds : Holds rmap base credits) :
    Holds (dists.foldl (delegate.payVoter actualReward) rmap) base
      (credits ++ delegate.voterCredits actualReward dists) := by
  induction dists generalizing rmap credits with
  | nil => simpa [voterCredits] using holds
  | cons dist rest ih =>
    by_cases own : dist.address = delegate.address
    · have kept := ih holds
      simpa [payVoter, voterCredits, own] using kept
    · have paid := ih (holds.add (portionOf actualReward dist.shares) dist.autobid dist.address)
      simpa [payVoter, voterCredits, own] using paid

def selfCredits (delegate : Delegate) (v3 : Bool) (base commission actualReward : Int) : List (Address × Int × Int) :=
  match delegate.selfDistributor v3 with
  | none => []
  | some self =>
    [(delegate.address, split (base + commission + portionOf actualReward self.shares) self.autobid)]

theorem paySelf_holds (v3 : Bool) (commission actualReward : Int) (holds : Holds rmap base credits) :
    Holds (delegate.paySelf v3 commission actualReward rmap) base
      (credits ++ delegate.selfCredits v3 base commission actualReward) := by
  unfold paySelf selfCredits
  split
  · simpa using holds
  next self _ =>
      rw [holds.1.baseReward]
      exact holds.add _ _ _

def paidCredits (delegate : Delegate) (v3 : Bool) (base eachReward : Int) : List (Address × Int × Int) :=
  let commission := delegate.commissionOf eachReward
  delegate.selfCredits v3 base commission (eachReward - commission) ++
    delegate.voterCredits (eachReward - commission) delegate.distList

theorem pay_holds (v3 : Bool) (rewards votingPowerSum : Int) (holds : Holds rmap base credits) :
    Holds (delegate.pay v3 rewards votingPowerSum rmap) base
      (credits ++ delegate.paidCredits v3 base (delegate.eachReward rewards votingPowerSum)) := by
  have self := @paySelf_holds delegate _ _ _ v3 (delegate.commissionOf (delegate.eachReward rewards votingPowerSum))
    (delegate.eachReward rewards votingPowerSum - delegate.commissionOf (delegate.eachReward rewards votingPowerSum)) holds
  have voters := @foldl_payVoter_holds delegate _ _ _
    (delegate.eachReward rewards votingPowerSum - delegate.commissionOf (delegate.eachReward rewards votingPowerSum))
    delegate.distList self
  rw [append_assoc] at voters
  exact voters

theorem foldl_pay_holds (v3 : Bool) (rewards votingPowerSum : Int) (delegates : List Delegate) (holds : Holds rmap base credits) :
    Holds (delegates.foldl (fun rmap delegate => delegate.pay v3 rewards votingPowerSum rmap) rmap) base
      (credits ++ delegates.flatMap fun delegate => delegate.paidCredits v3 base (delegate.eachReward rewards votingPowerSum)) := by
  induction delegates generalizing rmap credits with
  | nil => simpa using holds
  | cons delegate rest ih =>
    have step := ih (delegate.pay_holds v3 rewards votingPowerSum holds)
    simpa using step

/-! The shares of a delegate's distributors, its own ones merged, are at most all of them. -/

def sharesSum (dists : List Distributor) : Nat := (dists.map fun dist => dist.shares.toNat).sum

def others (delegate : Delegate) : List Distributor :=
  delegate.distList.filter fun dist => dist.address ≠ delegate.address

theorem sharesSum_filter (addr : Address) (dists : List Distributor) :
    sharesSum (dists.filter fun dist => dist.address = addr) + sharesSum (dists.filter fun dist => dist.address ≠ addr) =
      sharesSum dists := by
  induction dists with
  | nil => rfl
  | cons dist rest ih =>
    by_cases own : dist.address = addr
    · simp [sharesSum, own] at ih ⊢
      omega
    · simp [sharesSum, own] at ih ⊢
      omega

theorem foldl_mergeSelf_spec (dists : List Distributor) (merged : UInt64 × UInt8)
    (fits : merged.1.toNat + sharesSum (dists.filter fun dist => dist.address = delegate.address) < 2 ^ 64)
    (percentage : merged.2.toNat ≤ 100) (percentages : ∀ dist ∈ dists, dist.autobid.toNat ≤ 100) :
    (dists.foldl delegate.mergeSelf merged).1.toNat =
        merged.1.toNat + sharesSum (dists.filter fun dist => dist.address = delegate.address) ∧
      (dists.foldl delegate.mergeSelf merged).2.toNat ≤ 100 := by
  induction dists generalizing merged with
  | nil => exact ⟨rfl, percentage⟩
  | cons dist rest ih =>
    have restPercentages : ∀ other ∈ rest, other.autobid.toNat ≤ 100 :=
      fun other member => percentages other (mem_cons_of_mem _ member)
    rw [foldl_cons]
    by_cases own : dist.address = delegate.address
    · simp only [sharesSum, own, decide_true, filter_cons_of_pos, map_cons, sum_cons] at fits ⊢
      have added : (merged.1 + dist.shares).toNat = merged.1.toNat + dist.shares.toNat := by
        rw [UInt64.toNat_add]
        omega
      have step := ih (delegate.mergeSelf merged dist) (by
        simp only [mergeSelf, own, if_true, added, sharesSum]
        omega) (by
        simp only [mergeSelf, own, if_true]
        split
        · exact percentages dist mem_cons_self
        · exact percentage) restPercentages
      simp only [mergeSelf, own, if_true, added, sharesSum] at step ⊢
      exact ⟨step.1.trans (by omega), step.2⟩
    · have step := ih (delegate.mergeSelf merged dist)
      simp only [mergeSelf, own, if_false] at step ⊢
      rw [filter_cons_of_neg (by simpa using own)] at fits ⊢
      exact step fits percentage restPercentages

variable (shared : sharesSum delegate.distList ≤ 1000000000) (percentages : ∀ dist ∈ delegate.distList, dist.autobid.toNat ≤ 100)

include shared percentages

theorem selfDistributor_spec {v3 self} (found : delegate.selfDistributor v3 = some self) :
    self.shares.toNat + sharesSum delegate.others ≤ 1000000000 ∧ self.autobid.toNat ≤ 100 := by
  have partition := sharesSum_filter delegate.address delegate.distList
  cases v3 with
  | true =>
    have merged := @foldl_mergeSelf_spec delegate delegate.distList (0, 0) (by
      change 0 + _ < _
      omega) (by decide) percentages
    simp only [selfDistributor, getSelfDistributorV3, if_true] at found
    split at found
    · cases found
      refine ⟨?_, merged.2⟩
      have total : (delegate.distList.foldl delegate.mergeSelf (0, 0)).1.toNat = 0 + _ := merged.1
      simp only [others]
      omega
    · cases found
  | false =>
    have member := mem_of_find?_eq_some found
    have own := List.find?_some found
    have first : self.shares.toNat ≤ sharesSum (delegate.distList.filter fun dist => dist.address = delegate.address) := by
      apply le_sum_of_mem
      apply mem_map_of_mem
      exact mem_filter.mpr ⟨member, own⟩
    refine ⟨?_, percentages self member⟩
    simp only [others]
    omega

end Delegate

def worth (amounts : Int × Int) : Int := amounts.1 + amounts.2

theorem worth_sum (list : List (Int × Int)) : (list.map worth).sum = worth list.sum := by
  induction list with
  | nil => rfl
  | cons amounts rest ih =>
    simp only [map_cons, sum_cons, ih, worth, Prod.fst_add, Prod.snd_add]
    omega

namespace Delegate

variable {delegate : Delegate} {base eachReward : Int}

theorem portionOf_eq (actualReward : Int) {shares} (small : shares.toNat ≤ 1000000000) :
    portionOf actualReward shares = actualReward * shares.toNat / 1000000000 := by
  rw [portionOf, toInt64_of_lt (by omega)]

theorem portionOf_nonneg {actualReward shares} (nonneg : 0 ≤ actualReward) (small : shares.toNat ≤ 1000000000) : 0 ≤ portionOf actualReward shares := by
  rw [portionOf_eq _ small]
  exact portion_nonneg nonneg (Int.natCast_nonneg _) (by decide)

theorem commissionOf_bounds (rate : delegate.commission.toNat ≤ 1000000000) (nonneg : 0 ≤ eachReward) :
    0 ≤ delegate.commissionOf eachReward ∧ delegate.commissionOf eachReward ≤ eachReward := by
  rw [commissionOf, toInt64_of_lt (by omega)]
  exact ⟨portion_nonneg nonneg (Int.natCast_nonneg _) (by decide), portion_le nonneg (by omega) (by decide)⟩

theorem shares_le (shared : sharesSum delegate.distList ≤ 1000000000) {dist} (member : dist ∈ delegate.distList) : dist.shares.toNat ≤ 1000000000 :=
  (le_sum_of_mem (mem_map_of_mem member)).trans shared

theorem mem_others {dist} (member : dist ∈ delegate.others) : dist ∈ delegate.distList :=
  (mem_filter.mp member).1

theorem voterCredits_worth (shared : sharesSum delegate.distList ≤ 1000000000) (actualReward : Int) :
    ((delegate.voterCredits actualReward delegate.distList).map fun credit => worth credit.2).sum =
      (portions actualReward 1000000000 (delegate.others.map fun dist => (dist.shares.toNat : Int))).sum := by
  simp only [voterCredits, portions, map_map]
  congr 1
  apply map_congr_left
  intro dist member
  have small := shares_le shared (mem_others member)
  simp only [Function.comp, worth, split_sum, portionOf_eq _ small]

theorem others_shares : ((delegate.others.map fun dist => (dist.shares.toNat : Int))).sum = sharesSum delegate.others := by
  rw [sharesSum, Nat.cast_list_sum, map_map]
  rfl

theorem others_le (shared : sharesSum delegate.distList ≤ 1000000000) : sharesSum delegate.others ≤ 1000000000 := by
  have partition := sharesSum_filter delegate.address delegate.distList
  simp only [others]
  omega

section

variable (rate : delegate.commission.toNat ≤ 1000000000) (shared : sharesSum delegate.distList ≤ 1000000000)
  (percentages : ∀ dist ∈ delegate.distList, dist.autobid.toNat ≤ 100) (baseNonneg : 0 ≤ base) (nonneg : 0 ≤ eachReward)

include rate shared percentages baseNonneg nonneg

/-- A delegate and its distributors receive at most the base reward and the delegate's part. -/
theorem paidCredits_worth_le (v3 : Bool) :
    ((delegate.paidCredits v3 base eachReward).map fun credit => worth credit.2).sum ≤ base + eachReward := by
  obtain ⟨commissionNonneg, commissionLe⟩ := commissionOf_bounds rate nonneg
  simp only [paidCredits]
  generalize delegate.commissionOf eachReward = commission at commissionNonneg commissionLe ⊢
  have actualNonneg : 0 ≤ eachReward - commission := Int.sub_nonneg_of_le commissionLe
  rw [map_append, sum_append, voterCredits_worth shared]
  cases found : delegate.selfDistributor v3 with
  | none =>
    have voters := portions_sum_le actualNonneg (by decide)
      (show (delegate.others.map fun dist => (dist.shares.toNat : Int)).sum ≤ 1000000000 by
        have bound := others_le shared
        rw [others_shares]
        omega)
    simp only [selfCredits, found, map_nil, sum_nil]
    omega
  | some self =>
    obtain ⟨bound, _⟩ := selfDistributor_spec shared percentages found
    have paid := portions_sum_le actualNonneg (by decide)
      (show ((self.shares.toNat : Int) :: delegate.others.map fun dist => (dist.shares.toNat : Int)).sum ≤ 1000000000 by
        rw [sum_cons, others_shares]
        omega)
    simp only [portions, map_cons, sum_cons] at paid
    simp only [selfCredits, found, portions, map_cons, map_nil, sum_cons, sum_nil, worth, split_sum,
      portionOf_eq _ (show self.shares.toNat ≤ 1000000000 by omega)]
    omega

theorem paidCredits_nonneg (v3 : Bool) : ∀ credit ∈ delegate.paidCredits v3 base eachReward, 0 ≤ credit.2 := by
  obtain ⟨commissionNonneg, commissionLe⟩ := commissionOf_bounds rate nonneg
  have actualNonneg := Int.sub_nonneg_of_le commissionLe
  intro credit member
  rcases mem_append.mp member with own | voter
  · cases found : delegate.selfDistributor v3 with
    | none =>
      simp only [selfCredits, found] at own
      cases own
    | some self =>
      obtain ⟨bound, percentage⟩ := selfDistributor_spec shared percentages found
      have portion := portionOf_nonneg actualNonneg (show self.shares.toNat ≤ 1000000000 by omega)
      simp only [selfCredits, found, mem_singleton] at own
      subst own
      exact split_nonneg (by omega) percentage
  · obtain ⟨dist, listed, rfl⟩ := mem_map.mp voter
    have inList := mem_others listed
    exact split_nonneg (portionOf_nonneg actualNonneg (shares_le shared inList)) (percentages dist inList)

omit rate nonneg in
theorem baseCredit_spec (v3 : Bool) : worth (delegate.baseCredit v3 base).2 = base ∧ 0 ≤ (delegate.baseCredit v3 base).2 := by
  unfold baseCredit
  split
  · exact ⟨add_zero _, baseNonneg, le_rfl⟩
  next self found => exact ⟨split_sum _ _, split_nonneg baseNonneg (selfDistributor_spec shared percentages found).2⟩

end

end Delegate

namespace RewardMap

variable {rmap : RewardMap} {base : Int} {credits : List (Address × Int × Int)}

theorem entries_eq (rmap : RewardMap) : rmap.entries = rmap.infos.keys.map fun key => (key, rmap.amount key) := by
  rw [entries, AList.keys, List.keys, map_map]
  apply map_congr_left
  intro entry member
  have found : rmap.infos.lookup entry.1 = some entry.2 := mem_lookup_iff.mpr member
  simp [amount, found]

theorem Records.entries_nonneg (records : rmap.Records base credits) (nonneg : ∀ credit ∈ credits, 0 ≤ credit.2) :
    ∀ entry ∈ rmap.entries, 0 ≤ entry.2 := by
  intro entry member
  rw [entries_eq] at member
  obtain ⟨key, _, rfl⟩ := mem_map.mp member
  rw [records.amount]
  exact credited_nonneg nonneg key

theorem Records.entries_worth (records : rmap.Records base credits) :
    (rmap.entries.map fun entry => worth entry.2).sum = (credits.map fun credit => worth credit.2).sum := by
  have total := sum_credited (keys_nodup _) fun credit member => (records.keys _).mpr (mem_map_of_mem member)
  have left : (rmap.entries.map fun entry => worth entry.2) = (rmap.infos.keys.map fun key => credited credits key).map worth := by
    rw [entries_eq, map_map, map_map]
    apply map_congr_left
    intro key _
    simp [records.amount]
  have right : (credits.map fun credit => worth credit.2) = (credits.map Prod.snd).map worth := by simp
  rw [left, right, worth_sum, worth_sum, total]

end RewardMap

section

variable {baseReward totalRewards : Int} {delegates : List Delegate}
  (distinct : (delegates.map Delegate.address).Nodup) (some : delegates ≠ [])
  (shared : ∀ delegate ∈ delegates, Delegate.sharesSum delegate.distList ≤ 1000000000)
  (percentages : ∀ delegate ∈ delegates, ∀ dist ∈ delegate.distList, dist.autobid.toNat ≤ 100)

include some shared percentages

include distinct in
theorem basePaid_within (v3 : Bool) (totalNonneg : 0 ≤ totalRewards) :
    let rmap := delegates.foldl (fun rmap delegate => delegate.payBase v3 rmap) ⟨totalRewards / delegates.length, ∅⟩
    (∀ entry ∈ rmap.entries, 0 ≤ entry.2) ∧ (rmap.entries.map fun entry => worth entry.2).sum ≤ totalRewards := by
  intro rmap
  have size : 0 < (delegates.length : Int) := by exact_mod_cast length_pos_iff.mpr some
  have baseNonneg := Int.ediv_nonneg totalNonneg size.le
  have records := Delegate.foldl_payBase_records distinct (RewardMap.Records.empty (totalRewards / delegates.length))
    (by simp) v3
  rw [nil_append] at records
  have each := fun delegate member =>
    Delegate.baseCredit_spec (shared delegate member) (percentages delegate member) baseNonneg v3
  constructor
  · apply records.entries_nonneg
    intro credit member
    obtain ⟨delegate, listed, rfl⟩ := mem_map.mp member
    exact (each delegate listed).2
  · have same := map_congr_left fun delegate member => (each delegate member).1
    have sum : ((delegates.map fun _ => totalRewards / delegates.length).sum : Int) =
        totalRewards / delegates.length * delegates.length := by
      rw [map_const', sum_replicate, nsmul_eq_mul, mul_comm]
    rw [records.entries_worth, map_map]
    exact (congrArg List.sum same).trans sum |>.trans_le (Int.ediv_mul_le _ size.ne')

theorem paid_within (v3 : Bool) (votes : ∀ delegate ∈ delegates, 0 ≤ delegate.votingPower.toInt)
    (voted : 0 < votingPowerSum delegates) (rates : ∀ delegate ∈ delegates, delegate.commission.toNat ≤ 1000000000)
    (baseNonneg : 0 ≤ baseReward) (enough : baseReward * delegates.length ≤ totalRewards) :
    let rmap := delegates.foldl
      (fun rmap delegate => delegate.pay v3 (totalRewards - baseReward * delegates.length) (votingPowerSum delegates) rmap)
      ⟨baseReward * delegates.length / delegates.length, ∅⟩
    (∀ entry ∈ rmap.entries, 0 ≤ entry.2) ∧ (rmap.entries.map fun entry => worth entry.2).sum ≤ totalRewards := by
  have size : 0 < (delegates.length : Int) := by exact_mod_cast length_pos_iff.mpr some
  rw [Int.mul_ediv_cancel _ size.ne']
  intro rmap
  have rewardsNonneg := Int.sub_nonneg_of_le enough
  have empty : Delegate.Own ⟨baseReward, ∅⟩ := fun _ _ found => by cases found
  have holds := Delegate.foldl_pay_holds v3 (totalRewards - baseReward * delegates.length) (votingPowerSum delegates) delegates
    ⟨RewardMap.Records.empty baseReward, empty⟩
  rw [nil_append] at holds
  have eachNonneg : ∀ delegate ∈ delegates,
      0 ≤ delegate.eachReward (totalRewards - baseReward * delegates.length) (votingPowerSum delegates) :=
    fun delegate member => portion_nonneg rewardsNonneg (votes delegate member) voted
  constructor
  · apply holds.1.entries_nonneg
    intro credit member
    obtain ⟨delegate, listed, written⟩ := mem_flatMap.mp member
    exact Delegate.paidCredits_nonneg (rates delegate listed) (shared delegate listed) (percentages delegate listed) baseNonneg
      (eachNonneg delegate listed) v3 credit written
  · rw [holds.1.entries_worth, map_flatMap, flatMap_def, sum_flatten, map_map]
    calc _ ≤ (delegates.map fun delegate => baseReward +
          delegate.eachReward (totalRewards - baseReward * delegates.length) (votingPowerSum delegates)).sum := by
          apply sum_le_sum
          intro delegate listed
          exact Delegate.paidCredits_worth_le (rates delegate listed) (shared delegate listed) (percentages delegate listed)
            baseNonneg (eachNonneg delegate listed) v3
      _ = baseReward * delegates.length + (portions (totalRewards - baseReward * delegates.length) (votingPowerSum delegates)
          (delegates.map fun delegate => delegate.votingPower.toInt)).sum := by
          rw [sum_map_add, map_const', sum_replicate, nsmul_eq_mul, mul_comm, portions, map_map]
          rfl
      _ ≤ totalRewards := by
          have parts := portions_sum_le rewardsNonneg voted
            (show (delegates.map fun delegate => delegate.votingPower.toInt).sum ≤ votingPowerSum delegates from le_rfl)
          omega

end

/-- The rewards of an epoch are non-negative and together at most the pool. -/
theorem rewards_bounded (baseReward totalRewards : Int) (delegates : List Delegate) (v3 : Bool)
    (distinct : (delegates.map Delegate.address).Nodup) (votes : ∀ delegate ∈ delegates, 0 ≤ delegate.votingPower.toInt)
    (voted : 0 < votingPowerSum delegates) (rates : ∀ delegate ∈ delegates, delegate.commission.toNat ≤ 1000000000)
    (percentages : ∀ delegate ∈ delegates, ∀ dist ∈ delegate.distList, dist.autobid.toNat ≤ 100)
    (shared : ∀ delegate ∈ delegates, Delegate.sharesSum delegate.distList ≤ 1000000000)
    (baseNonneg : 0 ≤ baseReward) (totalNonneg : 0 ≤ totalRewards) :
    ∃ rmap, computeRewardMap baseReward totalRewards delegates v3 = some rmap ∧
      (∀ entry ∈ rmap.entries, 0 ≤ entry.2.1 ∧ 0 ≤ entry.2.2) ∧
      (rmap.entries.map fun entry => entry.2.1 + entry.2.2).sum ≤ totalRewards := by
  have some : delegates ≠ [] := by
    rintro rfl
    exact absurd voted (by decide)
  have size : 0 < (delegates.length : Int) := by exact_mod_cast length_pos_iff.mpr some
  simp only [computeRewardMap]
  rw [if_neg (by omega)]
  by_cases clamped : totalRewards ≤ baseReward * delegates.length
  · rw [if_pos clamped]
    exact ⟨_, rfl, basePaid_within distinct some shared percentages v3 totalNonneg⟩
  · rw [if_neg clamped, if_neg voted.ne']
    exact ⟨_, rfl, paid_within some shared percentages v3 votes voted rates baseNonneg (by omega)⟩

namespace Sample

/-- The first delegate shares with the second one, which is no distributor of its own. -/
def delegates : List Delegate :=
  [⟨1, 60, 100000000, [⟨1, 20, 500000000⟩, ⟨2, 100, 400000000⟩, ⟨1, 0, 100000000⟩]⟩, ⟨2, 40, 1000000000, [⟨9, 50, 7⟩]⟩]

end Sample

theorem two_delegates_bounded : ∃ rmap, computeRewardMap 30 1000 Sample.delegates true = some rmap ∧
      (∀ entry ∈ rmap.entries, 0 ≤ entry.2.1 ∧ 0 ≤ entry.2.2) ∧
      (rmap.entries.map fun entry => entry.2.1 + entry.2.2).sum ≤ 1000 :=
  rewards_bounded 30 1000 Sample.delegates true (by decide) (by decide) (by decide) (by decide) (by decide) (by decide)
    (by decide) (by decide)

end MeterPov.Governor
