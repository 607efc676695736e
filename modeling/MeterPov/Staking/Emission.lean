import MeterPov.Lib.Portions
import MeterPov.Staking.Conservation

/-! The MTRG that an epoch releases from the thirteenth fork on (`script/staking/handler_govern.go`).

The release is split by votes and each delegate's part by the shares of its distributors. Both splits
range over maps, whose order is arbitrary. The amount to release comes in as a number. -/

set_option autoImplicit false

namespace MeterPov.Staking

open Lib Auction List AList

structure Distributor where
  address : Address
  shares : UInt64
  deriving DecidableEq, Repr

structure Delegate where
  address : Address
  votingPower : Int
  commission : UInt64
  distList : List Distributor
  deriving DecidableEq, Repr

abbrev ReleaseMap := CreditMap Address Int

/-- The orders in which the maps of one call are ranged over. -/
structure Ranging where
  delegates : List Delegate → List Delegate
  voters : Delegate → List (Address × Int) → List (Address × Int)
  addrs : List Address → List Address
  delegates_perm : ∀ list, (delegates list).Perm list
  voters_perm : ∀ delegate list, (voters delegate list).Perm list
  addrs_perm : ∀ list, (addrs list).Perm list

section

variable (delegates : List Delegate) (inJails : List Address)

def notJailed : List Delegate :=
  delegates.filter fun d => !inJails.contains d.address

def validDelegates : AList fun _ : Address => Delegate :=
  (notJailed delegates inJails).foldl (fun valid d => valid.insert d.address d) ∅

def totalVotes : Int :=
  ((notJailed delegates inJails).map Delegate.votingPower).sum

end

namespace Delegate

variable (delegate : Delegate) (mtrg : Int)

/-- The unsigned shares are read as signed ones. -/
def sharesMap : ReleaseMap :=
  delegate.distList.foldl (fun shares dist => shares.credit (dist.address, dist.shares.toInt64.toInt)) ∅

def sharesOf : List (Address × Int) := delegate.sharesMap.entries.map fun entry => (entry.1, entry.2)

def totalShares : Int := (delegate.distList.map fun dist => dist.shares.toInt64.toInt).sum

def reward (shares : Int) : Int := mtrg * shares / delegate.totalShares

def commissionOf (reward : Int) : Int := reward * delegate.commission.toInt64.toInt / 1000000000

def releaseVoter (releaseMap : ReleaseMap) (voter : Address × Int) : ReleaseMap :=
  let reward := delegate.reward mtrg voter.2
  -- the default entry of the voter comes first
  let releaseMap := releaseMap.credit (voter.1, 0)
  if voter.1 = delegate.address then releaseMap.credit (voter.1, reward)
  else (releaseMap.credit (delegate.address, delegate.commissionOf reward)).credit (voter.1, reward - delegate.commissionOf reward)

def release (ranging : Ranging) (releaseMap : ReleaseMap) : ReleaseMap :=
  (ranging.voters delegate delegate.sharesOf).foldl (delegate.releaseVoter mtrg) (releaseMap.credit (delegate.address, 0))

end Delegate

section

variable (ranging : Ranging) (epochRelease : Int) (delegates : List Delegate) (inJails : List Address)

def mtrgOf (delegate : Delegate) : Int := epochRelease * delegate.votingPower / totalVotes delegates inJails

def releaseMap : ReleaseMap :=
  (ranging.delegates ((validDelegates delegates inJails).entries.map Sigma.snd)).foldl
    (fun released delegate => delegate.release (mtrgOf epochRelease delegates inJails delegate) ranging released) ∅

/-- A zero amount is not minted. -/
def mintMTRG (addr : Address) (amount : Int) : Option (Address × Int) :=
  if amount = 0 then none else some (addr, amount)

/-- What is minted, in the order of the addresses. -/
def mints : List (Address × Int) :=
  let released := releaseMap ranging epochRelease delegates inJails
  let sortedAddrs := (ranging.addrs released.keys).mergeSort fun first second => decide (first ≤ second)
  sortedAddrs.filterMap fun addr => mintMTRG addr (released.amount addr)

/-- Dividing by zero votes or by zero shares panics. -/
def distributeMTRGAfterTeslaFork13 : Option (List (Address × Int)) :=
  if ((validDelegates delegates inJails).entries.map Sigma.snd).any fun delegate =>
      totalVotes delegates inJails = 0 || !delegate.distList.isEmpty && delegate.totalShares = 0 then none
  else some (mints ranging epochRelease delegates inJails)

end

/-! The release map holds what a list of credits adds up to. -/

namespace Delegate

variable (delegate : Delegate) (mtrg : Int)

def voterCredits (voter : Address × Int) : List (Address × Int) :=
  let reward := delegate.reward mtrg voter.2
  if voter.1 = delegate.address then [(voter.1, 0), (voter.1, reward)]
  else [(voter.1, 0), (delegate.address, delegate.commissionOf reward), (voter.1, reward - delegate.commissionOf reward)]

def credits (voters : List (Address × Int)) : List (Address × Int) :=
  (delegate.address, 0) :: voters.flatMap (delegate.voterCredits mtrg)

theorem releaseVoter_eq (releaseMap : ReleaseMap) (voter : Address × Int) :
    delegate.releaseVoter mtrg releaseMap voter = releaseMap.creditAll (delegate.voterCredits mtrg voter) := by
  unfold releaseVoter voterCredits
  by_cases own : voter.1 = delegate.address
  · simp [own, CreditMap.creditAll]
  · simp [own, CreditMap.creditAll]

theorem foldl_releaseVoter (voters : List (Address × Int)) (releaseMap : ReleaseMap) :
    voters.foldl (delegate.releaseVoter mtrg) releaseMap =
      releaseMap.creditAll (voters.flatMap (delegate.voterCredits mtrg)) := by
  induction voters generalizing releaseMap with
  | nil => rfl
  | cons voter rest ih =>
    simp only [foldl_cons, flatMap_cons, ih, releaseVoter_eq, CreditMap.creditAll_append]

theorem release_eq (ranging : Ranging) (releaseMap : ReleaseMap) : delegate.release mtrg ranging releaseMap =
      releaseMap.creditAll (delegate.credits mtrg (ranging.voters delegate delegate.sharesOf)) := by
  rw [release, foldl_releaseVoter]
  rfl

theorem voterCredits_sum (voter : Address × Int) :
    ((delegate.voterCredits mtrg voter).map Prod.snd).sum = delegate.reward mtrg voter.2 := by
  unfold voterCredits
  by_cases own : voter.1 = delegate.address
  · simp [own]
  · simp [own]

theorem credits_sum (voters : List (Address × Int)) :
    ((delegate.credits mtrg voters).map Prod.snd).sum = (portions mtrg delegate.totalShares (voters.map Prod.snd)).sum := by
  induction voters with
  | nil => simp [credits, portions]
  | cons voter rest ih =>
    simp only [credits, portions, reward, map_cons, sum_cons, flatMap_cons, map_append, sum_append,
      voterCredits_sum, zero_add] at ih ⊢
    rw [ih]

end Delegate

section

variable (ranging : Ranging) (epochRelease : Int) (delegates : List Delegate) (inJails : List Address)

def creditsFor (delegate : Delegate) (voters : List (Address × Int)) : List (Address × Int) :=
  delegate.credits (mtrgOf epochRelease delegates inJails delegate) voters

def rangedCredits : List (Address × Int) :=
  (ranging.delegates ((validDelegates delegates inJails).entries.map Sigma.snd)).flatMap fun delegate =>
    creditsFor epochRelease delegates inJails delegate (ranging.voters delegate delegate.sharesOf)

def listedCredits : List (Address × Int) :=
  (notJailed delegates inJails).flatMap fun delegate => creditsFor epochRelease delegates inJails delegate delegate.sharesOf

theorem foldl_release (ordered : List Delegate) (released : ReleaseMap) : ordered.foldl (fun released delegate =>
        delegate.release (mtrgOf epochRelease delegates inJails delegate) ranging released) released =
      released.creditAll (ordered.flatMap fun delegate =>
        creditsFor epochRelease delegates inJails delegate (ranging.voters delegate delegate.sharesOf)) := by
  induction ordered generalizing released with
  | nil => rfl
  | cons delegate rest ih =>
    rw [foldl_cons, ih, Delegate.release_eq, flatMap_cons, CreditMap.creditAll_append]
    rfl

theorem releaseMap_eq : releaseMap ranging epochRelease delegates inJails =
      CreditMap.creditAll ∅ (rangedCredits ranging epochRelease delegates inJails) :=
  foldl_release ranging epochRelease delegates inJails _ ∅

/-- With distinct addresses no delegate replaces another one in the map. -/
theorem foldl_insert_perm {list : List Delegate} {valid : AList fun _ : Address => Delegate}
    (distinct : (list.map Delegate.address).Nodup) (fresh : ∀ d ∈ list, d.address ∉ valid) :
    ((list.foldl (fun valid d => valid.insert d.address d) valid).entries.map Sigma.snd).Perm
      (list ++ valid.entries.map Sigma.snd) := by
  induction list generalizing valid with
  | nil => exact List.Perm.refl _
  | cons d rest ih =>
    obtain ⟨absent, restDistinct⟩ := nodup_cons.mp distinct
    have restFresh : ∀ other ∈ rest, other.address ∉ valid.insert d.address d := by
      intro other member
      rw [mem_insert, not_or]
      constructor
      · intro same
        exact absent (same ▸ mem_map_of_mem member)
      · exact fresh other (mem_cons_of_mem _ member)
    have step := ih restDistinct restFresh
    rw [entries_insert_of_notMem (fresh d mem_cons_self), map_cons] at step
    exact step.trans perm_middle

variable {delegates}

theorem notJailed_distinct (distinct : (delegates.map Delegate.address).Nodup) :
    ((notJailed delegates inJails).map Delegate.address).Nodup :=
  (filter_sublist.map _).nodup distinct

theorem validDelegates_perm (distinct : (delegates.map Delegate.address).Nodup) :
    ((validDelegates delegates inJails).entries.map Sigma.snd).Perm (notJailed delegates inJails) := by
  have inserted := @foldl_insert_perm _ ∅ (notJailed_distinct inJails distinct) (by simp)
  refine inserted.trans ?_
  simp

theorem rangedCredits_perm (distinct : (delegates.map Delegate.address).Nodup) :
    (rangedCredits ranging epochRelease delegates inJails).Perm (listedCredits epochRelease delegates inJails) := by
  apply List.Perm.flatMap
  · exact (ranging.delegates_perm _).trans (validDelegates_perm inJails distinct)
  · intro delegate _
    exact ((ranging.voters_perm delegate _).flatMap_right _).cons _

theorem minted_sum (amount : Address → Int) (addrs : List Address) :
    ((addrs.filterMap fun addr => mintMTRG addr (amount addr)).map Prod.snd).sum = (addrs.map amount).sum := by
  induction addrs with
  | nil => rfl
  | cons addr rest ih =>
    by_cases zero : amount addr = 0
    · simp [mintMTRG, zero] at ih ⊢
      exact ih
    · simp [mintMTRG, zero] at ih ⊢
      exact ih

end

namespace Delegate

variable {delegate : Delegate}

theorem sharesMap_eq (delegate : Delegate) : delegate.sharesMap =
      CreditMap.creditAll ∅ (delegate.distList.map fun dist => (dist.address, dist.shares.toInt64.toInt)) := by
  rw [sharesMap, CreditMap.creditAll, foldl_map]

theorem sharesOf_sum (delegate : Delegate) : (delegate.sharesOf.map Prod.snd).sum = delegate.totalShares := by
  rw [sharesOf, CreditMap.entries_eq, map_map, sharesMap_eq]
  refine (CreditMap.sum_creditAll (List.Perm.refl _)).trans ?_
  simp [totalShares, Function.comp_def]

theorem sharesOf_keys (delegate : Delegate) : delegate.sharesOf.map Prod.fst = delegate.sharesMap.keys := by
  simp [sharesOf, AList.keys, List.keys, Function.comp_def]

theorem mem_sharesMap (delegate : Delegate) (addr : Address) :
    addr ∈ delegate.sharesMap.keys ↔ addr ∈ delegate.distList.map Distributor.address := by
  rw [sharesMap_eq, CreditMap.mem_creditAll]
  simp

/-- No distributor, or a share total that is positive and fits in a signed number. -/
def Shared (delegate : Delegate) : Prop :=
  delegate.distList = [] ∨
    0 < (delegate.distList.map fun dist => dist.shares.toNat).sum ∧ (delegate.distList.map fun dist => dist.shares.toNat).sum < 2 ^ 63

instance (delegate : Delegate) : Decidable delegate.Shared := inferInstanceAs (Decidable (_ ∨ _))

theorem Shared.signed (shared : delegate.Shared) {dist} (member : dist ∈ delegate.distList) :
    dist.shares.toInt64.toInt = dist.shares.toNat := by
  rcases shared with empty | ⟨_, small⟩
  · rw [empty] at member
    cases member
  · have part : dist.shares.toNat ≤ (delegate.distList.map fun dist => dist.shares.toNat).sum :=
      le_sum_of_mem (mem_map_of_mem member)
    exact toInt64_of_lt (part.trans_lt small)

theorem Shared.totalShares_eq (shared : delegate.Shared) :
    delegate.totalShares = ((delegate.distList.map fun dist => dist.shares.toNat).sum : Nat) := by
  have each := map_congr_left fun dist member => shared.signed member
  rw [totalShares, each, Nat.cast_list_sum, map_map]
  rfl

theorem Shared.totalShares_pos (shared : delegate.Shared) (some : delegate.distList ≠ []) : 0 < delegate.totalShares := by
  rw [shared.totalShares_eq]
  rcases shared with empty | ⟨positive, _⟩
  · exact absurd empty some
  · exact_mod_cast positive

theorem Shared.sharesOf_nonneg (shared : delegate.Shared) {voter} (member : voter ∈ delegate.sharesOf) : 0 ≤ voter.2 := by
  rw [sharesOf, CreditMap.entries_eq, sharesMap_eq] at member
  obtain ⟨addr, _, rfl⟩ := mem_map.mp member
  rw [CreditMap.amount_creditAll, CreditMap.amount_empty, zero_add]
  apply credited_nonneg
  intro credit found
  obtain ⟨dist, listed, rfl⟩ := mem_map.mp found
  rw [shared.signed listed]
  exact Int.natCast_nonneg _

theorem sharesOf_of_nil (empty : delegate.distList = []) : delegate.sharesOf = [] := by
  rw [sharesOf, sharesMap, empty]
  rfl

theorem commissionOf_bounds {reward} (rate : delegate.commission.toNat ≤ 1000000000) (nonneg : 0 ≤ reward) :
    0 ≤ delegate.commissionOf reward ∧ delegate.commissionOf reward ≤ reward := by
  have signed : delegate.commission.toInt64.toInt = delegate.commission.toNat := toInt64_of_lt (by omega)
  rw [commissionOf, signed]
  exact ⟨portion_nonneg nonneg (Int.natCast_nonneg _) (by decide), portion_le nonneg (by omega) (by decide)⟩

variable {mtrg : Int}

theorem credits_nonneg (shared : delegate.Shared) (rate : delegate.commission.toNat ≤ 1000000000) (nonneg : 0 ≤ mtrg) :
    ∀ credit ∈ delegate.credits mtrg delegate.sharesOf, 0 ≤ credit.2 := by
  intro credit member
  rcases mem_cons.mp member with rfl | later
  · exact le_rfl
  · obtain ⟨voter, listed, written⟩ := mem_flatMap.mp later
    have rewardNonneg : 0 ≤ delegate.reward mtrg voter.2 := by
      have some : delegate.distList ≠ [] := by
        intro empty
        rw [sharesOf_of_nil empty] at listed
        cases listed
      exact portion_nonneg nonneg (shared.sharesOf_nonneg listed) (shared.totalShares_pos some)
    have reward := rewardNonneg
    have ⟨low, high⟩ := commissionOf_bounds rate reward
    unfold voterCredits at written
    by_cases own : voter.1 = delegate.address
    · simp only [own, if_true, mem_cons, not_mem_nil, or_false] at written
      rcases written with rfl | rfl
      · exact le_rfl
      · exact reward
    · simp only [own, if_false, mem_cons, not_mem_nil, or_false] at written
      rcases written with rfl | rfl | rfl
      · exact le_rfl
      · exact low
      · exact Int.sub_nonneg_of_le high

theorem credits_sum_le (shared : delegate.Shared) (nonneg : 0 ≤ mtrg) :
    ((delegate.credits mtrg delegate.sharesOf).map Prod.snd).sum ≤ mtrg := by
  rw [credits_sum]
  by_cases empty : delegate.distList = []
  · rw [sharesOf_of_nil empty]
    exact nonneg
  · exact portions_sum_le nonneg (shared.totalShares_pos empty) (sharesOf_sum delegate).le

theorem credits_sum_ge (shared : delegate.Shared) (some : delegate.distList ≠ []) (mtrg : Int) :
    mtrg ≤ ((delegate.credits mtrg delegate.sharesOf).map Prod.snd).sum + delegate.sharesOf.length := by
  rw [credits_sum]
  have bound := portions_sum_ge mtrg (shared.totalShares_pos some) (sharesOf_sum delegate)
  rwa [length_map] at bound

end Delegate

section

variable {epochRelease : Int} {delegates : List Delegate} {inJails : List Address}

def distributorPairs (delegates : List Delegate) (inJails : List Address) : List (Address × Address) :=
  (notJailed delegates inJails).flatMap fun delegate => delegate.distList.map fun dist => (delegate.address, dist.address)

theorem pairs_length (distinct : (delegates.map Delegate.address).Nodup) :
    ((notJailed delegates inJails).map fun delegate => delegate.sharesOf.length).sum =
      (distributorPairs delegates inJails).dedup.length := by
  let listed := (notJailed delegates inJails).flatMap fun delegate =>
    delegate.sharesMap.keys.map fun addr => (delegate.address, addr)
  have lengths : ((notJailed delegates inJails).map fun delegate => delegate.sharesOf.length).sum = listed.length := by
    simp [listed, length_flatMap, ← Delegate.sharesOf_keys]
  have once : listed.Nodup := by
    rw [nodup_flatMap]
    constructor
    · intro delegate _
      exact (keys_nodup _).map fun first second same => (Prod.mk.inj same).2
    · refine (pairwise_map.mp (notJailed_distinct inJails distinct)).imp ?_
      intro first second apart pair inFirst inSecond
      simp only [mem_map] at inFirst inSecond
      obtain ⟨_, _, rfl⟩ := inFirst
      obtain ⟨_, _, same⟩ := inSecond
      exact apart (Prod.mk.inj same).1.symm
  rw [lengths]
  apply List.Perm.length_eq
  rw [perm_ext_iff_of_nodup once (nodup_dedup _)]
  intro pair
  simp [listed, distributorPairs, Delegate.mem_sharesMap]

theorem listedCredits_sum : ((listedCredits epochRelease delegates inJails).map Prod.snd).sum =
      ((notJailed delegates inJails).map fun delegate =>
        ((creditsFor epochRelease delegates inJails delegate delegate.sharesOf).map Prod.snd).sum).sum := by
  rw [listedCredits, map_flatMap, flatMap_def, sum_flatten, map_map]
  rfl

theorem mtrgOf_sum : ((notJailed delegates inJails).map (mtrgOf epochRelease delegates inJails)).sum =
      (portions epochRelease (totalVotes delegates inJails) ((notJailed delegates inJails).map Delegate.votingPower)).sum := by
  rw [portions, map_map]
  rfl

variable (votes : ∀ delegate ∈ delegates, 0 ≤ delegate.votingPower) (voted : 0 < totalVotes delegates inJails)
  (shared : ∀ delegate ∈ notJailed delegates inJails, delegate.Shared) (nonneg : 0 ≤ epochRelease)

include votes voted nonneg

theorem mtrgOf_nonneg {delegate} (member : delegate ∈ notJailed delegates inJails) :
    0 ≤ mtrgOf epochRelease delegates inJails delegate :=
  portion_nonneg nonneg (votes delegate (mem_filter.mp member).1) voted

include shared

omit votes nonneg in
theorem listedCredits_sum_ge (distinct : (delegates.map Delegate.address).Nodup)
    (some : ∀ delegate ∈ notJailed delegates inJails, delegate.distList ≠ []) :
    epochRelease - (notJailed delegates inJails).length - (distributorPairs delegates inJails).dedup.length ≤
      ((listedCredits epochRelease delegates inJails).map Prod.snd).sum := by
  have split : epochRelease ≤ ((notJailed delegates inJails).map (mtrgOf epochRelease delegates inJails)).sum +
      (notJailed delegates inJails).length := by
    rw [mtrgOf_sum]
    have bound := portions_sum_ge epochRelease voted
      (show ((notJailed delegates inJails).map Delegate.votingPower).sum = totalVotes delegates inJails from rfl)
    rwa [length_map] at bound
  have parts : ((notJailed delegates inJails).map (mtrgOf epochRelease delegates inJails)).sum ≤
      ((notJailed delegates inJails).map fun delegate =>
        ((creditsFor epochRelease delegates inJails delegate delegate.sharesOf).map Prod.snd).sum +
          (delegate.sharesOf.length : Int)).sum := by
    apply sum_le_sum
    intro delegate member
    exact Delegate.credits_sum_ge (shared delegate member) (some delegate member) _
  have lengths : ((notJailed delegates inJails).map fun delegate => (delegate.sharesOf.length : Int)).sum =
      (distributorPairs delegates inJails).dedup.length := by
    rw [← pairs_length distinct, Nat.cast_list_sum, map_map]
    rfl
  rw [sum_map_add, ← listedCredits_sum, lengths] at parts
  omega

end

section

variable (ranging : Ranging) (epochRelease : Int) {delegates : List Delegate} (inJails : List Address)
  (distinct : (delegates.map Delegate.address).Nodup)

include distinct

theorem releaseMap_amount (addr : Address) :
    (releaseMap ranging epochRelease delegates inJails).amount addr = credited (listedCredits epochRelease delegates inJails) addr := by
  rw [releaseMap_eq, CreditMap.amount_creditAll, CreditMap.amount_empty, zero_add]
  exact ((rangedCredits_perm ranging epochRelease inJails distinct).map _).sum_eq

theorem mem_releaseMap (addr : Address) : addr ∈ (releaseMap ranging epochRelease delegates inJails).keys ↔
      addr ∈ (listedCredits epochRelease delegates inJails).map Prod.fst := by
  rw [releaseMap_eq, CreditMap.mem_creditAll]
  simpa using ((rangedCredits_perm ranging epochRelease inJails distinct).map Prod.fst).mem_iff

theorem sortedAddrs_eq (other : Ranging) :
    ((ranging.addrs (releaseMap ranging epochRelease delegates inJails).keys).mergeSort fun first second =>
        decide (first ≤ second)) =
      (other.addrs (releaseMap other epochRelease delegates inJails).keys).mergeSort fun first second =>
        decide (first ≤ second) := by
  have sorted : ∀ list : List Address, (list.mergeSort fun first second => decide (first ≤ second)).Pairwise (· ≤ ·) := by
    intro list
    refine (pairwise_mergeSort ?_ ?_ list).imp (by simp)
    · intro first second third
      simpa using le_trans
    · intro first second
      simpa using le_total first second
  have keys : (releaseMap ranging epochRelease delegates inJails).keys.Perm (releaseMap other epochRelease delegates inJails).keys := by
    rw [perm_ext_iff_of_nodup (keys_nodup _) (keys_nodup _)]
    intro addr
    rw [mem_releaseMap ranging epochRelease inJails distinct, mem_releaseMap other epochRelease inJails distinct]
  refine List.Perm.eq_of_pairwise (fun _ _ _ _ => le_antisymm) (sorted _) (sorted _) ?_
  exact (mergeSort_perm _ _).trans ((ranging.addrs_perm _).trans (keys.trans
    ((other.addrs_perm _).symm.trans (mergeSort_perm _ _).symm)))

theorem mints_sum : ((mints ranging epochRelease delegates inJails).map Prod.snd).sum =
      ((listedCredits epochRelease delegates inJails).map Prod.snd).sum := by
  have ordered : ((ranging.addrs (releaseMap ranging epochRelease delegates inJails).keys).mergeSort fun first second =>
      decide (first ≤ second)).Perm (releaseMap ranging epochRelease delegates inJails).keys :=
    (mergeSort_perm _ _).trans (ranging.addrs_perm _)
  rw [mints, minted_sum]
  rw [releaseMap_eq] at ordered ⊢
  rw [CreditMap.sum_creditAll ordered]
  exact ((rangedCredits_perm ranging epochRelease inJails distinct).map Prod.snd).sum_eq

theorem distribute_returns (voted : 0 < totalVotes delegates inJails)
    (shared : ∀ delegate ∈ notJailed delegates inJails, delegate.Shared) :
    distributeMTRGAfterTeslaFork13 ranging epochRelease delegates inJails =
      some (mints ranging epochRelease delegates inJails) := by
  rw [distributeMTRGAfterTeslaFork13, if_neg]
  rw [any_eq_true]
  rintro ⟨delegate, member, zero⟩
  have listed := (validDelegates_perm inJails distinct).mem_iff.mp member
  simp only [Bool.or_eq_true, Bool.and_eq_true, decide_eq_true_eq, Bool.not_eq_true', isEmpty_eq_false_iff] at zero
  rcases zero with none | ⟨some, none⟩
  · omega
  · have positive := (shared delegate listed).totalShares_pos some
    omega

end

/-- The emission of an epoch is bounded from both sides and does not depend on the order of the maps. -/
theorem emission_bounded (ranging : Ranging) (epochRelease : Int) (delegates : List Delegate) (inJails : List Address)
    (distinct : (delegates.map Delegate.address).Nodup) (votes : ∀ delegate ∈ delegates, 0 ≤ delegate.votingPower)
    (voted : 0 < totalVotes delegates inJails) (rates : ∀ delegate ∈ delegates, delegate.commission.toNat ≤ 1000000000)
    (shared : ∀ delegate ∈ notJailed delegates inJails, delegate.Shared) (nonneg : 0 ≤ epochRelease) :
    ∃ minted, distributeMTRGAfterTeslaFork13 ranging epochRelease delegates inJails = some minted ∧
      (∀ mint ∈ minted, 0 ≤ mint.2) ∧
      (minted.map Prod.snd).sum ≤ epochRelease ∧
      ((∀ delegate ∈ notJailed delegates inJails, delegate.distList ≠ []) →
        epochRelease - (notJailed delegates inJails).length - (distributorPairs delegates inJails).dedup.length ≤
          (minted.map Prod.snd).sum) ∧
      ∀ other : Ranging, distributeMTRGAfterTeslaFork13 other epochRelease delegates inJails = some minted := by
  have total := mints_sum ranging epochRelease inJails distinct
  refine ⟨_, distribute_returns ranging epochRelease inJails distinct voted shared, ?_, ?_, ?_, ?_⟩
  · intro mint member
    obtain ⟨addr, _, written⟩ := mem_filterMap.mp member
    rw [releaseMap_amount ranging epochRelease inJails distinct, mintMTRG] at written
    split at written
    · cases written
    · cases written
      have listedCreditsNonneg : ∀ credit ∈ listedCredits epochRelease delegates inJails, 0 ≤ credit.2 := by
        intro credit member
        obtain ⟨delegate, listed, written⟩ := mem_flatMap.mp member
        have rate := rates delegate (mem_filter.mp listed).1
        exact Delegate.credits_nonneg (shared delegate listed) rate (mtrgOf_nonneg votes voted nonneg listed) credit written
      exact credited_nonneg (listedCreditsNonneg) addr
  · rw [total]
    rw [listedCredits_sum]
    calc _ ≤ ((notJailed delegates inJails).map (mtrgOf epochRelease delegates inJails)).sum := by
          apply sum_le_sum
          intro delegate member
          exact Delegate.credits_sum_le (shared delegate member) (mtrgOf_nonneg votes voted nonneg member)
      _ ≤ epochRelease := by
          rw [mtrgOf_sum]
          exact portions_sum_le nonneg voted le_rfl
  · intro some
    rw [total]
    exact listedCredits_sum_ge voted shared distinct some
  · intro other
    rw [distribute_returns other epochRelease inJails distinct voted shared]
    simp only [mints, sortedAddrs_eq other epochRelease inJails distinct ranging,
      releaseMap_amount other epochRelease inJails distinct, releaseMap_amount ranging epochRelease inJails distinct]

namespace Sample

/-- The second delegate votes for the first one and the third is jailed. -/
def delegates : List Delegate :=
  [⟨1, 60, 100000000, [⟨1, 500⟩, ⟨2, 300⟩, ⟨9, 200⟩]⟩, ⟨2, 40, 1000000000, [⟨9, 7⟩, ⟨2, 0⟩, ⟨9, 4⟩]⟩, ⟨3, 1000, 0, []⟩]

def backwards : Ranging where
  delegates := List.reverse
  voters := fun _ => List.reverse
  addrs := List.reverse
  delegates_perm := reverse_perm
  voters_perm := fun _ => reverse_perm
  addrs_perm := reverse_perm

end Sample

open Sample in
theorem backwards_bounded : ∃ minted, distributeMTRGAfterTeslaFork13 backwards 1000 Sample.delegates [3] = some minted ∧
      (minted.map Prod.snd).sum ≤ 1000 ∧ 1000 - 2 - 5 ≤ (minted.map Prod.snd).sum := by
  obtain ⟨minted, returned, _, upper, lower, _⟩ := emission_bounded backwards 1000 Sample.delegates [3] (by decide)
    (by decide) (by decide) (by decide) (by decide) (by decide)
  exact ⟨minted, returned, upper, lower (by decide)⟩

end MeterPov.Staking
