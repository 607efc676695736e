import Mathlib

/-! The violations of a delegate: epochs of the last eight with too many of its infractions. -/

set_option autoImplicit false

namespace MeterPov.Staking

open List AList Finset

/-- The epochs of the infractions of each kind. -/
structure Infraction where
  missingLeaders : List UInt32
  missingProposers : List UInt32
  doubleSigners : List UInt32

def nObservationEpochs : UInt32 := 8

/-- One infraction of an observed epoch. A new entry is set to one, and then one is added to it. -/
def countInfraction (counter : AList fun _ : UInt32 => Nat) (epoch : UInt32) : AList fun _ : UInt32 => Nat :=
  let counter := if counter.lookup epoch = none then counter.insert epoch 1 else counter
  counter.insert epoch ((counter.lookup epoch).getD 0 + 1)

/-- The infractions that are not skipped; the difference is taken on 32 bits. -/
def observed (infos : List UInt32) (epoch : UInt32) : List UInt32 :=
  infos.filter fun inf => ¬ inf < epoch - nObservationEpochs

def countViolation (limit : Nat) (infos : List UInt32) (epoch : UInt32) : Nat :=
  ((observed infos epoch).foldl countInfraction ∅).entries.countP fun entry => limit ≤ entry.2

namespace Infraction

def countMissingProposerViolation (infr : Infraction) (epoch : UInt32) : Nat :=
  countViolation 3 infr.missingProposers epoch

def countMissingLeaderViolation (infr : Infraction) (epoch : UInt32) : Nat :=
  countViolation 2 infr.missingLeaders epoch

def countDoubleSignViolation (infr : Infraction) (epoch : UInt32) : Nat :=
  countViolation 1 infr.doubleSigners epoch

end Infraction

/-- The epochs from eight before the given one, over the integers, that have enough infractions. -/
def violating (limit : Nat) (infos : List UInt32) (epoch : UInt32) : Finset UInt32 :=
  infos.toFinset.filter fun other => (epoch.toNat : Int) - 8 ≤ other.toNat ∧ limit ≤ infos.count other

variable {infos : List UInt32} {epoch : UInt32}

/-- Each entry is one more than the infractions of its epoch. -/
theorem lookup_counted (infos : List UInt32) (epoch : UInt32) :
    (infos.foldl countInfraction ∅).lookup epoch = if epoch ∈ infos then some (infos.count epoch + 1) else none := by
  induction infos using List.reverseRecOn with
  | nil => simp
  | append_singleton rest last ih =>
    rw [foldl_append, foldl_cons, foldl_nil]
    generalize rest.foldl countInfraction ∅ = counter at ih
    unfold countInfraction
    by_cases same : epoch = last
    · subst same
      by_cases listed : epoch ∈ rest
      · simp [ih, listed]
      · simp [ih, listed, count_eq_zero_of_not_mem listed]
    · split <;> simp [lookup_insert_ne same, same, ih, Ne.symm same]

theorem countViolation_eq (limit : Nat) (infos : List UInt32) (epoch : UInt32) : countViolation limit infos epoch =
      ((observed infos epoch).toFinset.filter fun other => limit ≤ (observed infos epoch).count other + 1).card := by
  unfold countViolation
  generalize observed infos epoch = seen
  have held := lookup_counted seen
  generalize seen.foldl countInfraction ∅ = counter at held
  have keys : counter.keys.toFinset = seen.toFinset := by
    ext other
    rw [List.mem_toFinset, List.mem_toFinset, ← AList.mem_keys, ← AList.lookup_isSome, held]
    split <;> simp_all
  have counts : counter.entries.countP (fun entry => limit ≤ entry.2) = counter.keys.countP fun other => limit ≤ seen.count other + 1 := by
    rw [AList.keys, List.keys, List.countP_map]
    refine countP_congr fun entry listed => ?_
    have found := mem_lookup_iff.mpr listed
    rw [held] at found
    split at found
    · have value := Option.some.inj found
      simp [value]
    · cases found
  rw [counts, ← keys, countP_eq_length_filter, ← toFinset_card_of_nodup (counter.keys_nodup.filter _), toFinset_filter]
  simp

/-- A later epoch is wrongly reported when it is one infraction short of the limit. In the first eight epochs the difference
wraps around, and everything is skipped. -/
theorem countViolation_eq_iff (limit : Nat) (bounded : ∀ inf ∈ infos, inf ≤ epoch) :
    countViolation limit infos epoch = (violating limit infos epoch).card ↔
      if epoch < nObservationEpochs then ∀ other ∈ infos, infos.count other < limit
      else ∀ other ∈ infos, epoch - nObservationEpochs ≤ other → infos.count other + 1 ≠ limit := by
  have eight : nObservationEpochs.toNat = 8 := rfl
  rw [countViolation_eq]
  split
  next early =>
    rw [UInt32.lt_iff_toNat_lt, eight] at early
    have skipped : observed infos epoch = [] := by
      refine filter_eq_nil_iff.mpr fun inf listed => ?_
      have below := UInt32.le_iff_toNat_le.mp (bounded inf listed)
      simp only [UInt32.lt_iff_toNat_lt, UInt32.toNat_sub, eight, decide_eq_true_eq]
      omega
    simp only [skipped, toFinset_nil, filter_empty, card_empty, eq_comm (a := 0), card_eq_zero,
      violating, filter_eq_empty_iff, mem_toFinset, not_and, not_le]
    exact forall₂_congr fun other _ => ⟨fun short => short (by omega), fun short _ => short⟩
  next late =>
    have window (other : UInt32) : (epoch.toNat : Int) - 8 ≤ other.toNat ↔ epoch - nObservationEpochs ≤ other := by
      rw [UInt32.le_iff_toNat_le, UInt32.toNat_sub_of_le _ _ (UInt32.not_lt.mp late), eight]
      omega
    have seen : observed infos epoch = infos.filter fun inf => epoch - nObservationEpochs ≤ inf := by simp [observed]
    have all : violating limit infos epoch =
        (observed infos epoch).toFinset.filter fun other => limit ≤ (observed infos epoch).count other := by
      ext other
      simp only [violating, window, seen, Finset.mem_filter, List.mem_toFinset, List.mem_filter, decide_eq_true_eq, and_assoc]
      exact and_congr_right fun _ => and_congr_right fun inside => by rw [List.count_filter (by simpa using inside)]
    rw [all]
    constructor
    · intro equal other listed inside atLimit
      -- the epochs with enough infractions are among the counted ones, and there are as many
      have same := eq_of_subset_of_card_le (monotone_filter_right _ fun _ _ enough => Nat.le_succ_of_le enough)
        (le_of_eq equal)
      have count : (observed infos epoch).count other = infos.count other := by rw [seen, count_filter (by simpa using inside)]
      have among : other ∈ observed infos epoch := by simp [seen, listed, inside]
      have enough := Finset.ext_iff.mp same other
      simp only [Finset.mem_filter, List.mem_toFinset, among, true_and, count] at enough
      omega
    · intro apart
      refine congrArg Finset.card (Finset.filter_congr fun other listed => ?_)
      rw [seen, List.mem_toFinset, List.mem_filter, decide_eq_true_eq] at listed
      have different := apart other listed.1 listed.2
      rw [seen, List.count_filter (by simpa using listed.2)]
      omega

/-- The three counts are the numbers of violations exactly when, in the first eight epochs, there is no violation, and later
on no observed epoch has two missed proposals or one missed round of a leader. -/
theorem violations_counted_iff (infr : Infraction) (epoch : UInt32)
    (bounded : ∀ inf ∈ infr.missingProposers ++ infr.missingLeaders ++ infr.doubleSigners, inf ≤ epoch) :
    (infr.countMissingProposerViolation epoch = (violating 3 infr.missingProposers epoch).card ∧
      infr.countMissingLeaderViolation epoch = (violating 2 infr.missingLeaders epoch).card ∧
      infr.countDoubleSignViolation epoch = (violating 1 infr.doubleSigners epoch).card) ↔
    if epoch < 8 then (∀ other, infr.missingProposers.count other < 3 ∧ infr.missingLeaders.count other < 2) ∧ infr.doubleSigners = []
    else ∀ other, epoch - 8 ≤ other → infr.missingProposers.count other ≠ 2 ∧ infr.missingLeaders.count other ≠ 1 := by
  simp only [mem_append, or_imp, forall_and] at bounded
  refine (and_congr (countViolation_eq_iff 3 bounded.1.1)
    (and_congr (countViolation_eq_iff 2 bounded.1.2) (countViolation_eq_iff 1 bounded.2))).trans ?_
  simp only [← count_pos_iff, ← show nObservationEpochs = 8 from rfl]
  split
  · constructor
    · rintro ⟨proposers, leaders, signers⟩
      refine ⟨fun other => ⟨?_, ?_⟩, eq_nil_iff_forall_not_mem.mpr fun other listed => ?_⟩
      · have short := proposers other
        omega
      · have short := leaders other
        omega
      · have some := count_pos_iff.mpr listed
        have short := signers other some
        omega
    · rintro ⟨short, none⟩
      exact ⟨fun other _ => (short other).1, fun other _ => (short other).2, by simp [none]⟩
  · constructor
    · rintro ⟨proposers, leaders, -⟩ other inside
      have proposals := fun some => proposers other some inside
      have rounds := fun some => leaders other some inside
      omega
    · intro apart
      refine ⟨fun other _ inside => ?_, fun other _ inside => ?_, fun other some _ => by omega⟩
      · have proposals := (apart other inside).1
        omega
      · have rounds := (apart other inside).2
        omega

theorem double_sign_counted : Infraction.countDoubleSignViolation ⟨[], [], [10]⟩ 10 = 1 :=
  ((violations_counted_iff ⟨[], [], [10]⟩ 10 (by simp)).mpr (by rw [if_neg (by decide)]; simp)).2.2

/-- One missed round of a leader is reported as a violation. -/
theorem one_missed_round : Infraction.countMissingLeaderViolation ⟨[10], [], []⟩ 10 = 1 ∧ (violating 2 [10] 10).card = 0 := by
  decide

end MeterPov.Staking
