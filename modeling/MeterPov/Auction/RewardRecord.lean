import MeterPov.Auction.Accounting

/-! The record of the rewards of an epoch (`script/staking/handler_govern.go`).

The record counts every reward of the list; the account that pays them skips what it cannot pay. -/

set_option autoImplicit false

namespace MeterPov.Auction

open Lib Accounts Script Execution List

def stakingMaxValidatorRewards : Nat := 32

structure ValidatorReward where
  epoch : UInt32
  baseReward : Int
  totalReward : Nat
  rewards : List (Address × Nat)

/-- What `DistValidatorRewards` returns: it is added up whether or not a reward could be paid. -/
def distTotal (rinfo : List RewardInfoV2) : Nat :=
  (rinfo.map RewardInfoV2.distAmount).sum

def addReward (rewardList : List ValidatorReward) (reward : ValidatorReward) : List ValidatorReward :=
  let rLen := rewardList.length
  if rLen ≥ stakingMaxValidatorRewards then rewardList.drop (rLen - stakingMaxValidatorRewards + 1) ++ [reward]
  else rewardList ++ [reward]

/-- The part of `distributeAndAutobidAfterTeslaFork6` before the bids, with the list it stores. -/
def distributeRewards (epoch : UInt32) (baseReward : Int) (rewardList : List ValidatorReward) (rewards : List RewardInfoV2) :
    ScriptM (List ValidatorReward) := do
  let rinfo := rewards.filter fun reward => 0 < reward.distAmount
  distValidatorRewards rinfo
  if rinfo.isEmpty then return rewardList
  return addReward rewardList ⟨epoch, baseReward, distTotal rinfo, rinfo.map fun reward => (reward.address, reward.distAmount)⟩

namespace Standing

def payReward (before : Standing) (reward : RewardInfoV2) : Standing :=
  if before.energy validatorBenefitAddr < reward.distAmount then before
  else before.move validatorBenefitAddr reward.address reward.distAmount

def payRewards (before : Standing) (rinfo : List RewardInfoV2) : Standing :=
  rinfo.foldl payReward before

/-- Nothing is addressed to the account that pays, and it has enough for all. -/
def Covers (before : Standing) (rinfo : List RewardInfoV2) : Prop :=
  (∀ reward ∈ rinfo, reward.address ≠ validatorBenefitAddr) ∧ (distTotal rinfo : Int) ≤ before.energy validatorBenefitAddr

def rewardOf (rinfo : List RewardInfoV2) (addr : Address) : Nat :=
  distTotal (rinfo.filter fun reward => reward.address = addr)

variable {before : Standing} {reward : RewardInfoV2} {rest : List RewardInfoV2}

theorem distTotal_cons : distTotal (reward :: rest) = reward.distAmount + distTotal rest :=
  sum_cons

theorem payReward_own (before : Standing) (own : reward.address = validatorBenefitAddr) :
    (before.payReward reward).energy validatorBenefitAddr = before.energy validatorBenefitAddr := by
  unfold payReward
  split
  · rfl
  · rw [own]
    simp [move, setEnergy]

theorem payReward_poor (poor : before.energy validatorBenefitAddr < reward.distAmount) : before.payReward reward = before :=
  if_pos poor

theorem payReward_rich (enough : ¬before.energy validatorBenefitAddr < reward.distAmount) :
    before.payReward reward = before.move validatorBenefitAddr reward.address reward.distAmount :=
  if_neg enough

theorem energy_payReward (other : reward.address ≠ validatorBenefitAddr)
    (enough : ¬before.energy validatorBenefitAddr < reward.distAmount) :
    (before.payReward reward).energy validatorBenefitAddr = before.energy validatorBenefitAddr - reward.distAmount := by
  rw [payReward_rich enough, energy_move_sender (Ne.symm other)]

/-- The account never pays more than the total. -/
theorem energy_payRewards_ge (before : Standing) (rinfo : List RewardInfoV2) :
    before.energy validatorBenefitAddr - distTotal rinfo ≤ (before.payRewards rinfo).energy validatorBenefitAddr := by
  induction rinfo generalizing before with
  | nil => simp [payRewards, distTotal]
  | cons reward rest ih =>
    have later := ih (before.payReward reward)
    have first : before.energy validatorBenefitAddr - reward.distAmount ≤ (before.payReward reward).energy validatorBenefitAddr := by
      by_cases own : reward.address = validatorBenefitAddr
      · rw [payReward_own before own]
        omega
      · by_cases poor : before.energy validatorBenefitAddr < reward.distAmount
        · rw [payReward_poor poor]
          omega
        · exact le_of_eq (energy_payReward own poor).symm
    rw [distTotal_cons]
    change _ ≤ ((before.payReward reward).payRewards rest).energy _
    omega

theorem covers_cons (own : reward.address ≠ validatorBenefitAddr) (enough : ¬before.energy validatorBenefitAddr < reward.distAmount) :
    before.Covers (reward :: rest) ↔ (before.payReward reward).Covers rest := by
  unfold Covers
  rw [energy_payReward own enough, distTotal_cons, forall_mem_cons]
  constructor
  · rintro ⟨⟨-, others⟩, covered⟩
    exact ⟨others, by omega⟩
  · rintro ⟨others, covered⟩
    exact ⟨⟨own, others⟩, by omega⟩

/-- The total leaves the account when it covers the rewards, and only then. -/
theorem paid_iff_covers (before : Standing) (rinfo : List RewardInfoV2) (positive : ∀ reward ∈ rinfo, 0 < reward.distAmount)
    (counts : 0 ≤ before.energy validatorBenefitAddr ∨ rinfo ≠ []) :
    (distTotal rinfo : Int) = before.energy validatorBenefitAddr - (before.payRewards rinfo).energy validatorBenefitAddr ↔
      before.Covers rinfo := by
  induction rinfo generalizing before with
  | nil => simpa [payRewards, distTotal, Covers] using counts
  | cons reward rest ih =>
    have amount := positive reward mem_cons_self
    have later := energy_payRewards_ge (before.payReward reward) rest
    have total : distTotal (reward :: rest) = _ := distTotal_cons
    change (_ : Int) = _ - ((before.payReward reward).payRewards rest).energy _ ↔ _
    by_cases own : reward.address = validatorBenefitAddr
    · have kept := payReward_own before own
      refine iff_of_false (by omega) fun covers => covers.1 reward mem_cons_self own
    · by_cases poor : before.energy validatorBenefitAddr < reward.distAmount
      · have covered : ¬before.Covers (reward :: rest) := fun covers => by
          have := covers.2
          omega
        rw [payReward_poor poor] at later ⊢
        exact iff_of_false (by omega) covered
      · have left := energy_payReward own poor
        rw [covers_cons own poor, ← ih _ (fun other listed => positive other (mem_cons_of_mem _ listed)) (.inl (by omega))]
        omega

theorem credited_of_covers (rinfo : List RewardInfoV2) (covers : before.Covers rinfo) {addr} (other : addr ≠ validatorBenefitAddr) :
    (before.payRewards rinfo).energy addr = before.energy addr + rewardOf rinfo addr := by
  induction rinfo generalizing before with
  | nil => simp [payRewards, rewardOf, distTotal]
  | cons reward rest ih =>
    have own := covers.1 reward mem_cons_self
    have enough : ¬before.energy validatorBenefitAddr < reward.distAmount := by
      have total := covers.2
      rw [distTotal_cons] at total
      omega
    refine (ih ((covers_cons own enough).mp covers)).trans ?_
    rw [payReward_rich enough]
    unfold rewardOf
    by_cases same : reward.address = addr
    · subst same
      rw [energy_move_recipient own, filter_cons_of_pos (by simp), distTotal_cons]
      omega
    · rw [energy_move_other other (Ne.symm same), filter_cons_of_neg (by simpa using same)]

end Standing

theorem distValidatorRewards_leads (before : Standing) (rinfo : List RewardInfoV2) :
    Leads before (distValidatorRewards rinfo) fun _ after => after = before.payRewards rinfo := by
  induction rinfo generalizing before with
  | nil => exact .ret rfl
  | cons reward rest ih =>
    refine .seq (transferMTR_leads _ _ _ _) fun moved after given => ?_
    have paid : after = before.payReward reward := by
      unfold Standing.payReward
      rcases given with ⟨-, enough, rfl⟩ | ⟨-, poor, rfl⟩
      · split
        next poor =>
          have zero : (reward.distAmount : Int) = 0 := by
            by_contra nonzero
            exact not_lt.mpr (enough nonzero) poor
          rw [zero, Standing.move_zero]
        · rfl
      · rw [if_pos poor]
    subst paid
    exact ih _

theorem distValidatorRewards_steady (rinfo : List RewardInfoV2) : SteadyHandler (distValidatorRewards rinfo) := by
  induction rinfo with
  | nil => exact .ret
  | cons reward rest ih => exact .seq (transferMTR_steady _ _ _) fun _ => ih

section

variable (before : Standing) (epoch : UInt32) (baseReward : Int) (rewardList : List ValidatorReward) (rewards : List RewardInfoV2)

theorem distributeRewards_leads : let rinfo := rewards.filter fun reward => 0 < reward.distAmount
    Leads before (distributeRewards epoch baseReward rewardList rewards) fun list after => after = before.payRewards rinfo ∧
      list = if rinfo.isEmpty then rewardList
        else addReward rewardList ⟨epoch, baseReward, distTotal rinfo, rinfo.map fun reward => (reward.address, reward.distAmount)⟩ := by
  refine .seq (distValidatorRewards_leads _ _) fun _ after paid => ?_
  split
  · exact .ret ⟨paid, rfl⟩
  · exact .ret ⟨paid, rfl⟩

end

/-- Where a reward is recorded, the total is what the account paid and each address has its rewards in full, when the account
covers the rewards and only then. -/
theorem recorded_iff_covered {state : State} (sound : Sound state) (log : ScriptLog) (epoch : UInt32) (baseReward : Int)
    (rewardList : List ValidatorReward) (rewards : List RewardInfoV2) :
    ∃ list logged after, ((distributeRewards epoch baseReward rewardList rewards).run log).run StateMethod.handle state =
        .ok (list, logged) after ∧
      let rinfo := rewards.filter fun reward => 0 < reward.distAmount
      if rinfo = [] then list = rewardList
      else ∃ newest, list.getLast? = some newest ∧
        ((newest.totalReward : Int) = (standing state).energy validatorBenefitAddr - (standing after).energy validatorBenefitAddr ∧
            (∀ addr, addr ≠ validatorBenefitAddr →
              (standing after).energy addr = (standing state).energy addr + Standing.rewardOf rinfo addr) ↔
          (standing state).Covers rinfo) := by
  have steady : SteadyHandler (distributeRewards epoch baseReward rewardList rewards) :=
    .seq (distValidatorRewards_steady _) fun _ => .branch .ret .ret
  have fine := steady log state sound
  have known := distributeRewards_leads (standing state) epoch baseReward rewardList rewards log state rfl
  cases ran : ((distributeRewards epoch baseReward rewardList rewards).run log).run StateMethod.handle state with
  | error fault after =>
    rw [ran] at fine
    exact fine.elim
  | ok result after =>
    rw [ran] at known
    obtain ⟨paid, listed⟩ := known
    refine ⟨result.1, result.2, after, rfl, ?_⟩
    dsimp only
    generalize chosen : rewards.filter (fun reward => 0 < reward.distAmount) = rinfo at paid listed
    split
    next none => rw [listed, none, isEmpty_nil, if_pos rfl]
    next some =>
      rw [if_neg (by simpa using some)] at listed
      refine ⟨⟨epoch, baseReward, distTotal rinfo, rinfo.map fun reward => (reward.address, reward.distAmount)⟩, ?_, ?_⟩
      · rw [listed, addReward]
        split <;> simp
      have positive : ∀ reward ∈ rinfo, 0 < reward.distAmount := by
        rw [← chosen]
        simp
      have covers := (standing state).paid_iff_covers rinfo positive (.inr some)
      rw [show standing after = _ from paid]
      constructor
      · rintro ⟨total, -⟩
        exact covers.mp total
      · intro covered
        exact ⟨covers.mpr covered, fun addr other => Standing.credited_of_covers rinfo covered other⟩

section

def twoRewards : List RewardInfoV2 := [⟨8, 3 * 10 ^ 18, 0⟩, ⟨9, 2 * 10 ^ 18, 0⟩]

theorem two_rewards_covered : Sound fundedState ∧ (standing fundedState).Covers twoRewards ∧
      ∃ list logged after, ((distributeRewards 1 0 [] twoRewards).run {}).run StateMethod.handle fundedState = .ok (list, logged) after ∧
        ∃ newest, list.getLast? = some newest ∧
          (newest.totalReward : Int) = (standing fundedState).energy validatorBenefitAddr - (standing after).energy validatorBenefitAddr := by
  have covers : (standing fundedState).Covers twoRewards := ⟨by decide, by decide +kernel⟩
  obtain ⟨list, logged, after, ran, newest, last, known⟩ := recorded_iff_covered fundedState_sound {} 1 0 [] twoRewards
  exact ⟨fundedState_sound, covers, list, logged, after, ran, newest, last, (known.mpr covers).1⟩

def distributeShort : Action State (List ValidatorReward × ScriptLog) :=
  ((distributeRewards 1 0 [] [⟨8, 3 * 10 ^ 18, 0⟩, ⟨9, 3 * 10 ^ 18, 0⟩]).run {}).run StateMethod.handle

/-- The account has 5 MTR. The first reward of 3 MTR is paid, the second is not, and 6 are recorded. -/
theorem unpaid_reward_recorded :
    (distributeShort.value? fundedState).map (fun result => result.1.map ValidatorReward.totalReward) = some [6 * 10 ^ 18] ∧
      (standing fundedState).energy validatorBenefitAddr - (standing (distributeShort.finalState fundedState)).energy validatorBenefitAddr =
        3 * 10 ^ 18 ∧
      (standing (distributeShort.finalState fundedState)).energy 9 = 0 := by
  decide +kernel

end

end MeterPov.Auction
