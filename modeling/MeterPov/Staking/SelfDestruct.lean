import MeterPov.Accounts.StateDB
import MeterPov.Staking.Conservation

/-! A contract that destroys itself (`opSuicide` in `vm`, `OnSuicideContract` in `runtime`,
`StateDB.Suicide`).

Its energy and its balance go to the receiver, and then the whole account is deleted, with what it has
bounded. The buckets it owns stay. -/

set_option autoImplicit false

namespace MeterPov.Staking

open Lib Accounts Auction StackedMap

def meter (account : Account) : Int := account.energy + account.boundEnergy

namespace Ledger

variable (ledger : Ledger) (contractAddr tokenReceiver : Address)

/-- The contract's own energy and balance are not cleared, since the account is deleted next. -/
def onSuicideContract : Ledger :=
  let energy := (ledger.account contractAddr).energy
  let rewarded :=
    if energy ≠ 0 then ledger.setEnergy tokenReceiver ((ledger.account tokenReceiver).energy + energy) else ledger
  let amount := (rewarded.account contractAddr).balance
  if amount ≠ 0 then rewarded.setBalance tokenReceiver ((rewarded.account tokenReceiver).balance + amount) else rewarded

def suicide (addr : Address) : Ledger := if (ledger.account addr).isEmpty then ledger else ledger.update addr {}

def opSuicide : Ledger := (ledger.onSuicideContract contractAddr tokenReceiver).suicide contractAddr

theorem suicide_refines {ledger : Ledger} {db : StateDB} (levels : db.state.sm.depth ≠ 0) (repo : db.repo.depth ≠ 0)
    (same : ∀ addr, db.state.get (.account addr) = ledger.account addr) (addr : Address) :
    ∃ destroyed after, StateDB.suicide addr db = .ok destroyed after ∧
      ∀ other, after.state.get (.account other) = (ledger.suicide addr).account other := by
  rw [StateDB.suicide_eq levels repo, State.exist, same]
  unfold suicide
  cases empty : (ledger.account addr).isEmpty with
  | true => exact ⟨false, db, rfl, same⟩
  | false =>
    refine ⟨true, _, rfl, fun other => ?_⟩
    have later : (db.state.sm.put (.code addr) []).depth ≠ 0 := by
      rw [StackedMap.depth, put_mapStack_length]
      exact levels
    have coded : StateKey.account other ≠ .code addr := by simp
    by_cases own : other = addr
    · subst own
      simp [State.get, get_put_self later]
    · have apart : StateKey.account other ≠ .account addr := fun same => own (StateKey.account.inj same)
      have unchanged : (db.state.sm.get (.account other)).1 = ledger.account other := same other
      simp [State.get, get_put_of_ne apart, get_put_of_ne coded, unchanged, own]

theorem isEmpty_iff {account : Account} : account.isEmpty = true ↔ account = {} := by
  cases account
  simp [Account.isEmpty, and_assoc]

def enriched : Account :=
  { ledger.account tokenReceiver with
    energy := (ledger.account tokenReceiver).energy + (ledger.account contractAddr).energy
    balance := (ledger.account tokenReceiver).balance + (ledger.account contractAddr).balance }

variable {ledger contractAddr tokenReceiver} (apart : tokenReceiver ≠ contractAddr)

include apart

theorem onSuicideContract_eq : ledger.onSuicideContract contractAddr tokenReceiver =
      ledger.update tokenReceiver (ledger.enriched contractAddr tokenReceiver) := by
  ext1
  funext addr
  unfold onSuicideContract enriched
  by_cases energy : (ledger.account contractAddr).energy = 0
  · by_cases balance : (ledger.account contractAddr).balance = 0
    · simp only [energy, balance, ne_eq, not_true_eq_false, if_false, add_zero, account_update]
      split
      next same => rw [same]
      · rfl
    · simp [energy, balance, setBalance]
  · by_cases balance : (ledger.account contractAddr).balance = 0
    · simp [energy, balance, setEnergy, Ne.symm apart]
    · simp only [energy, balance, setEnergy, setBalance, Ne.symm apart, ne_eq, not_false_eq_true, if_true, if_false, account_update]
      split <;> rfl

/-- The account of the contract is empty, whether it was there or not. -/
theorem opSuicide_eq : ledger.opSuicide contractAddr tokenReceiver =
      (ledger.update tokenReceiver (ledger.enriched contractAddr tokenReceiver)).update contractAddr {} := by
  unfold opSuicide suicide
  rw [onSuicideContract_eq apart]
  split
  next gone =>
    ext1
    funext addr
    rw [account_update _ contractAddr]
    split
    next same =>
      rw [same]
      exact isEmpty_iff.mp gone
    · rfl
  · rfl

theorem sum_opSuicide_gov : (ledger.opSuicide contractAddr tokenReceiver).sum gov =
    ledger.sum gov - (ledger.account contractAddr).boundBalance := by
  rw [opSuicide_eq apart, sum_update _ _ (show gov {} = 0 from rfl), sum_update _ _ (show gov {} = 0 from rfl), account_update,
    if_neg (Ne.symm apart)]
  simp only [gov, enriched]
  omega

theorem sum_opSuicide_meter : (ledger.opSuicide contractAddr tokenReceiver).sum meter =
    ledger.sum meter - (ledger.account contractAddr).boundEnergy := by
  rw [opSuicide_eq apart, sum_update _ _ (show meter {} = 0 from rfl), sum_update _ _ (show meter {} = 0 from rfl), account_update,
    if_neg (Ne.symm apart)]
  simp only [meter, enriched]
  omega

theorem bound_opSuicide (addr : Address) : ((ledger.opSuicide contractAddr tokenReceiver).account addr).boundBalance =
    if addr = contractAddr then 0 else (ledger.account addr).boundBalance := by
  rw [opSuicide_eq apart, account_update, account_update]
  split
  · rfl
  · split
    next same => rw [same, enriched]
    · rfl

end Ledger

section

variable [Primitives] {ledger : Ledger} {c receiver : Address} {bl : BucketList}

def govStaked (bl : BucketList) (addr : Address) : Int :=
  bl.total (share Bucket.owner (fun bucket => if bucket.token = mtrg then bucket.value else 0) addr)

/-- A contract that destroys itself keeps the two sums and the stake equation exactly when it has bounded nothing. -/
theorem selfDestruct_conserves_iff (apart : receiver ≠ c) (stake : ∀ addr, (ledger.account addr).boundBalance = govStaked bl addr) :
    ((ledger.opSuicide c receiver).sum gov = ledger.sum gov ∧ (ledger.opSuicide c receiver).sum meter = ledger.sum meter ∧
        ∀ addr, ((ledger.opSuicide c receiver).account addr).boundBalance = govStaked bl addr) ↔
      (ledger.account c).boundBalance = 0 ∧ (ledger.account c).boundEnergy = 0 := by
  rw [Ledger.sum_opSuicide_gov apart, Ledger.sum_opSuicide_meter apart]
  constructor
  · rintro ⟨gov, meter, -⟩
    omega
  · rintro ⟨bound, boundEnergy⟩
    refine ⟨by omega, by omega, fun addr => ?_⟩
    rw [Ledger.bound_opSuicide apart, ← stake]
    split
    next same => rw [same, bound]
    · rfl

end

section

attribute [local instance] plainPrimitives

/-- Contract 5 holds 10 MTRG, and has bounded another amount. -/
def contractLedger (bound : Int) : Ledger := Ledger.empty.update 5 { balance := 10, boundBalance := bound }

theorem plain_contract_conserved : ((contractLedger 0).opSuicide 5 6).sum gov = (contractLedger 0).sum gov ∧
      ((contractLedger 0).opSuicide 5 6).account 6 = { balance := 10 } := by
  have stake : ∀ addr, ((contractLedger 0).account addr).boundBalance = govStaked .empty addr := by
    intro addr
    simp only [contractLedger, Ledger.account_update]
    split <;> rfl
  have conserved := (selfDestruct_conserves_iff (show (6 : Address) ≠ 5 by decide) stake).mpr (by decide)
  exact ⟨conserved.1, by decide +kernel⟩

def contractBuckets : BucketList where
  items := [newBucket 5 1 100 mtrg oneWeekLock 5 100 0 0]
  sorted := by decide +kernel

/-- The bucket of 100 stays, and what was bounded for it is gone. -/
theorem staking_contract_destroyed : (∀ addr, ((contractLedger 100).account addr).boundBalance = govStaked contractBuckets addr) ∧
      ((contractLedger 100).opSuicide 5 6).sum gov = (contractLedger 100).sum gov - 100 ∧
      (((contractLedger 100).opSuicide 5 6).account 5).boundBalance = 0 ∧ govStaked contractBuckets 5 = 100 := by
  refine ⟨fun addr => ?_, ?_, by decide +kernel, by decide +kernel⟩
  · simp only [contractLedger, Ledger.account_update]
    by_cases own : addr = 5
    · subst own
      decide +kernel
    · have foreign : (newBucket 5 1 100 mtrg oneWeekLock 5 100 0 0).owner ≠ addr := Ne.symm own
      rw [if_neg own]
      simp [govStaked, contractBuckets, SortedList.total, share_of_ne foreign, Ledger.empty]
  · exact Ledger.sum_opSuicide_gov (by decide)

end

end MeterPov.Staking
