import MeterPov.Staking.StakeholderIndex

/-! What is staked is bounded, and nothing is created but by minting.

The bounded balance of an account is the sum of the values of its buckets. Operations move amounts
between the two balances of an account or between accounts; only the governing of an epoch mints. -/

set_option autoImplicit false

namespace MeterPov.Staking

open Lib Accounts Auction List

/-! ## Moves on the accounts -/

def gov (account : Account) : Int := account.balance + account.boundBalance

namespace Ledger

variable (ledger : Ledger) (addr sender recipient other : Address) (amount : Nat)

theorem sum_moveToBound : (ledger.moveToBound addr amount).sum gov = ledger.sum gov := by
  simp only [moveToBound, setBalance, setBoundedBalance, sum_update _ _ (show gov {} = 0 from rfl), account_update, if_true, gov]
  omega

theorem sum_moveBalance : (ledger.moveBalance amount sender recipient).sum gov = ledger.sum gov := by
  simp only [moveBalance, setBalance, sum_update _ _ (show gov {} = 0 from rfl), account_update, gov]
  omega

theorem sum_moveBound : (ledger.moveBound amount sender recipient).sum gov = ledger.sum gov := by
  simp only [moveBound, setBoundedBalance, sum_update _ _ (show gov {} = 0 from rfl), account_update, gov]
  omega

theorem bound_moveToBound : ((ledger.moveToBound addr amount).account other).boundBalance =
    (ledger.account other).boundBalance + if addr = other then (amount : Int) else 0 := by
  by_cases same : addr = other
  · subst same
    simp [moveToBound, setBalance, setBoundedBalance]
  · simp [moveToBound, setBalance, setBoundedBalance, same, Ne.symm same]

theorem bound_moveBalance : ((ledger.moveBalance amount sender recipient).account other).boundBalance =
    (ledger.account other).boundBalance := by
  simp only [moveBalance, setBalance, account_update]
  split
  next same =>
    subst same
    split
    next same => rw [same]
    · rfl
  · split
    next same => rw [same]
    · rfl

theorem bound_moveBound : ((ledger.moveBound amount sender recipient).account other).boundBalance =
    (ledger.account other).boundBalance + (if sender = other then -(amount : Int) else 0) +
      if recipient = other then (amount : Int) else 0 := by
  simp only [moveBound, setBoundedBalance, account_update, @eq_comm _ other]
  by_cases given : sender = other
  · subst given
    by_cases received : recipient = sender
    · simp [received]
    · simp [received, Int.sub_eq_add_neg]
  · by_cases received : recipient = other
    · subst received
      simp [given, Ne.symm given]
    · simp [given, received]

theorem sum_mint (mints : List (Address × Nat)) :
    (mints.foldl mintBalance ledger).sum gov = ledger.sum gov + (mints.map Prod.snd).sum := by
  induction mints generalizing ledger with
  | nil => simp
  | cons mint rest ih =>
    have minted : (ledger.mintBalance mint).sum gov = ledger.sum gov + mint.2 := by
      simp only [mintBalance, setBalance, sum_update _ _ (show gov {} = 0 from rfl), gov]
      omega
    rw [foldl_cons, ih, minted, map_cons, sum_cons]
    omega

theorem bound_mint (mints : List (Address × Nat)) :
    ((mints.foldl mintBalance ledger).account other).boundBalance = (ledger.account other).boundBalance := by
  induction mints generalizing ledger with
  | nil => rfl
  | cons mint rest ih =>
    rw [foldl_cons, ih]
    simp only [mintBalance, setBalance, account_update]
    split
    next same => rw [same]
    · rfl

theorem sum_reward (rewards : List (Address × Int)) : (rewards.foldl addEnergy ledger).sum gov = ledger.sum gov := by
  induction rewards generalizing ledger with
  | nil => rfl
  | cons reward rest ih =>
    rw [foldl_cons, ih]
    simp only [addEnergy, setEnergy, sum_update _ _ (show gov {} = 0 from rfl), gov]
    omega

theorem bound_reward (rewards : List (Address × Int)) :
    ((rewards.foldl addEnergy ledger).account other).boundBalance = (ledger.account other).boundBalance := by
  induction rewards generalizing ledger with
  | nil => rfl
  | cons reward rest ih =>
    rw [foldl_cons, ih]
    simp only [addEnergy, setEnergy, account_update]
    split
    next same => rw [same]
    · rfl

def minted (distribution : Distribution) : Nat := (distribution.minted.map Prod.snd).sum

theorem sum_unbound {ledger later : Ledger} {bucket : Bucket} (ran : ledger.unbound bucket = .ok later) :
    later.sum gov = ledger.sum gov := by
  unfold unbound unboundAccountMeter unboundAccountMeterGov at ran
  split at ran
  · split at ran
    · cases ran
      rfl
    · split at ran
      · cases ran
      · cases ran
        simp only [setEnergy, setBoundedEnergy, sum_update _ _ (show gov {} = 0 from rfl), account_update, if_true, gov]
        omega
  · split at ran
    · split at ran
      · cases ran
        rfl
      · split at ran
        · cases ran
        · cases ran
          simp only [setBalance, setBoundedBalance, sum_update _ _ (show gov {} = 0 from rfl), account_update, if_true, gov]
          omega
    · cases ran

end Ledger

section

variable [Primitives] {world next : World} {ledger : Ledger} {bl : BucketList} {id : Bytes32} {old new : Bucket}
  {update : Bucket → Bucket} {change : Int} {addr owner recipient : Address} {amount : Nat}

/-! ## The stake equation -/

abbrev staked (bl : BucketList) (addr : Address) : Int := bl.total (share Bucket.owner Bucket.value addr)

/-- The buckets are all in MTRG, and the bounded balance of every account is the sum of the values of its buckets. -/
structure Backed (ledger : Ledger) (bl : BucketList) : Prop where
  token : ∀ bucket ∈ bl.items, bucket.token = mtrg
  stake : ∀ addr, (ledger.account addr).boundBalance = staked bl addr

theorem staked_modify (held : bl.get id = some old) (restaked : Restaked old (update old) change) :
    staked (bl.modify id update) addr = staked bl addr + if old.owner = addr then change else 0 := by
  rw [staked, staked, bl.total_modify held restaked.id]
  simp only [share, restaked.owner, restaked.value]
  split <;> omega

theorem staked_add (fresh : bl.get new.bucketID = none) :
    staked (bl.add new) addr = staked bl addr + if new.owner = addr then new.value else 0 := by
  rw [staked, bl.total_add, bl.weightAt_none fresh, Int.sub_zero]
  rfl

theorem staked_remove (held : bl.get id = some old) :
    staked (bl.remove id) addr = staked bl addr - if old.owner = addr then old.value else 0 := by
  rw [staked, bl.total_remove, bl.weightAt_of_get held]
  rfl

section

variable (tokens : ∀ bucket ∈ bl.items, bucket.token = mtrg)

include tokens

theorem token_modify (held : bl.get id = some old) (same : (update old).token = old.token) :
    ∀ bucket ∈ (bl.modify id update).items, bucket.token = mtrg := by
  intro bucket listed
  rw [bl.modify_of_get held, bl.mem_add] at listed
  rcases listed with rfl | ⟨listed, -⟩
  · exact same.trans (tokens old (bl.get_eq_some.mp held).1)
  · exact tokens bucket listed

theorem token_add (token : new.token = mtrg) : ∀ bucket ∈ (bl.add new).items, bucket.token = mtrg := by
  intro bucket listed
  rcases bl.mem_add.mp listed with rfl | ⟨listed, -⟩
  · exact token
  · exact tokens bucket listed

theorem token_remove : ∀ bucket ∈ (bl.remove id).items, bucket.token = mtrg :=
  fun bucket listed => tokens bucket (bl.mem_remove.mp listed).1

end

namespace Backed

theorem edit (backed : Backed ledger bl) (held : bl.get id = some old) (restaked : Restaked old (update old) 0)
    (token : (update old).token = old.token) : Backed ledger (bl.modify id update) where
  token := token_modify backed.token held token
  stake addr := by
    rw [staked_modify held restaked, ite_self, add_zero]
    exact backed.stake addr

theorem deposit (backed : Backed ledger bl) (held : bl.get id = some old) (restaked : Restaked old (update old) amount)
    (token : (update old).token = old.token) : Backed (ledger.moveToBound old.owner amount) (bl.modify id update) where
  token := token_modify backed.token held token
  stake addr := by rw [staked_modify held restaked, ledger.bound_moveToBound, backed.stake addr]

theorem addBucket (backed : Backed ledger bl) (fresh : bl.get new.bucketID = none) (token : new.token = mtrg)
    (value : new.value = amount) : Backed (ledger.moveToBound new.owner amount) (bl.add new) where
  token := token_add backed.token token
  stake addr := by rw [staked_add fresh, ledger.bound_moveToBound, backed.stake addr, value]

theorem split {later} (backed : Backed ledger bl) (held : bl.get id = some old)
    (restaked : Restaked old (update old) (-amount)) (token : (update old).token = old.token)
    (fresh : bl.get new.bucketID = none) (newToken : new.token = old.token) (value : new.value = amount)
    (moved : ∀ addr, (later.account addr).boundBalance = (ledger.account addr).boundBalance +
      (if old.owner = addr then -(amount : Int) else 0) + if new.owner = addr then (amount : Int) else 0) :
    Backed later ((bl.modify id update).add new) := by
  refine ⟨token_add (token_modify backed.token held token) ?_, fun addr => ?_⟩
  · exact newToken.trans (backed.token old (bl.get_eq_some.mp held).1)
  · rw [staked_add (bl.get_modify_fresh held restaked.id fresh), staked_modify held restaked, moved, backed.stake addr, value]

variable {book : Book}

/-- A matured bucket can be unbounded, and goes. -/
theorem release {bkt} (backed : Backed book.ledger book.bucketList) (nonneg : book.ValuesNonneg)
    (held : book.bucketList.get bkt.bucketID = some bkt) :
    Backed (book.release bkt).1.ledger (book.release bkt).1.bucketList := by
  have token := backed.token bkt (book.bucketList.get_eq_some.mp held).1
  have enough : bkt.value ≤ (book.ledger.account bkt.owner).boundBalance := by
    rw [backed.stake, ← (share_of_eq rfl : share Bucket.owner Bucket.value bkt.owner bkt = bkt.value)]
    exact book.bucketList.weight_le_total (fun b listed => share_nonneg (nonneg b listed)) held
  refine ⟨token_remove backed.token, fun addr => ?_⟩
  change _ = staked (book.bucketList.remove bkt.bucketID) addr
  rw [staked_remove held, ← backed.stake]
  have unbounded : book.ledger.unbound bkt = book.ledger.unboundAccountMeterGov bkt.owner bkt.value := by
    simp [Ledger.unbound, token, mtr, mtrg]
  unfold Book.release
  rw [unbounded, Ledger.unboundAccountMeterGov]
  by_cases zero : bkt.value = 0
  · simp [zero]
  · rw [if_neg zero, if_neg (by omega)]
    by_cases own : bkt.owner = addr
    · subst own
      simp [Ledger.setBalance, Ledger.setBoundedBalance]
    · simp [Ledger.setBalance, Ledger.setBoundedBalance, own, Ne.symm own]

theorem accrue (backed : Backed book.ledger book.bucketList) (ts : UInt64) (id : Bytes32) :
    Backed (book.accrue ts id).ledger (book.accrue ts id).bucketList := by
  unfold Book.accrue
  split
  · exact backed
  next bkt held =>
    split
    · exact backed.edit held ⟨rfl, rfl, (add_zero _).symm⟩ rfl
    · exact backed

theorem governed (backed : Backed book.ledger book.bucketList) (ts : UInt64) (nonneg : book.ValuesNonneg) :
    Backed (book.unboundAndCalcBonus ts).1.ledger (book.unboundAndCalcBonus ts).1.bucketList := by
  let kept (book : Book) : Prop := Backed book.ledger book.bucketList ∧ book.ValuesNonneg
  refine (unboundAndCalcBonus_induction (motive := kept) ?_ ?_ book ⟨backed, nonneg⟩).1
  · intro book bkt ⟨backed, nonneg⟩ held
    exact ⟨backed.release nonneg held, nonneg.release bkt⟩
  · intro book id ⟨backed, nonneg⟩
    exact ⟨backed.accrue ts id, nonneg.accrue ts id⟩

theorem delisted (backed : Backed book.ledger book.bucketList) (record : Candidate) :
    Backed (book.delist record).ledger (book.delist record).bucketList := by
  apply releaseBuckets_induction (motive := fun bl => Backed book.ledger bl)
  · intro bl id b backed held _
    refine backed.edit held b.released_restaked ?_
    unfold Bucket.released
    dsimp only
    split <;> rfl
  · exact backed

theorem described {before after : Book} {info} (described : before.Described after addr info)
    (backed : Backed before.ledger before.bucketList) : Backed after.ledger after.bucketList := by
  rw [described.ledger]
  rcases described.buckets with same | ⟨id, autobid, edited⟩
  · rw [same]
    exact backed
  · rw [edited]
    cases held : before.bucketList.get id with
    | none => rwa [before.bucketList.get_modify_none held]
    | some b => exact backed.edit held ⟨rfl, rfl, (add_zero _).symm⟩ rfl

end Backed

variable {operation : Operation} {after : Book}

theorem backed_effect (backed : Backed world.ledger world.bucketList)
    (fresh : ∀ new, world.opens operation = some new → world.bucketList.get new.bucketID = none)
    (effect : Effect world operation after) : Backed after.ledger after.bucketList := by
  cases effect with
  | idle => exact backed
  | bail => exact ⟨backed.token, fun addr => (Ledger.bound_moveBalance ..).trans (backed.stake addr)⟩
  | close held | move held | enter _ held | leave held => exact backed.edit held ⟨rfl, rfl, (add_zero _).symm⟩ rfl
  | deposit held => exact backed.deposit held ⟨rfl, rfl, rfl⟩ rfl
  | join opens token value => exact backed.addBucket (fresh _ opens) token value
  | enlist opens => exact backed.addBucket (fresh _ opens) rfl rfl
  | withdraw held opens =>
    exact backed.split held ⟨rfl, rfl, Int.sub_eq_add_neg⟩ rfl (fresh _ opens) rfl rfl fun addr => Ledger.bound_moveBound ..
  | @sub _ b amount _ _ held opens =>
    apply backed.split held ⟨rfl, rfl, Int.sub_eq_add_neg⟩ rfl (fresh _ opens) rfl rfl
    intro addr
    change (world.ledger.account addr).boundBalance = (world.ledger.account addr).boundBalance +
      (if b.owner = addr then -(amount : Int) else 0) + if b.owner = addr then (amount : Int) else 0
    split <;> omega
  | @merge fromID toID fromBkt toBkt apart heldFrom heldTo owner =>
    have restaked : Restaked toBkt (toBkt.merged fromBkt) fromBkt.value := ⟨rfl, rfl, rfl⟩
    have heldAfter : (world.bucketList.modify toID (·.merged fromBkt)).get fromID = some fromBkt :=
      (world.bucketList.get_modify_of_ne heldTo restaked.id apart).trans heldFrom
    refine ⟨token_remove (token_modify backed.token heldTo rfl), fun addr => ?_⟩
    rw [staked_remove heldAfter, staked_modify heldTo restaked, owner, Int.add_sub_cancel]
    exact backed.stake addr
  | @transfer fromID toID fromBkt toBkt amount apart heldFrom heldTo owner =>
    have given : Restaked fromBkt (fromBkt.transferred amount (fromBkt.bonusOf amount)) (-amount) := ⟨rfl, rfl, rfl⟩
    have received : Restaked toBkt (toBkt.received amount (fromBkt.bonusOf amount)) amount := ⟨rfl, rfl, rfl⟩
    have heldAfter : (world.bucketList.modify fromID (·.transferred amount (fromBkt.bonusOf amount))).get toID = some toBkt :=
      (world.bucketList.get_modify_of_ne heldFrom given.id apart.symm).trans heldTo
    refine ⟨token_modify (token_modify backed.token heldFrom rfl) heldAfter rfl, fun addr => ?_⟩
    rw [staked_modify heldAfter received, staked_modify heldFrom given, owner, backed.stake addr]
    split <;> omega
  | describe _ described => exact backed.described described
  | delist => exact backed.delisted _
  | @govern _ env distribution _ ran =>
    let started : Book := { world.toBook with ledger := world.ledger.distribute distribution }
    have before : Backed started.ledger started.bucketList :=
      ⟨backed.token, fun addr => by simp only [started, Ledger.distribute, Ledger.bound_reward, Ledger.bound_mint, backed.stake addr]⟩
    have governed := before.governed env.time fun b listed => (world.encodes.1 b listed).1
    rw [ran] at governed
    exact governed

/-! ## The supply -/

def Operation.minted : Operation → Int
  | .governing _ distribution => Ledger.minted distribution
  | _ => 0

theorem sum_release (book : Book) (bkt : Bucket) : (book.release bkt).1.ledger.sum gov = book.ledger.sum gov := by
  unfold Book.release
  cases unbounded : book.ledger.unbound bkt with
  | error => rfl
  | ok later => exact Ledger.sum_unbound unbounded

theorem sum_governed (ts : UInt64) (book : Book) : (book.unboundAndCalcBonus ts).1.ledger.sum gov = book.ledger.sum gov := by
  apply unboundAndCalcBonus_induction (motive := fun later => later.ledger.sum gov = book.ledger.sum gov)
  · intro later bkt same _
    exact (sum_release later bkt).trans same
  · intro later id same
    unfold Book.accrue
    split
    · exact same
    · split <;> exact same
  · rfl

theorem sum_effect (other : ∀ env distribution, operation ≠ .governing env distribution) (effect : Effect world operation after) :
    after.ledger.sum gov = world.ledger.sum gov := by
  cases effect with
  | idle | close | sub | move | enter | leave | merge | transfer | delist => rfl
  | bail => exact Ledger.sum_moveBalance ..
  | deposit | join | enlist => exact Ledger.sum_moveToBound ..
  | withdraw => exact Ledger.sum_moveBound ..
  | describe _ described => rw [described.ledger]
  | govern isGoverning => exact absurd isGoverning (other _ _)

theorem sum_step (recent : operation.AtFork 10) (ran : world.run operation = .ok next) :
    next.ledger.sum gov = world.ledger.sum gov + operation.minted := by
  cases operation with
  | governing env distribution =>
    have governed := sum_governed env.time { world.toBook with ledger := world.ledger.distribute distribution }
    rw [governing_ok ran] at governed
    rw [Ledger.distribute, Ledger.sum_reward, Ledger.sum_mint] at governed
    exact governed
  | _ =>
    have effect := effect_of_run recent ran
    exact (sum_effect (by simp) effect).trans (add_zero _).symm

/-- What a run mints: an operation that fails mints nothing. -/
def World.mintedBy : World → List Operation → Int
  | _, [] => 0
  | world, operation :: rest =>
    (match world.run operation with
      | .ok _ => operation.minted
      | .error _ => 0) + mintedBy (world.after operation) rest

theorem sum_afterAll {operations} (recent : ∀ operation ∈ operations, operation.AtFork 10) :
    (world.afterAll operations).ledger.sum gov = world.ledger.sum gov + world.mintedBy operations := by
  induction operations generalizing world with
  | nil => exact (add_zero _).symm
  | cons operation rest ih =>
    change ((world.after operation).afterAll rest).ledger.sum gov = _
    rw [ih fun other listed => recent other (mem_cons_of_mem _ listed), World.mintedBy]
    cases ran : world.run operation with
    | error failure =>
      have same : world.after operation = world := by simp [World.after, ran]
      rw [same]
      dsimp only
      omega
    | ok next =>
      have same : world.after operation = next := by simp [World.after, ran]
      rw [same, sum_step (recent operation mem_cons_self) ran]
      dsimp only
      omega

/-- Along every run whose new buckets have IDs of their own, the bounded balance of every account is what its buckets are worth, and
the MTRG of all accounts grows by what is minted and by nothing else. -/
theorem stake_conserved {operations : List Operation} (recent : ∀ operation ∈ operations, operation.AtFork 10)
    (distinct : world.DistinctlyOpened operations) (tokens : ∀ bucket ∈ world.bucketList.items, bucket.token = mtrg)
    (stake : ∀ addr, (world.ledger.account addr).boundBalance = staked world.bucketList addr) :
    (∀ addr, ((world.afterAll operations).ledger.account addr).boundBalance = staked (world.afterAll operations).bucketList addr) ∧
      (world.afterAll operations).ledger.sum gov = world.ledger.sum gov + world.mintedBy operations := by
  refine ⟨?_, sum_afterAll recent⟩
  apply Backed.stake
  apply World.afterAll_induction (motive := fun world => Backed world.ledger world.bucketList) recent
  · intro world next operation listed backed ran fresh
    exact backed_effect backed fresh (effect_of_run (recent operation listed) ran)
  · exact distinct
  · exact ⟨tokens, stake⟩

end

section

attribute [local instance] plainPrimitives

/-- An epoch mints 7 to account 3, after account 1 has locked 2000. -/
def mintSeven : Operation := .governing ⟨10, 5000, 0, 0, 0⟩ ⟨[(3, 7)], []⟩

theorem mint_seven_conserved : ((unstakedWorld.afterAll [listOne, mintSeven]).ledger.account 1).boundBalance = mtrgAmount 2000 ∧
      staked (unstakedWorld.afterAll [listOne, mintSeven]).bucketList 1 = mtrgAmount 2000 ∧
      (unstakedWorld.afterAll [listOne, mintSeven]).ledger.sum gov = unstakedWorld.ledger.sum gov + 7 := by
  have recent : ∀ operation ∈ [listOne, mintSeven], operation.AtFork 10 := by simp [listOne, mintSeven, Operation.AtFork]
  have distinct : unstakedWorld.DistinctlyOpened [listOne, mintSeven] := ⟨by decide +kernel, fun _ _ _ listed => absurd listed not_mem_nil⟩
  have nothing : ∀ addr, (unstakedWorld.ledger.account addr).boundBalance = staked unstakedWorld.bucketList addr := by
    intro addr
    simp only [unstakedWorld, Ledger.account_update]
    split
    · rfl
    · split <;> rfl
  obtain ⟨stake, supply⟩ := stake_conserved recent distinct (fun _ listed => absurd listed not_mem_nil) nothing
  have minted : unstakedWorld.mintedBy [listOne, mintSeven] = 7 := by decide +kernel
  have bound : ((unstakedWorld.afterAll [listOne, mintSeven]).ledger.account 1).boundBalance = mtrgAmount 2000 := by decide +kernel
  exact ⟨bound, (stake 1).symm.trans bound, minted ▸ supply⟩

end

end MeterPov.Staking
