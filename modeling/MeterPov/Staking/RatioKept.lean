import MeterPov.Staking.Runs

/-! When an operation keeps the self-vote ratio of a candidate.

The votes of a candidate `c` are the values of all buckets that vote for it; its own stake is the
value of those it locked for itself. Each operation changes both sums by the buckets it updates, adds
and removes. -/

set_option autoImplicit false

namespace MeterPov.Staking

open Lib Auction Option SortedList Bucket

section

variable [Primitives] {world next : World} {c : Address} {bl : BucketList}

/-- The hundredth part of the votes for `c`, rounded down, is within its own stake. -/
def RatioHolds (c : Address) (bl : BucketList) : Prop :=
  bl.total (Bucket.votedValue c) / 100 ≤ bl.total (Bucket.selfValue c)

instance : Decidable (RatioHolds c bl) := inferInstanceAs (Decidable (_ ≤ _))

section

variable (c : Address) (bl : BucketList)

/-- The check with a new bucket in the place of the one that it replaces. -/
def ratioValidWith (new : Bucket) : Bool :=
  correctCheckEnoughSelfVotes c (bl.remove new.bucketID) tesla11SelfVoteRatio (some (new.selfValue c)) none
    (some (new.votedValue c)) none

/-- The check with an amount less of the candidate's own stake, and without a bucket. -/
def ratioValidWithout (id : Bytes32) (subSelfValue : Option Int) : Bool :=
  correctCheckEnoughSelfVotes c (bl.remove id) tesla11SelfVoteRatio none subSelfValue none none

/-- A new bucket has an ID of its own, or the ratio holds with it in the place of the bucket it replaces. -/
def JoinsWell (new : Bucket) : Prop :=
  bl.get new.bucketID = none ∨ ratioValidWith c bl new

/-- A bucket that is split off has an ID of its own and is not taken from the candidate's own stake; or the
ratio holds with the stake that is left and without the bucket that is replaced. -/
def SplitsWell (old new : Bucket) : Prop :=
  bl.get new.bucketID = none ∧ old.isSelf c = false ∨
    if new.bucketID = old.bucketID then ratioValidWith c bl new
    else ratioValidWithout c bl new.bucketID (if old.isSelf c then some new.value else none)

/-- A bucket that comes to the candidate has at least as many votes as its value, or its value is within the ratio. -/
def MovesWell (moved : Bucket) : Prop :=
  moved.candidate = c ∨ moved.value ≤ moved.totalVotes ∨ ratioValid c bl moved.value

end

/-- What keeps the ratio, on the state before an operation. -/
def World.KeepsRatio (world : World) (c : Address) : Operation → Prop
  | .bucketWithdraw _ id amount recipient ts nonce =>
    ∀ b, world.bucketList.get id = some b → SplitsWell c world.bucketList b (b.split recipient amount ts nonce)
  | .bucketUpdateCandidate _ id newCandidateAddr =>
    ∀ b, world.bucketList.get id = some b → newCandidateAddr = c → MovesWell c world.bucketList b
  | .bucketMerge _ fromID toID =>
    ∀ fromBkt toBkt, world.bucketList.get fromID = some fromBkt → world.bucketList.get toID = some toBkt →
      toBkt.candidate = c → MovesWell c world.bucketList fromBkt
  | .script .bucketUpdate env sb =>
    ∀ b, world.bucketList.get sb.stakingID = some b →
      if sb.option = bucketSubOpt then
        SplitsWell c world.bucketList b (b.split b.owner sb.amount (env.timestamp sb) (env.bucketNonce sb))
      else b.isForeverLock → b.candidate = c → b.owner ≠ c → ratioValid c world.bucketList sb.amount
  -- a bucket without a candidate would vote for a candidate at the zero address
  | .script .bound env sb =>
    ∀ new, world.opens (.script .bound env sb) = some new →
      c ≠ 0 ∧ JoinsWell c world.bucketList new ∨ ratioValidWith c world.bucketList new
  | operation => ∀ new, world.opens operation = some new → JoinsWell c world.bucketList new

def Operation.movesVotes : Operation → Bool
  | .bucketOpen .. | .bucketDeposit .. | .bucketWithdraw .. | .bucketUpdateCandidate .. | .bucketMerge .. | .bucketTransferFund .. =>
    true
  | .script .bound .. | .script .delegate .. | .script .bucketUpdate .. => true
  | _ => false

/-! ## The sums -/

section

variable {id : Bytes32} {old new : Bucket}

theorem ratioValid_iff {added} :
    ratioValid c bl added = true ↔ (bl.total (Bucket.votedValue c) + added) / 100 ≤ bl.total (Bucket.selfValue c) := by
  simp [ratioValid, correctCheckEnoughSelfVotes, subOrZero, tesla11SelfVoteRatio]

theorem ratioHolds_add : RatioHolds c (bl.add new) ↔ ratioValidWith c bl new = true := by
  simp only [ratioValidWith, correctCheckEnoughSelfVotes, subOrZero, tesla11SelfVoteRatio, getD_some, decide_eq_true_eq,
    bl.total_remove, RatioHolds, bl.total_add]

end

/-- A bucket whose value has changed and that votes as before. -/
structure Revalued (old new : Bucket) (change : Int) : Prop where
  id : new.bucketID = old.bucketID
  owner : new.owner = old.owner
  candidate : new.candidate = old.candidate
  option : new.option = old.option
  value : new.value = old.value + change

namespace Revalued

variable {id : Bytes32} {old : Bucket} {update : Bucket → Bucket} {change : Int} (revalued : Revalued old (update old) change)
  (held : bl.get id = some old)

include revalued held

theorem total_voted (c : Address) : (bl.modify id update).total (Bucket.votedValue c) =
    bl.total (Bucket.votedValue c) + if old.candidate = c then change else 0 := by
  rw [bl.total_modify held revalued.id]
  by_cases voting : old.candidate = c
  · simp only [Bucket.votedValue, share, revalued.candidate, revalued.value, if_pos voting]
    omega
  · simp only [Bucket.votedValue, share, revalued.candidate, if_neg voting]
    omega

theorem total_self (c : Address) : (bl.modify id update).total (Bucket.selfValue c) =
    bl.total (Bucket.selfValue c) + if old.isSelf c then change else 0 := by
  have same : (update old).isSelf c = old.isSelf c := by
    simp only [Bucket.isSelf, Bucket.isForeverLock, revalued.owner, revalued.candidate, revalued.option]
  rw [bl.total_modify held revalued.id]
  by_cases self : old.isSelf c
  · simp only [Bucket.selfValue, same, revalued.value, if_pos self]
    omega
  · simp only [Bucket.selfValue, same, if_neg self]
    omega

end Revalued

omit [Primitives] in
theorem Bucket.Usable.not_self {bucket : Bucket} {owner} (usable : bucket.Usable owner) : bucket.isSelf c = false := by
  simp [Bucket.isSelf, usable.normal]

omit [Primitives] in
theorem Bucket.selfValue_eq_zero {bucket : Bucket} (normal : bucket.isForeverLock = false) : bucket.selfValue c = 0 := by
  simp [Bucket.selfValue, Bucket.isSelf, normal]

/-! ## New buckets -/

/-- A new bucket keeps the ratio if it does so where it replaces no other. -/
theorem ratioHolds_add_iff_joins {new : Bucket} (kept : bl.get new.bucketID = none →
      (bl.total (Bucket.votedValue c) + new.votedValue c) / 100 ≤ bl.total (Bucket.selfValue c) + new.selfValue c) :
    RatioHolds c (bl.add new) ↔ JoinsWell c bl new := by
  constructor
  · intro holds
    exact .inr (ratioHolds_add.mp holds)
  · rintro (fresh | valid)
    · rw [RatioHolds, bl.total_add, bl.total_add, bl.weightAt_none fresh, bl.weightAt_none fresh, Int.sub_zero, Int.sub_zero]
      exact kept fresh
    · exact ratioHolds_add.mpr valid

section

variable {id : Bytes32} {old new : Bucket} {update : Bucket → Bucket}

/-- A bucket that is split off and takes the place of another one, or none. -/
theorem ratioHolds_split_other {amount} (held : bl.get id = some old) (revalued : Revalued old (update old) (-amount))
    (apart : new.bucketID ≠ old.bucketID) (voted : new.votedValue c = if old.candidate = c then amount else 0)
    (normal : new.isForeverLock = false) (enough : amount ≤ old.value) (nonneg : ∀ b ∈ bl.items, 0 ≤ b.value) :
    RatioHolds c ((bl.modify id update).add new) ↔
      ratioValidWithout c bl new.bucketID (if old.isSelf c then some amount else none) = true := by
  have named := bl.key_of_get held
  have unchanged : (bl.modify id update).get new.bucketID = bl.get new.bucketID := by
    rw [bl.modify_of_get held, bl.get_add, revalued.id, if_neg apart]
  have weights (weight : Bucket → Int) : (bl.modify id update).weightAt weight new.bucketID = bl.weightAt weight new.bucketID := by
    rw [SortedList.weightAt, SortedList.weightAt, unchanged]
  -- the candidate's own stake still has the whole of the old bucket
  have stays : (bl.remove new.bucketID).get id = some old := by
    rw [bl.get_remove, if_neg fun same : id = new.bucketID => apart (same.symm.trans named.symm), held]
  have stake : old.selfValue c ≤ (bl.remove new.bucketID).total (Bucket.selfValue c) := by
    refine weight_le_total _ (fun b listed => ?_) stays
    have value := nonneg b (bl.mem_remove.mp listed).1
    unfold Bucket.selfValue
    split
    · exact value
    · exact le_refl 0
  rw [bl.total_remove] at stake
  rw [RatioHolds, total_add, total_add, weights, weights, revalued.total_voted held, revalued.total_self held,
    voted, selfValue_eq_zero normal]
  simp only [ratioValidWithout, correctCheckEnoughSelfVotes, tesla11SelfVoteRatio, bl.total_remove, getD_none, subOrZero,
    decide_eq_true_eq]
  by_cases self : old.isSelf c
  · rw [Bucket.selfValue, if_pos self] at stake
    simp only [if_pos self]
    split <;> split <;> omega
  · simp only [if_neg self]
    split <;> omega

theorem ratioHolds_split_iff (held : bl.get id = some old) (revalued : Revalued old (update old) (-new.value))
    (voted : new.candidate = old.candidate) (normal : new.isForeverLock = false) (enough : new.value ≤ old.value)
    (nonneg : ∀ b ∈ bl.items, 0 ≤ b.value) (before : RatioHolds c bl) :
    RatioHolds c ((bl.modify id update).add new) ↔ SplitsWell c bl old new := by
  have named := bl.key_of_get held
  unfold SplitsWell
  by_cases same : new.bucketID = old.bucketID
  · have taken : bl.get new.bucketID = some old := by rw [same, named, held]
    have splitSame : RatioHolds c ((bl.modify id update).add new) ↔ ratioValidWith c bl new = true := by
      have named := bl.key_of_get held
      have before : (bl.modify id update).get new.bucketID = some (update old) := by
        rw [bl.modify_of_get held, bl.get_add, revalued.id, same, if_pos rfl]
      rw [← ratioHolds_add, RatioHolds, RatioHolds]
      simp only [total_add, weightAt_of_get _ before, bl.total_modify held revalued.id,
        bl.weightAt_of_get (same.trans named ▸ held : bl.get new.bucketID = some old)]
      constructor <;> intro holds <;> omega
    rw [splitSame, if_pos same, taken]
    simp
  · have votes : new.votedValue c = if old.candidate = c then new.value else 0 := by
      simp only [Bucket.votedValue, share, voted]
    rw [if_neg same, ratioHolds_split_other held revalued same votes normal enough nonneg]
    refine ⟨.inr, ?_⟩
    rintro (⟨fresh, foreign⟩ | valid)
    · rw [ratioValidWithout, if_neg (by simp [foreign])]
      simpa [correctCheckEnoughSelfVotes, subOrZero, tesla11SelfVoteRatio, bl.total_remove, bl.weightAt_none fresh, RatioHolds]
        using before
    · exact valid

end

/-- The votes of a bucket that comes to the candidate were checked with its bonus. -/
theorem movesWell_iff {moved} (comes : moved.candidate ≠ c)
    (checked : (bl.total (Bucket.votedValue c) + moved.totalVotes) / 100 ≤ bl.total (Bucket.selfValue c)) :
    (bl.total (Bucket.votedValue c) + moved.value) / 100 ≤ bl.total (Bucket.selfValue c) ↔ MovesWell c bl moved := by
  simp only [MovesWell, comes, false_or, ratioValid_iff]
  constructor
  · exact .inr
  · rintro (votes | valid)
    · omega
    · exact valid

/-! ## The operations -/

section

variable {owner candAddr recipient newCandidateAddr : Address} {amount : Nat} {id fromID toID : Bytes32} {ts nonce : UInt64}
  {env : Env} {sb : StakingBody} (listed : (world.candidateList.get c).isSome) (before : RatioHolds c world.bucketList)

omit [Primitives] in
theorem Bucket.deposited_revalued [Primitives] (b : Bucket) (amount : Nat) : Revalued b (b.deposited amount) amount :=
  ⟨rfl, rfl, rfl, rfl, rfl⟩

include listed in
theorem World.Takes.ratio {votes : Int} (takes : world.Takes c votes) :
    (world.bucketList.total (Bucket.votedValue c) + votes) / 100 ≤ world.bucketList.total (Bucket.selfValue c) := by
  obtain ⟨cand, held⟩ := isSome_iff_exists.mp listed
  exact ratioValid_iff.mp (takes cand held)

include listed before

theorem deposit_keeps_ratio (ran : world.run (.bucketDeposit owner id amount) = .ok next) : RatioHolds c next.bucketList := by
  obtain ⟨b, held, usable, takes, left⟩ := bucketDeposit_ok ran
  rw [left, RatioHolds, (b.deposited_revalued amount).total_voted held, (b.deposited_revalued amount).total_self held]
  split
  next voting =>
    subst voting
    have valid := takes.ratio listed
    omega
  · unfold RatioHolds at before
    omega

theorem open_keeps_ratio (ran : world.run (.bucketOpen owner candAddr amount ts nonce) = .ok next) :
    RatioHolds c next.bucketList ↔ world.KeepsRatio c (.bucketOpen owner candAddr amount ts nonce) := by
  rcases bucketOpen_ok ran with ⟨bkt, -, -, -, none, deposited⟩ | ⟨-, opens, takes, -, left⟩
  · refine iff_of_true (deposit_keeps_ratio listed before deposited) fun new some => ?_
    rw [none] at some
    cases some
  · have joins : RatioHolds c next.bucketList ↔ JoinsWell c world.bucketList (openedBucket owner candAddr amount ts nonce) := by
      rw [left]
      apply ratioHolds_add_iff_joins
      intro _
      have own : (openedBucket owner candAddr amount ts nonce).selfValue c = 0 := selfValue_eq_zero rfl
      by_cases voting : candAddr = c
      · subst voting
        have valid := takes.ratio listed
        have votes : (openedBucket owner candAddr amount ts nonce).votedValue candAddr = amount := share_of_eq rfl
        omega
      · have votes : (openedBucket owner candAddr amount ts nonce).votedValue c = 0 := share_of_ne voting
        unfold RatioHolds at before
        omega
    rw [joins]
    simp only [World.KeepsRatio, opens, Option.some.injEq, forall_eq']

omit listed in
theorem withdraw_keeps_ratio (ran : world.run (.bucketWithdraw owner id amount recipient ts nonce) = .ok next) :
    RatioHolds c next.bucketList ↔ world.KeepsRatio c (.bucketWithdraw owner id amount recipient ts nonce) := by
  obtain ⟨b, held, -, enough, left⟩ := bucketWithdraw_ok ran
  have splits : RatioHolds c next.bucketList ↔ SplitsWell c world.bucketList b (b.split recipient amount ts nonce) := by
    rw [left]
    exact ratioHolds_split_iff held ⟨rfl, rfl, rfl, rfl, rfl⟩ rfl rfl enough (fun b listed => (world.encodes.1 b listed).1) before
  rw [splits]
  simp only [World.KeepsRatio, held, Option.some.injEq, forall_eq']

theorem updateCandidate_keeps_ratio (ran : world.run (.bucketUpdateCandidate owner id newCandidateAddr) = .ok next) :
    RatioHolds c next.bucketList ↔ world.KeepsRatio c (.bucketUpdateCandidate owner id newCandidateAddr) := by
  obtain ⟨b, held, -, normal, -, takes, -, left⟩ := bucketUpdateCandidate_ok ran
  have own : b.selfValue c = 0 := selfValue_eq_zero normal
  have ownAfter : (b.votesFor newCandidateAddr).selfValue c = 0 := selfValue_eq_zero normal
  have nonneg := world.value_nonneg held
  have votes : (world.bucketList.modify id (·.votesFor newCandidateAddr)).total (Bucket.votedValue c) =
      world.bucketList.total (Bucket.votedValue c) - b.votedValue c + (b.votesFor newCandidateAddr).votedValue c :=
    world.bucketList.total_modify held rfl
  have stake : (world.bucketList.modify id (·.votesFor newCandidateAddr)).total (Bucket.selfValue c) =
      world.bucketList.total (Bucket.selfValue c) - b.selfValue c + (b.votesFor newCandidateAddr).selfValue c :=
    world.bucketList.total_modify held rfl
  have now : RatioHolds c next.bucketList ↔ (world.bucketList.total (Bucket.votedValue c) - b.votedValue c +
      (b.votesFor newCandidateAddr).votedValue c) / 100 ≤ world.bucketList.total (Bucket.selfValue c) := by
    rw [left, RatioHolds, votes, stake, own, ownAfter]
    simp
  have kept : world.KeepsRatio c (.bucketUpdateCandidate owner id newCandidateAddr) ↔
      (newCandidateAddr = c → MovesWell c world.bucketList b) := by
    simp only [World.KeepsRatio, held, Option.some.injEq, forall_eq']
  rw [now, kept]
  unfold RatioHolds at before
  by_cases joins : newCandidateAddr = c
  · subst joins
    have value : (b.votesFor newCandidateAddr).votedValue newCandidateAddr = b.value := share_of_eq rfl
    rw [value]
    have valid := takes.ratio listed
    by_cases stays : b.candidate = newCandidateAddr
    · have same : b.votedValue newCandidateAddr = b.value := share_of_eq stays
      refine iff_of_true ?_ fun _ => .inl stays
      omega
    · have none : b.votedValue newCandidateAddr = 0 := share_of_ne stays
      rw [none, Int.sub_zero, movesWell_iff stays valid]
      simp
  · have none : (b.votesFor newCandidateAddr).votedValue c = 0 := share_of_ne joins
    refine iff_of_true ?_ fun same => absurd same joins
    have left : 0 ≤ b.votedValue c := share_nonneg nonneg
    omega

theorem merge_keeps_ratio (ran : world.run (.bucketMerge owner fromID toID) = .ok next) :
    RatioHolds c next.bucketList ↔ world.KeepsRatio c (.bucketMerge owner fromID toID) := by
  obtain ⟨apart, fromBkt, toBkt, heldFrom, usableFrom, heldTo, usableTo, takes, left⟩ := bucketMerge_ok ran
  have revalued : Revalued toBkt (toBkt.merged fromBkt) fromBkt.value := ⟨rfl, rfl, rfl, rfl, rfl⟩
  have heldAfter : (world.bucketList.modify toID (·.merged fromBkt)).get fromID = some fromBkt :=
    (world.bucketList.get_modify_of_ne heldTo revalued.id apart).trans heldFrom
  have nonneg := world.value_nonneg heldFrom
  have now : RatioHolds c next.bucketList ↔
      (world.bucketList.total (Bucket.votedValue c) + (if toBkt.candidate = c then fromBkt.value else 0) - fromBkt.votedValue c) / 100 ≤
        world.bucketList.total (Bucket.selfValue c) := by
    rw [left, RatioHolds, total_remove, total_remove, weightAt_of_get _ heldAfter,
      weightAt_of_get _ heldAfter, revalued.total_voted heldTo, revalued.total_self heldTo,
      selfValue_eq_zero usableFrom.normal]
    simp [usableTo.not_self]
  have kept : world.KeepsRatio c (.bucketMerge owner fromID toID) ↔ (toBkt.candidate = c → MovesWell c world.bucketList fromBkt) := by
    constructor
    · intro kept
      exact kept fromBkt toBkt heldFrom heldTo
    · intro kept first second heldFirst heldSecond
      cases heldFrom.symm.trans heldFirst
      cases heldTo.symm.trans heldSecond
      exact kept
  rw [now, kept]
  unfold RatioHolds at before
  have leaves : 0 ≤ fromBkt.votedValue c := share_nonneg nonneg
  by_cases joins : toBkt.candidate = c
  · subst joins
    rw [if_pos rfl]
    have valid := takes.ratio listed
    by_cases stays : fromBkt.candidate = toBkt.candidate
    · have same : fromBkt.votedValue toBkt.candidate = fromBkt.value := share_of_eq stays
      refine iff_of_true ?_ fun _ => .inl stays
      omega
    · have none : fromBkt.votedValue toBkt.candidate = 0 := share_of_ne stays
      rw [none, Int.sub_zero, movesWell_iff stays valid]
      simp
  · rw [if_neg joins]
    refine iff_of_true ?_ fun same => absurd same joins
    omega

theorem transferFund_keeps_ratio (ran : world.run (.bucketTransferFund owner fromID toID amount) = .ok next) :
    RatioHolds c next.bucketList := by
  obtain ⟨apart, fromBkt, toBkt, heldFrom, usableFrom, heldTo, usableTo, takes, -, left⟩ := bucketTransferFund_ok ran
  have given : Revalued fromBkt (fromBkt.transferred amount (fromBkt.bonusOf amount)) (-amount) := ⟨rfl, rfl, rfl, rfl, rfl⟩
  have received : Revalued toBkt (toBkt.received amount (fromBkt.bonusOf amount)) amount := ⟨rfl, rfl, rfl, rfl, rfl⟩
  have heldAfter : (world.bucketList.modify fromID (·.transferred amount (fromBkt.bonusOf amount))).get toID = some toBkt :=
    (world.bucketList.get_modify_of_ne heldFrom given.id apart.symm).trans heldTo
  rw [left, RatioHolds, received.total_voted heldAfter, received.total_self heldAfter, given.total_voted heldFrom,
    given.total_self heldFrom]
  simp only [usableFrom.not_self, usableTo.not_self, Bool.false_eq_true, if_false, add_zero]
  by_cases joins : toBkt.candidate = c
  · subst joins
    have valid := takes.ratio listed
    split <;> omega
  · unfold RatioHolds at before
    split <;> omega

theorem bound_keeps_ratio (recent : 8 ≤ env.fork) (ran : world.run (.script .bound env sb) = .ok next) :
    RatioHolds c next.bucketList ↔ world.KeepsRatio c (.script .bound env sb) := by
  obtain ⟨-, candidate, chosen, ⟨large, rfl⟩ | ⟨small, left⟩⟩ := bound_ok ran
  · refine iff_of_true before fun new some => ?_
    simp [World.opens, large] at some
  · have opens := opens_bound chosen small
    have kept : world.KeepsRatio c (.script .bound env sb) ↔ c ≠ 0 ∧ JoinsWell c world.bucketList (boundBucket env sb candidate) ∨
          ratioValidWith c world.bucketList (boundBucket env sb candidate) := by
      simp only [World.KeepsRatio, opens, Option.some.injEq, forall_eq']
    rw [left, kept]
    constructor
    · intro holds
      exact .inr (ratioHolds_add.mp holds)
    rintro (⟨named, joins⟩ | valid)
    · refine (ratioHolds_add_iff_joins fun _ => ?_).mpr joins
      have own : 0 ≤ (boundBucket env sb candidate).selfValue c := by
        unfold Bucket.selfValue
        split
        · exact Int.natCast_nonneg sb.amount
        · exact le_refl 0
      by_cases voting : candidate = c
      · subst voting
        obtain none | ⟨-, -, takes⟩ := boundCandidate_ok chosen
        · exact absurd none named
        have valid := (takes recent).ratio listed
        have votes : (boundBucket env sb candidate).votedValue candidate = sb.amount := share_of_eq rfl
        omega
      · have votes : (boundBucket env sb candidate).votedValue c = 0 := share_of_ne voting
        unfold RatioHolds at before
        omega
    · exact ratioHolds_add.mpr valid

theorem delegate_keeps_ratio (recent : 8 ≤ env.fork) (ran : world.run (.script .delegate env sb) = .ok next) :
    RatioHolds c next.bucketList := by
  obtain ⟨b, held, -, normal, -, -, takes, left⟩ := delegate_ok ran
  have nonneg := world.value_nonneg held
  have leaves : 0 ≤ b.votedValue c := share_nonneg nonneg
  rw [left, RatioHolds, world.bucketList.total_modify held rfl, world.bucketList.total_modify held rfl,
    selfValue_eq_zero normal, selfValue_eq_zero (show ((b.votesFor sb.candAddr).withAutobid sb.autobid).isForeverLock = false from normal)]
  by_cases joins : sb.candAddr = c
  · subst joins
    have value : ((b.votesFor sb.candAddr).withAutobid sb.autobid).votedValue sb.candAddr = b.value := share_of_eq rfl
    have valid := (takes recent).ratio listed
    omega
  · have none : ((b.votesFor sb.candAddr).withAutobid sb.autobid).votedValue c = 0 := share_of_ne joins
    unfold RatioHolds at before
    omega

theorem bucketUpdate_keeps_ratio (recent : 8 ≤ env.fork) (ran : world.run (.script .bucketUpdate env sb) = .ok next) :
    RatioHolds c next.bucketList ↔ world.KeepsRatio c (.script .bucketUpdate env sb) := by
  obtain ⟨b, held, -, ⟨sub, allowed, left⟩ | ⟨add, allowed, left⟩⟩ := bucketUpdate_ok (by omega) ran
  · obtain ⟨-, enough, -⟩ := subAllowed_ok allowed
    have revalued : Revalued b (b.subtracted env sb.amount (b.bonusOf sb.amount)) (-sb.amount) :=
      ⟨rfl, rfl, rfl, rfl, by simp [Bucket.subtracted, show 6 ≤ env.fork by omega, Int.sub_eq_add_neg]⟩
    have splits : RatioHolds c next.bucketList ↔
        SplitsWell c world.bucketList b (b.split b.owner sb.amount (env.timestamp sb) (env.bucketNonce sb)) := by
      rw [left]
      exact ratioHolds_split_iff held revalued rfl rfl enough (fun b listed => (world.encodes.1 b listed).1) before
    rw [splits]
    simp only [World.KeepsRatio, held, Option.some.injEq, forall_eq', if_pos sub]
  · obtain ⟨-, checked⟩ := addAllowed_ok allowed
    have kept : world.KeepsRatio c (.script .bucketUpdate env sb) ↔
        (b.isForeverLock → b.candidate = c → b.owner ≠ c → ratioValid c world.bucketList sb.amount) := by
      simp only [World.KeepsRatio, held, Option.some.injEq, forall_eq', if_neg add]
    rw [left, RatioHolds, (b.deposited_revalued sb.amount).total_voted held, (b.deposited_revalued sb.amount).total_self held, kept,
      ratioValid_iff]
    unfold RatioHolds at before
    by_cases voting : b.candidate = c
    · subst voting
      cases locked : b.isForeverLock with
      | true =>
        by_cases own : b.owner = b.candidate
        · have self : b.isSelf b.candidate = true := by simp [Bucket.isSelf, own, locked]
          simp only [self, own, if_true]
          refine iff_of_true (by omega) (by simp)
        · have foreign : b.isSelf b.candidate = false := by simp [Bucket.isSelf, own]
          simp [foreign, own]
      | false =>
        have foreign : b.isSelf b.candidate = false := by simp [Bucket.isSelf, locked]
        have valid := (checked recent locked).2.ratio listed
        simp only [foreign, if_true, Bool.false_eq_true, if_false, add_zero]
        exact iff_of_true valid (by simp)
    · have foreign : b.isSelf c = false := by simp [Bucket.isSelf, voting]
      simp only [foreign, voting, if_false, Bool.false_eq_true, add_zero]
      exact iff_of_true before (by simp)

end

/-- From the eighth fork on, an operation that moves votes keeps the ratio of a listed candidate exactly when it opens a bucket
with an ID of its own, does not split the candidate's own stake below what its votes need, does not add beyond the ratio to a
locked bucket of somebody else, and does not move a bucket with less votes than value. -/
theorem ratio_kept_iff {operation : Operation} (moves : operation.movesVotes = true) (recent : operation.AtFork 8)
    (listed : (world.candidateList.get c).isSome) (before : RatioHolds c world.bucketList) (ran : world.run operation = .ok next) :
    RatioHolds c next.bucketList ↔ world.KeepsRatio c operation := by
  cases operation with
  | bucketOpen => exact open_keeps_ratio listed before ran
  | bucketDeposit =>
    refine iff_of_true (deposit_keeps_ratio listed before ran) ?_
    simp [World.KeepsRatio, World.opens]
  | bucketWithdraw => exact withdraw_keeps_ratio before ran
  | bucketUpdateCandidate => exact updateCandidate_keeps_ratio listed before ran
  | bucketMerge => exact merge_keeps_ratio listed before ran
  | bucketTransferFund =>
    refine iff_of_true (transferFund_keeps_ratio listed before ran) ?_
    simp [World.KeepsRatio, World.opens]
  | script script env sb =>
    cases script with
    | bound => exact bound_keeps_ratio listed before recent ran
    | delegate =>
      refine iff_of_true (delegate_keeps_ratio listed before recent ran) ?_
      simp [World.KeepsRatio, World.opens]
    | bucketUpdate => exact bucketUpdate_keeps_ratio listed before recent ran
    | _ => cases moves
  | _ => cases moves

end

section

attribute [local instance] plainPrimitives

def sampleBuckets : BucketList where
  items := [newBucket 1 1 (mtrgAmount 2100) mtrg foreverLock 5 100 0 0, newBucket 2 1 (mtrgAmount 197900) mtrg foreverLock 5 100 0 0,
    newBucket 3 1 (mtrgAmount 100) mtrg oneWeekLock 5 100 0 0]
  sorted := by decide +kernel

def sampleCandidate : Candidate where
  addr := 1
  name := []
  description := []
  pubKey := []
  ipAddr := []
  port := 8670
  commission := 0
  timestamp := 0
  totalVotes := mtrgAmount 200100
  buckets := sampleBuckets.items.map Bucket.bucketID

/-- Candidate 1 has locked 2100 for itself. Account 2 has locked 197900 with the same option, account 3 has 100, and
both vote for it. -/
def sampleWorld : World where
  ledger := (Ledger.empty.update 2 { balance := mtrgAmount 9901 }).update 3 { balance := mtrgAmount 1000 }
  bucketList := sampleBuckets
  candidateList := ⟨[sampleCandidate], List.pairwise_singleton _ _⟩
  stakeholderList := .empty
  inJailList := .empty
  encodes := by decide +kernel

def sampleUpdate (holder : Address) (option amount : Nat) : Operation :=
  .script .bucketUpdate ⟨10, 1000, 7, 0, 0⟩
    { opcode := opBucketUpdt
      option := option
      holderAddr := holder
      stakingID := Primitives.bucketID holder 0 0
      amount := amount }

def sampleDeposit : Operation := .bucketDeposit 3 (Primitives.bucketID 3 0 0) (mtrgAmount 1000)

theorem sample_deposit_keeps_ratio : ∃ next, sampleWorld.run sampleDeposit = .ok next ∧ RatioHolds 1 next.bucketList := by
  have succeeds : leaves (sampleWorld.run sampleDeposit) (fun _ => true) = true := by decide +kernel
  obtain ⟨next, ran, -⟩ := exists_of_leaves succeeds
  have recent : sampleDeposit.AtFork 8 := trivial
  have kept : sampleWorld.KeepsRatio 1 sampleDeposit := by simp [sampleDeposit, World.KeepsRatio, World.opens]
  exact ⟨next, ran, (ratio_kept_iff rfl recent (by decide +kernel) (by decide +kernel) ran).mpr kept⟩

/-- The candidate splits 100 off its own stake, which passes the check of the votes that would be left without them; or account 2
adds 9901 to its locked bucket, which is not checked. -/
theorem updates_break_ratio : RatioHolds 1 sampleWorld.bucketList ∧
      (∃ next, sampleWorld.run (sampleUpdate 1 bucketSubOpt (mtrgAmount 100)) = .ok next ∧
        (next.candidateList.get 1).isSome ∧ ¬RatioHolds 1 next.bucketList) ∧
      ∃ next, sampleWorld.run (sampleUpdate 2 bucketAddOpt (mtrgAmount 9901)) = .ok next ∧
        (next.candidateList.get 1).isSome ∧ ¬RatioHolds 1 next.bucketList := by
  have broken (operation : Operation) (left : leaves (sampleWorld.run operation)
      (fun next => (next.candidateList.get 1).isSome && !decide (RatioHolds 1 next.bucketList)) = true) :
      ∃ next, sampleWorld.run operation = .ok next ∧ (next.candidateList.get 1).isSome ∧ ¬RatioHolds 1 next.bucketList := by
    obtain ⟨next, ran, holds⟩ := exists_of_leaves left
    simp only [Bool.and_eq_true, Bool.not_eq_true', decide_eq_false_iff_not] at holds
    exact ⟨next, ran, holds⟩
  exact ⟨by decide +kernel, broken _ (by decide +kernel), broken _ (by decide +kernel)⟩

end

end MeterPov.Staking
