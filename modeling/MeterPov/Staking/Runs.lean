import MeterPov.Staking.Effects

/-! Runs of staking operations.

An operation that fails leaves the state as it was. Buckets are opened by some of the operations; in a
run in which no two of them agree in owner, create time and nonce, every new bucket has an ID of its own. -/

set_option autoImplicit false

namespace MeterPov.Staking

open Lib Auction List Option SortedList

/-- The forks an operation runs under. The native calls came with the tenth. -/
def Operation.AtFork (fork : Nat) : Operation → Prop
  | .script _ env _ => fork ≤ env.fork
  | .governing env _ => fork ≤ env.fork
  | _ => True

/-- The operations that keep the records in step with the buckets. -/
def Operation.tellsStakeholders : Operation → Bool
  | .bucketOpen .. | .bucketWithdraw .. | .bucketMerge .. => false
  | .bucketDeposit _ _ amount => amount = 0
  | _ => true

def Operation.lists : Operation → Option Address
  | .listAsCandidate owner .. => some owner
  | .script .candidate _ sb => some sb.candAddr
  | _ => none

def Bucket.origin (bucket : Bucket) : Address × UInt64 × UInt64 := (bucket.owner, bucket.createTime, bucket.nonce)

section

variable [Primitives]

theorem bucketID_eq_iff {first second : Bucket} : first.bucketID = second.bucketID ↔ first.origin = second.origin := by
  constructor
  · intro same
    obtain ⟨owner, nonce, created⟩ := Primitives.collisionFree same
    simp only [Bucket.origin, owner, nonce, created]
  · intro same
    simp only [Bucket.origin, Prod.mk.injEq] at same
    obtain ⟨owner, created, nonce⟩ := same
    simp only [Bucket.bucketID, owner, nonce, created]

namespace World

variable (world : World)

def after (operation : Operation) : World :=
  match world.run operation with
  | .ok next => next
  | .error _ => world

def afterAll (operations : List Operation) : World := operations.foldl after world

def opened (operation : Operation) : Option Bucket :=
  match world.run operation with
  | .ok _ => world.opens operation
  | .error _ => none

def openedBy : World → List Operation → List Bucket
  | _, [] => []
  | world, operation :: rest => (world.opened operation).toList ++ openedBy (world.after operation) rest

/-- The calls that open a bucket differ in owner, create time and nonce, from each other and from those that opened the
buckets there are. -/
structure DistinctlyOpened (operations : List Operation) : Prop where
  pairwise : ((world.openedBy operations).map Bucket.origin).Nodup
  fromListed : ∀ new ∈ world.openedBy operations, ∀ bucket ∈ world.bucketList.items, bucket.origin ≠ new.origin

end World

/-! ## The buckets after an operation -/

/-- What survives the release of a bucket of the candidate survives the loop over its buckets. -/
theorem releaseBuckets_induction {motive : BucketList → Prop} {addr}
    (step : ∀ bl id b, motive bl → bl.get id = some b → b.candidate = addr → motive (bl.modify id Bucket.released))
    (ids : List Bytes32) (bl : BucketList) (last : Bytes32) (start : motive bl) : motive (releaseBuckets addr ids bl last).1 := by
  induction ids generalizing bl last with
  | nil => exact start
  | cons id rest ih =>
    unfold releaseBuckets
    split
    · exact ih bl last start
    next b held =>
      split
      · exact ih bl last start
      next voting => exact ih _ _ (step bl id b start held (not_not.mp voting))

variable {motive : Book → Prop}

theorem releaseMatured_induction
    (release : ∀ book bkt, motive book → book.bucketList.get bkt.bucketID = some bkt → motive (book.release bkt).1)
    (ts : UInt64) (fuel i : Nat) (book : Book) (err : Option Failure) (start : motive book) :
    motive (book.releaseMatured ts fuel i err).1 := by
  induction fuel generalizing i book err with
  | zero => exact start
  | succ fuel ih =>
    unfold Book.releaseMatured
    split
    · exact start
    next bkt found =>
      split
      · apply ih
        exact release book bkt start (book.bucketList.mem_items.mp (mem_of_getElem? found))
      · exact ih _ _ _ start

/-- What survives the release of one bucket and the bonus of one bucket survives the governing of an epoch. -/
theorem unboundAndCalcBonus_induction {ts}
    (release : ∀ book bkt, motive book → book.bucketList.get bkt.bucketID = some bkt → motive (book.release bkt).1)
    (accrue : ∀ book id, motive book → motive (book.accrue ts id)) (book : Book) (start : motive book) :
    motive (book.unboundAndCalcBonus ts).1 := by
  have accrued (ids : List Bytes32) (book : Book) (start : motive book) : motive (ids.foldl (Book.accrue ts) book) := by
    induction ids generalizing book with
    | nil => exact start
    | cons id rest ih => exact ih _ (accrue book id start)
  apply accrued
  exact releaseMatured_induction release ts _ _ book none start

/-- No value is negative. The loops of the governing work on lists that are not stored yet. -/
def Book.ValuesNonneg (book : Book) : Prop := ∀ bucket ∈ book.bucketList.items, 0 ≤ bucket.value

theorem Book.ValuesNonneg.release {book : Book} (nonneg : book.ValuesNonneg) (bkt : Bucket) : (book.release bkt).1.ValuesNonneg :=
  fun bucket listed => nonneg bucket (book.bucketList.mem_remove.mp listed).1

theorem Book.ValuesNonneg.accrue {book : Book} (nonneg : book.ValuesNonneg) (ts : UInt64) (id : Bytes32) :
    (book.accrue ts id).ValuesNonneg := by
  unfold Book.accrue
  split
  · exact nonneg
  next bkt held =>
    split
    · intro bucket listed
      dsimp only at listed
      rw [book.bucketList.modify_of_get held, book.bucketList.mem_add] at listed
      rcases listed with rfl | ⟨listed, -⟩
      · exact nonneg bkt (book.bucketList.get_eq_some.mp held).1
      · exact nonneg bucket listed
    · exact nonneg

omit [Primitives] in
theorem Bucket.released_eq (bucket : Bucket) :
    ∃ opt rate, bucket.released = { bucket with candidate := 0, option := opt, rate := rate } := by
  unfold Bucket.released
  dsimp only
  split
  · exact ⟨_, _, rfl⟩
  · exact ⟨bucket.option, bucket.rate, rfl⟩

theorem Bucket.released_bucketID (bucket : Bucket) : bucket.released.bucketID = bucket.bucketID := by
  obtain ⟨_, _, released⟩ := bucket.released_eq
  rw [released]
  rfl

theorem releaseBuckets_within (addr : Address) (ids : List Bytes32) (bl : BucketList) (last : Bytes32) :
    (releaseBuckets addr ids bl last).1.Within bl := by
  apply releaseBuckets_induction (motive := fun later => later.Within bl)
  · intro later id b within _ _
    exact (later.within_modify id Bucket.released_bucketID).trans within
  · exact fun _ held => held

theorem accrue_within (ts : UInt64) (book : Book) (id : Bytes32) : (book.accrue ts id).bucketList.Within book.bucketList := by
  unfold Book.accrue
  split
  · exact fun _ held => held
  · split
    · exact book.bucketList.within_modify id fun _ => rfl
    · exact fun _ held => held

theorem unboundAndCalcBonus_within (ts : UInt64) (book : Book) : (book.unboundAndCalcBonus ts).1.bucketList.Within book.bucketList := by
  apply unboundAndCalcBonus_induction (motive := fun later => later.bucketList.Within book.bucketList)
  · intro later bkt within _
    exact (later.bucketList.within_remove _).trans within
  · intro later id within
    exact (accrue_within ts later id).trans within
  · exact fun _ held => held

theorem Book.Described.within {before after : Book} {addr info} (described : before.Described after addr info) :
    after.bucketList.Within before.bucketList := by
  rcases described.buckets with same | ⟨id, autobid, edited⟩
  · rw [same]
    exact fun _ held => held
  · rw [edited]
    exact before.bucketList.within_modify id fun _ => rfl

variable {world next : World} {operation : Operation}

theorem opens_bound {env sb candidate} (chosen : world.boundCandidate env sb = .ok candidate) (small : ¬100 < sb.autobid) : world.opens (.script .bound env sb) = some (boundBucket env sb candidate) := by
  simp [World.opens, small, chosen, Except.toOption]

/-- What holds of the lists an operation leaves: a bucket with a new ID is the one that the operation opens. -/
def OpensOnly (bl : BucketList) (new : Option Bucket) (bl' : BucketList) : Prop :=
  ∀ id, (bl'.get id).isSome → (bl.get id).isSome ∨ ∃ bucket, new = some bucket ∧ bucket.bucketID = id

theorem OpensOnly.of_within {bl bl' new} (within : bl'.Within bl) : OpensOnly bl new bl' :=
  fun id held => .inl (within id held)

theorem OpensOnly.of_add {bl bl' : BucketList} (within : bl'.Within bl) (new : Bucket) : OpensOnly bl (some new) (bl'.add new) := by
  intro id held
  rw [bl'.get_add] at held
  split at held
  next same => exact .inr ⟨new, rfl, same.symm⟩
  · exact .inl (within id held)

/-- What an operation that succeeds leaves behind. Scripts and native calls that do the same are one case; they differ in what
they tell the stakeholders. -/
inductive Effect (world : World) (operation : Operation) : Book → Prop where
  | idle : Effect world operation world.toBook
  | bail (addr : Address) (amount : Nat) :
      Effect world operation { world.toBook with
        ledger := world.ledger.moveBalance amount addr stakingModuleAddr
        inJailList := world.inJailList.remove addr }
  | close {id : Bytes32} {b : Bucket} (held : world.bucketList.get id = some b) (ts : UInt64) :
      Effect world operation { world.toBook with bucketList := world.bucketList.modify id (·.closed ts) }
  | deposit {id : Bytes32} {b : Bucket} {amount : Nat} {sl : SortedList Stakeholder.holder} (held : world.bucketList.get id = some b)
      (told : sl = world.stakeholderList.modify b.owner (·.addValue amount) ∨
        sl = world.stakeholderList ∧ (operation.tellsStakeholders = true → amount = 0)) :
      Effect world operation { world.toBook with
        ledger := world.ledger.moveToBound b.owner amount
        bucketList := world.bucketList.modify id (·.deposited amount)
        candidateList :=
          if b.candidate = 0 then world.candidateList else world.candidateList.modify b.candidate (.addVotes amount)
        stakeholderList := sl }
  | join {new : Bucket} {amount : Nat} {sl : SortedList Stakeholder.holder} (opens : world.opens operation = some new)
      (token : new.token = mtrg) (value : new.value = amount) (votes : new.totalVotes = amount)
      (listed : new.candidate = 0 ∨ (world.candidateList.get new.candidate).isSome)
      (told : sl = addStake world.stakeholderList new ∨ operation.tellsStakeholders = false) :
      Effect world operation { world.toBook with
        ledger := world.ledger.moveToBound new.owner amount
        bucketList := world.bucketList.add new
        candidateList :=
          if new.candidate = 0 then world.candidateList else world.candidateList.modify new.candidate (·.addBucket new)
        stakeholderList := sl }
  | withdraw {id : Bytes32} {b : Bucket} {recipient : Address} {amount : Nat} {ts nonce : UInt64}
      (held : world.bucketList.get id = some b) (opens : world.opens operation = some (b.split recipient amount ts nonce))
      (enough : (amount : Int) ≤ b.value) (told : operation.tellsStakeholders = false) :
      Effect world operation { world.toBook with
        ledger := world.ledger.moveBound amount b.owner recipient
        bucketList := (world.bucketList.modify id (·.withdrawn amount (b.bonusOf amount))).add (b.split recipient amount ts nonce)
        candidateList := world.candidateList.modify b.candidate
          (·.addSplit (-b.bonusOf amount) (b.split recipient amount ts nonce).bucketID) }
  | sub {id : Bytes32} {b : Bucket} {amount : Nat} {ts nonce : UInt64} (held : world.bucketList.get id = some b)
      (opens : world.opens operation = some (b.split b.owner amount ts nonce)) (enough : (amount : Int) ≤ b.value) :
      Effect world operation { world.toBook with
        bucketList := (world.bucketList.modify id (·.withdrawn amount (b.bonusOf amount))).add (b.split b.owner amount ts nonce)
        candidateList := world.candidateList.modify b.candidate
          (·.addSplit (-b.bonusOf amount) (b.split b.owner amount ts nonce).bucketID)
        stakeholderList := world.stakeholderList.modify b.owner (·.addID (b.split b.owner amount ts nonce).bucketID) }
  | move {id : Bytes32} {b : Bucket} {target : Address} (held : world.bucketList.get id = some b)
      (listed : (world.candidateList.get target).isSome) :
      Effect world operation { world.toBook with
        bucketList := world.bucketList.modify id (·.votesFor target)
        candidateList := (world.candidateList.modify b.candidate (·.removeBucket b)).modify target (·.addBucket b) }
  | enter {id : Bytes32} {b : Bucket} {target : Address} (autobid : Nat) (held : world.bucketList.get id = some b)
      (unused : b.candidate = 0) (listed : (world.candidateList.get target).isSome) :
      Effect world operation { world.toBook with
        bucketList := world.bucketList.modify id fun bucket => (bucket.votesFor target).withAutobid autobid
        candidateList := world.candidateList.modify target (·.addBucket b) }
  | leave {id : Bytes32} {b : Bucket} (held : world.bucketList.get id = some b) :
      Effect world operation { world.toBook with
        bucketList := world.bucketList.modify id fun bucket => (bucket.votesFor 0).withAutobid 0
        candidateList := world.candidateList.modify b.candidate (·.removeBucket b) }
  | merge {fromID toID : Bytes32} {fromBkt toBkt : Bucket} (apart : fromID ≠ toID)
      (heldFrom : world.bucketList.get fromID = some fromBkt) (heldTo : world.bucketList.get toID = some toBkt)
      (owner : toBkt.owner = fromBkt.owner) (told : operation.tellsStakeholders = false) :
      Effect world operation { world.toBook with
        bucketList := (world.bucketList.modify toID (·.merged fromBkt)).remove fromID
        candidateList := (world.candidateList.modify fromBkt.candidate (·.removeBucket fromBkt)).modify toBkt.candidate
          (.addVotes fromBkt.totalVotes) }
  | transfer {fromID toID : Bytes32} {fromBkt toBkt : Bucket} {amount : Nat} (apart : fromID ≠ toID)
      (heldFrom : world.bucketList.get fromID = some fromBkt) (heldTo : world.bucketList.get toID = some toBkt)
      (owner : toBkt.owner = fromBkt.owner) (enough : (amount : Int) ≤ fromBkt.value) :
      Effect world operation { world.toBook with
        bucketList := (world.bucketList.modify fromID (·.transferred amount (fromBkt.bonusOf amount))).modify toID
          (·.received amount (fromBkt.bonusOf amount))
        candidateList := (world.candidateList.modify fromBkt.candidate (.addVotes (-(amount + fromBkt.bonusOf amount)))).modify
          toBkt.candidate (.addVotes (amount + fromBkt.bonusOf amount)) }
  | enlist {addr : Address} {amount autobid : Nat} {ts nonce : UInt64} {info : CandidateInfo} {commission : Nat}
      (opens : world.opens operation = some (lockedBucket addr amount mtrg autobid ts nonce)) (lists : operation.lists = some addr)
      (absent : world.candidateList.get addr = none) (unused : info.Unused world.candidateList.items) :
      Effect world operation (world.toBook.enlist info commission (lockedBucket addr amount mtrg autobid ts nonce) ts
        (world.ledger.moveToBound addr amount))
  | describe {after : Book} {addr : Address} {info : CandidateInfo}
      (unused : info.Unused (world.candidateList.items.filter fun record => record.addr ≠ addr))
      (described : world.toBook.Described after addr info) : Effect world operation after
  | delist {addr : Address} {record : Candidate} (held : world.candidateList.get addr = some record) :
      Effect world operation (world.toBook.delist record)
  | govern {after : Book} {env : Env} {distribution : Distribution} (isGoverning : operation = .governing env distribution)
      (ran : Book.unboundAndCalcBonus env.time { world.toBook with ledger := world.ledger.distribute distribution } = (after, none)) :
      Effect world operation after

/-- From the tenth fork on. -/
theorem effect_of_run (recent : operation.AtFork 10) (ran : world.run operation = .ok next) : Effect world operation next.toBook := by
  cases operation with
  | bucketOpen =>
    rcases bucketOpen_ok ran with ⟨_, -, -, -, -, ran⟩ | ⟨named, opens, -, listed, left⟩
    · obtain ⟨b, held, usable, -, left⟩ := bucketDeposit_ok ran
      rw [left, ← usable.owned]
      exact .deposit held (.inr ⟨rfl, nofun⟩)
    · have joined := @Effect.join _ world _ _ _ world.stakeholderList opens rfl rfl rfl (.inr listed) (.inr rfl)
      rw [if_neg (show ¬(openedBucket _ _ _ _ _).candidate = 0 from named)] at joined
      rw [left]
      exact joined
  | bucketDeposit =>
    obtain ⟨b, held, usable, -, left⟩ := bucketDeposit_ok ran
    rw [left, ← usable.owned]
    exact .deposit held (.inr ⟨rfl, by simp [Operation.tellsStakeholders]⟩)
  | bucketClose =>
    simp only [World.run, World.bucketClose, checkBucket_bind, commit_eq_ok] at ran
    obtain ⟨b, held, -, left⟩ := ran
    rw [left]
    exact .close held _
  | bucketWithdraw =>
    obtain ⟨b, held, usable, enough, left⟩ := bucketWithdraw_ok ran
    rw [left, ← usable.owned]
    exact .withdraw held (by rw [World.opens, held]; rfl) enough rfl
  | bucketUpdateCandidate =>
    obtain ⟨b, held, -, -, listed, -, -, left⟩ := bucketUpdateCandidate_ok ran
    rw [left]
    exact .move held listed
  | bucketMerge =>
    obtain ⟨apart, _, _, heldFrom, usableFrom, heldTo, usableTo, -, left⟩ := bucketMerge_ok ran
    rw [left]
    exact .merge apart heldFrom heldTo (usableTo.owned.trans usableFrom.owned.symm) rfl
  | bucketTransferFund =>
    obtain ⟨apart, _, _, heldFrom, usableFrom, heldTo, usableTo, -, enough, left⟩ := bucketTransferFund_ok ran
    rw [left]
    exact .transfer apart heldFrom heldTo (usableTo.owned.trans usableFrom.owned.symm) enough
  | listAsCandidate =>
    simp only [World.run, fst_map_eq_ok, World.listAsCandidate, assert_bind, listed_bind, refuse_bind, map_eq_none_iff,
      Ledger.boundMeterGov, Ledger.bound_bind, commit_bind, pure_eq_ok, Prod.mk.injEq] at ran
    obtain ⟨_, -, -, pubKey, -, -, -, free, absent, -, _, left, rfl, -⟩ := ran
    rw [left]
    exact .enlist rfl rfl absent (unused_of_taken free)
  | candidateUpdate =>
    simp only [World.run, fst_map_eq_ok, World.candidateUpdate, listed_bind, assert_bind, refuse_bind] at ran
    obtain ⟨_, pubKey, -, -, -, -, -, record, held, free, ran⟩ := ran
    obtain ⟨⟨book, reason⟩, updated, ran⟩ := check_bind_eq_ok.mp ran
    simp only [commit_bind, pure_eq_ok, Prod.mk.injEq] at ran
    obtain ⟨_, rfl, rfl, -⟩ := ran
    obtain rfl := world.candidateList.key_of_get held
    exact .describe (unused_of_taken free) (updateCandidate_described updated)
  | unCandidate =>
    simp only [World.run, fst_map_eq_ok, World.unCandidate, listed_bind, assert_bind, commit_bind, pure_eq_ok, Prod.mk.injEq] at ran
    obtain ⟨_, record, held, -, _, left, rfl, -⟩ := ran
    rw [left]
    exact .delist held
  | governing => exact .govern rfl (governing_ok ran)
  | script script env sb =>
    have recent : 10 ≤ env.fork := recent
    cases script with
    | bound =>
      obtain ⟨token, candidate, chosen, ⟨-, rfl⟩ | ⟨small, left⟩⟩ := bound_ok ran
      · exact .idle
      · rw [left]
        exact .join (opens_bound chosen small) token rfl rfl ((boundCandidate_ok chosen).imp_right fun found => found.2.1) (.inl rfl)
    | unBound =>
      simp only [World.run, World.handle, World.unBoundHandler, namedBucket_bind, assert_bind, commit_eq_ok] at ran
      obtain ⟨b, held, -, -, -, -, -, left⟩ := ran
      rw [left]
      exact .close held _
    | candidate =>
      simp only [World.run, World.handle, World.candidateHandler, assert_bind, listed_bind, refuse_bind, map_eq_none_iff,
        Ledger.boundAccountMeterGov, Ledger.bound_bind, commit_eq_ok] at ran
      obtain ⟨-, token, -, -, pubKey, -, -, -, free, absent, -, left⟩ := ran
      rw [left, token]
      exact .enlist (by rw [World.opens, token]) rfl absent (unused_of_taken free)
    | unCandidate =>
      simp only [World.run, World.handle, World.unCandidateHandler, listed_bind, assert_bind, commit_eq_ok] at ran
      obtain ⟨record, held, -, left⟩ := ran
      rw [left]
      exact .delist held
    | delegate =>
      obtain ⟨b, held, -, -, unused, listed, -, left⟩ := delegate_ok ran
      rw [left]
      exact .enter _ held unused listed
    | unDelegate =>
      simp only [World.run, World.handle, World.unDelegateHandler, namedBucket_bind, assert_bind, listed_bind, commit_eq_ok] at ran
      obtain ⟨b, held, -, -, -, -, -, _, -, left⟩ := ran
      rw [left]
      exact .leave held
    | bucketUpdate =>
      obtain ⟨b, held, owned, ⟨sub, allowed, left⟩ | ⟨-, -, left⟩⟩ := bucketUpdate_ok (by omega) ran
      · have withdrawn : (fun bucket : Bucket => bucket.subtracted env sb.amount (b.bonusOf sb.amount)) =
            (·.withdrawn sb.amount (b.bonusOf sb.amount)) := by
          funext bucket
          simp [Bucket.subtracted, Bucket.withdrawn, show 6 ≤ env.fork by omega]
        rw [left, withdrawn, if_pos (show 9 ≤ env.fork by omega), Nat.cast_zero, add_zero]
        exact .sub held (by simp [World.opens, show 5 ≤ env.fork by omega, sub, held]) (subAllowed_ok allowed).2.1
      · rw [left, ← owned]
        exact .deposit held (.inl rfl)
    | candidateUpdate =>
      simp only [World.run, World.handle, World.candidateUpdateHandler, listed_bind, assert_bind, refuse_bind] at ran
      obtain ⟨pubKey, -, -, -, -, -, free, record, held, -, ran⟩ := ran
      obtain ⟨⟨book, reason⟩, updated, ran⟩ := check_bind_eq_ok.mp ran
      simp only [refuse_bind, commit_eq_ok] at ran
      obtain ⟨-, rfl⟩ := ran
      rw [World.rivals, if_pos (show 8 ≤ env.fork by omega), ← world.candidateList.key_of_get held] at free
      exact .describe (unused_of_taken free) (updateCandidate_described updated)
    | delegateExitJail =>
      simp only [World.run, World.handle, World.delegateExitJailHandler] at ran
      split at ran
      · cases ran
        exact .idle
      · simp only [assert_bind, commit_eq_ok] at ran
        rw [ran.2]
        exact .bail _ _

theorem Effect.opensOnly {after} (effect : Effect world operation after) :
    OpensOnly world.bucketList (world.opens operation) after.bucketList := by
  cases effect with
  | idle | bail => exact .of_within fun _ held => held
  | close | deposit | move | enter | leave => exact .of_within (within_modify _ _ (by intro; rfl))
  | merge => exact .of_within ((within_remove _ _).trans (within_modify _ _ (by intro; rfl)))
  | transfer => exact .of_within ((within_modify _ _ (by intro; rfl)).trans (within_modify _ _ (by intro; rfl)))
  | join opens | enlist opens =>
    rw [opens]
    exact .of_add (fun _ held => held) _
  | withdraw held opens | sub held opens =>
    rw [opens]
    exact .of_add (within_modify _ _ (by intro; rfl)) _
  | describe _ described => exact .of_within described.within
  | delist => exact .of_within (releaseBuckets_within _ _ _ _)
  | @govern _ env distribution _ ran =>
    have within := unboundAndCalcBonus_within env.time { world.toBook with ledger := world.ledger.distribute distribution }
    rw [ran] at within
    exact .of_within within

/-! ## Runs -/

namespace World

variable {operations rest : List Operation}

theorem DistinctlyOpened.step (distinct : world.DistinctlyOpened (operation :: rest)) (recent : operation.AtFork 10)
    (ran : world.run operation = .ok next) :
    (∀ new, world.opens operation = some new → world.bucketList.get new.bucketID = none) ∧ next.DistinctlyOpened rest := by
  have pairwise := distinct.pairwise
  have fromListed := distinct.fromListed
  have openedBy_eq : world.openedBy (operation :: rest) = (world.opens operation).toList ++ next.openedBy rest := by
    simp [openedBy, opened, after, ran]
  rw [openedBy_eq] at pairwise fromListed
  rw [map_append, nodup_append] at pairwise
  refine ⟨fun new opens => ?_, ⟨pairwise.2.1, fun new listed bucket held same => ?_⟩⟩
  · cases held : world.bucketList.get new.bucketID with
    | none => rfl
    | some bucket =>
      refine absurd (bucketID_eq_iff.mp (world.bucketList.key_of_get held)) ?_
      exact fromListed new (by simp [opens]) bucket (world.bucketList.get_eq_some.mp held).1
  · have known := (effect_of_run recent ran).opensOnly bucket.bucketID (by rw [next.bucketList.mem_items.mp held]; rfl)
    rcases known with listedBefore | ⟨first, opens, keyed⟩
    · obtain ⟨older, heldBefore⟩ := isSome_iff_exists.mp listedBefore
      obtain ⟨member, keyed⟩ := world.bucketList.get_eq_some.mp heldBefore
      exact fromListed new (mem_append_right _ listed) older member ((bucketID_eq_iff.mp keyed).trans same)
    · refine pairwise.2.2 first.origin (by simp [opens]) new.origin (mem_map_of_mem listed) ?_
      exact (bucketID_eq_iff.mp keyed).trans same

theorem afterAll_keeps {motive : World → Prop}
    (kept : ∀ (world next : World), ∀ operation ∈ operations, motive world → world.run operation = .ok next → motive next)
    (initial : motive world) : motive (world.afterAll operations) := by
  induction operations generalizing world with
  | nil => exact initial
  | cons operation rest ih =>
    apply ih fun world next other listed => kept world next other (mem_cons_of_mem _ listed)
    unfold after
    split
    next next ran => exact kept world next operation mem_cons_self initial ran
    · exact initial

/-- What every operation keeps that opens a bucket with an ID of its own is kept by every run in which the opened buckets
differ. -/
theorem afterAll_induction {motive : World → Prop} (recent : ∀ operation ∈ operations, operation.AtFork 10)
    (kept : ∀ (world next : World), ∀ operation ∈ operations, motive world → world.run operation = .ok next →
      (∀ new, world.opens operation = some new → world.bucketList.get new.bucketID = none) → motive next)
    (distinct : world.DistinctlyOpened operations) (initial : motive world) : motive (world.afterAll operations) := by
  induction operations generalizing world with
  | nil => exact initial
  | cons operation rest ih =>
    have recentRest : ∀ operation ∈ rest, operation.AtFork 10 := fun other listed => recent other (mem_cons_of_mem _ listed)
    have keptRest := fun world next other listed => kept world next other (mem_cons_of_mem _ listed)
    change motive ((world.after operation).afterAll rest)
    cases ran : world.run operation with
    | error failure =>
      have same : world.after operation = world := by simp [after, ran]
      rw [same]
      refine ih recentRest keptRest ⟨?_, ?_⟩ initial
      · have pairwise := distinct.pairwise
        simpa [openedBy, opened, ran, same] using pairwise
      · have fromListed := distinct.fromListed
        simpa [openedBy, opened, ran, same] using fromListed
    | ok next =>
      have same : world.after operation = next := by simp [after, ran]
      obtain ⟨fresh, distinctRest⟩ := distinct.step (recent operation mem_cons_self) ran
      rw [same]
      exact ih recentRest keptRest distinctRest (kept world next operation mem_cons_self initial ran fresh)

end World

end

section

attribute [local instance] plainPrimitives

/-- Nothing is staked yet; accounts 1 and 3 have something to stake. -/
def unstakedWorld : World where
  ledger := (Ledger.empty.update 1 { balance := mtrgAmount 3000 }).update 3 { balance := mtrgAmount 3000 }
  bucketList := .empty
  candidateList := .empty
  stakeholderList := .empty
  inJailList := .empty
  encodes := by decide +kernel

/-- Account 1 locks 2000 for its candidacy, from the address 1.1.1.1. -/
def listOne : Operation :=
  .listAsCandidate 1 ⟨[], [], [], [49, 46, 49, 46, 49, 46, 49], 8670⟩ (mtrgAmount 2000) 100 commissionRateMin 1000 5

end

end MeterPov.Staking
