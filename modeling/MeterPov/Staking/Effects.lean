import MeterPov.Staking.Operation

/-! What each operation has found and left behind when it succeeds.

One lemma for each of them, and everything that is proved about operations is proved from these. -/

set_option autoImplicit false

namespace MeterPov.Staking

open Lib Auction

/-- What `checkBucket` has checked. -/
structure Bucket.Usable (bucket : Bucket) (owner : Address) : Prop where
  bounded : bucket.unbounded = false
  owned : bucket.owner = owner
  normal : bucket.isForeverLock = false

variable {reason : Option String} {owner candidate : Address} {α : Type} {result : α}

theorem checkBucket_bind {pointer next} : (checkBucket pointer owner >>= next) = .ok result ↔
      ∃ bucket, pointer = some bucket ∧ bucket.Usable owner ∧ next bucket = .ok result := by
  rw [check_bind_eq_ok]
  simp only [checkBucket, listed_bind, assert_bind, pure_eq_ok]
  constructor
  · rintro ⟨_, ⟨_, held, bounded, owned, normal, rfl⟩, ran⟩
    exact ⟨_, held, ⟨bounded, owned, normal⟩, ran⟩
  · rintro ⟨bucket, held, ⟨bounded, owned, normal⟩, ran⟩
    exact ⟨bucket, ⟨bucket, held, bounded, owned, normal, rfl⟩, ran⟩

theorem refuse_bind {next} : (refuse reason >>= next) = .ok result ↔ reason = none ∧ next () = .ok result := by
  cases reason with
  | none => exact ⟨fun ran => ⟨rfl, ran⟩, fun ran => ran.2⟩
  | some reason => exact iff_of_false nofun nofun

theorem fst_map_eq_ok {β} {first : Checked (α × β)} :
    Prod.fst <$> first = .ok result ↔ ∃ second, first = .ok (result, second) := by
  cases first with
  | error failure => exact iff_of_false nofun nofun
  | ok pair =>
    constructor
    · rintro ⟨⟩
      exact ⟨pair.2, rfl⟩
    · rintro ⟨second, ⟨⟩⟩
      rfl

theorem all_eq_true {pointer} {p : α → Bool} : pointer.all p = true ↔ ∀ value, pointer = some value → p value = true := by
  cases pointer with
  | none => simp
  | some value => simp

variable [Primitives] {world next : World} {owner candAddr recipient newCandidateAddr : Address} {amount autobid commissionRate : Nat}
  {id fromID toID : Bytes32} {ts nonce : UInt64} {info : CandidateInfo} {env : Env} {sb : StakingBody} {bucket : Bucket}

/-- A candidate that is listed can take an amount. -/
def World.Takes (world : World) (candidate : Address) (amount : Int) : Prop :=
  ∀ cand, world.candidateList.get candidate = some cand → ratioValid candidate world.bucketList amount

theorem takes_of_all {votes}
    (checked : (world.candidateList.get candidate).all (fun cand => ratioValid cand.addr world.bucketList votes) = true) :
    world.Takes candidate votes := by
  intro cand held
  have valid := all_eq_true.mp checked cand held
  rwa [world.candidateList.key_of_get held] at valid

theorem bucketDeposit_ok (ran : world.run (.bucketDeposit owner id amount) = .ok next) :
    ∃ b, world.bucketList.get id = some b ∧ b.Usable owner ∧ world.Takes b.candidate amount ∧
      next.toBook = { world.toBook with
        ledger := world.ledger.moveToBound owner amount
        bucketList := world.bucketList.modify id (·.deposited amount)
        candidateList :=
          if b.candidate = 0 then world.candidateList else world.candidateList.modify b.candidate (.addVotes amount) } := by
  simp only [World.run, World.bucketDeposit, checkBucket_bind, assert_bind, Ledger.boundMeterGov, Ledger.bound_bind,
    commit_eq_ok] at ran
  obtain ⟨b, held, usable, -, takes, -, -, left⟩ := ran
  exact ⟨b, held, usable, takes_of_all takes, left⟩

theorem bucketOpen_ok (ran : world.run (.bucketOpen owner candAddr amount ts nonce) = .ok next) :
    (∃ bkt, world.bucketList.get bkt.bucketID = some bkt ∧ bkt.candidate = candAddr ∧ bkt.owner = owner ∧
        world.opens (.bucketOpen owner candAddr amount ts nonce) = none ∧
        world.run (.bucketDeposit owner bkt.bucketID amount) = .ok next) ∨
      candAddr ≠ 0 ∧ world.opens (.bucketOpen owner candAddr amount ts nonce) = some (openedBucket owner candAddr amount ts nonce) ∧
        world.Takes candAddr amount ∧ (world.candidateList.get candAddr).isSome ∧
        next.toBook = { world.toBook with
          ledger := world.ledger.moveToBound owner amount
          bucketList := world.bucketList.add (openedBucket owner candAddr amount ts nonce)
          candidateList :=
            world.candidateList.modify candAddr (·.addBucket (openedBucket owner candAddr amount ts nonce)) } := by
  simp only [World.run, fst_map_eq_ok, World.bucketOpen, assert_bind] at ran
  obtain ⟨id, -, -, named, -, -, -, ran⟩ := ran
  split at ran
  next bkt found =>
    obtain ⟨_, deposited, ⟨⟩⟩ := check_bind_eq_ok.mp ran
    have chosen := List.find?_some found
    simp only [Bool.and_eq_true, decide_eq_true_eq] at chosen
    have held := world.bucketList.mem_items.mp (List.mem_of_find?_eq_some found)
    exact .inl ⟨bkt, held, chosen.1, chosen.2, by simp [World.opens, found], deposited⟩
  next missing =>
    simp only [listed_bind, assert_bind, commit_bind, pure_eq_ok, Prod.mk.injEq] at ran
    obtain ⟨cand, held, valid, _, left, rfl, -⟩ := ran
    rw [world.candidateList.key_of_get held] at valid
    exact .inr ⟨named, by simp [World.opens, missing], fun _ _ => valid, by simp [held], left⟩

theorem bucketWithdraw_ok (ran : world.run (.bucketWithdraw owner id amount recipient ts nonce) = .ok next) :
    ∃ b, world.bucketList.get id = some b ∧ b.Usable owner ∧ (amount : Int) ≤ b.value ∧
      next.toBook = { world.toBook with
        ledger := world.ledger.moveBound amount owner recipient
        bucketList := (world.bucketList.modify id (·.withdrawn amount (b.bonusOf amount))).add (b.split recipient amount ts nonce)
        candidateList := world.candidateList.modify b.candidate
          (·.addSplit (-b.bonusOf amount) (b.split recipient amount ts nonce).bucketID) } := by
  simp only [World.run, fst_map_eq_ok, World.bucketWithdraw, checkBucket_bind, assert_bind, commit_bind, pure_eq_ok,
    Prod.mk.injEq] at ran
  obtain ⟨_, b, held, usable, -, ⟨enough, -⟩, -, _, left, rfl, -⟩ := ran
  exact ⟨b, held, usable, enough, left⟩

theorem bucketUpdateCandidate_ok (ran : world.run (.bucketUpdateCandidate owner id newCandidateAddr) = .ok next) :
    ∃ b, world.bucketList.get id = some b ∧ b.owner = owner ∧ b.isForeverLock = false ∧
      (world.candidateList.get newCandidateAddr).isSome ∧ world.Takes newCandidateAddr b.totalVotes ∧
      (∀ c, world.candidateList.get b.candidate = some c → b.totalVotes ≤ c.totalVotes) ∧
      next.toBook = { world.toBook with
        bucketList := world.bucketList.modify id (·.votesFor newCandidateAddr)
        candidateList := (world.candidateList.modify b.candidate (·.removeBucket b)).modify newCandidateAddr (·.addBucket b) } := by
  simp only [World.run, World.bucketUpdateCandidate, listed_bind, assert_bind, commit_eq_ok] at ran
  obtain ⟨b, held, owned, normal, nc, named, -, valid, enough, left⟩ := ran
  rw [world.candidateList.key_of_get named] at valid left
  refine ⟨b, held, owned, normal, by simp [named], fun _ _ => valid, fun c found => ?_, left⟩
  simpa using all_eq_true.mp enough c found

theorem bucketMerge_ok (ran : world.run (.bucketMerge owner fromID toID) = .ok next) :
    fromID ≠ toID ∧ ∃ fromBkt toBkt, world.bucketList.get fromID = some fromBkt ∧ fromBkt.Usable owner ∧
      world.bucketList.get toID = some toBkt ∧ toBkt.Usable owner ∧ world.Takes toBkt.candidate fromBkt.totalVotes ∧
      next.toBook = { world.toBook with
        bucketList := (world.bucketList.modify toID (·.merged fromBkt)).remove fromID
        candidateList := (world.candidateList.modify fromBkt.candidate (·.removeBucket fromBkt)).modify toBkt.candidate
          (.addVotes fromBkt.totalVotes) } := by
  simp only [World.run, World.bucketMerge, checkBucket_bind, assert_bind, commit_eq_ok] at ran
  obtain ⟨apart, fromBkt, heldFrom, usableFrom, toBkt, heldTo, usableTo, -, takes, left⟩ := ran
  exact ⟨apart, fromBkt, toBkt, heldFrom, usableFrom, heldTo, usableTo, takes_of_all takes, left⟩

theorem bucketTransferFund_ok (ran : world.run (.bucketTransferFund owner fromID toID amount) = .ok next) :
    fromID ≠ toID ∧ ∃ fromBkt toBkt, world.bucketList.get fromID = some fromBkt ∧ fromBkt.Usable owner ∧
      world.bucketList.get toID = some toBkt ∧ toBkt.Usable owner ∧ world.Takes toBkt.candidate amount ∧
      (amount : Int) ≤ fromBkt.value ∧
      next.toBook = { world.toBook with
        bucketList := (world.bucketList.modify fromID (·.transferred amount (fromBkt.bonusOf amount))).modify toID
          (·.received amount (fromBkt.bonusOf amount))
        candidateList := (world.candidateList.modify fromBkt.candidate (.addVotes (-(amount + fromBkt.bonusOf amount)))).modify
          toBkt.candidate (.addVotes (amount + fromBkt.bonusOf amount)) } := by
  simp only [World.run, World.bucketTransferFund, deref_bind, checkBucket_bind, assert_bind, commit_eq_ok] at ran
  obtain ⟨_, -, -, apart, fromBkt, heldFrom, usableFrom, toBkt, heldTo, usableTo, takes, -, ⟨enough, -⟩, -, left⟩ := ran
  exact ⟨apart, fromBkt, toBkt, heldFrom, usableFrom, heldTo, usableTo, takes_of_all takes, enough, left⟩

/-- None of the records has the public key, the address or the name that is asked for. -/
def CandidateInfo.Unused (info : CandidateInfo) (records : List Candidate) : Prop :=
  ∀ record ∈ records, record.pubKey ≠ info.pubKey ∧ record.ipAddr ≠ info.ip ∧ record.name ≠ info.name

omit [Primitives] in
theorem unused_of_taken {texts records} (free : taken texts info.pubKey info.ip info.name records = none) : info.Unused records := by
  intro record listed
  have free := List.findSome?_eq_none_iff.mp free record listed
  split at free
  · cases free
  next pubKey =>
    split at free
    · cases free
    next ip =>
      split at free
      · cases free
      next name => exact ⟨pubKey, ip, name⟩

/-- What an update of a candidate leaves alone: it changes what is said about the candidate, and at most
the autobid of one bucket. -/
structure Book.Described (before after : Book) (addr : Address) (info : CandidateInfo) : Prop where
  ledger : after.ledger = before.ledger
  stakeholders : after.stakeholderList = before.stakeholderList
  candidates : ∃ commission late, after.candidateList = before.candidateList.modify addr (·.updated info commission late)
  buckets : after.bucketList = before.bucketList ∨ ∃ id autobid, after.bucketList = before.bucketList.modify id (·.withAutobid autobid)

theorem updateCandidate_described {book after : Book} {record sent commission tooFrequent notChanged}
    (ran : book.updateCandidate record info sent commission autobid ts tooFrequent notChanged = .ok (after, reason)) :
    book.Described after record.addr info := by
  obtain ⟨candBucket, -, ran⟩ := check_bind_eq_ok.mp ran
  simp only [assert_bind, pure_eq_ok, Prod.mk.injEq] at ran
  obtain ⟨-, -, rfl, -⟩ := ran
  refine ⟨rfl, rfl, ⟨_, _, rfl⟩, ?_⟩
  cases candBucket with
  | none => exact .inl rfl
  | some b =>
    dsimp only
    split
    · exact .inr ⟨_, _, rfl⟩
    · exact .inl rfl

theorem boundCandidate_ok (chosen : world.boundCandidate env sb = .ok candidate) :
    candidate = 0 ∨ candidate ≠ 0 ∧ (world.candidateList.get candidate).isSome ∧
      (8 ≤ env.fork → world.Takes candidate sb.amount) := by
  unfold World.boundCandidate at chosen
  split at chosen
  · cases chosen
    exact .inl rfl
  next named =>
    split at chosen
    · cases chosen
      exact .inl rfl
    next cand held =>
      obtain ⟨valid, checked, chosen⟩ := check_bind_eq_ok.mp chosen
      rw [pure_eq_ok] at chosen
      split at chosen
      next holds =>
        subst chosen
        refine .inr ⟨named, by simp [held], fun recent _ _ => ?_⟩
        rw [selfRatioValid, if_pos recent, world.candidateList.key_of_get held] at checked
        cases checked
        exact holds
      · exact .inl chosen.symm

theorem bound_ok (ran : world.run (.script .bound env sb) = .ok next) :
    sb.token = mtrg ∧ ∃ candidate, world.boundCandidate env sb = .ok candidate ∧
      (100 < sb.autobid ∧ next = world ∨
        ¬100 < sb.autobid ∧ next.toBook = { world.toBook with
          ledger := world.ledger.moveToBound sb.holderAddr sb.amount
          bucketList := world.bucketList.add (boundBucket env sb candidate)
          stakeholderList := addStake world.stakeholderList (boundBucket env sb candidate)
          candidateList :=
            if candidate = 0 then world.candidateList
            else world.candidateList.modify candidate (·.addBucket (boundBucket env sb candidate)) }) := by
  simp only [World.run, World.handle, World.boundHandler, assert_bind] at ran
  obtain ⟨-, token, ran⟩ := ran
  obtain ⟨candidate, chosen, ran⟩ := check_bind_eq_ok.mp ran
  rw [assert_bind] at ran
  refine ⟨token, candidate, chosen, ?_⟩
  obtain ⟨-, ran⟩ := ran
  split at ran
  next large => exact .inl ⟨large, (pure_eq_ok.mp ran).symm⟩
  next small =>
    simp only [Ledger.boundAccountMeterGov, Ledger.bound_bind, commit_eq_ok] at ran
    exact .inr ⟨small, ran.2⟩

theorem namedBucket_bind {rest} : (world.namedBucket sb >>= rest) = .ok result ↔
      ∃ b, world.bucketList.get sb.stakingID = some b ∧ b.owner = sb.holderAddr ∧ b.value = sb.amount ∧ b.token = sb.token ∧
        rest b = .ok result := by
  rw [check_bind_eq_ok]
  simp only [World.namedBucket, listed_bind, assert_bind, pure_eq_ok]
  constructor
  · rintro ⟨_, ⟨_, held, owned, amount, token, rfl⟩, ran⟩
    exact ⟨_, held, owned, amount, token, ran⟩
  · rintro ⟨b, held, owned, amount, token, ran⟩
    exact ⟨b, ⟨b, held, owned, amount, token, rfl⟩, ran⟩

theorem delegate_ok (ran : world.run (.script .delegate env sb) = .ok next) :
    ∃ b, world.bucketList.get sb.stakingID = some b ∧ b.owner = sb.holderAddr ∧ b.isForeverLock = false ∧ b.candidate = 0 ∧
      (world.candidateList.get sb.candAddr).isSome ∧ (8 ≤ env.fork → world.Takes sb.candAddr b.value) ∧
      next.toBook = { world.toBook with
        bucketList := world.bucketList.modify sb.stakingID fun bucket => (bucket.votesFor sb.candAddr).withAutobid sb.autobid
        candidateList := world.candidateList.modify sb.candAddr (·.addBucket b) } := by
  simp only [World.run, World.handle, World.delegateHandler, namedBucket_bind, assert_bind, listed_bind] at ran
  obtain ⟨b, held, owned, -, -, normal, unused, -, cand, named, ran⟩ := ran
  obtain ⟨valid, checked, ran⟩ := check_bind_eq_ok.mp ran
  simp only [assert_bind, commit_eq_ok] at ran
  obtain ⟨rfl, left⟩ := ran
  refine ⟨b, held, owned, normal, unused, by simp [named], fun recent _ _ => ?_, left⟩
  rw [selfRatioValid, if_pos recent, world.candidateList.key_of_get named] at checked
  exact Except.ok.inj checked

theorem subAllowed_ok {done} (allowed : world.subAllowed env sb bucket = .ok done) :
    bucket.unbounded = false ∧ (sb.amount : Int) ≤ bucket.value ∧
      (8 ≤ env.fork → bucket.isForeverLock = true → (world.candidateList.get bucket.candidate).isSome ∧
        correctCheckEnoughSelfVotes bucket.candidate world.bucketList tesla11SelfVoteRatio none (some sb.amount) none
          (some sb.amount)) := by
  simp only [World.subAllowed, assert_bind] at allowed
  obtain ⟨bounded, allowed⟩ := allowed
  split at allowed
  · simp only [assert_bind, listed_bind] at allowed
    obtain ⟨enough, cand, held, allowed⟩ := allowed
    obtain ⟨valid, checked, allowed⟩ := check_bind_eq_ok.mp allowed
    rw [assert_eq_ok] at allowed
    subst allowed
    refine ⟨bounded, by omega, fun recent _ => ⟨by simp [held], ?_⟩⟩
    rw [subRatioValid, if_pos recent, world.candidateList.key_of_get held] at checked
    exact Except.ok.inj checked
  next normal =>
    rw [assert_eq_ok] at allowed
    exact ⟨bounded, by omega, fun _ locked => absurd locked normal⟩

theorem addAllowed_ok {done} (allowed : world.addAllowed env sb bucket = .ok done) : bucket.unbounded = false ∧
      (8 ≤ env.fork → bucket.isForeverLock = false → (world.candidateList.get bucket.candidate).isSome ∧
        world.Takes bucket.candidate sb.amount) := by
  simp only [World.addAllowed, assert_bind] at allowed
  obtain ⟨bounded, -, allowed⟩ := allowed
  refine ⟨bounded, fun recent normal => ?_⟩
  rw [if_pos ⟨recent, normal⟩, deref_bind] at allowed
  obtain ⟨cand, held, valid⟩ := allowed
  rw [assert_eq_ok, world.candidateList.key_of_get held] at valid
  exact ⟨by simp [held], fun _ _ => valid⟩

theorem bucketUpdate_ok (recent : 5 ≤ env.fork) (ran : world.run (.script .bucketUpdate env sb) = .ok next) :
    ∃ b, world.bucketList.get sb.stakingID = some b ∧ b.owner = sb.holderAddr ∧
      (sb.option = bucketSubOpt ∧ world.subAllowed env sb b = .ok () ∧ next.toBook = { world.toBook with
            bucketList := (world.bucketList.modify sb.stakingID (·.subtracted env sb.amount (b.bonusOf sb.amount))).add
              (b.split b.owner sb.amount (env.timestamp sb) (env.bucketNonce sb))
            candidateList := world.candidateList.modify b.candidate
              (·.addSplit (-(b.bonusOf sb.amount + if 9 ≤ env.fork then 0 else sb.amount))
                (b.split b.owner sb.amount (env.timestamp sb) (env.bucketNonce sb)).bucketID)
            stakeholderList := world.stakeholderList.modify b.owner
              (·.addID (b.split b.owner sb.amount (env.timestamp sb) (env.bucketNonce sb)).bucketID) } ∨
        sb.option ≠ bucketSubOpt ∧ world.addAllowed env sb b = .ok () ∧
          next.toBook = { world.toBook with
            ledger := world.ledger.moveToBound sb.holderAddr sb.amount
            bucketList := world.bucketList.modify sb.stakingID (·.deposited sb.amount)
            candidateList :=
              if b.candidate = 0 then world.candidateList else world.candidateList.modify b.candidate (.addVotes sb.amount)
            stakeholderList := world.stakeholderList.modify b.owner (·.addValue sb.amount) }) := by
  simp only [World.run, World.handle, World.bucketUpdateHandler, listed_bind, assert_bind, if_pos recent] at ran
  obtain ⟨b, held, owned, ran⟩ := ran
  refine ⟨b, held, owned, ?_⟩
  split at ran
  next sub =>
    obtain ⟨_, allowed, ran⟩ := check_bind_eq_ok.mp ran
    exact .inl ⟨sub, allowed, commit_eq_ok.mp ran⟩
  next other =>
    split at ran
    · obtain ⟨_, allowed, ran⟩ := check_bind_eq_ok.mp ran
      simp only [Ledger.boundAccountMeterGov, Ledger.bound_bind, commit_eq_ok] at ran
      exact .inr ⟨other, allowed, ran.2⟩
    · cases ran

theorem governing_ok {distribution} (ran : world.run (.governing env distribution) = .ok next) :
    Book.unboundAndCalcBonus env.time { world.toBook with ledger := world.ledger.distribute distribution } = (next.toBook, none) := by
  simp only [World.run, World.governingHandler] at ran
  split at ran
  next book computed => rw [computed, commit_eq_ok.mp ran]
  · cases ran

end MeterPov.Staking
