import MeterPov.Lib.Portions
import MeterPov.Staking.StakeholderIndex
import MeterPov.Staking.UniqueCandidates

/-! The candidate list as an index of the buckets by the candidates they vote for.

Votes are kept twice, in the buckets and in the candidates, and are updated by differences. Each
operation is a sequence of a few changes that keep the two in step. -/

set_option autoImplicit false

namespace MeterPov.Staking

open Lib Auction List Option SortedList

section

variable {cl : CandidateList} {addr target : Address} {update : Candidate → Candidate}
  (keyed : ∀ candidate, (update candidate).addr = candidate.addr)

include keyed

theorem isSome_modify (listed : addr = 0 ∨ (cl.get addr).isSome) : addr = 0 ∨ ((cl.modify target update).get addr).isSome := by
  rwa [cl.isSome_get_modify keyed]

theorem nobody_modify (nobody : cl.get 0 = none) : (cl.modify target update).get 0 = none := by
  rw [cl.get_modify keyed, nobody]
  split <;> rfl

end

/-- The product of the time and the rate is far from the sign bit. -/
theorem calcBonus_nonneg (fromTS : UInt64) {toTS} (early : toTS.toNat < 2 ^ 40) (rate : UInt8) {value} (nonneg : 0 ≤ value) : 0 ≤ calcBonus fromTS toTS rate value := by
  unfold calcBonus
  split
  · exact le_refl 0
  next ordered =>
    have elapsed : (toTS - fromTS).toNat ≤ toTS.toNat := by
      rw [UInt64.toNat_sub_of_le _ _ (UInt64.not_lt.mp ordered)]
      omega
    have small : (toTS - fromTS).toNat * rate.toUInt64.toNat < 2 ^ 63 := by
      have rated : rate.toUInt64.toNat < 2 ^ 8 := rate.toNat_lt
      have bounded : (toTS - fromTS).toNat * rate.toUInt64.toNat ≤ 2 ^ 40 * 2 ^ 8 :=
        Nat.mul_le_mul (by omega) (by omega)
      omega
    have product : 0 ≤ ((toTS - fromTS) * rate.toUInt64).toInt64.toInt := by
      rw [toInt64_of_lt]
      · exact Int.natCast_nonneg _
      · rw [UInt64.toNat_mul, Nat.mod_eq_of_lt (by omega)]
        exact small
    exact Int.ediv_nonneg (Int.mul_nonneg product nonneg) (by decide)

/-- The bonus that goes with a part of a bucket is a part of its bonus. -/
theorem Bucket.bonusOf_bounds {bucket : Bucket} {amount : Nat} (nonneg : 0 ≤ bucket.value)
    (valued : bucket.value ≤ bucket.totalVotes) (enough : (amount : Int) ≤ bucket.value) :
    0 ≤ bucket.bonusOf amount ∧ bucket.bonusOf amount ≤ bucket.totalVotes - bucket.value := by
  have bonus : 0 ≤ bucket.totalVotes - bucket.value := by omega
  refine ⟨Int.ediv_nonneg (Int.mul_nonneg bonus (Int.natCast_nonneg amount)) nonneg, ?_⟩
  rcases lt_or_eq_of_le nonneg with positive | zero
  · apply Int.ediv_le_of_le_mul positive
    exact Int.mul_le_mul_of_nonneg_left enough bonus
  · rw [Bucket.bonusOf, ← zero, Int.ediv_zero]
    omega
section

variable [Primitives] {world next : World} {bl : BucketList} {cl : CandidateList} {id : Bytes32} {old new : Bucket}
  {update : Bucket → Bucket} {change : Int} {addr : Address}

/-- A candidate lists the buckets that vote for it, each once, with the sum of their votes; a bucket votes for nobody or for a
candidate, with at least its value. -/
structure VoteIndex (bl : BucketList) (cl : CandidateList) : Prop where
  recorded : ∀ addr candidate, cl.get addr = some candidate →
    Recorded Bucket.candidate Bucket.totalVotes bl addr candidate.buckets candidate.totalVotes
  covered : ∀ id bucket, bl.get id = some bucket → bucket.candidate = 0 ∨ (cl.get bucket.candidate).isSome
  votes : ∀ bucket ∈ bl.items, 0 ≤ bucket.value ∧ bucket.value ≤ bucket.totalVotes
  nobody : cl.get 0 = none

/-- A bucket that votes as before, with a different number of votes. -/
structure Revoted (old new : Bucket) (change : Int) : Prop where
  id : new.bucketID = old.bucketID
  candidate : new.candidate = old.candidate
  totalVotes : new.totalVotes = old.totalVotes + change
  valued : 0 ≤ new.value ∧ new.value ≤ new.totalVotes

theorem Revoted.unchanged (valued : 0 ≤ old.value ∧ old.value ≤ old.totalVotes) (id : new.bucketID = old.bucketID)
    (candidate : new.candidate = old.candidate) (value : new.value = old.value) (votes : new.totalVotes = old.totalVotes) :
    Revoted old new 0 := by
  refine ⟨id, candidate, ?_, ?_⟩
  · rw [votes, add_zero]
  · rw [value, votes]
    exact valued

namespace VoteIndex

section

variable (index : VoteIndex bl cl)

include index

theorem votes_of_get (held : bl.get id = some old) : 0 ≤ old.value ∧ old.value ≤ old.totalVotes :=
  index.votes old (bl.get_eq_some.mp held).1

/-- One bucket changes, appears or goes that votes for one candidate or for nobody, and this candidate's record with it. -/
theorem follow {later : BucketList} {before after target update}
    (changes : Changes bl later id before after) (keyed : ∀ candidate, (update candidate).addr = candidate.addr)
    (gone : ∀ b ∈ before, b.candidate = target ∨ b.candidate = 0)
    (come : ∀ b ∈ after, (b.candidate = target ∨ b.candidate = 0) ∧ (b.candidate = 0 ∨ (cl.get b.candidate).isSome) ∧
      0 ≤ b.value ∧ b.value ≤ b.totalVotes) (here : ∀ candidate, cl.get target = some candidate →
      Recorded Bucket.candidate Bucket.totalVotes later target (update candidate).buckets (update candidate).totalVotes) :
    VoteIndex later (cl.modify target update) where
  recorded addr candidate found := by
    rw [cl.get_modify keyed] at found
    split at found
    next same =>
      subst same
      obtain ⟨before, found', rfl⟩ := map_eq_some_iff.mp found
      exact here before found'
    next apart =>
      have away : ∀ b : Bucket, b.candidate = target ∨ b.candidate = 0 → b.candidate ≠ addr := by
        rintro b (same | none) rfl
        · exact apart same
        · rw [none, index.nobody] at found
          cases found
      exact (index.recorded addr candidate found).other changes (fun b held => away b (gone b held)) fun b held =>
        away b (come b held).1
  covered other b found := by
    apply isSome_modify keyed
    rw [changes.get] at found
    split at found
    · exact (come b found).2.1
    · exact index.covered other b found
  votes b listed := by
    have found := later.mem_items.mp listed
    rw [changes.get] at found
    split at found
    · exact (come b found).2.2
    · exact index.votes_of_get found
  nobody := nobody_modify keyed index.nobody

theorem ne_zero_of_get {candidate} (found : cl.get addr = some candidate) : addr ≠ 0 := by
  rintro rfl
  rw [index.nobody] at found
  cases found

theorem revote (held : bl.get id = some old) (revoted : Revoted old (update old) change) :
    VoteIndex (bl.modify id update) (cl.modify old.candidate (.addVotes change)) := by
  have changes := Changes.modify held revoted.id
  refine index.follow changes (fun candidate => candidate.addVotes_addr change) (by rintro _ ⟨⟩; exact .inl rfl) ?_ ?_
  · rintro _ ⟨⟩
    rw [revoted.candidate]
    exact ⟨.inl rfl, index.covered id old held, revoted.valued⟩
  · intro candidate found
    have stayed := (index.recorded _ candidate found).stay changes revoted.candidate
    rw [share_of_eq rfl, share_of_eq revoted.candidate, revoted.totalVotes] at stayed
    have sum : candidate.totalVotes - old.totalVotes + (old.totalVotes + change) = candidate.totalVotes + change := by omega
    rwa [sum] at stayed

theorem modify_unless_zero {votes update} :
    (if votes = 0 then cl else cl.modify votes update) = cl.modify votes update := by
  split
  next zero =>
    subst zero
    exact (cl.get_modify_none index.nobody update).symm
  · rfl

theorem edit (held : bl.get id = some old) (revoted : Revoted old (update old) 0) : VoteIndex (bl.modify id update) cl := by
  have index := index.revote held revoted
  rwa [cl.modify_eq_self fun candidate => by simp [Candidate.addVotes]] at index

theorem join (fresh : bl.get new.bucketID = none) (listed : new.candidate = 0 ∨ (cl.get new.candidate).isSome)
    (valued : 0 ≤ new.value ∧ new.value ≤ new.totalVotes) :
    VoteIndex (bl.add new) (cl.modify new.candidate (·.addBucket new)) := by
  have changes : Changes bl (bl.add new) new.bucketID none (some new) := .insert fresh
  refine index.follow changes (fun candidate => candidate.addBucket_addr new) nofun (by rintro _ ⟨⟩; exact ⟨.inl rfl, listed, valued⟩) ?_
  intro candidate found
  exact (index.recorded _ candidate found).join changes nofun rfl

variable {candidate : Candidate}

/-- The votes of a candidate are at least those of one of its buckets, so that they do not snap to zero when it goes. -/
theorem removeBucket_eq (held : bl.get id = some old) (found : cl.get old.candidate = some candidate) :
    candidate.removeBucket old = { candidate with
      buckets := candidate.buckets.erase old.bucketID
      totalVotes := candidate.totalVotes - old.totalVotes } := by
  have recorded := index.recorded _ candidate found
  have named := bl.key_of_get held
  have listed : old.bucketID ∈ candidate.buckets := (recorded.mem_ids _).mpr ⟨old, named ▸ held, rfl⟩
  have enough := recorded.weight_le_sum (fun b member => le_trans (index.votes b member).1 (index.votes b member).2) held rfl
  rw [Candidate.removeBucket, if_pos listed, max_eq_right (by omega)]

theorem remove (held : bl.get id = some old) : VoteIndex (bl.remove id) (cl.modify old.candidate (·.removeBucket old)) := by
  have changes := Changes.erase held
  refine index.follow changes (fun candidate => candidate.removeBucket_addr old) (by rintro _ ⟨⟩; exact .inl rfl) nofun ?_
  intro candidate found
  rw [index.removeBucket_eq held found, bl.key_of_get held]
  exact (index.recorded _ candidate found).leave changes rfl nofun

theorem leave (held : bl.get id = some old) (keyed : (update old).bucketID = old.bucketID) (none : (update old).candidate = 0)
    (valued : 0 ≤ (update old).value ∧ (update old).value ≤ (update old).totalVotes) :
    VoteIndex (bl.modify id update) (cl.modify old.candidate (·.removeBucket old)) := by
  have changes := Changes.modify held keyed
  refine index.follow changes (fun candidate => candidate.removeBucket_addr old) (by rintro _ ⟨⟩; exact .inl rfl) ?_ ?_
  · rintro _ ⟨⟩
    exact ⟨.inr none, .inl none, valued⟩
  · intro candidate found
    rw [index.removeBucket_eq held found, bl.key_of_get held]
    refine (index.recorded _ candidate found).leave changes rfl ?_
    rintro _ ⟨⟩
    exact none.trans_ne (index.ne_zero_of_get found).symm

theorem enter (held : bl.get id = some old) (none : old.candidate = 0) (keyed : (update old).bucketID = old.bucketID)
    (votes : (update old).totalVotes = old.totalVotes) (value : (update old).value = old.value)
    (listed : (cl.get (update old).candidate).isSome) :
    VoteIndex (bl.modify id update) (cl.modify (update old).candidate (·.addBucket old)) := by
  obtain rfl : old.bucketID = id := bl.key_of_get held
  have changes := Changes.modify held keyed
  refine index.follow changes (fun candidate => candidate.addBucket_addr old) (by rintro _ ⟨⟩; exact .inr none) ?_ ?_
  · rintro _ ⟨⟩
    rw [votes, value]
    exact ⟨.inl rfl, .inr listed, index.votes_of_get held⟩
  · intro candidate found
    have joined := (index.recorded _ candidate found).join changes
      (by rintro _ ⟨⟩; exact none.trans_ne (index.ne_zero_of_get found).symm) rfl
    rwa [votes] at joined

theorem move {target} (held : bl.get id = some old) (listed : (cl.get target).isSome) :
    VoteIndex (bl.modify id (·.votesFor target))
      ((cl.modify old.candidate (·.removeBucket old)).modify target (·.addBucket old)) := by
  have valued := index.votes_of_get held
  have left : VoteIndex (bl.modify id (·.votesFor 0)) (cl.modify old.candidate (·.removeBucket old)) :=
    index.leave held rfl rfl valued
  have heldAfter : (bl.modify id (·.votesFor 0)).get id = some (old.votesFor 0) := by
    have named : old.bucketID = id := bl.key_of_get held
    rw [bl.modify_of_get held, bl.get_add]
    exact if_pos named.symm
  have listedAfter : ((cl.modify old.candidate (·.removeBucket old)).get target).isSome := by
    rwa [cl.isSome_get_modify fun candidate => candidate.removeBucket_addr old]
  have entered : VoteIndex ((bl.modify id (·.votesFor 0)).modify id (·.votesFor target))
      ((cl.modify old.candidate (·.removeBucket old)).modify target (·.addBucket (old.votesFor 0))) :=
    left.enter heldAfter rfl rfl rfl rfl listedAfter
  have twice : (bl.modify id (·.votesFor 0)).modify id (·.votesFor target) = bl.modify id (·.votesFor target) :=
    bl.modify_modify (by intro; rfl) (by intro; rfl)
  rw [twice] at entered
  exact entered

theorem split {amount : Nat} {bonus} (held : bl.get id = some old)
    (revoted : Revoted old (update old) (-(amount + bonus))) (fresh : bl.get new.bucketID = none)
    (candidate : new.candidate = old.candidate) (value : new.value = amount) (votes : new.totalVotes = amount) :
    VoteIndex ((bl.modify id update).add new) (cl.modify old.candidate (·.addSplit (-bonus) new.bucketID)) := by
  have lowered := index.revote held revoted
  have listed : new.candidate = 0 ∨ ((cl.modify old.candidate (.addVotes (-(amount + bonus)))).get new.candidate).isSome := by
    apply isSome_modify fun candidate => candidate.addVotes_addr _
    rw [candidate]
    exact index.covered id old held
  have joined := lowered.join (bl.get_modify_fresh held revoted.id fresh) listed (by omega)
  rw [candidate, cl.modify_modify (fun candidate => candidate.addVotes_addr _) fun candidate => candidate.addBucket_addr new] at joined
  have together : (fun candidate : Candidate => (candidate.addVotes (-(amount + bonus))).addBucket new) =
      fun candidate => candidate.addSplit (-bonus) new.bucketID := by
    funext candidate
    simp only [Candidate.addVotes, Candidate.addBucket, Candidate.addSplit, votes, Candidate.mk.injEq, true_and, and_true]
    omega
  rw [together] at joined
  exact joined

theorem list (named : candidate.addr ≠ 0) (absent : cl.get candidate.addr = none) (buckets : candidate.buckets = [])
    (votes : candidate.totalVotes = 0) : VoteIndex bl (cl.add candidate) where
  recorded addr other found := by
    rw [cl.get_add] at found
    split at found
    next same =>
      cases found
      rw [buckets, votes]
      refine .empty fun id bucket held voting => ?_
      rcases index.covered id bucket held with none | listed
      · exact named (same.symm.trans (voting.symm.trans none))
      · rw [voting, same, absent] at listed
        cases listed
    · exact index.recorded addr other found
  covered id bucket held := by
    rcases index.covered id bucket held with none | listed
    · exact .inl none
    · refine .inr ?_
      rw [cl.get_add]
      split
      · rfl
      · exact listed
  votes := index.votes
  nobody := by rw [cl.get_add, if_neg (Ne.symm named), index.nobody]

theorem unlist (unused : ∀ id bucket, bl.get id = some bucket → bucket.candidate ≠ addr) : VoteIndex bl (cl.remove addr) where
  recorded other candidate found := by
    rw [cl.get_remove] at found
    split at found
    · cases found
    · exact index.recorded other candidate found
  covered id bucket held := by
    rw [cl.get_remove, if_neg (unused id bucket held)]
    exact index.covered id bucket held
  votes := index.votes
  nobody := by
    rw [cl.get_remove, index.nobody]
    split <;> rfl

theorem redescribe {update} (keyed : ∀ candidate, (update candidate).addr = candidate.addr)
    (buckets : ∀ candidate, (update candidate).buckets = candidate.buckets)
    (votes : ∀ candidate, (update candidate).totalVotes = candidate.totalVotes) : VoteIndex bl (cl.modify addr update) where
  recorded other candidate found := by
    rw [cl.get_modify keyed] at found
    split at found
    · obtain ⟨before, found', rfl⟩ := map_eq_some_iff.mp found
      rw [buckets, votes]
      exact index.recorded other before found'
    · exact index.recorded other candidate found
  covered id bucket held := isSome_modify keyed (index.covered id bucket held)
  votes := index.votes
  nobody := nobody_modify keyed index.nobody

theorem merge {target receiver} (apart : id ≠ target) (held : bl.get id = some old) (heldTarget : bl.get target = some receiver) :
    VoteIndex ((bl.modify target (·.merged old)).remove id)
      ((cl.modify old.candidate (·.removeBucket old)).modify receiver.candidate (.addVotes old.totalVotes)) := by
  have heldAfter : (bl.remove id).get target = some receiver := by rw [bl.get_remove, if_neg (Ne.symm apart), heldTarget]
  have given := index.votes_of_get held
  have taken := index.votes_of_get heldTarget
  have revoted : Revoted receiver (receiver.merged old) old.totalVotes :=
    ⟨rfl, rfl, rfl, by simp only [Bucket.merged]; omega⟩
  have comm : (bl.modify target (·.merged old)).remove id = (bl.remove id).modify target (·.merged old) :=
    bl.modify_remove_comm (by intro; rfl) apart
  rw [comm]
  exact (index.remove held).revote heldAfter revoted

theorem transfer {target receiver receive} (apart : id ≠ target)
    (held : bl.get id = some old) (given : Revoted old (update old) (-change)) (heldTarget : bl.get target = some receiver)
    (received : Revoted receiver (receive receiver) change) :
    VoteIndex ((bl.modify id update).modify target receive)
      ((cl.modify old.candidate (.addVotes (-change))).modify receiver.candidate (.addVotes change)) := by
  have heldAfter : (bl.modify id update).get target = some receiver :=
    (bl.get_modify_of_ne held given.id apart.symm).trans heldTarget
  exact (index.revote held given).revote heldAfter received

theorem dropVotes (held : bl.get old.bucketID = some old) : VoteIndex (bl.remove old.bucketID) (dropVotes cl old) := by
  have removed := index.remove held
  unfold Staking.dropVotes
  split
  next absent =>
    rw [cl.get_modify_none absent] at removed
    exact removed
  next candidate found =>
    have modified : cl.modify old.candidate (·.removeBucket old) = cl.add (candidate.removeBucket old) := cl.modify_of_get found _
    have named : (candidate.removeBucket old).addr = old.candidate := by rw [Candidate.removeBucket_addr, cl.key_of_get found]
    rw [modified] at removed
    split
    next last =>
      have recorded := removed.recorded old.candidate (candidate.removeBucket old) (by rw [cl.get_add, if_pos named.symm])
      rw [isEmpty_iff.mp last] at recorded
      have unlisted := removed.unlist recorded.none_of_nil
      rwa [← modified, cl.modify_remove_self fun candidate => candidate.removeBucket_addr old, ← cl.key_of_get found] at unlisted
    · exact removed

end

variable {info : CandidateInfo} {ts : UInt64} {book : Book}

theorem accrue (early : ts.toNat < 2 ^ 40) (index : VoteIndex book.bucketList book.candidateList) (id : Bytes32) :
    VoteIndex (book.accrue ts id).bucketList (book.accrue ts id).candidateList := by
  unfold Book.accrue
  split
  · exact index
  next bkt held =>
    split
    · have valued := index.votes_of_get held
      have bonus := calcBonus_nonneg bkt.calcLastTime early bkt.rate valued.1
      dsimp only
      rw [index.modify_unless_zero]
      exact index.revote held ⟨rfl, rfl, rfl, valued.1, by simp only [Bucket.accrued]; omega⟩
    · exact index

theorem governed (early : ts.toNat < 2 ^ 40) (index : VoteIndex book.bucketList book.candidateList) :
    VoteIndex (book.unboundAndCalcBonus ts).1.bucketList (book.unboundAndCalcBonus ts).1.candidateList := by
  apply unboundAndCalcBonus_induction (motive := fun book => VoteIndex book.bucketList book.candidateList)
  · intro book bkt index held
    exact index.dropVotes held
  · intro book id index
    exact index.accrue early id
  · exact index

/-- The loop over the buckets of a candidate leaves no vote of them. -/
theorem releaseBuckets_votes (named : addr ≠ 0) (ids : List Bytes32) (bl : BucketList) (last : Bytes32) {bucket}
    (held : (releaseBuckets addr ids bl last).1.get id = some bucket) (voting : bucket.candidate = addr) :
    bl.get id = some bucket ∧ id ∉ ids := by
  induction ids generalizing bl last with
  | nil => exact ⟨held, not_mem_nil⟩
  | cons next rest ih =>
    unfold releaseBuckets at held
    split at held
    next absent =>
      obtain ⟨before, unlisted⟩ := ih bl last held
      refine ⟨before, not_mem_cons_of_ne_of_not_mem ?_ unlisted⟩
      rintro rfl
      rw [absent] at before
      cases before
    next b found =>
      split at held
      next other =>
        obtain ⟨before, unlisted⟩ := ih bl last held
        refine ⟨before, not_mem_cons_of_ne_of_not_mem ?_ unlisted⟩
        rintro rfl
        rw [found] at before
        cases before
        exact other voting
      · obtain ⟨before, unlisted⟩ := ih _ _ held
        have apart : id ≠ next := by
          rintro rfl
          rw [bl.get_modify Bucket.released_bucketID, if_pos rfl, found] at before
          cases before
          obtain ⟨_, _, released⟩ := b.released_eq
          rw [released] at voting
          exact named voting.symm
        rw [bl.get_modify_of_ne found b.released_bucketID apart] at before
        exact ⟨before, not_mem_cons_of_ne_of_not_mem apart unlisted⟩

theorem delisted (index : VoteIndex book.bucketList book.candidateList) {record} (held : book.candidateList.get addr = some record) :
    VoteIndex (book.delist record).bucketList (book.delist record).candidateList := by
  have keyed : record.addr = addr := book.candidateList.key_of_get held
  have named := index.ne_zero_of_get held
  unfold Book.delist
  rw [keyed]
  -- while the loop runs, the votes left are those of a list that differs in the candidate that leaves
  let kept (bl : BucketList) : Prop := ∃ cl, VoteIndex bl cl ∧ cl.remove addr = book.candidateList.remove addr
  have released : kept (releaseBuckets addr record.buckets book.bucketList 0).1 := by
    apply releaseBuckets_induction (motive := kept)
    · rintro bl id b ⟨cl, index, same⟩ found rfl
      have valued := index.votes_of_get found
      obtain ⟨_, _, released⟩ := b.released_eq
      refine ⟨_, index.leave found b.released_bucketID ?_ ?_, ?_⟩
      · rw [released]
      · rw [released]
        exact valued
      · rw [cl.modify_remove_self fun candidate => candidate.removeBucket_addr b, same]
    · exact ⟨_, index, rfl⟩
  obtain ⟨cl, after, same⟩ := released
  rw [← same]
  apply after.unlist
  intro id bucket left voting
  obtain ⟨before, unlisted⟩ := releaseBuckets_votes named _ _ _ left voting
  exact unlisted (((index.recorded addr record held).mem_ids id).mpr ⟨bucket, before, voting⟩)

theorem described {before after : Book} (described : before.Described after addr info)
    (index : VoteIndex before.bucketList before.candidateList) : VoteIndex after.bucketList after.candidateList := by
  obtain ⟨commission, late, candidates⟩ := described.candidates
  have edited : VoteIndex after.bucketList before.candidateList := by
    rcases described.buckets with same | ⟨id, autobid, edited⟩
    · rw [same]
      exact index
    · rw [edited]
      cases held : before.bucketList.get id with
      | none => rwa [before.bucketList.get_modify_none held]
      | some b => exact index.edit held (.unchanged (index.votes_of_get held) rfl rfl rfl rfl)
  rw [candidates]
  refine edited.redescribe ?_ ?_ ?_
  all_goals
    intro candidate
    unfold Candidate.updated
    split <;> rfl

theorem enlisted {commission ledger} (index : VoteIndex book.bucketList book.candidateList)
    (fresh : book.bucketList.get new.bucketID = none) (own : new.candidate = new.owner) (named : new.owner ≠ 0)
    (absent : book.candidateList.get new.owner = none) (valued : 0 ≤ new.value ∧ new.value ≤ new.totalVotes) :
    VoteIndex (book.enlist info commission new ts ledger).bucketList (book.enlist info commission new ts ledger).candidateList := by
  have listed : VoteIndex book.bucketList (book.candidateList.add (newCandidate new.owner info commission ts)) :=
    index.list named absent rfl rfl
  have held : (book.candidateList.add (newCandidate new.owner info commission ts)).get new.candidate =
      some (newCandidate new.owner info commission ts) := by
    rw [own, get_add]
    exact if_pos rfl
  have joined := listed.join fresh (.inr (by rw [held]; rfl)) valued
  have same : (book.candidateList.add (newCandidate new.owner info commission ts)).modify new.candidate (·.addBucket new) =
      book.candidateList.add ((newCandidate new.owner info commission ts).addBucket new) := by
    apply SortedList.ext_get
    intro other
    rw [SortedList.modify_of_get _ held, SortedList.get_add, SortedList.get_add, SortedList.get_add]
    change (if other = new.owner then _ else if other = new.owner then _ else _) = if other = new.owner then _ else _
    split <;> rfl
  rw [same] at joined
  exact joined

end VoteIndex

/-- An epoch is governed before a time. -/
def Operation.GovernedBefore (limit : Nat) : Operation → Prop
  | .governing env _ => env.time.toNat < limit
  | _ => True

theorem voteIndex_effect {operation} {after : Book} (early : operation.GovernedBefore (2 ^ 40))
    (index : VoteIndex world.bucketList world.candidateList)
    (fresh : ∀ new, world.opens operation = some new → world.bucketList.get new.bucketID = none)
    (nonzero : ∀ addr, operation.lists = some addr → addr ≠ 0) (effect : Effect world operation after) : VoteIndex after.bucketList after.candidateList := by
  have withdrawn {b : Bucket} {id : Bytes32} {amount : Nat} (held : world.bucketList.get id = some b) (enough : (amount : Int) ≤ b.value) :
      Revoted b (b.withdrawn amount (b.bonusOf amount)) (-(amount + b.bonusOf amount)) := by
    have valued := index.votes_of_get held
    have bonus := b.bonusOf_bounds valued.1 valued.2 enough
    refine ⟨rfl, rfl, ?_, ?_⟩
    all_goals
      simp only [Bucket.withdrawn]
      omega
  cases effect with
  | idle | bail => exact index
  | close held => exact index.edit held (.unchanged (index.votes_of_get held) rfl rfl rfl rfl)
  | deposit held =>
    have valued := index.votes_of_get held
    rw [index.modify_unless_zero]
    exact index.revote held ⟨rfl, rfl, rfl, by simp only [Bucket.deposited]; omega⟩
  | join opens _ value votes listed =>
    rw [index.modify_unless_zero]
    exact index.join (fresh _ opens) listed (by omega)
  | withdraw held opens enough | sub held opens enough =>
    exact index.split held (withdrawn held enough) (fresh _ opens) rfl rfl rfl
  | move held listed => exact index.move held listed
  | enter _ held unused listed => exact index.enter held unused rfl rfl rfl listed
  | leave held =>
    have valued := index.votes_of_get held
    exact index.leave held rfl rfl valued
  | merge apart heldFrom heldTo => exact index.merge apart heldFrom heldTo
  | @transfer _ _ fromBkt toBkt amount apart heldFrom heldTo _ enough =>
    have given := index.votes_of_get heldFrom
    have valued := index.votes_of_get heldTo
    have bonus := fromBkt.bonusOf_bounds given.1 given.2 enough
    have lost := withdrawn heldFrom enough
    have received : Revoted toBkt (toBkt.received amount (fromBkt.bonusOf amount)) (amount + fromBkt.bonusOf amount) := by
      refine ⟨rfl, rfl, ?_, ?_⟩
      all_goals
        simp only [Bucket.received]
        omega
    exact index.transfer apart heldFrom ⟨lost.id, lost.candidate, lost.totalVotes, lost.valued⟩ heldTo received
  | enlist opens lists absent =>
    exact index.enlisted (fresh _ opens) rfl (nonzero _ lists) absent ⟨Int.natCast_nonneg _, le_refl _⟩
  | describe _ described => exact index.described described
  | delist held => exact index.delisted held
  | @govern _ env distribution isGoverning ran =>
    subst isGoverning
    let started : Book := { world.toBook with ledger := world.ledger.distribute distribution }
    have before : VoteIndex started.bucketList started.candidateList := index
    have governed := before.governed early
    rw [ran] at governed
    exact governed

/-- Every candidate lists the buckets that vote for it, with the sum of their votes, after every run in which the zero address,
which stands for no candidate, is not listed as one. -/
theorem voteIndex_of_named {operations : List Operation} (recent : ∀ operation ∈ operations, operation.AtFork 10)
    (early : ∀ operation ∈ operations, operation.GovernedBefore (2 ^ 40))
    (nonzero : ∀ operation ∈ operations, ∀ addr, operation.lists = some addr → addr ≠ 0)
    (distinct : world.DistinctlyOpened operations) (index : VoteIndex world.bucketList world.candidateList) :
    VoteIndex (world.afterAll operations).bucketList (world.afterAll operations).candidateList := by
  apply World.afterAll_induction (motive := fun world => VoteIndex world.bucketList world.candidateList)
  · exact recent
  · intro world next operation listed index ran fresh
    exact voteIndex_effect (early operation listed) index fresh (nonzero operation listed) (effect_of_run (recent operation listed) ran)
  · exact distinct
  · exact index

end

section

attribute [local instance] plainPrimitives

theorem VoteIndex.empty : VoteIndex .empty .empty where
  recorded _ _ := nofun
  covered _ _ := nofun
  votes _ := nofun
  nobody := rfl

/-- Account 1 lists its own bucket and that of account 3. -/
theorem one_counts_votes : ∃ one, (unstakedWorld.afterAll [listOne, boundThree]).candidateList.get 1 = some one ∧
      Recorded Bucket.candidate Bucket.totalVotes (unstakedWorld.afterAll [listOne, boundThree]).bucketList 1 one.buckets
        one.totalVotes := by
  have recent : ∀ operation ∈ [listOne, boundThree], operation.AtFork 10 := by simp [listOne, boundThree, Operation.AtFork]
  have early : ∀ operation ∈ [listOne, boundThree], operation.GovernedBefore (2 ^ 40) := by
    simp [listOne, boundThree, Operation.GovernedBefore]
  have nonzero : ∀ operation ∈ [listOne, boundThree], ∀ addr, operation.lists = some addr → addr ≠ 0 := by
    simp [listOne, boundThree, Operation.lists]
  have distinct : unstakedWorld.DistinctlyOpened [listOne, boundThree] := ⟨by decide +kernel, fun _ _ _ listed => absurd listed not_mem_nil⟩
  have index := voteIndex_of_named recent early nonzero distinct .empty
  have listed : ((unstakedWorld.afterAll [listOne, boundThree]).candidateList.get 1).isSome := by decide +kernel
  obtain ⟨one, held⟩ := isSome_iff_exists.mp listed
  exact ⟨one, held, index.recorded 1 one held⟩

/-- Nothing is staked yet; account 3 and the zero address have something to stake. -/
def zeroWorld : World where
  ledger := (Ledger.empty.update 0 { balance := mtrgAmount 3000 }).update 3 { balance := mtrgAmount 3000 }
  bucketList := .empty
  candidateList := .empty
  stakeholderList := .empty
  inJailList := .empty
  encodes := by decide +kernel

def listZero : Operation :=
  .listAsCandidate 0 ⟨[], [], [], [49, 46, 49, 46, 49, 46, 49], 8670⟩ (mtrgAmount 2000) 100 commissionRateMin 1000 5

def boundNobody : Operation :=
  .script .bound ⟨10, 1000, 7, 0, 0⟩
    { opcode := opBound, option := oneWeekLock, holderAddr := 3, candAddr := 0, amount := mtrgAmount 100, token := mtrg }

/-- Once the zero address is a candidate, a bucket that votes for nobody votes for it and is not listed there. -/
theorem zero_misses_votes : VoteIndex zeroWorld.bucketList zeroWorld.candidateList ∧ zeroWorld.DistinctlyOpened [listZero, boundNobody] ∧
      ∃ zero, (zeroWorld.afterAll [listZero, boundNobody]).candidateList.get 0 = some zero ∧
        ¬Recorded Bucket.candidate Bucket.totalVotes (zeroWorld.afterAll [listZero, boundNobody]).bucketList 0 zero.buckets
          zero.totalVotes := by
  refine ⟨.empty, ⟨by decide +kernel, fun _ _ _ => nofun⟩, ?_⟩
  have listed : ((zeroWorld.afterAll [listZero, boundNobody]).candidateList.get 0).isSome := by decide +kernel
  obtain ⟨zero, held⟩ := isSome_iff_exists.mp listed
  refine ⟨zero, held, fun recorded => ?_⟩
  have own : zero.buckets = [(lockedBucket 0 (mtrgAmount 2000) mtrg 100 1000 5).bucketID] := by
    have found : ((zeroWorld.afterAll [listZero, boundNobody]).candidateList.get 0).map Candidate.buckets =
        some [(lockedBucket 0 (mtrgAmount 2000) mtrg 100 1000 5).bucketID] := by decide +kernel
    rw [held] at found
    exact Option.some.inj found
  -- the bucket of account 3, whose candidate is the zero address
  have third : ∃ id bucket, (zeroWorld.afterAll [listZero, boundNobody]).bucketList.get id = some bucket ∧
      bucket.candidate = 0 ∧ id ∉ [(lockedBucket 0 (mtrgAmount 2000) mtrg 100 1000 5).bucketID] := by
    refine ⟨_, boundBucket ⟨10, 1000, 7, 0, 0⟩
      { opcode := opBound, option := oneWeekLock, holderAddr := 3, candAddr := 0, amount := mtrgAmount 100, token := mtrg } 0,
      (mem_items _).mp ?_, ?_, ?_⟩
    all_goals decide +kernel
  obtain ⟨id, bucket, voter, voting, unlisted⟩ := third
  rw [← own] at unlisted
  exact unlisted ((recorded.mem_ids id).mpr ⟨bucket, voter, voting⟩)

end

end MeterPov.Staking
