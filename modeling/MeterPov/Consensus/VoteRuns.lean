import MeterPov.Consensus.Malformed
import MeterPov.Consensus.VoteManager

/-! Histories of calls to a vote manager (`consensus/qc_vote_manager.go`, `consensus/tc_vote_manager.go`).

What a history files under a key is stated without the manager: the last vote of each signer since the key was last cleaned
up. A certificate is formed when the signers first are enough. -/

set_option autoImplicit false

namespace MeterPov.Consensus

open Lib Blocks List Option AList BitArray Function

variable {VoteKey Digest Key Sig : Type}

/-! ## What a history files -/

inductive Call (VoteKey Digest : Type) where
  | addVote (last : Nat) (key : VoteKey) (index : Nat) (sig : Bytes) (hash : Digest)
  | cleanUpTo (bound : Nat)

/-- The last vote of each signer: its signature and its hash. -/
abbrev VoteFile (Digest : Type) := Nat → Option (Bytes × Digest)

section

variable [DecidableEq VoteKey] (stage : VoteKey → Nat) (key : VoteKey)

/-- A cleanup is of the keys at a stage below its bound. -/
def fileCall (file : VoteFile Digest) : Call VoteKey Digest → VoteFile Digest
  | .addVote _ other index sig hash => if other = key then Function.update file index (some (sig, hash)) else file
  | .cleanUpTo bound => if stage key < bound then fun _ => none else file

def latest (history : List (Call VoteKey Digest)) : VoteFile Digest := history.foldl (fileCall stage key) fun _ => none

theorem latest_append (history later : List (Call VoteKey Digest)) :
    latest stage key (history ++ later) = later.foldl (fileCall stage key) (latest stage key history) := by
  simp [latest]

end

/-- The number of different signers below the committee's size. -/
def signerCount (size : Nat) (file : VoteFile Digest) : Nat := (List.range size).countP fun index => (file index).isSome

def Enough (size : Nat) (file : VoteFile Digest) : Prop := majorityTwoThird (signerCount size file) size = true

theorem signerCount_le (size : Nat) (file : VoteFile Digest) : signerCount size file ≤ size := by
  have bound := countP_le_length (p := fun index => (file index).isSome) (l := List.range size)
  simpa [signerCount] using bound

variable {size : Nat} {file : VoteFile Digest}

theorem enough_mono {grown : VoteFile Digest} (kept : ∀ index, (file index).isSome → (grown index).isSome) (enough : Enough size file) : Enough size grown := by
  have more : signerCount size file ≤ signerCount size grown := countP_mono_left fun index _ => kept index
  unfold Enough at enough ⊢
  rw [majorityTwoThird_iff] at enough ⊢
  omega

theorem not_enough_empty (size : Nat) : ¬ Enough size (fun _ => none : VoteFile Digest) := by
  unfold Enough signerCount
  rw [majorityTwoThird_iff]
  simp only [isSome_none, countP_false, const_apply, twoThirds]
  omega

theorem isSome_update {index other vote} (known : (file other).isSome) :
    (Function.update file index (some vote) other).isSome := by
  by_cases same : other = index
  · subst same
    simp
  · rw [update_of_ne same]
    exact known

/-- A certificate collected from a file: its bits are the signers, its signature is made of theirs, and its hash is one of theirs. -/
structure Formed (bls : BlsCommon Key Sig Digest) (size : Nat) (file : VoteFile Digest) (array : Option BitArray) (msgHash : Digest)
    (aggSig : Bytes) : Prop where
  signers : ∃ bits, array = some bits ∧ bits.bits = size ∧ ∀ index, bits.getIndex index = (file index).isSome
  aggregated : ∃ votes : AList fun _ : Nat => CastVote Digest Sig,
    (∀ index, (votes.lookup index).map (fun vote => (vote.signature, vote.hash)) = file index) ∧
    (∀ vote ∈ votes.entries, bls.sigFromBytes vote.2.signature = .ok vote.2.blsSig) ∧
    ∃ sig, bls.aggregate (votes.entries.map fun vote => vote.2.blsSig) = .ok sig ∧ bls.sigToBytes sig = aggSig
  hash : ∃ index sig, file index = some (sig, msgHash)

def AllCarry (file : VoteFile Digest) (msgHash : Digest) : Prop := ∀ index vote, file index = some vote → vote.2 = msgHash

def Agree (file : VoteFile Digest) : Prop :=
  ∀ index vote other otherVote, file index = some vote → file other = some otherVote → vote.2 = otherVote.2

variable {bls : BlsCommon Key Sig Digest}

theorem Formed.allCarry_iff {array msgHash aggSig} (formed : Formed bls size file array msgHash aggSig) :
    AllCarry file msgHash ↔ Agree file := by
  obtain ⟨place, sig, isVote⟩ := formed.hash
  constructor
  · intro carry index vote other otherVote isFirst isSecond
    rw [carry index vote isFirst, carry other otherVote isSecond]
  · intro agree index vote isFirst
    exact agree index vote place (sig, msgHash) isFirst isVote

/-! ## What a manager keeps -/

namespace VoteManager

theorem getIndex_foldl_setIndex (entries : List (Sigma fun _ : Nat => CastVote Digest Sig)) (array : BitArray) :
    ∃ bits, entries.foldl (fun array entry => array.map (·.setIndex entry.1 true)) (some array) = some bits ∧ bits.bits = array.bits ∧
      ∀ index, bits.getIndex index = (array.getIndex index || decide (index ∈ entries.map Sigma.fst ∧ index < array.bits)) := by
  induction entries generalizing array with
  | nil => exact ⟨array, rfl, rfl, by simp⟩
  | cons entry rest ih =>
    obtain ⟨bits, folded, size, found⟩ := ih (array.setIndex entry.1 true)
    refine ⟨bits, folded, by rw [size, setIndex_bits], fun index => ?_⟩
    rw [found, getIndex_setIndex, setIndex_bits, map_cons]
    by_cases same : index = entry.1
    · subst same
      by_cases inside : entry.1 < array.bits
      · simp [inside]
      · simp [inside]
    · have differs : (index == entry.1) = false := by simpa using same
      simp [same, differs]

variable {bls : BlsCommon Key Sig Digest} {size : Nat} {file after : VoteFile Digest} {votes : AList fun _ : Nat => CastVote Digest Sig}

/-- The map has the votes of the file, with their signatures as they decode. -/
def Filed (bls : BlsCommon Key Sig Digest) (votes : AList fun _ : Nat => CastVote Digest Sig) (file : VoteFile Digest) : Prop :=
  (∀ index, (votes.lookup index).map (fun vote => (vote.signature, vote.hash)) = file index) ∧
    ∀ vote ∈ votes.entries, bls.sigFromBytes vote.2.signature = .ok vote.2.blsSig

theorem Filed.isSome (filed : Filed bls votes file) (index : Nat) : (votes.lookup index).isSome = (file index).isSome := by
  rw [← filed.1 index, isSome_map]

theorem Filed.insert (filed : Filed bls votes file) {index sig hash blsSig} (decodes : bls.sigFromBytes sig = .ok blsSig) :
    Filed bls (votes.insert index ⟨sig, hash, blsSig⟩) (Function.update file index (some (sig, hash))) := by
  constructor
  · intro place
    by_cases isIndex : place = index
    · subst isIndex
      simp
    · rw [lookup_insert_ne isIndex, update_of_ne isIndex]
      exact filed.1 place
  · intro vote member
    rcases Lib.mem_entries_insert member with rfl | earlier
    · exact decodes
    · exact filed.2 vote earlier

theorem Filed.length (filed : Filed bls votes file) (inside : ∀ index, (file index).isSome → index < size) :
    votes.entries.length = signerCount size file := by
  rw [Lib.length_entries fun place known => inside place (by rwa [← filed.isSome])]
  congr 1
  funext place
  rw [filed.isSome]

section

variable (aggregates : ∀ sigs, sigs ≠ [] → ∃ sig, bls.aggregate sigs = .ok sig) (small : size < 2 ^ 32)

include aggregates small

theorem aggregate_formed (last : Nat) (filed : Filed bls votes file) (inside : ∀ index, (file index).isSome → index < size)
    (nonempty : votes.entries ≠ []) :
    ∃ aggregated, aggregate bls size last votes = some aggregated ∧
      Formed bls size file aggregated.bitArray aggregated.msgHash aggregated.aggSig := by
  obtain ⟨sig, isSig⟩ := aggregates (votes.entries.map fun vote => vote.2.blsSig) (by simpa using nonempty)
  have positive : 0 < votes.entries.length := length_pos_iff.mpr nonempty
  obtain ⟨ending, isEnding⟩ : ∃ ending, votes.entries[last % votes.entries.length]? = some ending :=
    ⟨_, List.getElem?_eq_getElem (Nat.mod_lt _ positive)⟩
  have listed : ∀ index, index ∈ votes.entries.map Sigma.fst ↔ (file index).isSome := by
    intro index
    rw [← filed.isSome, AList.lookup_isSome, AList.mem_keys]
    rfl
  have endingFiled : file ending.1 = some (ending.2.signature, ending.2.hash) := by
    rw [← filed.1 ending.1, AList.mem_lookup_iff.mpr (List.mem_of_getElem? isEnding)]
    rfl
  have sized : size ≠ 0 := by
    have := inside ending.1 (by rw [endingFiled]; rfl)
    omega
  have fits : size % 2 ^ 32 = size := Nat.mod_eq_of_lt small
  obtain ⟨bits, folded, bitsSize, isIndex⟩ := getIndex_foldl_setIndex votes.entries ⟨size % 2 ^ 32, List.replicate size false,
    Nat.mod_lt _ (by decide), (Nat.mod_le _ _).trans_eq length_replicate.symm⟩
  have found : ∀ index, bits.getIndex index = (file index).isSome := by
    intro index
    rw [isIndex, Bool.eq_iff_iff]
    simp only [BitArray.getIndex, fits]
    by_cases within : index < size
    · simp [within, listed]
    · have absent : (file index).isSome = false := by simpa using fun known => within (inside index known)
      simp [within, absent]
  refine ⟨⟨some bits, ending.2.hash, bls.sigToBytes sig⟩, ?_, ⟨bits, rfl, bitsSize.trans fits, found⟩,
    ⟨votes, filed.1, filed.2, sig, isSig, rfl⟩, ending.1, ending.2.signature, endingFiled⟩
  unfold aggregate
  simp only [isEnding, isSig, BitArray.newBitArray, if_neg sized, folded]

end

variable [DecidableEq VoteKey]

def step (bls : BlsCommon Key Sig Digest) (stage : VoteKey → Nat) (manager : VoteManager VoteKey Digest Sig) :
    Call VoteKey Digest → VoteManager VoteKey Digest Sig × Option (Aggregated Digest)
  | .addVote last key index sig hash => addVote bls last manager key index sig hash
  | .cleanUpTo bound => (manager.cleanUp fun key => stage key < bound, none)

/-- Calls with the index of a committee member and a signature that decodes. -/
def Admissible (bls : BlsCommon Key Sig Digest) (size : Nat) : Call VoteKey Digest → Prop
  | .addVote _ _ index sig _ => index < size ∧ ∃ blsSig, bls.sigFromBytes sig = .ok blsSig
  | .cleanUpTo _ => True

def run (bls : BlsCommon Key Sig Digest) (stage : VoteKey → Nat) (size : Nat) (history : List (Call VoteKey Digest)) :
    VoteManager VoteKey Digest Sig :=
  history.foldl (fun manager call => (step bls stage manager call).1) (new size)

variable {stage : VoteKey → Nat} {manager next : VoteManager VoteKey Digest Sig} {key other : VoteKey}

/-- An open key has the file, which is not enough; a sealed key has had enough. -/
structure Keeps (bls : BlsCommon Key Sig Digest) (size : Nat) (key : VoteKey) (file : VoteFile Digest)
    (manager : VoteManager VoteKey Digest Sig) : Prop where
  sized : manager.committeeSize = size
  inside : ∀ index, (file index).isSome → index < size
  opened : key ∉ manager.sealed → Filed bls (manager.cast key) file ∧ ¬ Enough size file
  isSealed : key ∈ manager.sealed → Enough size file ∧ (manager.votes.lookup key).isSome

theorem keeps_new : Keeps bls size key (fun _ => none) (new size : VoteManager VoteKey Digest Sig) where
  sized := rfl
  inside := by simp
  opened _ := ⟨by simp [Filed, cast, new], not_enough_empty size⟩
  isSealed := by simp [new]

theorem Keeps.congr (keeps : Keeps bls size key file manager) (sized : next.committeeSize = manager.committeeSize)
    (sealed : key ∈ next.sealed ↔ key ∈ manager.sealed) (votes : next.votes.lookup key = manager.votes.lookup key) :
    Keeps bls size key file next := by
  have same : next.cast key = manager.cast key := congrArg (Option.getD · ∅) votes
  refine ⟨sized.trans keeps.sized, keeps.inside, fun isOpen => ?_, fun closed => ?_⟩
  · rw [same]
    exact keeps.opened (mt sealed.mpr isOpen)
  · rw [votes]
    exact keeps.isSealed (sealed.mp closed)

theorem Keeps.addVote_other (keeps : Keeps bls size key file manager) (differs : key ≠ other) (last index : Nat) (sig : Bytes)
    (hash : Digest) : Keeps bls size key file (addVote bls last manager other index sig hash).1 := by
  unfold addVote
  split
  · exact keeps
  split
  · exact keeps
  dsimp only
  split
  · exact keeps.congr rfl (by simp [differs]) (lookup_insert_ne differs)
  · exact keeps.congr rfl Iff.rfl (lookup_insert_ne differs)

/-- A certificate is returned exactly when the file comes to be enough, and it is formed from it. -/
theorem addVote_keeps (aggregates : ∀ sigs, sigs ≠ [] → ∃ sig, bls.aggregate sigs = .ok sig) (small : size < 2 ^ 32)
    (keeps : Keeps bls size key file manager) {last index} (within : index < size) {sig} {hash : Digest} {blsSig}
    (decodes : bls.sigFromBytes sig = .ok blsSig) (isAfter : Function.update file index (some (sig, hash)) = after) :
    Keeps bls size key after (addVote bls last manager key index sig hash).1 ∧
      ((addVote bls last manager key index sig hash).2.isSome = true ↔ ¬ Enough size file ∧ Enough size after) ∧
      ∀ aggregated, (addVote bls last manager key index sig hash).2 = some aggregated →
        Formed bls size after aggregated.bitArray aggregated.msgHash aggregated.aggSig := by
  have inside : ∀ place, (after place).isSome → place < size := by
    intro place known
    by_cases same : place = index
    · exact same ▸ within
    · rw [← isAfter, update_of_ne same] at known
      exact keeps.inside place known
  unfold addVote
  by_cases isSealed : key ∈ manager.sealed
  · obtain ⟨enough, listed⟩ := keeps.isSealed isSealed
    rw [if_pos isSealed]
    refine ⟨⟨keeps.sized, inside, absurd isSealed, fun _ => ⟨?_, listed⟩⟩, ⟨by simp, fun first => absurd enough first.1⟩, by simp⟩
    exact enough_mono (fun _ known => isAfter ▸ isSome_update known) enough
  obtain ⟨known, notEnough⟩ := keeps.opened isSealed
  have filed := isAfter ▸ known.insert decodes
  rw [if_neg isSealed, decodes]
  dsimp only
  rw [filed.length inside, Nat.mod_eq_of_lt (lt_of_le_of_lt (signerCount_le size after) small), keeps.sized]
  by_cases enough : Enough size after
  · rw [if_pos (show majorityTwoThird _ _ = true from enough)]
    obtain ⟨aggregated, isAggregated, formed⟩ := aggregate_formed aggregates small last filed inside (cons_ne_nil _ _)
    refine ⟨⟨rfl, inside, absurd mem_cons_self, fun _ => ⟨enough, by simp⟩⟩, ?_, ?_⟩
    · rw [isAggregated]
      exact ⟨fun _ => ⟨notEnough, enough⟩, fun _ => rfl⟩
    · intro other isOther
      obtain rfl := Option.some.inj (isAggregated.symm.trans isOther)
      exact formed
  · rw [if_neg (show ¬ majorityTwoThird _ _ = true from enough)]
    refine ⟨⟨rfl, inside, fun _ => ⟨?_, enough⟩, fun closed => absurd closed isSealed⟩, ⟨by simp, fun first => absurd first.2 enough⟩, by simp⟩
    simpa [cast] using filed

theorem cleanUp_keeps (keeps : Keeps bls size key file manager) (bound : Nat) :
    Keeps bls size key (if stage key < bound then fun _ => none else file) (manager.cleanUp fun key => stage key < bound) := by
  have member : key ∈ (manager.votes.keys.filter fun key => stage key < bound) ↔
      (manager.votes.lookup key).isSome ∧ stage key < bound := by
    rw [List.mem_filter, ← AList.mem_keys, ← AList.lookup_isSome, decide_eq_true_eq]
  have found := Lib.lookup_foldl_erase (manager.votes.keys.filter fun key => stage key < bound) manager.votes key
  split
  next low =>
    have cleaned : (manager.cleanUp fun key => stage key < bound).votes.lookup key = none := by
      refine found.trans ?_
      split
      · rfl
      next absent => simpa [member, low] using absent
    refine ⟨keeps.sized, by simp, fun _ => ⟨?_, not_enough_empty size⟩, fun closed => ?_⟩
    · simp [Filed, cast, cleaned]
    · obtain ⟨old, kept⟩ := mem_filter.mp closed
      exact absurd (member.mpr ⟨(keeps.isSealed old).2, low⟩) (of_decide_eq_true kept)
  next high =>
    have stays : key ∉ manager.votes.keys.filter fun key => stage key < bound := fun listed => high (member.mp listed).2
    refine keeps.congr rfl ?_ (found.trans (if_neg stays))
    unfold cleanUp
    rw [mem_filter, decide_eq_true_eq]
    exact and_iff_left stays

theorem Keeps.step (aggregates : ∀ sigs, sigs ≠ [] → ∃ sig, bls.aggregate sigs = .ok sig) (small : size < 2 ^ 32)
    (keeps : Keeps bls size key file manager) {call} (allowed : Admissible bls size call) :
    Keeps bls size key (fileCall stage key file call) (VoteManager.step bls stage manager call).1 := by
  cases call with
  | addVote last other index sig hash =>
    obtain ⟨within, blsSig, decodes⟩ := allowed
    rw [fileCall]
    split
    next same =>
      subst same
      exact (addVote_keeps aggregates small keeps within decodes rfl).1
    next differs => exact keeps.addVote_other (Ne.symm differs) last index sig hash
  | cleanUpTo bound => exact cleanUp_keeps keeps bound

theorem run_keeps (aggregates : ∀ sigs, sigs ≠ [] → ∃ sig, bls.aggregate sigs = .ok sig) (small : size < 2 ^ 32)
    (history : List (Call VoteKey Digest)) (admissible : ∀ call ∈ history, Admissible bls size call) :
    Keeps bls size key (latest stage key history) (run bls stage size history) := by
  induction history using List.reverseRecOn with
  | nil => exact keeps_new
  | append_singleton history call ih =>
    have keeps := ih fun other listed => admissible other (mem_append_left _ listed)
    rw [run, foldl_append, latest_append]
    exact keeps.step aggregates small (admissible call (mem_append_right _ (mem_singleton.mpr rfl)))

end VoteManager

theorem cleaned_between [DecidableEq VoteKey] {stage key} (middle : List (Call VoteKey Digest))
    (enough : Enough size file) (notEnough : ¬ Enough size (middle.foldl (fileCall stage key) file)) :
    ∃ bound, Call.cleanUpTo bound ∈ middle ∧ stage key < bound := by
  induction middle generalizing file with
  | nil => exact absurd enough notEnough
  | cons call rest ih =>
    by_cases still : Enough size (fileCall stage key file call)
    · obtain ⟨bound, listed, low⟩ := ih still notEnough
      exact ⟨bound, mem_cons_of_mem _ listed, low⟩
    · cases call with
      | addVote last other index sig hash =>
        refine absurd (enough_mono (fun place known => ?_) enough) still
        rw [fileCall]
        split
        · exact isSome_update known
        · exact known
      | cleanUpTo bound =>
        refine ⟨bound, mem_cons_self, ?_⟩
        by_contra high
        rw [fileCall, if_neg high] at still
        exact still enough

/-! ## The two managers -/

/-- What a call returns, given what is filed under its key before and after it. A certificate is seen as its bit array, its hash
and its signature. -/
structure Certifies (bls : BlsCommon Key Sig Digest) (size : Nat) (before after : VoteFile Digest)
    (result : Option (Exec (Option BitArray) × Digest × Bytes)) : Prop where
  exactly : result.isSome = true ↔ ¬ Enough size before ∧ Enough size after
  formed : ∀ array msgHash aggSig, result = some (array, msgHash, aggSig) → ∃ read, array = .ok read ∧
    Formed bls size after read msgHash aggSig
  sameHash : ∀ array msgHash aggSig, result = some (array, msgHash, aggSig) → (AllCarry after msgHash ↔ Agree after)

theorem Certifies.of_formed {before after} {result : Option (Aggregated Digest)} (read : Option BitArray → Exec (Option BitArray))
    (exactly : result.isSome = true ↔ ¬ Enough size before ∧ Enough size after)
    (formed : ∀ aggregated, result = some aggregated → Formed bls size after aggregated.bitArray aggregated.msgHash aggregated.aggSig)
    (reads : ∀ bits : BitArray, 0 < bits.bits → ∃ parsed, read (some bits) = .ok (some parsed) ∧ parsed.bits = bits.bits ∧
      ∀ index, parsed.getIndex index = bits.getIndex index) :
    Certifies bls size before after
      (result.map fun aggregated => (read aggregated.bitArray, aggregated.msgHash, aggregated.aggSig)) where
  exactly := by
    rw [isSome_map]
    exact exactly
  formed array msgHash aggSig isSome := by
    obtain ⟨aggregated, isResult, view⟩ := map_eq_some_iff.mp isSome
    cases view
    obtain ⟨⟨bits, isBits, sized, signers⟩, votes, place, sig, filed⟩ := formed aggregated isResult
    have positive : 0 < bits.bits := by
      by_contra empty
      have unset := @BitArray.getIndex_of_le bits place (by omega)
      rw [signers, filed] at unset
      cases unset
    obtain ⟨parsed, isParsed, sameSize, same⟩ := reads bits positive
    refine ⟨some parsed, by rw [isBits, isParsed], ⟨parsed, rfl, sameSize.trans sized, fun index => ?_⟩, votes, place, sig, filed⟩
    rw [same, signers]
  sameHash array msgHash aggSig isSome := by
    obtain ⟨aggregated, isResult, view⟩ := map_eq_some_iff.mp isSome
    cases view
    exact (formed aggregated isResult).allCarry_iff

theorem VoteManager.certifies [DecidableEq VoteKey] {stage}
    (aggregates : ∀ sigs, sigs ≠ [] → ∃ sig, bls.aggregate sigs = .ok sig) (small : size < 2 ^ 32)
    {history last index} {key : VoteKey} {sig hash}
    (admissible : ∀ call ∈ history ++ [.addVote last key index sig hash], VoteManager.Admissible bls size call)
    (read : Option BitArray → Exec (Option BitArray))
    (reads : ∀ bits : BitArray, 0 < bits.bits → ∃ parsed, read (some bits) = .ok (some parsed) ∧ parsed.bits = bits.bits ∧
      ∀ index, parsed.getIndex index = bits.getIndex index) :
    Certifies bls size (latest stage key history) (latest stage key (history ++ [.addVote last key index sig hash]))
      ((VoteManager.addVote bls last (VoteManager.run bls stage size history) key index sig hash).2.map fun aggregated =>
        (read aggregated.bitArray, aggregated.msgHash, aggregated.aggSig)) := by
  have keeps : VoteManager.Keeps bls size key (latest stage key history) (VoteManager.run bls stage size history) :=
    VoteManager.run_keeps aggregates small history fun call listed => admissible call (mem_append_left _ listed)
  obtain ⟨within, blsSig, decodes⟩ := admissible _ (mem_append_right _ (mem_singleton.mpr rfl))
  have filed : latest stage key (history ++ [.addVote last key index sig hash]) =
      Function.update (latest stage key history) index (some (sig, hash)) := by
    rw [latest_append]
    exact if_pos rfl
  obtain ⟨-, exactly, formed⟩ := VoteManager.addVote_keeps aggregates small keeps within decodes filed.symm
  exact Certifies.of_formed read exactly formed reads

theorem Certifies.cleaned [DecidableEq VoteKey] {stage} {key : VoteKey} {history middle before after}
    {Cert : Type} {first second : Option Cert} {view} (formed : Certifies bls size before (latest stage key history) (first.map view))
    (again : Certifies bls size (latest stage key (history ++ middle)) after (second.map view)) (isFirst : first.isSome = true)
    (isSecond : second.isSome = true) : ∃ bound, .cleanUpTo bound ∈ middle ∧ stage key < bound := by
  have notEnough := (again.exactly.mp (by rwa [isSome_map])).1
  rw [latest_append] at notEnough
  exact cleaned_between middle (formed.exactly.mp (by rwa [isSome_map])).2 notEnough

inductive QCCall (Digest : Type) where
  | addVote (last index epoch round : Nat) (blockID : BlockID Digest) (sig : Bytes) (hash : Digest)
  | cleanUpTo (blockNum : Nat)

inductive TCCall (Digest : Type) where
  | addVote (last index epoch round : Nat) (sig : Bytes) (hash : Digest)
  | cleanUpTo (epoch : Nat)

/-- The index is that of a committee member and the signature decodes. -/
def Decodable (bls : BlsCommon Key Sig Digest) (size index : Nat) (sig : Bytes) : Prop :=
  index < size ∧ sig.length ≠ 0 ∧ ∃ blsSig, bls.sigFromBytes sig = .ok blsSig

namespace QCCall

/-- Votes are filed by round and block, and cleaned up by the number of the block. -/
def call : QCCall Digest → Call (Nat × BlockID Digest) Digest
  | .addVote last index _ round blockID sig hash => .addVote last (round, blockID) index sig hash
  | .cleanUpTo blockNum => .cleanUpTo blockNum

def stage (key : Nat × BlockID Digest) : Nat := key.2.number

def Admissible (bls : BlsCommon Key Sig Digest) (size : Nat) : QCCall Digest → Prop
  | .addVote _ index _ _ _ sig _ => Decodable bls size index sig
  | .cleanUpTo _ => True

theorem admissible_call {history : List (QCCall Digest)} (admissible : ∀ call ∈ history, call.Admissible bls size) : ∀ each ∈ history.map call, VoteManager.Admissible bls size each := by
  intro each listed
  obtain ⟨original, member, rfl⟩ := mem_map.mp listed
  cases original with
  | addVote => exact ⟨(admissible _ member).1, (admissible _ member).2.2⟩
  | cleanUpTo => trivial

theorem mem_of_cleanUpTo {history : List (QCCall Digest)} {bound} (listed : .cleanUpTo bound ∈ history.map call) :
    .cleanUpTo bound ∈ history := by
  obtain ⟨original, member, isCleanUp⟩ := mem_map.mp listed
  cases original with
  | addVote => cases isCleanUp
  | cleanUpTo =>
    cases isCleanUp
    exact member

def filed [DecidableEq Digest] (history : List (QCCall Digest)) (round : Nat) (blockID : BlockID Digest) : VoteFile Digest :=
  latest stage (round, blockID) (history.map call)

end QCCall

namespace QCVoteManager

variable [DecidableEq Digest]

def step (bls : BlsCommon Key Sig Digest) (manager : QCVoteManager Digest Sig) :
    QCCall Digest → QCVoteManager Digest Sig × Option (QuorumCert Digest)
  | .addVote last index epoch round blockID sig hash => addVote bls last manager index epoch round blockID sig hash
  | .cleanUpTo blockNum => (manager.cleanUpTo blockNum, none)

def run (bls : BlsCommon Key Sig Digest) (size : Nat) (history : List (QCCall Digest)) : QCVoteManager Digest Sig :=
  history.foldl (fun manager call => (step bls manager call).1) (VoteManager.new size)

end QCVoteManager

namespace TCCall

/-- Votes are filed by epoch and round, and cleaned up by the epoch. -/
def call : TCCall Digest → Call (Nat × Nat) Digest
  | .addVote last index epoch round sig hash => .addVote last (epoch, round) index sig hash
  | .cleanUpTo epoch => .cleanUpTo epoch

def stage (key : Nat × Nat) : Nat := key.1

def Admissible (bls : BlsCommon Key Sig Digest) (size : Nat) : TCCall Digest → Prop
  | .addVote _ index _ _ sig _ => Decodable bls size index sig
  | .cleanUpTo _ => True

theorem admissible_call {history : List (TCCall Digest)} (admissible : ∀ call ∈ history, call.Admissible bls size) : ∀ each ∈ history.map call, VoteManager.Admissible bls size each := by
  intro each listed
  obtain ⟨original, member, rfl⟩ := mem_map.mp listed
  cases original with
  | addVote => exact ⟨(admissible _ member).1, (admissible _ member).2.2⟩
  | cleanUpTo => trivial

theorem mem_of_cleanUpTo {history : List (TCCall Digest)} {bound} (listed : .cleanUpTo bound ∈ history.map call) :
    .cleanUpTo bound ∈ history := by
  obtain ⟨original, member, isCleanUp⟩ := mem_map.mp listed
  cases original with
  | addVote => cases isCleanUp
  | cleanUpTo =>
    cases isCleanUp
    exact member

def filed (history : List (TCCall Digest)) (epoch round : Nat) : VoteFile Digest :=
  latest stage (epoch, round) (history.map call)

end TCCall

namespace TCVoteManager

def step (bls : BlsCommon Key Sig Digest) (manager : TCVoteManager Digest Sig) :
    TCCall Digest → TCVoteManager Digest Sig × Option (TimeoutCert Digest)
  | .addVote last index epoch round sig hash => addVote bls last manager index epoch round sig hash
  | .cleanUpTo epoch => (manager.cleanUpTo epoch, none)

def run (bls : BlsCommon Key Sig Digest) (size : Nat) (history : List (TCCall Digest)) : TCVoteManager Digest Sig :=
  history.foldl (fun manager call => (step bls manager call).1) (VoteManager.new size)

end TCVoteManager

def qcView (qc : QuorumCert Digest) : Exec (Option BitArray) × Digest × Bytes := (qc.voterBitArray, qc.voterMsgHash, qc.voterAggSig)

def tcView (tc : TimeoutCert Digest) : Exec (Option BitArray) × Digest × Bytes := (.ok tc.bitArray, tc.msgHash, tc.aggSig)

section

variable {bls : BlsCommon Key Sig Digest} {size : Nat}

theorem QCVoteManager.run_eq [DecidableEq Digest] (history : List (QCCall Digest))
    (admissible : ∀ call ∈ history, call.Admissible bls size) :
    QCVoteManager.run bls size history = VoteManager.run bls QCCall.stage size (history.map QCCall.call) := by
  unfold QCVoteManager.run VoteManager.run
  rw [foldl_map]
  refine foldl_ext _ _ _ fun manager call listed => ?_
  cases call with
  | addVote last index epoch round blockID sig hash =>
    obtain ⟨-, nonempty, -⟩ := admissible _ listed
    simp only [QCVoteManager.step, QCVoteManager.addVote, if_neg nonempty]
    rfl
  | cleanUpTo blockNum => rfl

theorem TCVoteManager.run_eq (history : List (TCCall Digest)) :
    TCVoteManager.run bls size history = VoteManager.run bls TCCall.stage size (history.map TCCall.call) := by
  unfold TCVoteManager.run VoteManager.run
  rw [foldl_map]
  refine foldl_ext _ _ _ fun manager call listed => ?_
  cases call with
  | addVote last index epoch round sig hash => rfl
  | cleanUpTo epoch => rfl

variable (aggregates : ∀ sigs, sigs ≠ [] → ∃ sig, bls.aggregate sigs = .ok sig) (small : size < 2 ^ 32)

include aggregates small

theorem QCVoteManager.certifies [DecidableEq Digest] (history : List (QCCall Digest)) (last index epoch round : Nat)
    (blockID : BlockID Digest) (sig : Bytes) (hash : Digest)
    (admissible : ∀ call ∈ history ++ [.addVote last index epoch round blockID sig hash], call.Admissible bls size) :
    Certifies bls size (QCCall.filed history round blockID)
      (QCCall.filed (history ++ [.addVote last index epoch round blockID sig hash]) round blockID)
      ((QCVoteManager.addVote bls last (QCVoteManager.run bls size history) index epoch round blockID sig hash).2.map qcView) := by
  obtain ⟨-, nonempty, -⟩ := admissible _ (List.mem_append_right _ (List.mem_singleton.mpr rfl))
  have allowed := QCCall.admissible_call admissible
  rw [List.map_append] at allowed
  have certifies := @VoteManager.certifies _ _ _ _ _ _ _ QCCall.stage aggregates small _ _ _ _ _ _ allowed
    (fun array => voterBitArray (BitArray.string array)) fun bits positive => voterBitArray_string positive
  unfold QCCall.filed QCVoteManager.addVote
  rw [if_neg nonempty, Option.map_map, List.map_append,
    QCVoteManager.run_eq history fun call listed => admissible call (List.mem_append_left _ listed)]
  exact certifies

theorem TCVoteManager.certifies (history : List (TCCall Digest)) (last index epoch round : Nat) (sig : Bytes) (hash : Digest)
    (admissible : ∀ call ∈ history ++ [.addVote last index epoch round sig hash], call.Admissible bls size) :
    Certifies bls size (TCCall.filed history epoch round)
      (TCCall.filed (history ++ [.addVote last index epoch round sig hash]) epoch round)
      ((TCVoteManager.addVote bls last (TCVoteManager.run bls size history) index epoch round sig hash).2.map tcView) := by
  have allowed := TCCall.admissible_call admissible
  rw [List.map_append] at allowed
  have certifies := @VoteManager.certifies _ _ _ _ _ _ _ TCCall.stage aggregates small _ _ _ _ _ _ allowed
    (fun array => .ok array) fun bits _ => ⟨bits, rfl, rfl, fun _ => rfl⟩
  unfold TCCall.filed TCVoteManager.addVote
  rw [Option.map_map, List.map_append, TCVoteManager.run_eq history]
  exact certifies

end

/-- For every history of calls to either manager: a certificate is returned exactly when the signers of its key first are enough,
with their bits and their signatures, and with the hash of one of them; all of them have it exactly if their votes agree. A
second certificate for the key comes after a cleanup only. -/
theorem certificates_formed_once [DecidableEq Digest] (bls : BlsCommon Key Sig Digest)
    (aggregates : ∀ sigs, sigs ≠ [] → ∃ sig, bls.aggregate sigs = .ok sig) (size : Nat) (small : size < 2 ^ 32) :
    (∀ (history : List (QCCall Digest)) (last index epoch round : Nat) (blockID : BlockID Digest) (sig : Bytes) (hash : Digest),
      (∀ call ∈ history ++ [.addVote last index epoch round blockID sig hash], call.Admissible bls size) →
      Certifies bls size (QCCall.filed history round blockID)
        (QCCall.filed (history ++ [.addVote last index epoch round blockID sig hash]) round blockID)
        ((QCVoteManager.addVote bls last (QCVoteManager.run bls size history) index epoch round blockID sig hash).2.map qcView)) ∧
    (∀ (history : List (TCCall Digest)) (last index epoch round : Nat) (sig : Bytes) (hash : Digest),
      (∀ call ∈ history ++ [.addVote last index epoch round sig hash], call.Admissible bls size) →
      Certifies bls size (TCCall.filed history epoch round)
        (TCCall.filed (history ++ [.addVote last index epoch round sig hash]) epoch round)
        ((TCVoteManager.addVote bls last (TCVoteManager.run bls size history) index epoch round sig hash).2.map tcView)) ∧
    (∀ (history middle : List (QCCall Digest)) (last index epoch round : Nat) (blockID : BlockID Digest) (sig : Bytes) (hash : Digest)
      (last' index' epoch' : Nat) (sig' : Bytes) (hash' : Digest),
      (∀ call ∈ history ++ [.addVote last index epoch round blockID sig hash] ++ middle ++
        [.addVote last' index' epoch' round blockID sig' hash'], call.Admissible bls size) →
      (QCVoteManager.addVote bls last (QCVoteManager.run bls size history) index epoch round blockID sig hash).2.isSome = true →
      (QCVoteManager.addVote bls last' (QCVoteManager.run bls size (history ++ [.addVote last index epoch round blockID sig hash] ++
        middle)) index' epoch' round blockID sig' hash').2.isSome = true →
      ∃ blockNum, .cleanUpTo blockNum ∈ middle ∧ blockID.number < blockNum) ∧
    ∀ (history middle : List (TCCall Digest)) (last index epoch round : Nat) (sig : Bytes) (hash : Digest) (last' index' : Nat)
      (sig' : Bytes) (hash' : Digest),
      (∀ call ∈ history ++ [.addVote last index epoch round sig hash] ++ middle ++
        [.addVote last' index' epoch round sig' hash'], call.Admissible bls size) →
      (TCVoteManager.addVote bls last (TCVoteManager.run bls size history) index epoch round sig hash).2.isSome = true →
      (TCVoteManager.addVote bls last' (TCVoteManager.run bls size (history ++ [.addVote last index epoch round sig hash] ++
        middle)) index' epoch round sig' hash').2.isSome = true →
      ∃ bound, .cleanUpTo bound ∈ middle ∧ epoch < bound := by
  refine ⟨QCVoteManager.certifies aggregates small, TCVoteManager.certifies aggregates small, ?_, ?_⟩
  · intro history middle last index epoch round blockID sig hash last' index' epoch' sig' hash' admissible first second
    have formed := QCVoteManager.certifies aggregates small history last index epoch round blockID sig hash fun call listed =>
      admissible call (mem_append_left _ (mem_append_left _ listed))
    have again := QCVoteManager.certifies aggregates small _ last' index' epoch' round blockID sig' hash' admissible
    obtain ⟨bound, listed, low⟩ := Certifies.cleaned formed (by simpa only [QCCall.filed, map_append] using again) first second
    exact ⟨bound, QCCall.mem_of_cleanUpTo listed, low⟩
  · intro history middle last index epoch round sig hash last' index' sig' hash' admissible first second
    have formed := TCVoteManager.certifies aggregates small history last index epoch round sig hash fun call listed =>
      admissible call (mem_append_left _ (mem_append_left _ listed))
    have again := TCVoteManager.certifies aggregates small _ last' index' epoch round sig' hash' admissible
    obtain ⟨bound, listed, low⟩ := Certifies.cleaned formed (by simpa only [TCCall.filed, map_append] using again) first second
    exact ⟨bound, TCCall.mem_of_cleanUpTo listed, low⟩

theorem Certifies.mixed {Cert : Type} {before after result}
    {view : Cert → Exec (Option BitArray) × Digest × Bytes} (certifies : Certifies bls size before after (result.map view))
    (first : ¬ Enough size before ∧ Enough size after) (mixed : ¬ Agree after) :
    ∃ cert, result = some cert ∧ ¬ AllCarry after (view cert).2.1 := by
  have isSome := certifies.exactly.mpr first
  rw [isSome_map] at isSome
  obtain ⟨cert, returned⟩ := isSome_iff_exists.mp isSome
  refine ⟨cert, returned, fun carry => mixed ?_⟩
  exact (certifies.sameHash _ _ _ (by rw [returned]; rfl)).mp carry

namespace VoteSample

theorem aggregates (sigs : List Bytes) (nonempty : sigs ≠ []) :
    ∃ sig, (listedSigners : BlsCommon Bytes Bytes (List Nat)).aggregate sigs = .ok sig := by
  refine ⟨sigs.flatten, ?_⟩
  simp [listedSigners, nonempty]

def qcVote (last index : Nat) (hash : List Nat) : QCCall (List Nat) := .addVote last index 0 6 ⟨6, []⟩ [UInt8.ofNat index] hash
def tcVote (last index : Nat) (hash : List Nat) : TCCall (List Nat) := .addVote last index 0 6 [UInt8.ofNat index] hash

theorem qcVotes_admissible {last index hash} (small : index < 4) :
    ∀ call ∈ [qcVote 0 0 [1], qcVote 0 1 [1]] ++ [qcVote last index hash], call.Admissible listedSigners 4 := by
  intro call listed
  simp only [cons_append, nil_append, mem_cons, not_mem_nil, or_false] at listed
  rcases listed with rfl | rfl | rfl <;> exact ⟨by omega, by simp, _, rfl⟩

theorem tcVotes_admissible {last index hash} (small : index < 4) :
    ∀ call ∈ [tcVote 0 0 [1], tcVote 0 1 [1]] ++ [tcVote last index hash], call.Admissible listedSigners 4 := by
  intro call listed
  simp only [cons_append, nil_append, mem_cons, not_mem_nil, or_false] at listed
  rcases listed with rfl | rfl | rfl <;> exact ⟨by omega, by simp, _, rfl⟩

end VoteSample

open VoteSample in
theorem third_vote_certifies :
    (QCVoteManager.step listedSigners (QCVoteManager.run listedSigners 4 [qcVote 0 0 [1], qcVote 0 1 [1]]) (qcVote 0 2 [1])).2.isSome =
      true ∧
    Certifies (listedSigners : BlsCommon Bytes Bytes (List Nat)) 4 (QCCall.filed [qcVote 0 0 [1], qcVote 0 1 [1]] 6 ⟨6, []⟩)
      (QCCall.filed [qcVote 0 0 [1], qcVote 0 1 [1], qcVote 0 2 [1]] 6 ⟨6, []⟩)
      ((QCVoteManager.step listedSigners (QCVoteManager.run listedSigners 4 [qcVote 0 0 [1], qcVote 0 1 [1]])
        (qcVote 0 2 [1])).2.map qcView) :=
  ⟨by decide +kernel, (certificates_formed_once listedSigners aggregates 4 (by decide)).1 [qcVote 0 0 [1], qcVote 0 1 [1]] 0 2 0 6
    ⟨6, []⟩ [2] [1] (qcVotes_admissible (by decide))⟩

open VoteSample in
/-- Member 2 votes with another hash. Whichever vote the iteration ends with, a certificate is returned that has not the hash of all
votes in it. -/
theorem mixed_hashes_certified :
    (∀ last, ∃ qc, (QCVoteManager.step listedSigners (QCVoteManager.run listedSigners 4 [qcVote 0 0 [1], qcVote 0 1 [1]])
      (qcVote last 2 [2])).2 = some qc ∧
      ¬ AllCarry (QCCall.filed ([qcVote 0 0 [1], qcVote 0 1 [1]] ++ [qcVote last 2 [2]]) 6 ⟨6, []⟩) qc.voterMsgHash) ∧
    ∀ last, ∃ tc, (TCVoteManager.step listedSigners (TCVoteManager.run listedSigners 4 [tcVote 0 0 [1], tcVote 0 1 [1]])
      (tcVote last 2 [2])).2 = some tc ∧
      ¬ AllCarry (TCCall.filed ([tcVote 0 0 [1], tcVote 0 1 [1]] ++ [tcVote last 2 [2]]) 0 6) tc.msgHash := by
  constructor
  · intro last
    have certifies := QCVoteManager.certifies aggregates (by decide) [qcVote 0 0 [1], qcVote 0 1 [1]] last 2 0 6 ⟨6, []⟩ [2] [2]
      (qcVotes_admissible (by decide))
    refine certifies.mixed ⟨by unfold Enough; decide, rfl⟩ fun agree => ?_
    exact absurd (agree 0 ([0], [1]) 2 ([2], [2]) rfl rfl) (by decide)
  · intro last
    have certifies := TCVoteManager.certifies aggregates (by decide) [tcVote 0 0 [1], tcVote 0 1 [1]] last 2 0 6 [2] [2]
      (tcVotes_admissible (by decide))
    refine certifies.mixed ⟨by unfold Enough; decide, rfl⟩ fun agree => ?_
    exact absurd (agree 0 ([0], [1]) 2 ([2], [2]) rfl rfl) (by decide)

end MeterPov.Consensus
