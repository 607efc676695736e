import MeterPov.Consensus.Certificates
import MeterPov.Lib.Lru

/-! Validation of an escort certificate against every committee the node knows, with the cache of
certificates already validated (`consensus/reactor.go`).

The cache is looked up by the certificate alone, while the slow path also reads the block. -/

set_option autoImplicit false

namespace MeterPov.Consensus

open Lib Blocks List

def Reactor.knownCommittees {Key : Type} (reactor : Reactor Key) : List (List (Validator Key)) :=
  [reactor.lastCommittee, reactor.lastStagingCommittee, reactor.bootstrapCommittee11, reactor.bootstrapCommittee5,
    reactor.hardCommittee, reactor.committee]

section

variable {Digest Address Tx Key Sig QCID : Type} [DecidableEq Digest]

/-- What a validation reads apart from the block and the certificate. -/
structure ValidationEnv (Digest Address Key Sig QCID : Type) where
  hashing : Hashing Digest Address
  bls : BlsCommon Key Sig Digest
  reactor : Reactor Key
  bestNumber : Nat
  /-- The text form of the SHA-256 digest of the encoded certificate. -/
  qcID : QuorumCert Digest → QCID

/-- The cache holds 256 certificates. -/
abbrev ValidQCs (QCID : Type) := Lru QCID 256

variable (env : ValidationEnv Digest Address Key Sig QCID)

def acceptedBy (block : Block Digest Address Tx) (qc : QuorumCert Digest) (committee : List (Validator Key)) : Exec Bool := do
  match ← block.verifyQC env.hashing qc env.bls committee with
  | .ok valid => .ok valid
  | .error _ => .ok false

def sizeMatches (qc : QuorumCert Digest) (committee : List (Validator Key)) : Exec Bool := do
  let array ← qc.voterBitArray
  .ok (BitArray.sizeOf array = committee.length)

/-- Each committee with the condition under which it is asked, in the order of the source. -/
def attempts (block : Block Digest Address Tx) (qc : QuorumCert Digest) : List (Exec Bool × List (Validator Key)) :=
  let reactor := env.reactor
  let positive : Bool := 0 < block.number
  [(.ok (block.isKBlock && positive && decide (block.number ≤ env.bestNumber)), reactor.lastCommittee),
    (.ok (block.isKBlock && positive && decide (env.bestNumber ≤ block.number) && reactor.isStaging),
      reactor.lastStagingCommittee),
    (sizeMatches qc reactor.bootstrapCommittee11, reactor.bootstrapCommittee11),
    (sizeMatches qc reactor.bootstrapCommittee5, reactor.bootstrapCommittee5),
    (if reactor.delegateSource = .fromStaking then .ok false else sizeMatches qc reactor.hardCommittee,
      reactor.hardCommittee),
    (.ok (decide (0 < reactor.committee.length)), reactor.committee)]

def firstAccepted (accepts : List (Validator Key) → Exec Bool) : List (Exec Bool × List (Validator Key)) → Exec Bool
  | [] => .ok false
  | (applies, committee) :: rest => do
    if ← applies then
      if ← accepts committee then .ok true else firstAccepted accepts rest
    else firstAccepted accepts rest

/-- The slow path: what a validation returns when the cache is empty. -/
def validateUncached (block : Block Digest Address Tx) (qc : QuorumCert Digest) : Exec Bool :=
  firstAccepted (acceptedBy env block qc) (attempts env block qc)

def validateQC [DecidableEq QCID] (validQCs : ValidQCs QCID) (block : Block Digest Address Tx)
    (qc : QuorumCert Digest) : Exec (Bool × ValidQCs QCID) :=
  if validQCs.contains (env.qcID qc) then .ok (true, validQCs)
  else do
    let valid ← validateUncached env block qc
    .ok (valid, if valid then validQCs.add (env.qcID qc) else validQCs)

/-- The verdicts of a sequence of calls; a call that faults leaves the cache as it was. -/
def validateAll [DecidableEq QCID] (validQCs : ValidQCs QCID) : List (Block Digest Address Tx × QuorumCert Digest) → List (Exec Bool)
  | [] => []
  | (block, qc) :: rest =>
    match validateQC env validQCs block qc with
    | .ok (valid, updated) => .ok valid :: validateAll updated rest
    | .error fault => .error fault :: validateAll validQCs rest

/-! ## What the slow path reads of a block -/

structure SameView (block other : Block Digest Address Tx) : Prop where
  number : block.number = other.number
  isKBlock : block.isKBlock = other.isKBlock
  votingHash : block.votingHash env.hashing = other.votingHash env.hashing

variable {env} {block other : Block Digest Address Tx} {qc : QuorumCert Digest}

omit [DecidableEq Digest] in
theorem SameView.refl (block : Block Digest Address Tx) : SameView env block block := ⟨rfl, rfl, rfl⟩

theorem SameView.verdict (same : SameView env block other) : validateUncached env block qc = validateUncached env other qc := by
  have accepts : acceptedBy env block qc = acceptedBy env other qc := by
    funext committee
    simp only [acceptedBy, Block.verifyQC, same.number, same.votingHash]
  have sameAttempts : attempts env block qc = attempts env other qc := by
    simp only [attempts, same.number, same.isKBlock]
  rw [validateUncached, validateUncached, accepts, sameAttempts]

omit [DecidableEq Digest] in
theorem firstAccepted_eq_true {accepts}
    {candidates : List (Exec Bool × List (Validator Key))} (accepted : firstAccepted accepts candidates = .ok true) :
    ∃ candidate ∈ candidates, candidate.1 = .ok true ∧ accepts candidate.2 = .ok true := by
  induction candidates with
  | nil => simp [firstAccepted] at accepted
  | cons candidate rest ih =>
    obtain ⟨applies, committee⟩ := candidate
    simp only [firstAccepted, Exec.bind_eq_ok] at accepted
    obtain ⟨asked, applied, accepted⟩ := accepted
    have later (found : firstAccepted accepts rest = .ok true) :
        ∃ candidate ∈ (applies, committee) :: rest, candidate.1 = .ok true ∧ accepts candidate.2 = .ok true := by
      obtain ⟨candidate, member, properties⟩ := ih found
      exact ⟨candidate, mem_cons_of_mem _ member, properties⟩
    cases asked with
    | false => exact later (by simpa using accepted)
    | true =>
      simp only [if_true, Exec.bind_eq_ok] at accepted
      obtain ⟨verdict, checked, accepted⟩ := accepted
      cases verdict with
      | false => exact later (by simpa using accepted)
      | true => exact ⟨_, mem_cons_self, applied, checked⟩

theorem acceptedBy_eq_true {committee} : acceptedBy env block qc committee = .ok true ↔
      block.verifyQC env.hashing qc env.bls committee = .ok (.ok true) := by
  simp only [acceptedBy, Exec.bind_eq_ok]
  constructor
  · rintro ⟨result, verified, accepted⟩
    cases result with
    | error reason => simp at accepted
    | ok valid => rw [verified, ← Except.ok.inj accepted]
  · intro verified
    exact ⟨_, verified, rfl⟩

/-- Some committee is asked about the block and verifies the certificate. -/
def VerifiedBySome (env : ValidationEnv Digest Address Key Sig QCID) (block : Block Digest Address Tx) (qc : QuorumCert Digest) : Prop :=
  ∃ candidate ∈ attempts env block qc, candidate.1 = .ok true ∧
    block.verifyQC env.hashing qc env.bls candidate.2 = .ok (.ok true)

theorem verifiedBySome_of_accepted (accepted : validateUncached env block qc = .ok true) : VerifiedBySome env block qc := by
  obtain ⟨candidate, member, asked, verified⟩ := firstAccepted_eq_true accepted
  exact ⟨candidate, member, asked, acceptedBy_eq_true.mp verified⟩

theorem validateUncached_committee (accepted : validateUncached env block qc = .ok true) : ∃ committee ∈ env.reactor.knownCommittees,
      block.verifyQC env.hashing qc env.bls committee = .ok (.ok true) := by
  obtain ⟨candidate, member, -, verified⟩ := verifiedBySome_of_accepted accepted
  exact ⟨candidate.2, mem_map.mpr ⟨candidate, member, rfl⟩, verified⟩

/-! ## Sequences of validations -/

/-- Every cached certificate was accepted by the slow path in one of the calls of the history. -/
def Recorded [DecidableEq QCID] (env : ValidationEnv Digest Address Key Sig QCID)
    (history : List (Block Digest Address Tx × QuorumCert Digest)) (validQCs : ValidQCs QCID) : Prop :=
  ∀ id, validQCs.contains id = true →
    ∃ call ∈ history, env.qcID call.2 = id ∧ validateUncached env call.1 call.2 = .ok true

/-- A certificate that passes verification for a block is presented later only for blocks that look
the same to the slow path. -/
def Consistent (env : ValidationEnv Digest Address Key Sig QCID) (earlier later : Block Digest Address Tx × QuorumCert Digest) : Prop :=
  earlier.2 = later.2 → VerifiedBySome env earlier.1 earlier.2 → SameView env earlier.1 later.1

variable [DecidableEq QCID] {history : List (Block Digest Address Tx × QuorumCert Digest)}
  {validQCs : ValidQCs QCID}

theorem validateQC_empty : (validateQC env Lru.empty block qc).map Prod.fst = validateUncached env block qc := by
  simp only [validateQC, Lru.contains_empty, Bool.false_eq_true, if_false]
  cases validateUncached env block qc <;> rfl

/-- One call returns what the slow path returns, and records what it cached. -/
theorem validateQC_of_recorded (injective : Function.Injective env.qcID) (recorded : Recorded env history validQCs)
    (consistent : ∀ call ∈ history, Consistent env call (block, qc)) :
    ∃ updated, validateQC env validQCs block qc = (validateUncached env block qc).map (·, updated) ∧
      Recorded env ((block, qc) :: history) updated := by
  have kept : Recorded env ((block, qc) :: history) validQCs := by
    intro id found
    obtain ⟨call, member, properties⟩ := recorded id found
    exact ⟨call, mem_cons_of_mem _ member, properties⟩
  unfold validateQC
  split
  · next cached =>
      obtain ⟨call, member, sameID, accepted⟩ := recorded _ cached
      have sameQC := injective sameID
      have verdict : validateUncached env block qc = .ok true := by
        rw [← (consistent call member sameQC (verifiedBySome_of_accepted accepted)).verdict, ← sameQC, accepted]
      exact ⟨validQCs, by rw [verdict]; rfl, kept⟩
  · cases verdict : validateUncached env block qc with
    | error fault => exact ⟨validQCs, rfl, kept⟩
    | ok valid =>
      cases valid with
      | false => exact ⟨validQCs, rfl, kept⟩
      | true =>
        refine ⟨validQCs.add (env.qcID qc), rfl, fun id found => ?_⟩
        rcases Lru.contains_of_add found with rfl | old
        · exact ⟨(block, qc), mem_cons_self, rfl, verdict⟩
        · exact kept id old

theorem validateAll_of_recorded (injective : Function.Injective env.qcID) {calls} (recorded : Recorded env history validQCs)
    (before : ∀ call ∈ history, ∀ later ∈ calls, Consistent env call later) (among : calls.Pairwise (Consistent env)) :
    validateAll env validQCs calls = calls.map fun call => validateUncached env call.1 call.2 := by
  induction calls generalizing history validQCs with
  | nil => rfl
  | cons call rest ih =>
    obtain ⟨block, qc⟩ := call
    obtain ⟨first, among⟩ := pairwise_cons.mp among
    obtain ⟨updated, returned, recorded'⟩ := validateQC_of_recorded injective recorded
      fun earlier member => before earlier member _ mem_cons_self
    have before' : ∀ earlier ∈ (block, qc) :: history, ∀ later ∈ rest, Consistent env earlier later := by
      intro earlier member later inRest
      rcases mem_cons.mp member with rfl | member
      · exact first later inRest
      · exact before earlier member later (mem_cons_of_mem _ inRest)
    have unchanged : ∀ earlier ∈ history, ∀ later ∈ rest, Consistent env earlier later :=
      fun earlier member => before' earlier (mem_cons_of_mem _ member)
    rw [validateAll, returned, map_cons]
    cases validateUncached env block qc with
    | error fault => exact congrArg _ (ih recorded unchanged among)
    | ok valid => exact congrArg _ (ih recorded' before' among)

/-- In every sequence of calls that presents a verified certificate again only for blocks that look
the same, each verdict is the one an empty cache gives, and an accepted certificate above the first
block is for the block's voting hash. -/
theorem validateAll_eq_uncached (injective : Function.Injective env.qcID)
    (calls : List (Block Digest Address Tx × QuorumCert Digest)) (consistent : calls.Pairwise (Consistent env)) :
    validateAll env Lru.empty calls =
      (calls.map fun call => (validateQC env Lru.empty call.1 call.2).map Prod.fst) ∧
    ∀ (position : Nat) (block : Block Digest Address Tx) (qc : QuorumCert Digest),
      calls[position]? = some (block, qc) → 1 < block.number →
      (validateAll env Lru.empty calls)[position]? = some (.ok true) →
        qc.voterMsgHash = block.votingHash env.hashing := by
  have nothing : Recorded env ([] : List (Block Digest Address Tx × QuorumCert Digest)) Lru.empty :=
    fun id found => by simp at found
  have same := validateAll_of_recorded injective nothing (by simp) consistent
  refine ⟨by simp only [same, validateQC_empty], fun position block qc selected above accepted => ?_⟩
  rw [same, List.getElem?_map, selected] at accepted
  obtain ⟨committee, -, verified⟩ := validateUncached_committee (Option.some.inj accepted)
  exact ((Block.verifyQC_eq_true above).mp verified).1

end

/-! ## One certificate, two blocks -/

def fourEnv : ValidationEnv (List Nat) Nat Bytes Bytes (QuorumCert (List Nat)) :=
  ⟨listHashing, listedSigners, plainReactor (numberedCommittee 4), 0, id⟩

def signedBlock (timestamp : Nat) : Block (List Nat) Nat Unit :=
  let empty : Block (List Nat) Nat Unit := emptyBlock listHashing
  { empty with header := { empty.header with timestamp := timestamp, signature := [1] } }

/-- Three of four members for the first block; the text is `BA{4:xxx_}`. -/
def firstQC : QuorumCert (List Nat) :=
  ⟨2, 0, 0, [66, 65, 123, 52, 58, 120, 120, 120, 95, 125], (signedBlock 1).votingHash listHashing, [0, 1, 2]⟩

theorem validateAll_presented_twice : validateAll fourEnv Lru.empty [(signedBlock 1, firstQC), (signedBlock 1, firstQC)] =
      [.ok true, .ok true] ∧ [(signedBlock 1, firstQC), (signedBlock 1, firstQC)].Pairwise (Consistent fourEnv) := by
  have consistent : [(signedBlock 1, firstQC), (signedBlock 1, firstQC)].Pairwise (Consistent fourEnv) := by
    simp [Consistent, SameView.refl]
  exact ⟨(validateAll_eq_uncached (fun _ _ same => same) _ consistent).1.trans (by decide), consistent⟩

/-- The cache answers for a second block what only the first one was asked about. -/
theorem validateQC_other_block :
    validateAll fourEnv Lru.empty [(signedBlock 1, firstQC), (signedBlock 2, firstQC)] = [.ok true, .ok true] ∧
    (validateQC fourEnv Lru.empty (signedBlock 2) firstQC).map Prod.fst = .ok false ∧
    1 < (signedBlock 2).number ∧ firstQC.voterMsgHash ≠ (signedBlock 2).votingHash listHashing := by
  decide

end MeterPov.Consensus
