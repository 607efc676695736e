import MeterPov.Consensus.VerifyBlock

/-! What the ID of a block determines (`block/header.go`, `block/block.go`).

The ID hashes twelve fields of the header and the signer. The certificate, the committee and the K-block data are set on a
block that has its ID already, and the proposer in the header is not hashed. -/

set_option autoImplicit false

namespace MeterPov.Consensus

open Blocks

/-- The fields `SigningHash` encodes, in their order. -/
structure SigningFields (Digest Address : Type) where
  parentID : BlockID Digest
  timestamp : Nat
  gasLimit : Nat
  beneficiary : Address
  blockType : BlockType
  lastKBlockHeight : Nat
  gasUsed : Nat
  totalScore : Nat
  txsRoot : Digest
  stateRoot : Digest
  receiptsRoot : Digest
  evidenceDataRoot : Digest
  deriving DecidableEq

structure NetAddress where
  ip : Bytes
  port : Nat
  deriving DecidableEq, Repr

structure CommitteeInfo where
  name : String
  csIndex : Nat
  netAddr : NetAddress
  csPubKey : Bytes
  pubKey : Bytes
  deriving DecidableEq, Repr

/-- A block with the fields validation does not read. -/
structure WholeBlock (Digest Address Tx : Type) extends Block Digest Address Tx where
  proposer : Address
  kBlockData : List Bytes
  committeeInfo : List CommitteeInfo
  deriving DecidableEq

/-- What a block carries outside of its ID. -/
structure Attached (Digest Address : Type) where
  proposer : Address
  qc : QuorumCert Digest
  committeeEpoch : Nat
  committeeInfo : List CommitteeInfo
  kBlockNonce : Nat
  kBlockData : List Bytes

structure IdentityEnv (Digest Address Tx : Type) where
  blake2b : SigningFields Digest Address → Digest
  sigToPub : Digest → Bytes → Except String Address
  zeroAddress : Address
  zeroDigest : Digest
  idTail : Digest → Address → Digest
  votingDigest : BlockType → Nat → BlockID Digest → Digest → Digest → Digest
  txsRoot : List Tx → Digest

variable {Digest Address Tx : Type}

def signingFields (header : Header Digest Address) : SigningFields Digest Address where
  parentID := header.parentID
  timestamp := header.timestamp
  gasLimit := header.gasLimit
  beneficiary := header.beneficiary
  blockType := header.blockType
  lastKBlockHeight := header.lastKBlockHeight
  gasUsed := header.gasUsed
  totalScore := header.totalScore
  txsRoot := header.txsRoot
  stateRoot := header.stateRoot
  receiptsRoot := header.receiptsRoot
  evidenceDataRoot := header.evidenceDataRoot

namespace IdentityEnv

variable (env : IdentityEnv Digest Address Tx)

def hashing : Hashing Digest Address where
  signingHash header := env.blake2b (signingFields header)
  sigToPub := env.sigToPub
  zeroAddress := env.zeroAddress
  zeroDigest := env.zeroDigest
  idTail := env.idTail
  votingDigest := env.votingDigest

/-- Hashes and the recovery of signers are injective, and no hash is all zeros. -/
structure Injective : Prop where
  blake2b : Function.Injective env.blake2b
  sigToPub : ∀ digest first second signer, env.sigToPub digest first = .ok signer → env.sigToPub digest second = .ok signer → first = second
  idTail : ∀ digest signer digest' signer', env.idTail digest signer = env.idTail digest' signer' → digest = digest' ∧ signer = signer'
  idTail_ne : ∀ digest signer, env.idTail digest signer ≠ env.zeroDigest
  txsRoot : Function.Injective env.txsRoot

end IdentityEnv

/-- The same header and transactions with other data attached. -/
def WholeBlock.attach (block : WholeBlock Digest Address Tx) (attached : Attached Digest Address) : WholeBlock Digest Address Tx :=
  { block with
    proposer := attached.proposer
    qc := attached.qc
    committeeEpoch := attached.committeeEpoch
    committeeInfo := attached.committeeInfo
    kBlockNonce := attached.kBlockNonce
    kBlockData := attached.kBlockData }

section

variable {env : IdentityEnv Digest Address Tx}

theorem id_eq_iff (injective : env.Injective) {first second signer} (recovered : first.signer env.hashing = .ok signer) :
    first.id env.hashing = second.id env.hashing ↔
      signingFields first = signingFields second ∧ first.signer env.hashing = second.signer env.hashing := by
  constructor
  · intro same
    unfold Header.id at same
    rw [recovered] at same
    cases other : second.signer env.hashing with
    | error reason =>
      rw [other] at same
      exact absurd (congrArg BlockID.tail same) (injective.idTail_ne _ _)
    | ok signer' =>
      rw [other] at same
      obtain ⟨digest, signers⟩ := injective.idTail _ _ _ _ (congrArg BlockID.tail same)
      exact ⟨injective.blake2b digest, by rw [recovered, signers]⟩
  · rintro ⟨fields, signers⟩
    have number : first.number = second.number := by
      unfold Header.number
      rw [show first.parentID = second.parentID from congrArg SigningFields.parentID fields]
    unfold Header.id
    rw [← signers, recovered, number]
    change BlockID.mk _ (env.idTail (env.blake2b (signingFields first)) _) = _
    rw [fields]
    rfl

theorem signature_eq (injective : env.Injective) {first second signer}
    (recovered : first.signer env.hashing = .ok signer) (fields : signingFields first = signingFields second)
    (signers : first.signer env.hashing = second.signer env.hashing) (positive : first.number ≠ 0) : first.signature = second.signature := by
  have number : first.number = second.number := by
    unfold Header.number
    rw [show first.parentID = second.parentID from congrArg SigningFields.parentID fields]
  rw [recovered] at signers
  unfold Header.signer at recovered signers
  rw [if_neg positive] at recovered
  rw [← number, if_neg positive] at signers
  have digest : env.hashing.signingHash first = env.hashing.signingHash second := congrArg env.blake2b fields
  rw [← digest] at signers
  exact injective.sigToPub _ _ _ _ recovered signers.symm

variable [DecidableEq Digest] [DecidableEq Address]

end

section

/-- Digests that spell out what they are the digest of. -/
inductive Symbol where
  | zero
  | signing (parentNumber : Nat) (parentTail : Symbol) (timestamp gasLimit beneficiary : Nat) (blockType : BlockType)
      (lastKBlockHeight gasUsed totalScore : Nat) (txsRoot stateRoot receiptsRoot evidenceDataRoot : Symbol)
  | tail (digest : Symbol) (signer : Nat)
  | root (txs : List Nat)
  deriving DecidableEq

/-- A signature is the number of its signer. -/
def symbolicEnv : IdentityEnv Symbol Nat Nat where
  blake2b fields := .signing fields.parentID.number fields.parentID.tail fields.timestamp fields.gasLimit fields.beneficiary
    fields.blockType fields.lastKBlockHeight fields.gasUsed fields.totalScore fields.txsRoot fields.stateRoot fields.receiptsRoot
    fields.evidenceDataRoot
  sigToPub _ signature :=
    match signature with
    | [signer] => .ok signer.toNat
    | _ => .error "invalid signature length"
  zeroAddress := 0
  zeroDigest := .zero
  idTail := .tail
  votingDigest _ _ id _ _ := id.tail
  txsRoot := .root

theorem symbolicEnv_injective : symbolicEnv.Injective where
  blake2b first second same := by
    obtain ⟨⟨_, _⟩, _⟩ := first
    obtain ⟨rfl, rfl, rfl, rfl, rfl, rfl, rfl, rfl, rfl, rfl, rfl, rfl, rfl⟩ := same
    rfl
  sigToPub _ first second signer firstRecovered secondRecovered := by
    simp only [symbolicEnv] at firstRecovered secondRecovered
    split at firstRecovered
    · split at secondRecovered
      · rw [← secondRecovered, Except.ok.injEq] at firstRecovered
        rw [UInt8.toNat_inj.mp firstRecovered]
      · cases secondRecovered
    · cases firstRecovered
  idTail _ _ _ _ same := Symbol.tail.inj same
  idTail_ne _ _ := nofun
  txsRoot _ _ same := Symbol.root.inj same

def proposedBlock (signature : Bytes) (txs : List Nat) (committeeEpoch : Nat) : WholeBlock Symbol Nat Nat where
  header := ⟨⟨99, .zero⟩, 1000, 1000000, 50, .mBlock, 9, 0, 101, .root txs, .zero, .zero, .zero, signature⟩
  txs := txs
  qc := ⟨99, 7, 3, [], .zero, []⟩
  committeeEpoch := committeeEpoch
  kBlockNonce := 0
  magic := blockMagicVersion1
  proposer := 0
  kBlockData := []
  committeeInfo := []

/-- Every transaction passes. -/
def lenientChecks : ValidateEnv Symbol Nat Nat Unit Unit where
  hashing := symbolicEnv.hashing
  chainTag := 0
  txID _ := .zero
  txSigner tx := .ok tx
  txChainTag _ := 0
  txBlockRef _ := 0
  txExpiration _ := 1000
  txDependsOn _ := none
  txsRoot := .root
  newState _ := .ok ()
  executeTransaction _ _ _ := .ok ((), ())
  receiptGasUsed _ := 0
  receiptReverted _ := false
  receiptsRoot _ := .zero
  stateRoot _ := .ok .zero
  transactionMeta _ _ := .ok none

def otherCommittee : Attached Symbol Nat where
  proposer := 8
  qc := ⟨99, 6, 2, [1], .zero, [5]⟩
  committeeEpoch := 4
  committeeInfo := [⟨"first", 0, ⟨[127, 0, 0, 1], 8670⟩, [1], [2]⟩]
  kBlockNonce := 77
  kBlockData := [[1, 2, 3]]

end

end MeterPov.Consensus
