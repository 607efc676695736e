import MeterPov.Lib.Exec

/-! Vote bit arrays (`libs/common/bit_array.go`).

The packed 64-bit words of the source are a list of bits here. Go's `uint32` size field is kept
apart from the storage, since a literal of 2^32 bits or more wraps it. -/

set_option autoImplicit false

namespace MeterPov.Blocks

open Lib

/-- A Go string: any sequence of bytes. -/
abbrev Bytes := List UInt8

structure BitArray where
  bits : Nat
  elems : List Bool
  bounded : bits < 2 ^ 32
  covered : bits ≤ elems.length
  deriving DecidableEq

namespace BitArray

def empty : BitArray := ⟨0, [], by decide, by decide⟩

/-- No array is allocated for a size of zero. -/
def newBitArray (bits : Nat) : Option BitArray :=
  if bits = 0 then none
  else some ⟨bits % 2 ^ 32, List.replicate bits false, Nat.mod_lt _ (by decide),
    (Nat.mod_le _ _).trans_eq List.length_replicate.symm⟩

variable (array : BitArray)

def getIndex (position : Nat) : Bool :=
  if array.bits ≤ position then false else array.elems.getD position false

def setIndex (position : Nat) (value : Bool) : BitArray :=
  if array.bits ≤ position then array
  else ⟨array.bits, array.elems.set position value, array.bounded, by simpa using array.covered⟩

def count : Nat :=
  (List.range array.bits).countP array.getIndex

/-- The set bits below `size`: the ones a loop over a committee of that size sees. -/
def countBelow (size : Nat) : Nat :=
  (List.range size).countP array.getIndex

-- The next two tolerate a nil receiver; `count` does not.

def sizeOf (pointer : Option BitArray) : Nat :=
  match pointer with
  | none => 0
  | some array => array.bits

def indexOf (pointer : Option BitArray) (position : Nat) : Bool :=
  match pointer with
  | none => false
  | some array => array.getIndex position

@[simp] theorem indexOf_some : indexOf (some array) = array.getIndex := rfl

theorem getIndex_of_le {array : BitArray} {position} (outside : array.bits ≤ position) : array.getIndex position = false := by
  simp [getIndex, outside]

@[simp] theorem setIndex_bits (position : Nat) (value : Bool) : (array.setIndex position value).bits = array.bits := by
  unfold setIndex
  split <;> rfl

theorem getIndex_setIndex (position other : Nat) (value : Bool) : (array.setIndex position value).getIndex other =
      if other = position ∧ position < array.bits then value else array.getIndex other := by
  have covered := array.covered
  by_cases outside : array.bits ≤ position
  · have inside : ¬ position < array.bits := by omega
    simp [setIndex, outside, inside]
  · by_cases same : other = position
    · subst other
      have bound : position < array.elems.length := by omega
      simp [setIndex, getIndex, outside, bound]
    · simp [setIndex, getIndex, outside, same, List.getElem?_set_ne (Ne.symm same)]

/-! ## The text form -/

inductive UnmarshalError where
  | badFormat (got : Bytes)
  deriving DecidableEq, Repr

def quote : UInt8 := 34
def letterX : UInt8 := 120
def underscore : UInt8 := 95

/-- The text `null`. -/
def nullText : Bytes := [110, 117, 108, 108]

/-- The group captured by the pattern of a quoted run of underscores and x's. -/
def matchBits (text : Bytes) : Option Bytes :=
  match text with
  | [] => none
  | first :: rest =>
    if first = quote ∧ rest.getLast? = some quote ∧ rest.dropLast.all (fun letter => letter = underscore || letter = letterX) then
      some rest.dropLast
    else none

def setLetters (array : BitArray) (position : Nat) : Bytes → BitArray
  | [] => array
  | letter :: rest =>
    setLetters (if letter = letterX then array.setIndex position true else array) (position + 1) rest

/-- An empty run of bits leaves `NewBitArray` with nil, and the copy through it faults. -/
def unmarshalJSON (text : Bytes) : Exec (Except UnmarshalError BitArray) :=
  if text = nullText then .ok (.ok empty)
  else
    match matchBits text with
    | none => .ok (.error (.badFormat text))
    | some bits => do
      let fresh ← Exec.deref (newBitArray bits.length)
      .ok (.ok (setLetters fresh 0 bits))

/-- The text `BA{4:xx_x}` of four bits. -/
def string (pointer : Option BitArray) : Bytes :=
  match pointer with
  | none => [110, 105, 108, 45, 66, 105, 116, 65, 114, 114, 97, 121]
  | some array =>
    [66, 65, 123] ++ (Nat.toDigits 10 array.bits).map (fun digit => UInt8.ofNat digit.toNat) ++ [58] ++
      (List.range array.bits).map (fun position => if array.getIndex position then letterX else underscore) ++ [125]

theorem setLetters_bits (position : Nat) (letters : Bytes) : (setLetters array position letters).bits = array.bits := by
  induction letters generalizing array position with
  | nil => rfl
  | cons letter rest ih =>
    rw [setLetters, ih]
    split <;> simp

end BitArray

/-! Blocks, headers and quorum certificates (`block/`).

A 32-byte block ID is its first four bytes, which hold the block number, and the remaining ones,
which come from a hash. Digests are an arbitrary type: where a result needs the hash functions to be
free of collisions, it says so. -/

structure BlockID (Digest : Type) where
  number : Nat
  tail : Digest
  deriving DecidableEq

inductive BlockType where
  | kBlock
  | mBlock
  | sBlock
  | other (code : Nat)
  deriving DecidableEq, Repr

structure Header (Digest Address : Type) where
  parentID : BlockID Digest
  timestamp : Nat
  gasLimit : Nat
  lastKBlockHeight : Nat
  blockType : BlockType
  beneficiary : Address
  gasUsed : Nat
  totalScore : Nat
  txsRoot : Digest
  stateRoot : Digest
  receiptsRoot : Digest
  evidenceDataRoot : Digest
  signature : Bytes
  deriving DecidableEq

structure QuorumCert (Digest : Type) where
  qcHeight : Nat
  qcRound : Nat
  epochID : Nat
  voterBitArrayStr : Bytes
  voterMsgHash : Digest
  voterAggSig : Bytes
  deriving DecidableEq

structure Block (Digest Address Tx : Type) where
  header : Header Digest Address
  txs : List Tx
  qc : QuorumCert Digest
  committeeEpoch : Nat
  kBlockNonce : Nat
  magic : Nat
  deriving DecidableEq

/-- The hash functions and the signature recovery a block's identity rests on. -/
structure Hashing (Digest Address : Type) where
  signingHash : Header Digest Address → Digest
  sigToPub : Digest → Bytes → Except String Address
  /-- The address of a signer that is not recovered: the zero address. -/
  zeroAddress : Address
  zeroDigest : Digest
  idTail : Digest → Address → Digest
  votingDigest : BlockType → Nat → BlockID Digest → Digest → Digest → Digest

variable {Digest Address Tx : Type}

namespace Header

variable (header : Header Digest Address)

def number : Nat := (header.parentID.number + 1) % 2 ^ 32

variable (hashing : Hashing Digest Address)

def signer : Except String Address :=
  if header.number = 0 then .ok hashing.zeroAddress
  else hashing.sigToPub (hashing.signingHash header) header.signature

/-- A header whose signer cannot be recovered has no hash in its ID, only its number. -/
def id : BlockID Digest :=
  match header.signer hashing with
  | .error _ => ⟨header.number, hashing.zeroDigest⟩
  | .ok signer => ⟨header.number, hashing.idTail (hashing.signingHash header) signer⟩

@[simp] theorem id_number : (header.id hashing).number = header.number := by
  unfold id
  split <;> rfl

end Header

namespace Block

variable (block : Block Digest Address Tx)

def number : Nat := block.header.number
def parentID : BlockID Digest := block.header.parentID
def timestamp : Nat := block.header.timestamp
def isKBlock : Bool := block.header.blockType = .kBlock
def isSBlock : Bool := block.header.blockType = .sBlock
variable (hashing : Hashing Digest Address)

def id : BlockID Digest := block.header.id hashing

@[simp] theorem id_number : (block.id hashing).number = block.number :=
  block.header.id_number hashing

/-- What committee members sign when they vote for the block. -/
def votingHash : Digest :=
  hashing.votingDigest block.header.blockType block.number (block.id hashing) block.header.txsRoot
    block.header.stateRoot

/-- The epoch of a block; a last K-block above the block itself panics. -/
def getBlockEpoch : Exec Nat :=
  if block.number = 0 then .ok 0
  else if (block.header.lastKBlockHeight + 1) % 2 ^ 32 < block.number then .ok block.qc.epochID
  else if block.number = (block.header.lastKBlockHeight + 1) % 2 ^ 32 then
    if block.isKBlock then .ok ((block.qc.epochID + 1) % 2 ^ 64) else .ok block.committeeEpoch
  else .error (.raised "Block error: lastKBlockHeight great than height")

end Block

def Block.Recoverable (hashing : Hashing Digest Address) (block : Block Digest Address Tx) : Prop :=
  ∃ signer, block.header.signer hashing = .ok signer

/-- No two blocks with different parents share an ID, and no two blocks with different IDs share a
voting hash. Blocks without a recoverable signer have only their number in their ID: they collide with
each other, but with no other block. -/
structure CollisionFree (Tx : Type) (hashing : Hashing Digest Address) : Prop where
  id : ∀ first second : Block Digest Address Tx, first.Recoverable hashing → first.id hashing = second.id hashing →
    second.Recoverable hashing ∧ second.parentID = first.parentID
  votingHash : ∀ first second : Block Digest Address Tx,
    first.votingHash hashing = second.votingHash hashing → first.id hashing = second.id hashing

/-- A collision-free instance: every digest lists what it is the digest of, and a signature is the
number of its signer. -/
def listHashing : Hashing (List Nat) Nat where
  signingHash header := header.timestamp :: header.parentID.number :: header.parentID.tail
  sigToPub _ signature :=
    match signature with
    | [] => .error "no signature"
    | signer :: _ => .ok signer.toNat
  zeroAddress := 0
  zeroDigest := []
  idTail digest signer := signer :: digest
  votingDigest _ _ id _ _ := id.number :: id.tail

theorem listHashing_collisionFree : CollisionFree Tx listHashing where
  id first second := by
    rintro ⟨signer, recovered⟩ same
    cases other : second.header.signer listHashing with
    | error reason =>
      simp only [Block.id, Header.id, recovered, other] at same
      exact absurd (congrArg BlockID.tail same) (List.cons_ne_nil _ _)
    | ok signer =>
      simp only [Block.id, Header.id, recovered, other, BlockID.mk.injEq] at same
      obtain ⟨-, fields⟩ := List.cons.inj same.2
      obtain ⟨number, tail⟩ := List.cons.inj (List.cons.inj fields).2
      exact ⟨⟨signer, other⟩, congrArg₂ BlockID.mk number.symm tail.symm⟩
  votingHash first second same := by
    simp only [Block.votingHash, listHashing, List.cons.injEq] at same
    exact congrArg₂ BlockID.mk same.1 same.2

/-! ## The voters of a certificate -/

def colon : UInt8 := 58

/-- The bit array written between the colon and the closing brace of `BA{4:xx_x}`. Texts that do
not have that shape fault at the slice or at the missing second part. -/
def voterBitArray (text : Bytes) : Exec (Option BitArray) :=
  if text.length = 0 then .ok none
  else do
    let inner ← Exec.slice text 3 (text.length - 1)
    let letters ← Exec.index (inner.splitOn colon) 1
    match ← BitArray.unmarshalJSON (BitArray.quote :: letters ++ [BitArray.quote]) with
    | .error _ => .ok none
    | .ok array => .ok (some array)

def QuorumCert.voterBitArray (qc : QuorumCert Digest) : Exec (Option BitArray) :=
  Blocks.voterBitArray qc.voterBitArrayStr

end MeterPov.Blocks
