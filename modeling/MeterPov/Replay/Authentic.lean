import MeterPov.Replay.Rewrapped

/-! Who signed the transactions of a block (`tx/transaction.go`, `consensus/reactor_validate.go`).

The signer of a wrapped Ethereum transaction is a field of its wrapper. It is checked against the Ethereum signature for
proposals, and not for blocks from a peer. -/

set_option autoImplicit false

namespace MeterPov.Replay

open Blocks (Block)
open Chains KBlock Accounts Auction List

/-! ## Addresses as bytes -/

def ofBytes (bytes : Bytes) : Nat := bytes.foldl (fun number byte => number * 256 + byte.toNat) 0

def bigEndian : Nat → Nat → Bytes
  | 0, _ => []
  | length + 1, number => bigEndian length (number / 256) ++ [UInt8.ofNat number]

theorem bigEndian_length (length number : Nat) : (bigEndian length number).length = length := by
  induction length generalizing number with
  | zero => rfl
  | succ length ih => simp [bigEndian, ih]

theorem ofBytes_bigEndian (length number : Nat) (fits : number < 256 ^ length) : ofBytes (bigEndian length number) = number := by
  induction length generalizing number with
  | zero => simp_all [bigEndian, ofBytes]
  | succ length ih =>
    have shorter := ih (number / 256) (by
      rw [Nat.div_lt_iff_lt_mul (by decide)]
      rwa [Nat.pow_succ] at fits)
    have last : (UInt8.ofNat number).toNat = number % 256 := UInt8.toNat_ofNat'
    simp only [ofBytes, bigEndian, foldl_append, foldl_cons, foldl_nil, last] at shorter ⊢
    omega

/-- The bytes are written in hexadecimal first, so that only their number can be wrong. -/
def parseAddress (bytes : Bytes) : Except String Address :=
  if bytes.length = 20 then .ok (ofBytes bytes) else .error "invalid length"

def addressBytes (addr : Address) : Bytes := bigEndian 20 addr

theorem parseAddress_addressBytes {addr} (fits : addr < 2 ^ 160) : parseAddress (addressBytes addr) = .ok addr := by
  unfold parseAddress addressBytes
  rw [if_pos (bigEndian_length 20 addr), ofBytes_bigEndian 20 addr (by simpa using fits)]

/-! ## Signers -/

/-- The recovery of the key that a native signature was made with. -/
structure Recovery (Digest : Type) where
  signingHash : Transaction → Digest
  sigToAddress : Digest → Bytes → Except String Address

variable {Digest State Receipt : Type} (keys : Recovery Digest)

def Recovery.native (tx : Transaction) : Except String Address :=
  keys.sigToAddress (keys.signingHash (unsigned tx)) tx.signature

def Recovery.read (tx : Transaction) : Except String Address :=
  if isWrapped tx then parseAddress (tx.reserved.getD 1 []) else keys.native tx

/-- An environment in which signers are read this way. -/
def ReplayEnv.signedBy (env : ReplayEnv Digest State Receipt) : ReplayEnv Digest State Receipt :=
  { env with recoverSigner := keys.read, addressBytes := addressBytes }

/-- The clause that stands for an Ethereum transaction. A call of the zero address becomes a creation. -/
def EthTx.clause (ethTx : EthTx Digest) : KBlock.Clause :=
  ⟨if ethTx.toAddr = some 0 then none else ethTx.toAddr, ethTx.value, 0, ethTx.data⟩

def Authentic (env : TxEnv Digest) (tx : Transaction) (addr : Address) : Prop :=
  keys.native tx = .ok addr ∨
    ∃ ethTx, getEthTx env tx = .ok ethTx ∧ env.sender ethTx = .ok addr ∧
      tx.clauses = [ethTx.clause] ∧ tx.gas = ethTx.gas ∧ tx.nonce = ethTx.nonce

variable [DecidableEq Digest] {env : ReplayEnv Digest State Receipt} {tx : Transaction} {addr : Address}

omit [DecidableEq Digest] in
theorem read_of_signer (nonzero : addr ≠ 0) (signed : signer (env.signedBy keys).toTxEnv tx = .ok addr) : keys.read tx = .ok addr := by
  unfold signer at signed
  split at signed
  · exact absurd (Except.ok.inj signed).symm nonzero
  · exact signed

/-- A signed wrapper that passes its check has the contents and the signer of its Ethereum transaction. -/
theorem authentic_of_reverseTx (free : (env.signedBy keys).toTxEnv.CollisionFree)
    (addresses : ∀ ethTx sender, env.sender ethTx = .ok sender → sender < 2 ^ 160)
    (wrapped : isWrapped tx = true) (nonzero : addr ≠ 0) (signed : signer (env.signedBy keys).toTxEnv tx = .ok addr)
    (passed : reverseTx (env.signedBy keys).toTxEnv tx = .ok ()) : Authentic keys (env.signedBy keys).toTxEnv tx addr := by
  obtain ⟨ethTx, sender, decoded, sent, -, sameID⟩ := reverseTx_ok passed
  have bodies : unsigned tx = unsigned (wrap (env.signedBy keys).toTxEnv ethTx sender tx.chainTag tx.blockRef) := by
    unfold meterID at sameID
    simp only [signed] at sameID
    split at sameID
    · exact absurd sameID (free.idHash_ne_zero _ _)
    · exact free.idHash _ _ _ _ sameID
  have reserved : tx.reserved = [reservedMark, addressBytes sender, ethTx.raw] := congrArg Transaction.reserved bodies
  have own : parseAddress (addressBytes sender) = .ok addr := by
    have read := read_of_signer keys nonzero signed
    rw [Recovery.read, if_pos wrapped, reserved] at read
    exact read
  rw [parseAddress_addressBytes (addresses ethTx sender sent)] at own
  cases own
  exact Or.inr ⟨ethTx, decoded, sent, congrArg Transaction.clauses bodies, congrArg Transaction.gas bodies,
    congrArg Transaction.nonce bodies⟩

/-! ## Blocks -/

/-- How a block is processed: with a parent and what proposals are validated against, or as one from a peer. -/
inductive Origin (Digest : Type) where
  | proposed (parent : Block Digest Address Transaction) (force : Force)
  | synced

def AcceptedAs (env : ReplayEnv Digest State Receipt) (ledger : Ledger Digest Address Transaction)
    (block : Block Digest Address Transaction) (now : Nat) : Origin Digest → Prop
  | .proposed parent force => ∃ receipts, Accepts (processProposedBlock env ledger parent block now force) (some receipts)
  | .synced => ∃ receipts, Accepts (processSyncedBlock env ledger block now) receipts

theorem passed_of_accepted {ledger block now origin} (accepted : AcceptedAs env ledger block now origin) :
    ∃ parent, Passed env ledger block parent (match origin with | .proposed _ _ => true | .synced => false) := by
  cases origin with
  | proposed parent force =>
    obtain ⟨receipts, accepted⟩ := accepted
    exact ⟨parent, passed_of_processProposedBlock accepted⟩
  | synced =>
    obtain ⟨receipts, accepted⟩ := accepted
    obtain ⟨parent, -, passed⟩ := passed_of_processSyncedBlock accepted
    exact ⟨parent, passed⟩

/-- The transactions of an accepted block were signed by their signers. Of a block from a peer, the wrapped ones have to pass
the check that is made for proposals. -/
theorem signers_authentic (env : ReplayEnv Digest State Receipt) (keys : Recovery Digest)
    (free : (env.signedBy keys).toTxEnv.CollisionFree)
    (addresses : ∀ ethTx sender, env.sender ethTx = .ok sender → sender < 2 ^ 160)
    (ledger : Ledger Digest Address Transaction) (block : Block Digest Address Transaction) (now : Nat) (origin : Origin Digest)
    (accepted : AcceptedAs (env.signedBy keys) ledger block now origin) (tx : Transaction) (listed : tx ∈ block.txs)
    (checked : origin = .synced → isWrapped tx = true → reverseTx (env.signedBy keys).toTxEnv tx = .ok ())
    (addr : Address) (nonzero : addr ≠ 0) (signed : signer (env.signedBy keys).toTxEnv tx = .ok addr) :
    Authentic keys (env.signedBy keys).toTxEnv tx addr := by
  obtain ⟨parent, passed⟩ := passed_of_accepted accepted
  cases wrapped : isWrapped tx with
  | false =>
    have read := read_of_signer keys nonzero signed
    rw [Recovery.read, wrapped] at read
    exact .inl read
  | true =>
    apply authentic_of_reverseTx keys free addresses wrapped nonzero signed
    cases origin with
    | proposed parent force => exact passed.reversed rfl tx listed wrapped
    | synced => exact checked rfl wrapped

namespace Sample

/-- Native signatures are recovered to the number of their bytes. -/
def lengthKeys : Recovery Symbol where
  signingHash tx := .tx tx 0
  sigToAddress _ signature := .ok signature.length

def signedEnv : ReplayEnv Symbol Unit Unit := symbolicEnv.signedBy lengthKeys

theorem signedEnv_collisionFree : signedEnv.toTxEnv.CollisionFree where
  idHash _ _ _ _ same := (Symbol.tx.inj same).1
  idHash_ne_hash tx signer raw ethTx decoded := by
    cases decoded
    nofun
  idHash_ne_zero _ _ := nofun
  hash_ne_zero raw ethTx decoded := by
    cases decoded
    nofun

def ethTx : EthTx Symbol := ⟨some 2, 5, .plain [], 21000, 0, [1], [1], [27], [1], .ethTx [1]⟩

/-- The Ethereum transaction of sender 7, wrapped for the given one. -/
def wrapperFor (sender : Address) : Transaction := wrap signedEnv.toTxEnv ethTx sender 1 0

def first : Block Symbol Address Transaction where
  header :=
    { parentID := ⟨0, .zero⟩, timestamp := 0, gasLimit := 1000000, lastKBlockHeight := 0, blockType := .mBlock, beneficiary := 0,
      gasUsed := 0, totalScore := 0, txsRoot := .txs [], stateRoot := .executed, receiptsRoot := .zero, evidenceDataRoot := .zero,
      signature := [1] }
  txs := []
  qc := noQC
  committeeEpoch := 0
  kBlockNonce := 0
  magic := Consensus.blockMagicVersion1

def ledger : Ledger Symbol Address Transaction where
  chain := ⟨[first], [(first.number, first.id symbolicHashing)], first, noQC⟩
  txMetas _ := []
  flattern := 0

end Sample

open Sample in
theorem wrapper_proposed : Authentic lengthKeys signedEnv.toTxEnv (wrapperFor 7) 7 :=
  signers_authentic symbolicEnv lengthKeys signedEnv_collisionFree (fun _ _ sent => by cases sent; decide) Sample.ledger
    (child first [wrapperFor 7]) 1 (.proposed first ⟨0, none, true⟩) ⟨[()], by with_unfolding_all rfl⟩ (wrapperFor 7) mem_cons_self nofun 7 (by decide)
    rfl

open Sample in
/-- A block from a peer is accepted with a wrapper whose signer did not sign. -/
theorem forged_wrapper_synced :
    signedEnv.toTxEnv.CollisionFree ∧ AcceptedAs signedEnv Sample.ledger (child first [wrapperFor 9]) 1 .synced ∧
      wrapperFor 9 ∈ (child first [wrapperFor 9]).txs ∧ signer signedEnv.toTxEnv (wrapperFor 9) = .ok 9 ∧ ¬ Authentic lengthKeys signedEnv.toTxEnv (wrapperFor 9) 9 := by
  refine ⟨signedEnv_collisionFree, ⟨[()], rfl⟩, mem_cons_self, rfl, ?_⟩
  rintro (native | ⟨_, _, sent, _⟩)
  · exact absurd (Except.ok.inj native) (by decide)
  · exact absurd (Except.ok.inj sent) (by decide)

end MeterPov.Replay
