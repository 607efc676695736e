import MeterPov.Lib.SortedList

/-! `meter`: the auction control block, its bids and the summaries of past auctions.

Amounts come out of RLP, which has no negative numbers. An absent number of the zero control block
is encoded like a zero and is one here. -/

set_option autoImplicit false

namespace MeterPov.Auction

open Lib

/-- An address, as the number its bytes spell. -/
abbrev Address := Nat

/-- A 32-byte identifier, ordered as its bytes are. -/
abbrev Bytes32 := Nat

-- the type of a bid is any number; only this one makes it an autobid
def autoBid : Nat := 1

structure AuctionTx where
  txID : Bytes32
  address : Address
  amount : Nat
  type : Nat
  timestamp : Nat
  nonce : Nat
  deriving DecidableEq, Repr

structure AuctionCB where
  auctionID : Bytes32 := 0
  startHeight : Nat := 0
  startEpoch : Nat := 0
  endHeight : Nat := 0
  endEpoch : Nat := 0
  sequence : Nat := 0
  rlsdMTRG : Nat := 0
  rsvdMTRG : Nat := 0
  rsvdPrice : Nat := 0
  createTime : Nat := 0
  rcvdMTR : Nat := 0
  auctionTxs : List AuctionTx := []
  deriving DecidableEq, Repr

structure DistMtrg where
  addr : Address
  amount : Nat
  deriving DecidableEq, Repr

structure AuctionSummary where
  auctionID : Bytes32
  startHeight : Nat
  startEpoch : Nat
  endHeight : Nat
  endEpoch : Nat
  sequence : Nat
  rlsdMTRG : Nat
  rsvdMTRG : Nat
  rsvdPrice : Nat
  createTime : Nat
  rcvdMTR : Nat
  actualPrice : Nat
  leftoverMTRG : Nat
  auctionTxs : List AuctionTx
  distMTRG : List DistMtrg
  deriving DecidableEq, Repr

/-- The two identifiers that are Blake2b hashes of the fields they are given. -/
structure AuctionHashing where
  txID : (addr : Address) → (amount type timestamp nonce : Nat) → Bytes32
  cbID : (startHeight startEpoch endHeight endEpoch rlsdMTRG rsvdMTRG rsvdPrice createTime : Nat) → Bytes32

def AuctionHashing.newAuctionTx (hashing : AuctionHashing) (addr : Address) (amount txtype time nonce : Nat) : AuctionTx where
  txID := hashing.txID addr amount txtype time nonce
  address := addr
  amount := amount
  type := txtype
  timestamp := time
  nonce := nonce

namespace AuctionCB

def id (hashing : AuctionHashing) (cb : AuctionCB) : Bytes32 :=
  hashing.cbID cb.startHeight cb.startEpoch cb.endHeight cb.endEpoch cb.rlsdMTRG cb.rsvdMTRG cb.rsvdPrice cb.createTime

def isActive (cb : AuctionCB) : Bool := cb.auctionID != 0

def get (cb : AuctionCB) (txID : Bytes32) : Option AuctionTx := getIn AuctionTx.txID cb.auctionTxs txID

/-- `none` when there is a bid with that identifier already. -/
def addAuctionTx (cb : AuctionCB) (tx : AuctionTx) : Option AuctionCB :=
  if (cb.get tx.txID).isSome then none
  else some { cb with rcvdMTR := cb.rcvdMTR + tx.amount, auctionTxs := addIn AuctionTx.txID cb.auctionTxs tx }

end AuctionCB
end MeterPov.Auction
