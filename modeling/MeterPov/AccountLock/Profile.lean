import MeterPov.Auction.ControlBlock

/-! `meter/profile.go`: the profiles of locked accounts, kept sorted by address. -/

set_option autoImplicit false

namespace MeterPov.AccountLock

open Auction

structure Profile where
  addr : Address
  memo : List UInt8
  lockEpoch : Nat
  releaseEpoch : Nat
  meterAmount : Nat
  meterGovAmount : Nat
  deriving DecidableEq, Repr

/-- `NewProfileList` sorts what was decoded. -/
def newProfileList (profiles : List Profile) : List Profile :=
  profiles.mergeSort fun first second => first.addr ≤ second.addr

end MeterPov.AccountLock
