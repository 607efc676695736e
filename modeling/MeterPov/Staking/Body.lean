import MeterPov.Accounts.State

/-! The body of a staking script (`script/staking/staking_body.go`, `meter/validator_reward.go`). -/

set_option autoImplicit false

namespace MeterPov.Staking

open Accounts Auction

structure RewardInfo where
  address : Address
  amount : Nat
  deriving DecidableEq, Repr

structure RewardInfoV2 where
  address : Address
  distAmount : Nat
  autobidAmount : Nat
  deriving DecidableEq, Repr

/-- Extra data, as what it decodes to: rewards with or without the part for autobids, or neither. No rewards at all
decode as the former. -/
inductive ExtraData where
  | rewardsV2 (infos : List RewardInfoV2)
  | rewards (first : RewardInfo) (rest : List RewardInfo)
  | raw (bytes : Bytes)
  deriving DecidableEq, Repr

structure StakingBody where
  opcode : Nat
  version : Nat := 0
  option : Nat := 0
  holderAddr : Address := 0
  candAddr : Address := 0
  candName : Bytes := []
  candDescription : Bytes := []
  candPubKey : Bytes := []
  candIP : Bytes := []
  candPort : Nat := 0
  stakingID : Bytes32 := 0
  amount : Nat := 0
  token : Nat := 0
  autobid : Nat := 0
  timestamp : Nat := 0
  nonce : Nat := 0
  extraData : ExtraData := .raw []
  deriving DecidableEq, Repr

def opBound : Nat := 1
def opUnbound : Nat := 2
def opCandidate : Nat := 3
def opUncandidate : Nat := 4
def opDelegate : Nat := 5
def opUndelegate : Nat := 6
def opCandidateUpdt : Nat := 7
def opBucketUpdt : Nat := 8
def opDelegateStatistics : Nat := 101
def opDelegateExitjail : Nat := 102
def opFlushAllStatistics : Nat := 103
def opGoverning : Nat := 10001

end MeterPov.Staking
