import MeterPov.AccountLock.Handlers
import MeterPov.Auction.Handlers
import MeterPov.Staking.Body

/-! Transactions of a K-block and their unite hashes (`tx/transaction.go`, `tx/clause.go`, `script/script_data.go`).

A hash is taken to be what it is the hash of: none of them collide, and none is zero. Scripts are taken as what they
decode to, since their encoding is canonical. -/

set_option autoImplicit false

namespace MeterPov.KBlock

open Accounts List
open Auction (Address Bytes32)
open Staking

/-! ## Scripts -/

structure AuctionScript extends Auction.AuctionBody where
  version : Nat := 0
  auctionID : Bytes32 := 0
  token : Nat := 0
  deriving DecidableEq, Repr

structure AccountLockScript extends AccountLock.AccountLockBody where
  version : Nat := 0
  option : Nat := 0
  deriving DecidableEq, Repr

inductive Payload where
  | staking (body : StakingBody)
  | auction (body : AuctionScript)
  | accountLock (body : AccountLockScript)
  -- what the addressed module cannot decode, and what is for no module
  | raw (modID : Nat) (payload : Bytes)
  deriving DecidableEq, Repr

def Payload.modID : Payload → Nat
  | .staking _ => 1000
  | .auction _ => 1001
  | .accountLock _ => 1002
  | .raw modID _ => modID

structure ScriptData where
  version : Nat
  payload : Payload
  deriving DecidableEq, Repr

inductive ExtraKey where
  | rewardsV2 (infos : List RewardInfoV2)
  | rewards (infos : List RewardInfo)
  | raw (bytes : Bytes)
  deriving DecidableEq, Repr

def extraKey : ExtraData → ExtraKey
  | .rewardsV2 infos => .rewardsV2 (infos.mergeSort fun first second => first.address ≤ second.address)
  | .rewards first rest => .rewards ((first :: rest).mergeSort fun first second => first.address ≤ second.address)
  | .raw bytes => .raw bytes

inductive BodyKey where
  | staking (body : StakingBody) (extra : Option ExtraKey)
  | auction (body : AuctionScript)
  | accountLock (body : AccountLockScript)
  deriving DecidableEq, Repr

def stripStaking (body : StakingBody) : StakingBody := { body with timestamp := 0, nonce := 0, extraData := .raw [] }

def stripAuction (body : AuctionScript) : AuctionScript := { body with timestamp := 0, nonce := 0 }

/-- Nothing stands for the zero hash: the sum of the payload is appended to a copy, and that of extra data is taken for
governing only. -/
def Payload.uniteHash : Payload → Option BodyKey
  | .staking body =>
    some (.staking (stripStaking body) (if body.opcode = Staking.opGoverning then some (extraKey body.extraData) else none))
  | .auction body => some (.auction (stripAuction body))
  | .accountLock body => some (.accountLock body)
  | .raw _ _ => none

structure ScriptKey where
  version : Nat
  modID : Nat
  body : Option BodyKey
  deriving DecidableEq, Repr

def ScriptData.uniteHash (script : ScriptData) : ScriptKey := ⟨script.version, script.payload.modID, script.payload.uniteHash⟩

/-! ## Clauses and transactions -/

inductive ClauseData where
  -- too short for a script, or without the mark
  | plain (bytes : Bytes)
  | script (script : ScriptData)
  -- marked, but not with the pattern of a script or not decodable; what the decoder left is used all the same for local ones
  | malformed (bytes : Bytes) (reason : String) (left : ScriptData)
  deriving DecidableEq, Repr

structure Clause where
  toAddr : Option Address
  value : Nat
  token : Nat
  data : ClauseData
  deriving DecidableEq, Repr

structure ClauseKey where
  toAddr : Option Address
  value : Nat
  token : Nat
  deriving DecidableEq, Repr

namespace Clause

variable (clause : Clause)

def uniteHash : ClauseKey := ⟨clause.toAddr, clause.value, clause.token⟩

/-- A clause with a value is no script, whatever its data. -/
def script? : Option (Except String ScriptData) :=
  if clause.value ≠ 0 then none
  else match clause.data with
    | .plain _ => none
    | .script script => some (.ok script)
    | .malformed _ reason _ => some (.error reason)

def localScript? : Option ScriptData :=
  if clause.value ≠ 0 then none
  else match clause.data with
    | .plain _ => none
    | .script script => some script
    | .malformed _ _ left => some left

end Clause

structure Transaction where
  chainTag : Nat
  blockRef : Nat
  expiration : Nat
  clauses : List Clause
  gasPriceCoef : Nat
  gas : Nat
  dependsOn : Option Bytes32
  nonce : Nat
  reserved : List Bytes
  signature : Bytes
  deriving DecidableEq, Repr

structure TxKey where
  chainTag : Nat
  expiration : Nat
  gasPriceCoef : Nat
  dependsOn : Option Bytes32
  nonce : Nat
  reserved : List Bytes
  deriving DecidableEq, Repr

namespace Transaction

variable (tx : Transaction)

def uniteHash : TxKey := ⟨tx.chainTag, tx.expiration, tx.gasPriceCoef, tx.dependsOn, tx.nonce, tx.reserved⟩

/-- The number in the first four of the eight bytes of a reference. -/
def refNumber : Nat := tx.blockRef / 2 ^ 32

def isExpired (blockNum : Nat) : Bool := tx.refNumber + tx.expiration < blockNum

end Transaction

/-! ## What a block is compared by

The fields that are left out on purpose: the reference, the expiration, the gas and the nonce of a transaction, the time
and the nonce of a staking body, and the order of the rewards in its extra data. -/

inductive ExtraView where
  | rewardsV2 (infos : Multiset RewardInfoV2)
  | rewards (infos : Multiset RewardInfo)
  | raw (bytes : Bytes)
  -- of a body that distributes no rewards
  | asIs (extra : ExtraData)
  deriving DecidableEq

def extraView (opcode : Nat) (extra : ExtraData) : ExtraView :=
  if opcode = Staking.opGoverning then
    match extra with
    | .rewardsV2 infos => .rewardsV2 infos
    | .rewards first rest => .rewards (first :: rest : List RewardInfo)
    | .raw bytes => .raw bytes
  else .asIs extra

inductive DataView where
  | staking (version : Nat) (body : StakingBody) (extra : ExtraView)
  | other (data : ClauseData)
  deriving DecidableEq

def ClauseData.view : ClauseData → DataView
  | .script ⟨version, .staking body⟩ => .staking version (stripStaking body) (extraView body.opcode body.extraData)
  | data => .other data

structure ClauseView where
  key : ClauseKey
  data : DataView
  deriving DecidableEq

def Clause.view (clause : Clause) : ClauseView := ⟨clause.uniteHash, clause.data.view⟩

structure TxView where
  chainTag : Nat
  gasPriceCoef : Nat
  dependsOn : Option Bytes32
  reserved : List Bytes
  clauses : List ClauseView
  deriving DecidableEq

def Transaction.view (tx : Transaction) : TxView :=
  ⟨tx.chainTag, tx.gasPriceCoef, tx.dependsOn, tx.reserved, tx.clauses.map Clause.view⟩

/-- What the builders of the governor make: without a signature, and with no data but a script. -/
structure BuiltClause where
  toAddr : Option Address
  value : Nat
  token : Nat
  script : Option ScriptData
  deriving DecidableEq, Repr

def BuiltClause.clause (built : BuiltClause) : Clause :=
  ⟨built.toAddr, built.value, built.token,
    match built.script with
    | none => .plain []
    | some script => .script script⟩

structure Built where
  blockRef : Nat
  expiration : Nat
  gas : Nat
  nonce : Nat
  clauses : List BuiltClause
  deriving DecidableEq, Repr

def Built.transaction (chainTag : Nat) (built : Built) : Transaction where
  chainTag := chainTag
  blockRef := built.blockRef
  expiration := built.expiration
  clauses := built.clauses.map BuiltClause.clause
  gasPriceCoef := 0
  gas := built.gas
  dependsOn := none
  nonce := built.nonce
  reserved := []
  signature := []

/-! What the unite hash of a script covers.

Extra data is hashed for governing only, and a payload that is not decoded is not hashed at all. -/

open Staking

theorem view_eq_of_extraKey {opcode} (governing : opcode = Staking.opGoverning) {first second} (same : extraKey first = extraKey second) : extraView opcode first = extraView opcode second := by
  unfold extraView
  rw [if_pos governing, if_pos governing]
  cases first <;> cases second <;> simp only [extraKey, ExtraKey.rewardsV2.injEq, ExtraKey.rewards.injEq, ExtraKey.raw.injEq,
    reduceCtorEq] at same
  case rewardsV2 infos others =>
    refine congrArg ExtraView.rewardsV2 (Multiset.coe_eq_coe.mpr ?_)
    exact (mergeSort_perm infos _).symm.trans (same ▸ mergeSort_perm others _)
  case rewards head rest head' rest' =>
    refine congrArg ExtraView.rewards (Multiset.coe_eq_coe.mpr ?_)
    exact (mergeSort_perm (head :: rest) _).symm.trans (same ▸ mergeSort_perm (head' :: rest') _)
  case raw bytes others => rw [same]

variable {body other : StakingBody}

theorem opcode_of_stripStaking (same : stripStaking body = stripStaking other) : body.opcode = other.opcode :=
  congrArg (fun stripped => stripped.opcode) same

theorem staking_uniteHash_iff : (Payload.staking body).uniteHash = (Payload.staking other).uniteHash ↔
    stripStaking body = stripStaking other ∧
      (body.opcode = Staking.opGoverning → extraKey body.extraData = extraKey other.extraData) := by
  simp only [Payload.uniteHash, Option.some.injEq, BodyKey.staking.injEq]
  refine and_congr_right fun stripped => ?_
  rw [← opcode_of_stripStaking stripped]
  split
  next governing => simp [governing]
  next else_ => simp [else_]

/-- What a module reads of a script, apart from the time and the nonce. -/
inductive PayloadView where
  | staking (body : StakingBody) (extra : Option ExtraView)
  | auction (body : AuctionScript)
  | accountLock (body : AccountLockScript)
  | raw (modID : Nat) (payload : Bytes)
  deriving DecidableEq

/-- The extra data of a body is read by the handlers of governing and of statistics. -/
def Payload.view : Payload → PayloadView
  | .staking body => .staking (stripStaking body)
      (if body.opcode = Staking.opGoverning ∨ body.opcode = Staking.opDelegateStatistics then some (extraView body.opcode body.extraData)
        else none)
  | .auction body => .auction (stripAuction body)
  | .accountLock body => .accountLock body
  | .raw modID payload => .raw modID payload

/-- Two statistics that differ in the extra data only, or two payloads that no module decodes. -/
def Payload.HashedAlike : Payload → Payload → Prop
  | .staking body, .staking other =>
    body.opcode = Staking.opDelegateStatistics ∧ stripStaking body = stripStaking other ∧ body.extraData ≠ other.extraData
  | .raw modID payload, .raw modID' payload' => modID = modID' ∧ payload ≠ payload'
  | _, _ => False

theorem staking_view_iff : (Payload.staking body).view = (Payload.staking other).view ↔ stripStaking body = stripStaking other ∧
      (body.opcode = Staking.opGoverning → extraView body.opcode body.extraData = extraView body.opcode other.extraData) ∧
      (body.opcode = Staking.opDelegateStatistics → body.extraData = other.extraData) := by
  simp only [Payload.view, PayloadView.staking.injEq]
  refine and_congr_right fun stripped => ?_
  rw [← opcode_of_stripStaking stripped]
  by_cases governing : body.opcode = Staking.opGoverning
  · simp [governing, Staking.opGoverning, Staking.opDelegateStatistics]
  · by_cases statistics : body.opcode = Staking.opDelegateStatistics
    · simp [statistics, extraView, Staking.opGoverning, Staking.opDelegateStatistics]
    · simp [governing, statistics]

theorem Payload.covered_iff (first second : Payload) :
    (first.uniteHash = second.uniteHash → first.modID = second.modID → first.view = second.view) ↔ ¬ first.HashedAlike second := by
  cases first with
  | staking body =>
    cases second with
    | staking other =>
      rw [staking_uniteHash_iff, staking_view_iff]
      constructor
      · rintro covers ⟨statistics, stripped, differ⟩
        refine differ ((covers ⟨stripped, fun governing => ?_⟩ rfl).2.2 statistics)
        rw [governing] at statistics
        cases statistics
      · rintro apart ⟨stripped, extra⟩ -
        refine ⟨stripped, fun governing => view_eq_of_extraKey governing (extra governing), fun statistics => ?_⟩
        by_contra differ
        exact apart ⟨statistics, stripped, differ⟩
    | _ => simp [uniteHash, HashedAlike]
  | auction body =>
    cases second with
    | auction other => simp +contextual [uniteHash, HashedAlike, view]
    | _ => simp [uniteHash, HashedAlike]
  | accountLock body =>
    cases second with
    | accountLock other => simp +contextual [uniteHash, HashedAlike, view]
    | _ => simp [uniteHash, HashedAlike]
  | raw modID payload =>
    cases second with
    | raw modID' payload' => simp +contextual [uniteHash, HashedAlike, view, Payload.modID]
    | _ => simp [uniteHash, HashedAlike]

/-- Scripts that differ in what is read of them have different hashes, unless they are statistics that differ in their extra
data only or payloads that are not decoded. -/
theorem uniteHash_covers_iff (first second : ScriptData) :
    (first.version ≠ second.version ∨ first.payload.view ≠ second.payload.view → first.uniteHash ≠ second.uniteHash) ↔
      ¬ (first.version = second.version ∧ first.payload.HashedAlike second.payload) := by
  have covered := Payload.covered_iff first.payload second.payload
  simp only [ScriptData.uniteHash, ne_eq, ScriptKey.mk.injEq]
  tauto

def statisticsOf (infraction : UInt8) : ScriptData :=
  ⟨0, .staking { opcode := Staking.opDelegateStatistics, candAddr := 7, extraData := .raw [infraction] }⟩

/-- Two statistics with different infractions, and two payloads for a module that does not exist. -/
theorem hashed_alike :
    (statisticsOf 1).uniteHash = (statisticsOf 2).uniteHash ∧ (statisticsOf 1).payload.view ≠ (statisticsOf 2).payload.view ∧
      ScriptData.uniteHash ⟨0, .raw 1003 [1]⟩ = ScriptData.uniteHash ⟨0, .raw 1003 [2]⟩ := by
  decide

end MeterPov.KBlock
