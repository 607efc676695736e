import MeterPov.Accounts.Regrouped
import MeterPov.Execution.Atomicity

/-! Transactions on states with the same entries in other levels, the gas they use, and what is left of one that is refused. -/

set_option autoImplicit false

namespace MeterPov.Execution

open Lib Accounts Script Auction Program Action

namespace Runtime

variable (rt : Runtime) {depth depth' : Nat}

/-! ## Alike on regrouped states -/

theorem executeEVM_regrouped (clause : Clause) (clauseIndex : Nat) (gas : UInt64) (txCtx : TransactionContext) :
    Simulates (State.Regrouped depth depth') (rt.executeEVM clause clauseIndex gas txCtx) (rt.executeEVM clause clauseIndex gas txCtx) := by
  intro state other known
  have ran := (rt.evm clause clauseIndex gas txCtx).within_any.simulates (fun method _ => method.handle_regrouped) _ _
    (show StateDB.Regrouped depth depth' (.new state) (.new other) from ⟨known, rfl, rfl, [newLevel], rfl, rfl⟩)
  unfold executeEVM
  split at ran
  next result after result' after' left right =>
    obtain ⟨rfl, alike⟩ := ran
    have refunds : after.getRefund = after'.getRefund := by
      unfold StateDB.getRefund
      rw [alike.get_eq fun _ _ => rfl]
    simp only [left, right, refunds, alike.events_eq, alike.transfers_eq]
    exact ⟨trivial, alike.state⟩
  next reason after reason' after' left right =>
    simp only [left, right]
    exact ⟨ran.1, ran.2.state⟩
  · exact ran.elim

theorem executeClause_regrouped (clause : Clause) (clauseIndex : Nat) (gas : UInt64) (txCtx : TransactionContext) :
    Simulates (State.Regrouped depth depth') (rt.executeClause clause clauseIndex gas txCtx)
      (rt.executeClause clause clauseIndex gas txCtx) := by
  unfold executeClause
  split
  · exact rt.executeEVM_regrouped _ _ _ _
  · exact .branch (fun _ => .seq (State.run_regrouped _) fun _ => .ret) fun _ => rt.executeEVM_regrouped _ _ _ _

theorem runClauses_regrouped (txCtx : TransactionContext) {checkpoint checkpoint'}
    (alike : State.SameRevision depth depth' checkpoint checkpoint') (clauses : List Clause) (txOutputs : List TxOutput) (gas : UInt64) :
    Simulates (State.Regrouped depth depth') (rt.runClauses txCtx checkpoint clauses txOutputs gas)
      (rt.runClauses txCtx checkpoint' clauses txOutputs gas) := by
  induction clauses generalizing txOutputs gas with
  | nil => exact .ret
  | cons clause rest ih =>
    refine .seq (rt.executeClause_regrouped _ _ _ _) fun output => ?_
    split
    · exact .seq (State.revertTo_regrouped alike) fun _ => .ret
    · exact ih _ _

theorem executeClauses_regrouped (tx : Transaction) (resolved : ResolvedTransaction) (purchase : Purchase) :
    Simulates (State.Regrouped depth depth') (rt.executeClauses tx resolved purchase) (rt.executeClauses tx resolved purchase) := by
  rw [← couples_eq_iff]
  refine .seq State.newCheckpoint_regrouped fun checkpoint checkpoint' alike => ?_
  rw [couples_eq_iff]
  exact rt.runClauses_regrouped _ alike _ _ _

theorem prepareTransaction_regrouped (tx : Transaction) :
    Simulates (State.Regrouped depth depth') (rt.prepareTransaction tx) (rt.prepareTransaction tx) := by
  unfold prepareTransaction
  split
  · exact .ret
  · refine .seq (State.run_regrouped _) fun outcome => ?_
    split
    · exact .ret
    · exact .ret

theorem executeTransaction_regrouped (tx : Transaction) :
    Simulates (State.Regrouped depth depth') (rt.executeTransaction tx) (rt.executeTransaction tx) := by
  refine .seq (rt.prepareTransaction_regrouped tx) fun outcome => ?_
  split
  · exact .ret
  · refine .seq (rt.executeClauses_regrouped _ _ _) fun executed => ?_
    exact .seq State.commitScriptEngineChanges_regrouped fun _ => .seq (State.run_regrouped _) fun _ => .ret

end Runtime

/-! ## Refused transactions -/

/-- What stands beside the levels. -/
def marks (state : State) : SECache × Bool := (state.seCache, state.err)

/-- A program that leaves the cache and the error flag as they are, unless it panics. -/
def Quiet {α : Type} (program : StateProgram α) : Prop :=
  ∀ value, Action.Triple (marks · = value) (program.run StateMethod.handle) (fun _ after => marks after = value) (fun _ => True)

namespace Quiet

variable {α β : Type}

theorem pure {result : α} : Quiet (pure result) := fun _ => .ret fun _ known => known

theorem bind {program} {next : α → StateProgram β} (first : Quiet program) (second : ∀ result, Quiet (next result)) :
    Quiet (program >>= next) := by
  intro value
  rw [Program.run_bind]
  exact .seq (first value) fun result => second result value

theorem ite {condition} [Decidable condition] {first second : StateProgram α} (holds : Quiet first) (fails : Quiet second) :
    Quiet (if condition then first else second) := by
  split
  · exact holds
  · exact fails

theorem get (key : StateKey) : Quiet (StateProgram.ask (.get key)) := by
  intro value
  exact .readThen fun _ _ => .ret fun _ known => known

theorem put (key : StateKey) (written : key.Value) : Quiet (StateProgram.ask (.put key written)) := by
  intro value
  unfold StateProgram.ask
  rw [Program.run_ask]
  exact .readThen fun state known => .branch (fun _ => .fault fun _ _ => trivial) fun _ => .put fun _ _ => known

/-- The error that is absorbed is followed by a panic. -/
theorem decodeStorage (addr : Address) (key : StorageKey) (dec : Raw → Option α) : Quiet (StateProgram.decodeStorage addr key dec) := by
  refine .bind (.get _) fun raw => ?_
  split
  · exact .pure
  · intro value
    refine .via (fun _ _ => True) (fun state _ => ?_) fun _ => .fault fun _ _ => trivial
    split <;> trivial

theorem getEnergy (addr : Address) : Quiet (StateProgram.getEnergy addr) := .bind (.get _) fun _ => .pure

theorem subEnergy (addr : Address) (amount : Int) : Quiet (StateProgram.subEnergy addr amount) := by
  refine .ite .pure (.bind (.getEnergy addr) fun _ => .ite .pure (.bind ?_ fun _ => .pure))
  exact .bind (.get _) fun _ => .put _ _

theorem buyFromOrigin (origin : Address) (baseGasPrice gasPrice prepaid : Int) :
    Quiet (Execution.buyFromOrigin origin baseGasPrice gasPrice prepaid) := by
  refine .ite .pure (.bind (.subEnergy _ _) fun paid => ?_)
  cases paid
  · exact .pure
  · exact .pure

theorem userCredit (self user : Address) (blockTime : Nat) : Quiet (Execution.userCredit self user blockTime) :=
  .bind (.decodeStorage _ _ _) fun _ => .ite .pure (.bind (.decodeStorage _ _ _) fun _ => .pure)

theorem buyGas (tx : Transaction) (origin : Address) (blockTime : Nat) : Quiet (Execution.buyGas tx origin blockTime) := by
  refine .bind (.decodeStorage _ _ _) fun _ => ?_
  split
  · exact .buyFromOrigin _ _ _ _
  refine .bind (.userCredit _ _ _) fun credit => ?_
  refine .ite (.buyFromOrigin _ _ _ _) (.bind (.bind (.decodeStorage _ _ _) fun _ => .pure) fun sponsor => ?_)
  have fromSelf (self : Address) (prepaid : Int) (purchase : Purchase) (rest : StateProgram (Except String Purchase)) (quiet : Quiet rest) :
      Quiet (do if ← StateProgram.subEnergy self prepaid then return .ok purchase else rest) :=
    .bind (.subEnergy _ _) fun _ => .ite .pure quiet
  refine .bind (.bind (.get _) fun _ => .pure) fun _ => .ite ?_ (fromSelf _ _ _ _ (.buyFromOrigin _ _ _ _))
  exact fromSelf _ _ _ _ (fromSelf _ _ _ _ (.buyFromOrigin _ _ _ _))

end Quiet

variable (rt : Runtime)

theorem executeTransaction_refused {tx err start after} (refused : rt.executeTransaction tx start = .ok (.error err) after) : rt.prepareTransaction tx start = .ok (.error err) after := by
  obtain ⟨outcome, paid, prepared, rest⟩ := bind_eq_ok.mp refused
  cases outcome with
  | error reason =>
    cases rest
    exact prepared
  | ok both =>
    obtain ⟨executed, cleared, -, rest⟩ := bind_eq_ok.mp rest
    obtain ⟨_, committed, -, rest⟩ := bind_eq_ok.mp rest
    obtain ⟨receipt, settled, -, rest⟩ := bind_eq_ok.mp rest
    cases rest

theorem prepareTransaction_marks (tx : Transaction) (value : SECache × Bool) :
    Action.Triple (marks · = value) (rt.prepareTransaction tx) (fun _ after => marks after = value) (fun _ => True) := by
  unfold Runtime.prepareTransaction
  split
  · exact .ret fun _ known => known
  · refine .seq (Quiet.buyGas _ _ _ value) fun outcome => ?_
    split
    · exact .ret fun _ known => known
    · exact .ret fun _ known => known

theorem prepareTransaction_beneath (base : State) (tx : Transaction) :
    Action.Always base.Beneath (rt.prepareTransaction tx) base.Beneath := by
  unfold Runtime.prepareTransaction
  split
  · exact .ret fun _ known => known
  · refine .seq (State.run_beneath _) fun outcome => ?_
    split
    · exact .ret fun _ known => known
    · exact .ret fun _ known => known

/-- The checkpoint before a refused transaction brings back the state as it was. -/
theorem refused_restored {tx err start after}
    (refused : rt.executeTransaction tx { start with sm := start.sm.push } = .ok (.error err) after) :
    State.revertTo start.sm.depth after = .ok () start := by
  have prepared := executeTransaction_refused rt refused
  have marked := prepareTransaction_marks rt tx (marks start) { start with sm := start.sm.push } rfl
  have beneath := prepareTransaction_beneath rt start tx { start with sm := start.sm.push }
    ⟨rfl, ⟨newLevel, [], rfl⟩, fun held => held, fun held => held⟩
  rw [prepared] at marked beneath
  have back := revertTo_backAt start after beneath
  have restored : after.sm.popTo start.sm.depth = start.sm := StackedMap.eq_of_levels back.source back.levels
  have same : { after with sm := after.sm.popTo start.sm.depth } = start := by
    obtain ⟨seCache, err⟩ := Prod.mk.inj marked
    cases start
    cases after
    rw [restored, seCache, err]
  change EStateM.Result.ok () { after with sm := after.sm.popTo start.sm.depth } = .ok () start
  rw [same]

/-! ## Gas -/

/-- A handler that returns no more gas than it is given. -/
def Bounded (gas : UInt64) (handler : ScriptM Handled) : Prop := ∀ log, (handler.run log).Returns fun result => result.1.1 ≤ gas

namespace Bounded

variable {gas : UInt64} {α : Type}

theorem ret {left err} (within : left ≤ gas) : Bounded gas (pure (left, err)) := fun _ => within

theorem after {program} {next : α → ScriptM Handled} (each : ∀ result, Bounded gas (next result)) :
    Bounded gas (program >>= next) := by
  intro log
  exact .after _ fun result => each result.1 result.2

theorem ite {condition} [Decidable condition] {first second} (holds : Bounded gas first) (fails : Bounded gas second) :
    Bounded gas (if condition then first else second) := by
  split
  · exact holds
  · exact fails

end Bounded

theorem leftOverOf_le (gas : UInt64) : leftOverOf gas ≤ gas := by
  unfold leftOverOf
  split
  · exact UInt64.le_iff_toNat_le.mpr (Nat.zero_le _)
  next enough =>
    rw [UInt64.not_lt] at enough
    exact UInt64.sub_le enough

theorem auction_bounded (mod : Auction.AuctionModule) (env : ScriptEnv) (ab : Auction.AuctionBody) (gas : UInt64) :
    Bounded gas (Auction.handle mod env ab gas) := by
  have left := leftOverOf_le gas
  have all : gas ≤ gas := UInt64.le_refl gas
  have started : Bounded gas (Auction.startAuctionCB mod env ab gas) := by
    refine .after fun cb => .ite (.ret left) (.after fun price => ?_)
    exact .ite (.after fun _ => .after fun _ => .ret left) (.after fun _ => .ret left)
  have closed : Bounded gas (Auction.closeAuctionCB mod env gas) := by
    refine .after fun _ => .after fun cb => .ite (.ret left) (.after fun _ => .after fun _ => .after fun _ => ?_)
    exact .ite (.after fun _ => .after fun _ => .after fun _ => .ret left) (.after fun _ => .after fun _ => .ret left)
  have bid : Bounded gas (Auction.handleAuctionTx mod env ab gas) := by
    refine .after fun cb => .ite (.ret left) (.after fun refused => ?_)
    cases refused with
    | some reason => exact .ret left
    | none =>
      dsimp only
      generalize cb.addAuctionTx _ = added
      cases added with
      | none => exact .ret left
      | some bid =>
        have moving (move : ScriptM Bool) : Bounded gas (do
            if !(← move) then return (leftOverOf gas, some Auction.errNotEnoughMTR)
            StateProgram.ask (.setAuctionCB bid)
            return (leftOverOf gas, none)) := .after fun moved => .ite (.ret left) (.after fun _ => .ret left)
        exact .after fun _ => .ite (moving _) (moving _)
  exact .ite (.ite (.ret all) started) (.ite (.ite (.ret all) closed)
    (.ite (.ite (.ite (.ret all) bid) (.ite (.ret all) bid)) (.ret all)))

structure Runtime.Frugal : Prop where
  evm : ∀ clause clauseIndex gas txCtx, (rt.evm clause clauseIndex gas txCtx).Returns fun handled => handled.1 ≤ gas
  modules : ∀ modID handler, rt.modules modID = some handler → ∀ env payload toAddr gas, Bounded gas (handler env payload toAddr gas)

theorem executeScript_gas (frugal : rt.Frugal) (script : ScriptData) (clause : Clause) (clauseIndex : Nat) (gas : UInt64)
    (txCtx : TransactionContext) :
    Action.Triple (fun _ => True) (rt.executeScript script clause clauseIndex gas txCtx) (fun output _ => output.leftOverGas ≤ gas)
      (fun _ => True) := by
  have bounded : Bounded gas (rt.handleScriptData ⟨rt.forks, rt.ctx, txCtx, clauseIndex⟩ script clause gas) := by
    unfold Runtime.handleScriptData
    split
    · exact .ret (UInt64.le_refl gas)
    · exact auction_bounded _ _ _ _
    · split
      · exact .ret (UInt64.le_refl gas)
      next found => exact frugal.modules _ _ found _ _ _ _
  refine .via (fun result _ => result.1.1 ≤ gas) ((bounded {}).run _) fun result => ?_
  exact .ret fun _ within => within

theorem executeEVM_gas (frugal : rt.Frugal) (clause : Clause) (clauseIndex : Nat) (gas : UInt64) (txCtx : TransactionContext) :
    Action.Triple (fun _ => True) (rt.executeEVM clause clauseIndex gas txCtx) (fun output _ => output.leftOverGas ≤ gas)
      (fun _ => True) := by
  intro state _
  have ran := (frugal.evm clause clauseIndex gas txCtx).run DBMethod.handle (StateDB.new state) trivial
  unfold Runtime.executeEVM
  cases outcome : (rt.evm clause clauseIndex gas txCtx).run DBMethod.handle (StateDB.new state) with
  | ok handled db =>
    rw [outcome] at ran
    exact ran
  | error fault db => trivial

theorem executeClause_gas (frugal : rt.Frugal) (clause : Clause) (clauseIndex : Nat) (gas : UInt64) (txCtx : TransactionContext) :
    Action.Triple (fun _ => True) (rt.executeClause clause clauseIndex gas txCtx) (fun output _ => output.leftOverGas ≤ gas)
      (fun _ => True) := by
  unfold Runtime.executeClause
  split
  · exact executeEVM_gas rt frugal _ _ _ _
  · exact .branch (fun _ => executeScript_gas rt frugal _ _ _ _ _) fun _ => executeEVM_gas rt frugal _ _ _ _

theorem refunded_le {gas left refund : UInt64} (within : left ≤ gas) :
    left + (if refund < (gas - left) / 2 then refund else (gas - left) / 2) ≤ gas := by
  have half : ((gas - left) / 2).toNat = (gas.toNat - left.toNat) / 2 := by
    rw [UInt64.toNat_div, UInt64.toNat_sub_of_le _ _ within]
    rfl
  have bound := gas.toNat_lt
  rw [UInt64.le_iff_toNat_le] at within ⊢
  split
  next less =>
    rw [UInt64.lt_iff_toNat_lt] at less
    rw [UInt64.toNat_add, Nat.mod_eq_of_lt (by omega)]
    omega
  · rw [UInt64.toNat_add, Nat.mod_eq_of_lt (by omega)]
    omega

theorem runClauses_gas (frugal : rt.Frugal) (txCtx : TransactionContext) (checkpoint : Nat) (clauses : List Clause)
    (txOutputs : List TxOutput) (gas : UInt64) :
    Action.Triple (fun _ => True) (rt.runClauses txCtx checkpoint clauses txOutputs gas) (fun executed _ => executed.leftOverGas ≤ gas)
      (fun _ => True) := by
  induction clauses generalizing txOutputs gas with
  | nil => exact .ret fun _ _ => UInt64.le_refl gas
  | cons clause rest ih =>
    refine .seq (executeClause_gas rt frugal _ _ _ _) fun output => .each fun start within => ?_
    have refunded := @refunded_le gas output.leftOverGas output.refundGas within
    split
    · refine .via (fun _ _ => True) (fun _ _ => trivial) fun _ => .ret fun _ _ => refunded
    · exact .conseq (ih _ _) (fun _ _ => trivial) (fun _ _ below => UInt64.le_trans below refunded) fun _ _ _ => trivial

variable {resolved : ResolvedTransaction} {tx : Transaction}

theorem intrinsicGas_le (known : resolveTransaction tx = .ok resolved) : resolved.intrinsicGas ≤ tx.gas := by
  obtain ⟨origin, -, known⟩ := check_bind_eq_ok.mp known
  obtain ⟨intrinsicGas, -, known⟩ := check_bind_eq_ok.mp known
  obtain ⟨enough, known⟩ := guard_eq_ok.mp known
  obtain ⟨_, -, ⟨⟩⟩ := check_bind_eq_ok.mp known
  exact UInt64.not_lt.mp enough

theorem resolved_of_prepared {purchase start after} (prepared : rt.prepareTransaction tx start = .ok (.ok (resolved, purchase)) after) :
    resolveTransaction tx = .ok resolved := by
  unfold Runtime.prepareTransaction at prepared
  cases known : resolveTransaction tx with
  | error err =>
    simp only [known] at prepared
    cases prepared
  | ok resolved' =>
    simp only [known] at prepared
    obtain ⟨outcome, _, -, rest⟩ := bind_eq_ok.mp prepared
    cases outcome with
    | error err => cases rest
    | ok bought =>
      cases rest
      rfl

theorem gasUsed_le (frugal : rt.Frugal) {start after receipt} (executed : rt.executeTransaction tx start = .ok (.ok receipt) after) : receipt.gasUsed ≤ tx.gas := by
  have returned : receiptOf rt tx start = some receipt := by
    unfold receiptOf
    rw [executed]
  obtain ⟨stations⟩ := exists_stations returned
  have intrinsic := intrinsicGas_le (resolved_of_prepared rt stations.prepared)
  have clauses : Action.Triple (fun _ => True) (rt.executeClauses tx stations.resolved stations.purchase)
      (fun executed _ => executed.leftOverGas ≤ tx.gas - stations.resolved.intrinsicGas) (fun _ => True) :=
    .via (fun _ _ => True) (fun _ _ => trivial) fun _ => runClauses_gas rt frugal _ _ _ _ _
  have ran := clauses stations.paid trivial
  rw [stations.ran] at ran
  have left := UInt64.le_trans ran (UInt64.sub_le intrinsic)
  have used : receipt.gasUsed = tx.gas - stations.executed.leftOverGas := by
    rw [stations.executed_eq]
    grind
  rw [used]
  exact UInt64.sub_le left

end MeterPov.Execution
