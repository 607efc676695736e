import MeterPov.Execution.Transaction

/-! What a transaction whose clause fails leaves of its clauses.

The stacked map goes back to the checkpoint. The cache of the script engine does not: it is flushed
to storage after the revert, so a reverted transaction leaves exactly what its clauses left there. -/

set_option autoImplicit false

namespace MeterPov.Execution

open Lib Accounts Script Auction Option StackedMap Action

/-- The state has the levels of `base` and nothing above them. -/
structure BackAt (base state : State) : Prop where
  source : state.sm.src = base.sm.src
  levels : state.sm.mapStack = base.sm.mapStack
  auctionCB : base.seCache.auctionCB.isSome → state.seCache.auctionCB.isSome
  summaryList : base.seCache.auctionSummaryList.isSome → state.seCache.auctionSummaryList.isSome

theorem BackAt.get_eq {base state} (back : BackAt base state) (key : StateKey) : state.get key = base.get key := by
  unfold State.get
  rw [StackedMap.get_eq, StackedMap.get_eq, back.source, back.levels]

theorem revertTo_backAt (base : State) :
    Action.Triple base.Beneath (State.revertTo base.sm.depth) (fun _ => BackAt base) (fun _ => True) := by
  refine .write fun state beneath => ?_
  obtain ⟨top, above, levels⟩ := beneath.levels
  refine ⟨(state.sm.popTo_src _).trans beneath.source, ?_, beneath.auctionCB, beneath.summaryList⟩
  change (state.sm.popTo base.sm.mapStack.length).mapStack = _
  rw [popTo_mapStack, levels, ← List.cons_append, List.length_append, Nat.add_sub_cancel, List.drop_left]

section

variable {base : State} (rt : Runtime)

theorem executeEVM_beneath (clause : Clause) (clauseIndex : Nat) (gas : UInt64) (txCtx : TransactionContext) :
    Action.Always base.Beneath (rt.executeEVM clause clauseIndex gas txCtx) base.Beneath := by
  intro state beneath
  -- whatever code a clause runs, it leaves the levels it did not make
  have confined := (rt.evm clause clauseIndex gas txCtx).within_any.run_keeps (fun method _ => method.handle_confined) (StateDB.new state)
    (StateDB.confined_new beneath)
  unfold Runtime.executeEVM
  split at confined
  next result db ran =>
    rw [ran]
    exact confined.beneath
  next fault db ran =>
    rw [ran]
    exact confined.beneath

theorem executeClause_beneath (clause : Clause) (clauseIndex : Nat) (gas : UInt64) (txCtx : TransactionContext) :
    Action.Always base.Beneath (rt.executeClause clause clauseIndex gas txCtx) base.Beneath := by
  unfold Runtime.executeClause
  split
  · exact executeEVM_beneath rt _ _ _ _
  · exact .branch (fun _ => .seq (State.run_beneath _) fun _ => .ret fun _ known => known) fun _ => executeEVM_beneath rt _ _ _ _

/-- Whichever clause fails, the loop ends at the checkpoint it was given. -/
theorem runClauses_backAt (txCtx : TransactionContext) (clauses : List Clause) (txOutputs : List TxOutput) (gas : UInt64) :
    Action.Triple base.Beneath (rt.runClauses txCtx base.sm.depth clauses txOutputs gas)
      (fun executed after => executed.reverted = true → BackAt base after) (fun _ => True) := by
  induction clauses generalizing txOutputs gas with
  | nil => exact .ret fun _ _ reverted => by cases reverted
  | cons clause rest ih =>
    have ran : Action.Triple base.Beneath (rt.executeClause clause txOutputs.length gas txCtx) (fun _ => base.Beneath) (fun _ => True) :=
      .conseq (executeClause_beneath rt _ _ _ _) (fun _ known => known) (fun _ _ known => known) fun _ _ => trivial
    refine .seq ran fun output => ?_
    split
    · exact .seq (revertTo_backAt base) fun _ => .ret fun _ back _ => back
    · exact ih _ _

/-- The checkpoint is the depth before it, and lies above all levels there were. -/
theorem executeClauses_backAt (tx : Transaction) (resolved : ResolvedTransaction) (purchase : Purchase) :
    Action.Triple (· = base) (rt.executeClauses tx resolved purchase)
      (fun executed after => executed.reverted = true → BackAt base after) (fun _ => True) := by
  have checked : Action.Triple (· = base) State.newCheckpoint
      (fun checkpoint after => checkpoint = base.sm.depth ∧ base.Beneath after) (fun _ => True) := by
    rintro state rfl
    exact ⟨rfl, rfl, ⟨newLevel, [], rfl⟩, fun held => held, fun held => held⟩
  refine .seq checked fun checkpoint => .assuming fun same => ?_
  subst same
  exact runClauses_backAt rt _ _ _ _

end

/-- A key other than the two slots of the auction objects. -/
def Ordinary (key : StateKey) : Prop := key ≠ auctionCBKey ∧ key ≠ auctionSummaryListKey

/-- A method that leaves the auction objects alone. -/
def Apart : StateMethod → Prop
  | .get key => Ordinary key
  | .put key _ => Ordinary key
  | .setError => True
  | _ => False

section

theorem ordinary_account (addr : Address) : Ordinary (.account addr) := ⟨nofun, nofun⟩

theorem ordinary_storage {addr} (apart : addr ≠ auctionModuleAddr) (key : StorageKey) : Ordinary (.storage addr key) := by
  constructor <;> simp [auctionCBKey, auctionSummaryListKey, apart]

open Program

theorem decodeStorage_apart {α addr key} {dec : Raw → Option α} (ordinary : Ordinary (.storage addr key)) : Within Apart (StateProgram.decodeStorage addr key dec) := by
  refine .bind (.ask ordinary) fun raw => ?_
  split
  · exact .pure
  · exact .bind (.ask trivial) fun _ => trivial

theorem addEnergy_apart (addr : Address) (amount : Int) : Within Apart (StateProgram.addEnergy addr amount) := by
  refine .ite .pure (.bind (.bind (.ask (ordinary_account addr)) fun _ => .pure) fun energy => ?_)
  exact .bind (.ask (ordinary_account addr)) fun _ => .ask (ordinary_account addr)

theorem returnGas_apart (tx : Transaction) (origin : Address) (blockTime : Nat) (purchase : Purchase) (rgas : UInt64) :
    Within Apart (returnGas tx origin blockTime purchase rgas) := by
  refine .bind (addEnergy_apart _ _) fun _ => ?_
  split
  · exact .pure
  · exact .bind (decodeStorage_apart (ordinary_storage (by decide) _)) fun _ => .ask (ordinary_storage (by decide) _)

theorem finalize_apart (rt : Runtime) (tx : Transaction) (origin : Address) (purchase : Purchase)
    (executed : Runtime.Executed) : Within Apart (rt.finalize tx origin purchase executed) := by
  unfold Runtime.finalize
  split
  · refine .bind (returnGas_apart _ _ _ _ _) fun _ => ?_
    refine .bind (.bind (decodeStorage_apart (ordinary_storage (by decide) _)) fun _ => .pure) fun _ => ?_
    exact .bind (addEnergy_apart _ _) fun _ => .pure
  · exact .pure

/-- The two states read alike outside the slots of the auction objects. -/
structure AlikeApart (state other : State) : Prop where
  entries : ∀ key, Ordinary key → state.get key = other.get key
  depths : state.sm.depth = 0 ↔ other.sm.depth = 0

theorem put_alikeApart {state other} (alike : AlikeApart state other) (key : StateKey) (value : key.Value) (nonempty : state.sm.depth ≠ 0) :
    AlikeApart { state with sm := state.sm.put key value } { other with sm := other.sm.put key value } where
  entries := by
    intro entry ordinary
    have nonempty' : other.sm.depth ≠ 0 := fun empty => nonempty (alike.depths.mpr empty)
    by_cases same : entry = key
    · subst same
      rw [State.get_put_self nonempty, State.get_put_self nonempty']
    · rw [State.get_put_of_ne _ same, State.get_put_of_ne _ same]
      exact alike.entries entry ordinary
  depths := by simpa [StackedMap.depth, put_mapStack_length] using alike.depths

theorem handle_simulates (method : StateMethod) (apart : Apart method) : Program.Simulates AlikeApart method.handle method.handle := by
  intro state other alike
  cases method with
  | get key => exact ⟨alike.entries key apart, alike⟩
  | setError => exact ⟨rfl, alike.entries, alike.depths⟩
  | put key value =>
    simp only [StateMethod.handle, State.put_eq]
    by_cases empty : state.sm.depth = 0
    · rw [if_pos empty, if_pos (alike.depths.mp empty)]
      exact ⟨rfl, alike⟩
    · rw [if_neg empty, if_neg fun empty' => empty (alike.depths.mpr empty')]
      exact ⟨trivial, put_alikeApart alike key value empty⟩
  | getAuctionCB => exact apart.elim
  | setAuctionCB cb => exact apart.elim
  | getSummaryList => exact apart.elim
  | setSummaryList summaries => exact apart.elim

/-- What a program apart from the auction objects leaves of them. -/
structure AuctionKept (start state : State) : Prop where
  seCache : state.seCache = start.seCache
  auctionCB : state.get auctionCBKey = start.get auctionCBKey
  summaryList : state.get auctionSummaryListKey = start.get auctionSummaryListKey

theorem run_auctionKept {α} {program : StateProgram α} (apart : program.Within Apart) (start : State) :
    Action.Always (AuctionKept start) (program.run StateMethod.handle) (AuctionKept start) := by
  refine apart.run_keeps fun method fine => ?_
  cases method with
  | get key => exact .readThen fun _ _ => .ret fun _ known => known
  | setError => exact .write fun _ kept => ⟨kept.seCache, kept.auctionCB, kept.summaryList⟩
  | put key value =>
    intro state kept
    simp only [StateMethod.handle, State.put_eq]
    split
    next result after ran =>
      split at ran
      · cases ran
      · cases ran
        refine ⟨kept.seCache, ?_, ?_⟩
        · exact (State.get_put_of_ne state (Ne.symm fine.1) value).trans kept.auctionCB
        · exact (State.get_put_of_ne state (Ne.symm fine.2) value).trans kept.summaryList
    next reason after ran =>
      split at ran
      · cases ran
        exact kept
      · cases ran
  | getAuctionCB => exact fine.elim
  | setAuctionCB cb => exact fine.elim
  | getSummaryList => exact fine.elim
  | setSummaryList summaries => exact fine.elim

end

section

/-- A slot of the auction module after its object was encoded into it, if there was one. -/
structure Encoded (key : StorageKey) (cached : Option Raw) (start after : State) : Prop where
  seCache : after.seCache = start.seCache
  slot : after.get (.storage auctionModuleAddr key) = cached.getD (start.get (.storage auctionModuleAddr key))
  others : ∀ other, other ≠ .storage auctionModuleAddr key → after.get other = start.get other
  depths : after.sm.depth = start.sm.depth

theorem encodeCached_spec (start : State) (key : StorageKey) (cached : Option Raw) :
    Action.Triple (· = start) (State.encodeCached key cached) (fun _ => Encoded key cached start) (fun _ => True) := by
  cases cached with
  | none =>
    refine .ret fun state same => ?_
    subst same
    exact ⟨rfl, rfl, fun _ _ => rfl, rfl⟩
  | some raw =>
    rintro state rfl
    unfold State.encodeCached
    dsimp only
    rw [State.put_eq]
    split
    next result after ran =>
      split at ran
      · cases ran
      next nonempty =>
        cases ran
        refine ⟨rfl, ?_, fun other different => ?_, put_mapStack_length ..⟩
        · exact State.get_put_self nonempty (.storage auctionModuleAddr key) raw
        · exact State.get_put_of_ne state different _
    · trivial

/-- What `CommitScriptEngineChanges` leaves: each slot has the cached object, if there is one. -/
structure Flushed (start after : State) : Prop where
  seCache : after.seCache = start.seCache
  auctionCB : after.get auctionCBKey = (start.seCache.auctionCB.map .auctionCB).getD (start.get auctionCBKey)
  summaryList : after.get auctionSummaryListKey =
    (start.seCache.auctionSummaryList.map .summaries).getD (start.get auctionSummaryListKey)
  alike : AlikeApart after start

theorem commitScriptEngineChanges_spec (start : State) :
    Action.Triple (· = start) State.commitScriptEngineChanges (fun _ => Flushed start) (fun _ => True) := by
  have slots : auctionSummaryListKey ≠ auctionCBKey := by decide
  refine .readThen fun state same => ?_
  subst same
  refine .seq (encodeCached_spec state _ _) fun _ => .each fun middle first => .readThen fun middle' same => ?_
  subst same
  refine .conseq (encodeCached_spec middle' _ _) (fun _ known => known) (fun _ after second => ?_) fun _ _ _ => trivial
  refine ⟨second.seCache.trans first.seCache, ?_, ?_, fun key ordinary => ?_, ?_⟩
  · exact (second.others _ slots.symm).trans first.slot
  · rw [← first.seCache, ← first.others _ slots]
    exact second.slot
  · exact (second.others key ordinary.2).trans (first.others key ordinary.1)
  · rw [second.depths, first.depths]

end

section

def auctionCBRead (state : State) : Option AuctionCB := (State.getAuctionCB.value? state).join

def summaryListRead (state : State) : Option (List AuctionSummary) := (State.getSummaryList.value? state).join

/-- The same accounts, code and storage, the staking lists among it, and the same auction objects. -/
structure SameState (state other : State) : Prop where
  entries : ∀ key, state.get key = other.get key
  auctionCB : auctionCBRead state = auctionCBRead other
  summaryList : summaryListRead state = summaryListRead other

variable (rt : Runtime) (tx : Transaction) (start : State)

def receiptOf : Option Receipt :=
  match rt.executeTransaction tx start with
  | .ok (.ok receipt) _ => some receipt
  | _ => none

def paidState : State := (rt.prepareTransaction tx).finalState start

/-- The state right after `BuyGas` with only the gas return and the fee credit that go with the receipt. -/
def settledState (receipt : Receipt) : State :=
  match rt.prepareTransaction tx start with
  | .ok (.ok (resolved, purchase)) paid =>
    ((rt.finalize tx resolved.origin purchase ⟨receipt.reverted, receipt.outputs, tx.gas - receipt.gasUsed⟩).run
      StateMethod.handle).finalState paid
  | _ => start

/-- The script engine's cache as the clauses leave it. -/
def cacheLeft : SECache :=
  match rt.prepareTransaction tx start with
  | .ok (.ok (resolved, purchase)) paid => ((rt.executeClauses tx resolved purchase).finalState paid).seCache
  | _ => start.seCache

/-- What the cache holds is what was read before, and its encoding is what was stored. -/
@[mk_iff restorable_iff]
structure Restorable (paid : State) (cache : SECache) : Prop where
  auctionCB : ∀ cb, cache.auctionCB = some cb → auctionCBRead paid = some cb ∧ paid.get auctionCBKey = .auctionCB cb
  summaryList : ∀ summaries, cache.auctionSummaryList = some summaries →
    summaryListRead paid = some summaries ∧ paid.get auctionSummaryListKey = .summaries summaries

variable {rt tx start}

theorem auctionCBRead_eq (state : State) :
    auctionCBRead state = state.seCache.auctionCB.or (State.decodeAuctionCB (state.get auctionCBKey)) := by
  unfold auctionCBRead Action.value? State.getAuctionCB
  simp only [bind, EStateM.bind, MonadState.get, getThe, MonadStateOf.get, EStateM.get]
  cases state.seCache.auctionCB with
  | some cached => rfl
  | none => cases State.decodeAuctionCB (state.get auctionCBKey) <;> rfl

theorem summaryListRead_eq (state : State) : summaryListRead state =
      state.seCache.auctionSummaryList.or (State.decodeSummaries (state.get auctionSummaryListKey)) := by
  unfold summaryListRead Action.value? State.getSummaryList
  simp only [bind, EStateM.bind, MonadState.get, getThe, MonadStateOf.get, EStateM.get]
  cases state.seCache.auctionSummaryList with
  | some cached => rfl
  | none => cases State.decodeSummaries (state.get auctionSummaryListKey) <;> rfl

/-- One cached object: it is flushed over what was stored, and read before what is stored. -/
theorem slot_restored_iff {α : Type} (encode : α → Raw) (decode : Raw → Option α) (stored : Raw) {before after : Option α}
    (kept : before.isSome → after.isSome) :
    ((after.map encode).getD stored = stored ∧ after.or (decode ((after.map encode).getD stored)) = before.or (decode stored)) ↔
      ∀ value, after = some value → before.or (decode stored) = some value ∧ stored = encode value := by
  cases after with
  | none =>
    have missing : before = none := by simpa using kept
    simp [missing]
  | some value =>
    simp only [map_some, getD_some, some_or, Option.some.injEq, forall_eq']
    exact ⟨fun ⟨same, read⟩ => ⟨read.symm, same.symm⟩, fun ⟨read, same⟩ => ⟨same.symm, read.symm⟩⟩

theorem sameState_iff {state other} (alike : AlikeApart state other) : SameState state other ↔
      (state.get auctionCBKey = other.get auctionCBKey ∧ auctionCBRead state = auctionCBRead other) ∧
        state.get auctionSummaryListKey = other.get auctionSummaryListKey ∧ summaryListRead state = summaryListRead other := by
  constructor
  · intro same
    exact ⟨⟨same.entries _, same.auctionCB⟩, same.entries _, same.summaryList⟩
  · intro ⟨⟨storedCB, readCB⟩, storedList, readList⟩
    refine ⟨fun key => ?_, readCB, readList⟩
    by_cases cbSlot : key = auctionCBKey
    · subst cbSlot
      exact storedCB
    by_cases listSlot : key = auctionSummaryListKey
    · subst listSlot
      exact storedList
    exact alike.entries key ⟨cbSlot, listSlot⟩

theorem finalize_receipt (rt : Runtime) (tx : Transaction) (origin : Address) (purchase : Purchase) (executed : Runtime.Executed) :
    Action.Triple (fun _ => True) ((rt.finalize tx origin purchase executed).run StateMethod.handle)
      (fun receipt _ => executed = ⟨receipt.reverted, receipt.outputs, tx.gas - receipt.gasUsed⟩) (fun _ => True) := by
  have any {α : Type} (program : StateProgram α) :
      Action.Triple (fun _ => True) (program.run StateMethod.handle) (fun _ _ => True) (fun _ => True) :=
    program.within_any.run_keeps fun method _ => fun state _ => by split <;> trivial
  have left : executed.leftOverGas = tx.gas - (tx.gas - executed.leftOverGas) := by grind
  unfold Runtime.finalize
  split
  · rw [Program.run_bind]
    refine .seq (any _) fun _ => ?_
    rw [Program.run_bind]
    refine .seq (any _) fun _ => ?_
    rw [Program.run_bind]
    refine .seq (any _) fun _ => .ret fun _ _ => ?_
    rw [← left]
  · refine .ret fun _ _ => ?_
    rw [← left]

/-- The stations of a transaction that returns a receipt. -/
structure Stations (rt : Runtime) (tx : Transaction) (start : State) (receipt : Receipt) where
  resolved : ResolvedTransaction
  purchase : Purchase
  executed : Runtime.Executed
  paid : State
  cleared : State
  committed : State
  after : State
  prepared : rt.prepareTransaction tx start = .ok (.ok (resolved, purchase)) paid
  ran : rt.executeClauses tx resolved purchase paid = .ok executed cleared
  flushed : State.commitScriptEngineChanges cleared = .ok () committed
  settled : (rt.finalize tx resolved.origin purchase executed).run StateMethod.handle committed = .ok receipt after
  left : (rt.executeTransaction tx).finalState start = after

theorem exists_stations {receipt} (returned : receiptOf rt tx start = some receipt) :
    Nonempty (Stations rt tx start receipt) := by
  unfold receiptOf at returned
  split at returned
  next receipt' after executed =>
    cases returned
    have left : (rt.executeTransaction tx).finalState start = after := by
      unfold Action.finalState
      rw [executed]
    obtain ⟨outcome, paid, prepared, rest⟩ := bind_eq_ok.mp executed
    cases outcome with
    | error err => cases rest
    | ok both =>
      obtain ⟨ended, cleared, ran, rest⟩ := bind_eq_ok.mp rest
      obtain ⟨_, committed, flushed, rest⟩ := bind_eq_ok.mp rest
      obtain ⟨receipt'', after', settled, rest⟩ := bind_eq_ok.mp rest
      cases rest
      exact ⟨⟨both.1, both.2, ended, paid, cleared, committed, _, prepared, ran, flushed, settled, left⟩⟩
  · cases returned

namespace Stations

variable {receipt : Receipt} (stations : Stations rt tx start receipt)

include stations

theorem executed_eq : stations.executed = ⟨receipt.reverted, receipt.outputs, tx.gas - receipt.gasUsed⟩ := by
  have known := finalize_receipt rt tx stations.resolved.origin stations.purchase stations.executed stations.committed trivial
  rw [stations.settled] at known
  exact known

theorem backAt (reverted : receipt.reverted = true) : BackAt stations.paid stations.cleared := by
  have known := executeClauses_backAt rt tx stations.resolved stations.purchase stations.paid rfl
  rw [stations.ran] at known
  exact known (by rw [stations.executed_eq]; exact reverted)

theorem flushed_spec : Flushed stations.cleared stations.committed := by
  have known := commitScriptEngineChanges_spec stations.cleared stations.cleared rfl
  rw [stations.flushed] at known
  exact known

theorem paidState_eq : paidState rt tx start = stations.paid := by
  unfold paidState Action.finalState
  rw [stations.prepared]

theorem cacheLeft_eq : cacheLeft rt tx start = stations.cleared.seCache := by
  unfold cacheLeft Action.finalState
  rw [stations.prepared]
  dsimp only
  rw [stations.ran]

/-- After the revert, `Finalize` does to the state what it would have done right after `BuyGas`. -/
theorem settled_alike (reverted : receipt.reverted = true) : AlikeApart stations.after (settledState rt tx start receipt) := by
  have back := stations.backAt reverted
  have flushed := stations.flushed_spec
  have alike : AlikeApart stations.committed stations.paid := by
    refine ⟨fun key ordinary => (flushed.alike.entries key ordinary).trans (back.get_eq key), flushed.alike.depths.trans ?_⟩
    unfold StackedMap.depth
    rw [back.levels]
  have same := (finalize_apart rt tx stations.resolved.origin stations.purchase stations.executed).simulates
    handle_simulates stations.committed stations.paid alike
  unfold settledState Action.finalState
  rw [stations.prepared]
  dsimp only
  rw [← stations.executed_eq]
  rw [stations.settled] at same
  split at same
  next result after result' after' ranLeft ranRight =>
    cases ranLeft
    rw [ranRight]
    exact same.2
  next ranLeft _ => cases ranLeft
  · exact same.elim

theorem after_kept : AuctionKept stations.committed stations.after := by
  have known := run_auctionKept (finalize_apart rt tx stations.resolved.origin stations.purchase stations.executed)
    stations.committed stations.committed ⟨rfl, rfl, rfl⟩
  rw [stations.settled] at known
  exact known

theorem settled_kept : AuctionKept stations.paid (settledState rt tx start receipt) := by
  have known := run_auctionKept
    (finalize_apart rt tx stations.resolved.origin stations.purchase ⟨receipt.reverted, receipt.outputs, tx.gas - receipt.gasUsed⟩)
    stations.paid stations.paid ⟨rfl, rfl, rfl⟩
  unfold settledState Action.finalState
  rw [stations.prepared]
  dsimp only
  split at known <;> exact known

end Stations

end

section

/-- A runtime past all forks with nothing but the auction in it. -/
def sampleRuntime : Runtime where
  forks := ⟨.mainnet, 0, 0, 0, 0, 0, 0⟩
  ctx := ⟨9, 100, 1000⟩
  auction :=
    { hashing := ⟨fun addr amount _ _ nonce => addr + amount + nonce, fun _ _ _ _ _ _ _ _ => 1⟩
      startEvent := fun _ _ _ _ _ => ⟨0, [], []⟩
      endEvent := fun _ _ _ _ => ⟨0, [], []⟩ }
  modules := fun _ => none
  evm := fun _ _ gas _ => return (gas, none)

def openAuction : AuctionCB := { auctionID := 1, rlsdMTRG := 1000, rsvdPrice := 1 }

/-- Account 7 has 30 MTR and an auction is open. -/
def sampleSource : (key : StateKey) → key.Value
  | .account addr => if addr = 7 then { energy := 30 * 10 ^ 18 } else {}
  | .code _ => []
  | .storage addr key =>
    if addr = auctionModuleAddr ∧ key = .auctionCB then .auctionCB openAuction
    else if addr = paramsAddr ∧ key = .param .baseGasPrice then .number 1
    else .empty

def sampleState : State where
  sm := StackedMap.new fun key => (sampleSource key, true)
  seCache := {}
  err := false

def bidClause (amount : Nat) : Clause :=
  ⟨none, 0, mtr, [], some (.auction { opcode := Auction.opBid, bidder := 7, amount := amount })⟩

def bidsOf (amounts : List Nat) : Transaction where
  signer := .ok 7
  intrinsicGas := .ok 21000
  gas := 100000
  gasPriceCoef := 0
  clauses := amounts.map bidClause
  nonce := 5
  workGas := 0

end

end MeterPov.Execution
