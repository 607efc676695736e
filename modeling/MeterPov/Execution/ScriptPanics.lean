import MeterPov.AccountLock.Handlers
import MeterPov.Execution.Transaction

/-! Where script clauses panic.

The storage slots of the native modules are written by their own setters only. In a state whose slots hold what these
setters write, the handlers read without an error, and what remains are the operations on the clause itself. -/

set_option autoImplicit false

namespace MeterPov.Execution

open Lib Accounts Script Lib.Action Lib.Program Auction AccountLock Option

/-! ## States that can be read -/

/-- What the setters of a slot write into it. -/
def SlotHolds : StorageKey → Raw → Prop
  | .auctionCB, raw => (State.decodeAuctionCB raw).isSome = true
  | .auctionSummaryList, raw => (State.decodeSummaries raw).isSome = true
  | .profileList, raw => (AccountLock.decodeProfiles raw).isSome = true
  | .param _, raw => (decodeNumber raw).isSome = true
  | .meterGovTotalAddSub, raw => (decodeTotal raw).isSome = true
  | _, _ => True

structure Sound (state : State) : Prop where
  levels : state.sm.depth ≠ 0
  slots : ∀ addr key, SlotHolds key (state.get (.storage addr key))

/-- A program that returns from every sound state, and leaves one. -/
def Steady {α : Type} (program : StateProgram α) : Prop :=
  Triple Sound (program.run StateMethod.handle) (fun _ => Sound) fun _ => False

namespace Steady

variable {α β : Type}

theorem ret {value : α} : Steady (pure value : StateProgram α) := fun _ sound => sound

variable {program : StateProgram α}

theorem seq {next : α → StateProgram β} (first : Steady program) (second : ∀ value, Steady (next value)) : Steady (program >>= next) := by
  unfold Steady
  rw [Program.run_bind]
  exact Ends.seq first second

theorem branch {condition} [Decidable condition] {other} (holds : Steady program) (fails : Steady other) : Steady (if condition then program else other) := by
  split
  · exact holds
  · exact fails

theorem read (key : StateKey) : Steady (StateProgram.ask (.get key)) := by
  unfold Steady StateProgram.ask
  exact Ends.readThen fun _ _ => .ret fun _ sound => sound

theorem write {key value} (kept : ∀ state, Sound state → Sound { state with sm := state.sm.put key value }) :
    Steady (StateProgram.ask (.put key value)) := by
  unfold Steady StateProgram.ask
  rw [Program.run_ask]
  refine Ends.readThen fun state sound => .branch (fun empty => absurd empty sound.levels) fun _ => .put fun _ _ => kept state sound

end Steady

theorem depth_put {state} (sound : Sound state) (key : StateKey) (value : key.Value) :
    { state with sm := state.sm.put key value }.sm.depth ≠ 0 := by
  unfold StackedMap.depth
  rw [StackedMap.put_mapStack_length]
  exact sound.levels

theorem updateAccount_steady (addr : Address) (account : Account) : Steady (StateProgram.updateAccount addr account) := by
  refine .write fun state sound => ⟨depth_put sound _ _, fun other key => ?_⟩
  rw [State.get_put_of_ne state (by simp)]
  exact sound.slots other key

theorem setRawStorage_steady {addr key raw} (holds : SlotHolds key raw) :
    Steady (StateProgram.setRawStorage addr key raw) := by
  refine .write fun state sound => ⟨depth_put sound _ _, fun other key' => ?_⟩
  by_cases same : other = addr ∧ key' = key
  · obtain ⟨rfl, rfl⟩ := same
    rw [State.get_put_self sound.levels]
    exact holds
  · rw [State.get_put_of_ne state (by simpa using same)]
    exact sound.slots other key'

/-! ## Accounts -/

theorem getAccount_steady (addr : Address) : Steady (StateProgram.getAccount addr) := .read _

theorem getEnergy_steady (addr : Address) : Steady (StateProgram.getEnergy addr) := .seq (getAccount_steady addr) fun _ => .ret

theorem getBalance_steady (addr : Address) : Steady (StateProgram.getBalance addr) := .seq (getAccount_steady addr) fun _ => .ret

theorem setEnergy_steady (addr : Address) (energy : Int) : Steady (StateProgram.setEnergy addr energy) :=
  .seq (getAccount_steady addr) fun _ => updateAccount_steady addr _

theorem setBalance_steady (addr : Address) (balance : Int) : Steady (StateProgram.setBalance addr balance) :=
  .seq (getAccount_steady addr) fun _ => updateAccount_steady addr _

theorem addEnergy_steady (addr : Address) (amount : Int) : Steady (StateProgram.addEnergy addr amount) :=
  .branch .ret (.seq (getEnergy_steady addr) fun _ => setEnergy_steady addr _)

theorem addBalance_steady (addr : Address) (amount : Int) : Steady (StateProgram.addBalance addr amount) :=
  .branch .ret (.seq (getBalance_steady addr) fun _ => setBalance_steady addr _)

theorem subEnergy_steady (addr : Address) (amount : Int) : Steady (StateProgram.subEnergy addr amount) :=
  .branch .ret (.seq (getEnergy_steady addr) fun _ => .branch .ret (.seq (setEnergy_steady addr _) fun _ => .ret))

theorem subBalance_steady (addr : Address) (amount : Int) : Steady (StateProgram.subBalance addr amount) :=
  .branch .ret (.seq (getBalance_steady addr) fun _ => .branch .ret (.seq (setBalance_steady addr _) fun _ => .ret))

theorem decodeStorage_steady {α addr key} {dec : Raw → Option α} (decodes : ∀ raw, SlotHolds key raw → (dec raw).isSome = true) : Steady (StateProgram.decodeStorage addr key dec) := by
  unfold Steady StateProgram.decodeStorage
  rw [Program.run_bind]
  refine Ends.via (fun raw state => SlotHolds key raw ∧ Sound state) ?_ fun raw => .assuming fun holds => ?_
  · intro state sound
    exact ⟨sound.slots addr key, sound⟩
  · obtain ⟨value, found⟩ := isSome_iff_exists.mp (decodes raw holds)
    rw [found]
    exact fun _ sound => sound

theorem getParam_steady (key : Param) : Steady (getParam key) := decodeStorage_steady fun _ holds => holds

theorem mintMeterGov_steady (tracker addr : Address) (amount : Int) : Steady (mintMeterGov tracker addr amount) := by
  refine .branch .ret (.seq (getBalance_steady addr) fun gov => .seq (decodeStorage_steady fun _ holds => holds) fun total => ?_)
  exact .seq (setRawStorage_steady rfl) fun _ => setBalance_steady addr _

/-! ## Handlers -/

/-- The same for a handler, whatever it has logged before. -/
def SteadyHandler {α : Type} (program : ScriptM α) : Prop :=
  Logged StateMethod.handle Sound program (fun _ => Sound) fun _ => False

namespace SteadyHandler

variable {α β : Type}

theorem ret {value : α} : SteadyHandler (pure value : ScriptM α) := Logged.ret fun _ sound => sound

variable {program : ScriptM α}

theorem seq {next : α → ScriptM β} (first : SteadyHandler program) (second : ∀ value, SteadyHandler (next value)) :
    SteadyHandler (program >>= next) :=
  Logged.seq first second

theorem of_steady {program} (steady : Steady program) : SteadyHandler (liftM program : ScriptM α) :=
  Logged.lifted steady

theorem branch {condition} [Decidable condition] {other} (holds : SteadyHandler program) (fails : SteadyHandler other) : SteadyHandler (if condition then program else other) := by
  split
  · exact holds
  · exact fails

end SteadyHandler

/-- A handler that returns from one state, and leaves a sound one. -/
abbrev Returns {α : Type} (state : State) (program : ScriptM α) : Prop :=
  Logged StateMethod.handle (· = state) program (fun _ => Sound) fun _ => False

theorem SteadyHandler.returns {α} {program : ScriptM α} {state} (known : SteadyHandler program) (sound : Sound state) : Returns state program :=
  known.conseq (fun _ same => same ▸ sound) fun _ _ after => after

/-- A handler that always panics. -/
abbrev Fails {α : Type} (pre : State → Prop) (program : ScriptM α) : Prop :=
  Logged StateMethod.handle pre program (fun _ _ => False) fun _ => True

theorem Fails.first {α β pre program} {next : α → ScriptM β} (fails : Fails pre program) :
    Fails pre (program >>= next) :=
  .seq fails fun _ => .each fun _ given => given.elim

theorem Fails.raised {α pre reason} : Fails pre (liftM (throw reason : StateProgram α) : ScriptM α) :=
  .lifted (Ends.fault fun _ _ => trivial)

theorem addTransfer_steady (sender recipient : Address) (amount : Int) (token : Nat) :
    SteadyHandler (addTransfer sender recipient amount token) :=
  Logged.write fun _ sound => sound

theorem addEvent_steady (event : Event) : SteadyHandler (addEvent event) := Logged.write fun _ sound => sound

theorem transferMTR_steady (sender recipient : Address) (amount : Int) : SteadyHandler (transferMTR sender recipient amount) := by
  refine .branch .ret (.seq (.of_steady (getEnergy_steady sender)) fun energy => .branch .ret ?_)
  refine .seq (.of_steady (subEnergy_steady sender amount)) fun _ => .seq (.of_steady (addEnergy_steady recipient amount)) fun _ => ?_
  exact .seq (addTransfer_steady _ _ _ _) fun _ => .ret

/-! ## The account lock -/

variable (ab : AccountLockBody) {crash pre : State → Prop} {cb : AuctionCB} {state : State}

theorem lacks_steady : SteadyHandler (AccountLock.lacks ab) := by
  have meterGov : SteadyHandler (if ab.meterGovAmount ≠ 0 then do
      let balance ← liftM (StateProgram.getBalance ab.fromAddr)
      if balance < ab.meterGovAmount then pure (some "not enough meter-gov balance") else pure none
      else pure none : ScriptM (Option String)) :=
    .branch (.seq (.of_steady (getBalance_steady _)) fun _ => .branch .ret .ret) .ret
  exact .branch (.seq (.of_steady (getEnergy_steady _)) fun _ => .branch .ret meterGov) meterGov

theorem moveAmounts_steady : SteadyHandler (AccountLock.moveAmounts ab) := by
  have meterGov : SteadyHandler (if ab.meterGovAmount ≠ 0 then do
      let _ ← liftM (StateProgram.subBalance ab.fromAddr ab.meterGovAmount)
      liftM (StateProgram.addBalance ab.toAddr ab.meterGovAmount)
      addTransfer ab.fromAddr ab.toAddr ab.meterGovAmount mtrg
      else pure () : ScriptM Unit) := by
    refine .branch ?_ .ret
    exact .seq (.of_steady (subBalance_steady _ _)) fun _ => .seq (.of_steady (addBalance_steady _ _)) fun _ => addTransfer_steady _ _ _ _
  refine .branch ?_ meterGov
  refine .seq (.of_steady (subEnergy_steady _ _)) fun _ => .seq (.of_steady (addEnergy_steady _ _)) fun _ => ?_
  exact .seq (addTransfer_steady _ _ _ _) fun _ => meterGov

theorem setProfileList_steady (list : List Profile) : Steady (AccountLock.setProfileList list) := setRawStorage_steady rfl

def storedProfiles (state : State) : Option (List Profile) :=
  AccountLock.decodeProfiles (state.get (.storage AccountLock.accountLockModuleAddr .profileList))

/-- Whether an address has a profile in the stored list. -/
def hasProfile (state : State) (addr : Address) : Bool :=
  ((storedProfiles state).bind fun list => AccountLock.getProfile list addr).isSome

theorem getProfileList_spec (sound : Sound state) : Triple (· = state) (AccountLock.getProfileList.run StateMethod.handle)
      (fun list after => list.isSome = true ∧ list = storedProfiles state ∧ after = state) crash := by
  intro start same
  subst same
  have stored : (storedProfiles start).isSome = true := sound.slots _ .profileList
  obtain ⟨list, found⟩ := isSome_iff_exists.mp stored
  rw [AccountLock.getProfileList_run]
  unfold storedProfiles at found
  rw [found]
  exact ⟨rfl, found.symm, rfl⟩

theorem profileListOfState_spec (sound : Sound state) : Logged StateMethod.handle (· = state) AccountLock.profileListOfState
      (fun list after => storedProfiles state = some list ∧ after = state) crash := by
  refine .seq (.lifted (getProfileList_spec sound)) fun list? => ?_
  cases list? with
  | none => exact .each fun _ given => absurd given.1 (by simp)
  | some list => exact Logged.ret fun _ given => ⟨given.2.1.symm, given.2.2⟩

theorem handleAccountLockAdd_steady (gas : UInt64) : SteadyHandler (AccountLock.handleAccountLockAdd ab gas) := by
  refine .each fun state sound => .seq (profileListOfState_spec sound) fun list => ?_
  refine Logged.conseq (?_ : SteadyHandler _) (fun _ given => given.2 ▸ sound) fun _ _ after => after
  exact .branch .ret (.seq (.of_steady (setProfileList_steady _)) fun _ => .ret)

theorem handleAccountLockRemove_steady (gas : UInt64) : SteadyHandler (AccountLock.handleAccountLockRemove ab gas) := by
  refine .each fun state sound => .seq (profileListOfState_spec sound) fun list => ?_
  refine Logged.conseq (?_ : SteadyHandler _) (fun _ given => given.2 ▸ sound) fun _ _ after => after
  exact .branch .ret (.seq (.of_steady (setProfileList_steady _)) fun _ => .ret)

/-- No word has the forty bytes that are taken from it. -/
theorem isExclusiveAccount_fails (mod : AccountLockModule) (addr : Address) :
    Triple pre ((AccountLock.isExclusiveAccount mod addr).run StateMethod.handle) (fun _ _ => False) (fun _ => True) := by
  refine .via (fun _ _ => True) (fun _ _ => trivial) fun val => ?_
  exact .fault fun _ _ => trivial

variable {mod : AccountLockModule} {ab : AccountLockBody} {state : State}

theorem handleAccountLockTransfer_returns (sound : Sound state) (gas : UInt64)
    (free : hasProfile state ab.toAddr = true ∨ hasProfile state ab.fromAddr = false) :
    Returns state (AccountLock.handleAccountLockTransfer mod ab gas) := by
  refine .seq (profileListOfState_spec sound) fun list => .each fun _ given => ?_
  obtain ⟨stored, rfl⟩ := given
  simp only [hasProfile, stored, bind_some] at free
  refine SteadyHandler.returns ?_ sound
  split
  next found => exact .ret
  next absent =>
    rw [if_neg (by simpa using free.resolve_left absent)]
    refine .seq (lacks_steady ab) fun reason => ?_
    cases reason with
    | some reason => exact .ret
    | none => exact .seq (moveAmounts_steady ab) fun _ => .seq (.of_steady (setProfileList_steady _)) fun _ => .ret

theorem governingHandler_returns (sound : Sound state) (gas : UInt64) {epoch} (current : mod.bestBlockEpoch = .ok epoch) :
    Returns state (AccountLock.governingHandler mod gas) := by
  have read : AccountLock.getCurrentEpoch mod = .ok (epoch % 2 ^ 32) := by
    unfold AccountLock.getCurrentEpoch
    rw [current]
    rfl
  unfold AccountLock.governingHandler
  rw [read]
  refine .seq (.lifted (getProfileList_spec sound)) fun list? => .each fun _ given => ?_
  obtain ⟨there, -, rfl⟩ := given
  obtain ⟨list, rfl⟩ := isSome_iff_exists.mp there
  refine SteadyHandler.returns ?_ sound
  exact .seq (.of_steady .ret) fun _ => .seq (.of_steady .ret) fun _ => .seq (.of_steady (setProfileList_steady _)) fun _ => .ret

/-- Where the account lock panics: governing without a destination, governing while the best block has no epoch, and a
transfer from an account that is locked itself. -/
def LockPanics (mod : AccountLockModule) (env : ScriptEnv) (ab : AccountLockBody) (to? : Option Address) (state : State) : Prop :=
  (ab.opcode = AccountLock.opGoverning ∧
    (to? = none ∨ to? = some AccountLock.accountLockModuleAddr ∧ mod.bestBlockEpoch.isOk = false)) ∨
  (ab.opcode = AccountLock.opTransfer ∧ env.txCtx.origin = ab.fromAddr ∧ hasProfile state ab.toAddr = false ∧
    hasProfile state ab.fromAddr = true)

variable {env : ScriptEnv} {gas : UInt64} {payload : Bytes} {to? : Option Address}

theorem accountLock_returns (sound : Sound state)
    (free : ∀ ab, mod.decodeFromBytes payload = .ok ab → ¬ LockPanics mod env ab to? state) :
    Returns state (AccountLock.handle mod env gas payload to?) := by
  have refused {reason : String} : Returns state (pure (gas, some reason) : ScriptM Handled) := SteadyHandler.ret.returns sound
  unfold AccountLock.handle
  split
  · exact refused
  next ab decoded =>
    have harmless := free ab decoded
    simp only [LockPanics, not_or, not_and] at harmless
    obtain ⟨governs, transfers⟩ := harmless
    refine .branch (fun _ => .branch (fun _ => refused) fun _ => (handleAccountLockAdd_steady ab gas).returns sound) fun _ => ?_
    refine .branch (fun _ => .branch (fun _ => refused) fun _ => (handleAccountLockRemove_steady ab gas).returns sound) fun _ => ?_
    refine .branch (fun moves => .branch (fun _ => refused) fun own => ?_) fun _ => .branch (fun governing => ?_) fun _ => refused
    · refine handleAccountLockTransfer_returns sound gas ?_
      have allowed := transfers moves (not_not.mp own)
      cases receives : hasProfile state ab.toAddr with
      | true => exact .inl rfl
      | false => exact .inr (by simpa using allowed receives)
    · obtain ⟨there, epoch⟩ := governs governing
      cases to? with
      | none => exact absurd rfl there
      | some addr =>
        refine .via (fun value after => value = addr ∧ after = state) (.lifted (.ret fun _ same => ⟨rfl, same⟩)) fun value => ?_
        refine .each fun _ given => ?_
        obtain ⟨rfl, rfl⟩ := given
        refine .branch (fun _ => refused) fun own => ?_
        cases current : mod.bestBlockEpoch with
        | ok number => exact governingHandler_returns sound gas current
        | error fault => exact absurd (by rw [current]; rfl) (epoch (by rw [not_not.mp own]))

theorem accountLock_fails (sound : Sound state) (decoded : mod.decodeFromBytes payload = .ok ab)
    (trouble : LockPanics mod env ab to? state) :
    Fails (· = state) (AccountLock.handle mod env gas payload to?) := by
  unfold AccountLock.handle
  rw [decoded]
  rcases trouble with ⟨governing, gone | ⟨own, stops⟩⟩ | ⟨moves, own, absent, locked⟩
  · rw [gone]
    dsimp only
    rw [if_neg (by rw [governing]; decide), if_neg (by rw [governing]; decide), if_neg (by rw [governing]; decide), if_pos governing]
    exact Fails.raised.first
  · rw [own]
    dsimp only
    rw [if_neg (by rw [governing]; decide), if_neg (by rw [governing]; decide), if_neg (by rw [governing]; decide), if_pos governing]
    refine .via (fun value _ => value = AccountLock.accountLockModuleAddr) (.lifted (.ret fun _ _ => rfl)) fun value => ?_
    refine .each fun _ isModule => ?_
    rw [if_neg (not_not.mpr isModule)]
    cases current : mod.bestBlockEpoch with
    | ok number =>
      rw [current] at stops
      cases stops
    | error fault =>
      have read : AccountLock.getCurrentEpoch mod = .error fault := by
        unfold AccountLock.getCurrentEpoch
        rw [current]
        rfl
      unfold AccountLock.governingHandler
      rw [read]
      refine .via (fun _ _ => True) (.lifted fun start _ => ?_) fun _ => Fails.raised.first
      rw [AccountLock.getProfileList_run]
      split
      next returned => split at returned <;> cases returned <;> trivial
      next stopped => split at stopped <;> cases stopped
  · dsimp only
    rw [if_neg (by rw [moves]; decide), if_neg (by rw [moves]; decide), if_pos moves, if_neg (not_not.mpr own)]
    refine .seq (profileListOfState_spec sound) fun list => .each fun _ given => ?_
    obtain ⟨stored, rfl⟩ := given
    simp only [hasProfile, stored, bind_some] at absent locked
    rw [if_neg (by simpa using absent), if_pos locked]
    exact Fails.first (.lifted (isExclusiveAccount_fails mod ab.fromAddr))

/-! ## The auction -/

def readAuctionCB (state : State) : Option AuctionCB := state.seCache.auctionCB.or (State.decodeAuctionCB (state.get auctionCBKey))

theorem getAuctionCB_spec (sound : Sound state) : Triple (· = state) ((StateProgram.ask .getAuctionCB).run StateMethod.handle)
      (fun cb after => cb.isSome = true ∧ cb = readAuctionCB state ∧ Sound after) crash := by
  unfold StateProgram.ask
  rw [Program.run_ask]
  refine Ends.readThen fun start same => ?_
  subst same
  unfold readAuctionCB
  cases cached : start.seCache.auctionCB with
  | some cb => exact .ret fun _ same => ⟨rfl, by simp, same ▸ sound⟩
  | none =>
    obtain ⟨cb, found⟩ := isSome_iff_exists.mp (sound.slots auctionModuleAddr .auctionCB)
    have stored : State.decodeAuctionCB (start.get auctionCBKey) = some cb := found
    rw [stored]
    refine .via (fun _ => Sound) (.write fun _ same => ?_) fun _ => .ret fun _ after => ⟨rfl, rfl, after⟩
    rw [same]
    exact ⟨sound.levels, sound.slots⟩

theorem getSummaryList_spec (sound : Sound state) : Triple (· = state) ((StateProgram.ask .getSummaryList).run StateMethod.handle)
      (fun list after => list.isSome = true ∧ Sound after ∧ readAuctionCB after = readAuctionCB state) crash := by
  unfold StateProgram.ask
  rw [Program.run_ask]
  refine Ends.readThen fun start same => ?_
  subst same
  cases cached : start.seCache.auctionSummaryList with
  | some list => exact .ret fun _ same => ⟨rfl, same ▸ sound, same ▸ rfl⟩
  | none =>
    obtain ⟨list, found⟩ := isSome_iff_exists.mp (sound.slots auctionModuleAddr .auctionSummaryList)
    have stored : State.decodeSummaries (start.get auctionSummaryListKey) = some list := found
    rw [stored]
    refine .via (fun _ after => Sound after ∧ readAuctionCB after = readAuctionCB start) (.write fun _ same => ?_) fun _ =>
      .ret fun _ after => ⟨rfl, after⟩
    rw [same]
    exact ⟨⟨sound.levels, sound.slots⟩, rfl⟩

theorem setAuctionCB_steady (cb : AuctionCB) : Steady (StateProgram.ask (.setAuctionCB cb)) := by
  unfold Steady StateProgram.ask
  exact Ends.write fun _ sound => ⟨sound.levels, sound.slots⟩

theorem setSummaryList_steady (list : List Auction.AuctionSummary) : Steady (StateProgram.ask (.setSummaryList list)) := by
  unfold Steady StateProgram.ask
  exact Ends.write fun _ sound => ⟨sound.levels, sound.slots⟩

theorem auctionCBOfState_spec (sound : Sound state) : Logged StateMethod.handle (· = state) Auction.auctionCBOfState
      (fun cb after => readAuctionCB state = some cb ∧ Sound after) crash := by
  refine .seq (.lifted (getAuctionCB_spec sound)) fun cb? => ?_
  cases cb? with
  | none => exact .each fun _ given => absurd given.1 (by simp)
  | some cb => exact Logged.ret fun _ given => ⟨given.2.1.symm, given.2.2⟩

variable {auction : AuctionModule} {body : AuctionBody}

theorem auctionCBOfState_steady : SteadyHandler Auction.auctionCBOfState :=
  .each fun _ sound => (auctionCBOfState_spec sound).conseq (fun _ same => same) fun _ _ given => given.2

theorem startAuctionCB_steady : SteadyHandler (Auction.startAuctionCB auction env body gas) := by
  refine .seq auctionCBOfState_steady fun cb => .branch .ret (.seq (.of_steady (getParam_steady _)) fun price => ?_)
  refine .branch (.seq (addEvent_steady _) fun _ => ?_) ?_
  all_goals exact .seq (.of_steady (setAuctionCB_steady _)) fun _ => .ret

theorem refusal_steady : SteadyHandler (Auction.refusal body) := by
  refine .branch (.seq (.of_steady (getEnergy_steady _)) fun _ => .branch .ret .ret) ?_
  exact .seq (.of_steady (getEnergy_steady _)) fun _ => .branch .ret (.branch .ret .ret)

theorem handleAuctionTx_steady : SteadyHandler (Auction.handleAuctionTx auction env body gas) := by
  refine .seq auctionCBOfState_steady fun cb => .branch .ret (.seq refusal_steady fun reason => ?_)
  cases reason with
  | some reason => exact .ret
  | none =>
    dsimp only
    split
    · exact .ret
    next bid added =>
      refine .seq (.of_steady (setAuctionCB_steady bid)) fun _ => ?_
      have settled (moved : Bool) : SteadyHandler (if (!moved) = true then pure (leftOverOf gas, some Auction.errNotEnoughMTR) else do
            liftM (StateProgram.ask (.setAuctionCB bid))
            pure (leftOverOf gas, none) : ScriptM Handled) :=
        .branch .ret (.seq (.of_steady (setAuctionCB_steady bid)) fun _ => .ret)
      refine .branch ?_ ?_
      all_goals exact .seq (transferMTR_steady _ _ _) settled

theorem mintMTRGToBidder_steady (addr : Address) (amount : Nat) : SteadyHandler (Auction.mintMTRGToBidder env addr amount) :=
  .branch .ret (.seq (.of_steady (mintMeterGov_steady _ _ _)) fun _ => addTransfer_steady _ _ _ _)

/-- The price at which an auction is cleared is zero. -/
def PriceVanishes (cb : AuctionCB) : Prop := cb.rsvdPrice = 0 ∧ (cb.rlsdMTRG = 0 ∨ cb.rcvdMTR * 10 ^ 18 < cb.rlsdMTRG)

def clearingPrice (cb : AuctionCB) : Nat :=
  let bidPrice := if 0 < cb.rlsdMTRG then cb.rcvdMTR * 10 ^ 18 / cb.rlsdMTRG else cb.rsvdPrice
  if bidPrice < cb.rsvdPrice then cb.rsvdPrice else bidPrice

theorem clearingPrice_eq_zero : clearingPrice cb = 0 ↔ PriceVanishes cb := by
  unfold clearingPrice PriceVanishes
  rcases Nat.eq_zero_or_pos cb.rlsdMTRG with none | some
  · simp [none]
  · have divided : cb.rcvdMTR * 10 ^ 18 / cb.rlsdMTRG = 0 ↔ cb.rcvdMTR * 10 ^ 18 < cb.rlsdMTRG := by
      simp [Nat.div_eq_zero_iff, some.ne']
    simp only [some, if_true, some.ne', false_or, ← divided]
    generalize cb.rcvdMTR * 10 ^ 18 / cb.rlsdMTRG = bidPrice
    split <;> omega

theorem groupBids_ok {price} (positive : price ≠ 0) (txs : List AuctionTx) (groups : List Auction.DistMtrg) :
    ∃ grouped, Auction.groupBids price txs groups = .ok grouped := by
  induction txs generalizing groups with
  | nil => exact ⟨groups, rfl⟩
  | cons tx rest ih =>
    simp only [Auction.groupBids, Auction.mtrgOf, positive, if_false, Exec.ok_bind]
    split <;> exact ih _

theorem clearAuction_returns {ratio} (payable : cb.auctionTxs = [] ∨ clearingPrice cb ≠ 0) :
    SteadyHandler (Auction.clearAuction env cb ratio) := by
  have settle (total : Nat) (dist : List Auction.DistMtrg) : SteadyHandler (do
      Auction.mintMTRGToBidder env Auction.auctionLeftOverAccount cb.rsvdMTRG
      Auction.mintMTRGToBidder env Auction.auctionLeftOverAccount (cb.rlsdMTRG - total)
      let _ ← transferMTRToValidatorBenefit (cb.rcvdMTR * ratio / 10 ^ 18)
      pure (clearingPrice cb, cb.rlsdMTRG - total, dist) : ScriptM (Nat × Nat × List Auction.DistMtrg)) := by
    refine .seq (mintMTRGToBidder_steady _ _) fun _ => .seq (mintMTRGToBidder_steady _ _) fun _ => ?_
    exact .seq (transferMTR_steady _ _ _) fun _ => .ret
  refine .branch ?_ ?_
  · obtain ⟨grouped, ran⟩ : ∃ grouped, Auction.groupBids (clearingPrice cb) cb.auctionTxs [] = .ok grouped := by
      rcases payable with none | positive
      · exact ⟨[], by rw [none]; rfl⟩
      · exact groupBids_ok positive _ _
    change SteadyHandler (liftM (Auction.groupBids (clearingPrice cb) cb.auctionTxs []) >>= _)
    rw [ran]
    refine .seq (.of_steady .ret) fun groups => .seq (Logged.forIn _ (fun group acc => ?_) _) fun paid => settle _ _
    exact .seq (mintMTRGToBidder_steady _ _) fun _ => SteadyHandler.ret
  · refine .seq ?_ fun paid => settle _ _
    rcases payable with none | positive
    · rw [none]
      exact SteadyHandler.ret
    · refine Logged.forIn _ (fun tx acc => ?_) _
      have amount : Auction.mtrgOf (clearingPrice cb) tx.amount = .ok (tx.amount * 10 ^ 18 / clearingPrice cb) := if_neg positive
      change SteadyHandler (liftM (Auction.mtrgOf (clearingPrice cb) tx.amount) >>= _)
      rw [amount]
      refine .seq (.of_steady .ret) fun amount => .seq (mintMTRGToBidder_steady _ _) fun _ => ?_
      exact .branch .ret .ret

theorem clearAuction_fails {ratio} (bids : cb.auctionTxs ≠ []) (zero : clearingPrice cb = 0) :
    Fails pre (Auction.clearAuction env cb ratio) := by
  obtain ⟨tx, rest, isBids⟩ := List.exists_cons_of_ne_nil bids
  have divides (amount : Nat) : Auction.mtrgOf (clearingPrice cb) amount = .error (.raised "division by zero") := if_pos zero
  refine .branch (fun _ => ?_) fun _ => ?_
  · have grouped : Auction.groupBids (clearingPrice cb) cb.auctionTxs [] = .error (.raised "division by zero") := by
      simp only [isBids, Auction.groupBids, divides, Exec.error_bind]
    change Fails pre (liftM (Auction.groupBids (clearingPrice cb) cb.auctionTxs []) >>= _)
    rw [grouped]
    exact Fails.raised.first
  · rw [isBids, List.forIn_cons]
    refine (Fails.first ?_).first
    change Fails pre (liftM (Auction.mtrgOf (clearingPrice cb) tx.amount) >>= _)
    rw [divides]
    exact Fails.raised.first

/-- Where closing an auction panics: there are bids, and the price they are divided by is zero. -/
def CloseDivides (state : State) : Prop :=
  ∃ cb ∈ readAuctionCB state, cb.isActive = true ∧ cb.auctionTxs ≠ [] ∧ PriceVanishes cb

theorem closeAuctionCB_returns (sound : Sound state) (payable : ¬ CloseDivides state) :
    Returns state (Auction.closeAuctionCB auction env gas) := by
  refine .seq (.lifted (getSummaryList_spec sound)) fun list? => .each fun listed ⟨there, soundListed, sameCB⟩ => ?_
  obtain ⟨summaries, rfl⟩ := isSome_iff_exists.mp there
  refine .seq (auctionCBOfState_spec soundListed) fun cb => .each fun after ⟨isCB, soundAfter⟩ => ?_
  refine SteadyHandler.returns ?_ soundAfter
  split
  · exact .ret
  next active =>
    have cleared : cb.auctionTxs = [] ∨ clearingPrice cb ≠ 0 := by
      by_contra trouble
      rw [not_or, not_not, clearingPrice_eq_zero] at trouble
      exact payable ⟨cb, sameCB ▸ isCB, by simpa using active, trouble.1, trouble.2⟩
    refine .seq (.of_steady (getParam_steady _)) fun ratio => .seq (clearAuction_returns cleared) fun paid => ?_
    refine .seq (.of_steady .ret) fun summaries => .branch (.seq (addEvent_steady _) fun _ => ?_) ?_
    all_goals exact .seq (.of_steady (setSummaryList_steady _)) fun _ => .seq (.of_steady (setAuctionCB_steady _)) fun _ => .ret

theorem closeAuctionCB_fails (sound : Sound state) (divides : CloseDivides state) :
    Fails (· = state) (Auction.closeAuctionCB auction env gas) := by
  obtain ⟨open_, isOpen, active, bids, zero⟩ := divides
  refine .seq (.lifted (getSummaryList_spec sound)) fun list? => .each fun listed ⟨there, soundListed, sameCB⟩ => ?_
  refine .seq (auctionCBOfState_spec soundListed) fun cb => .each fun after ⟨isCB, soundAfter⟩ => ?_
  obtain rfl : open_ = cb := Option.some.inj (isOpen.symm.trans (sameCB.symm.trans isCB))
  rw [if_neg (by simpa using active)]
  have ratio : Logged StateMethod.handle (· = after) (liftM (getParam .validatorBenefitRatio) : ScriptM Int) (fun _ => Sound)
      (fun _ => True) :=
    .lifted ((getParam_steady .validatorBenefitRatio).conseq (fun _ same => same ▸ soundAfter) (fun _ _ after => after) fun _ _ => trivial)
  exact .seq ratio fun _ => (clearAuction_fails bids (clearingPrice_eq_zero.mpr zero)).first

def AuctionPanics (env : ScriptEnv) (body : AuctionBody) (state : State) : Prop :=
  body.opcode = Auction.opStop ∧ env.txCtx.origin = 0 ∧ CloseDivides state

theorem auction_fails (sound : Sound state) (trouble : AuctionPanics env body state) :
    Fails (· = state) (Auction.handle auction env body gas) := by
  obtain ⟨stops, kblock, divides⟩ := trouble
  unfold Auction.handle
  rw [if_neg (by rw [stops]; decide), if_pos stops, if_neg (not_not.mpr kblock)]
  exact closeAuctionCB_fails sound divides

/-! ## The script engine -/

def accountLockModuleID : Nat := 1002

/-- The script addresses the auction, the account lock or no module at all. -/
def LockOrAuction (rt : Runtime) : ScriptData → Prop
  | .undecodable _ => True
  | .auction _ => True
  | .other modID _ => modID = accountLockModuleID ∨ rt.modules modID = none

/-- Where a clause of these modules panics. -/
def ScriptPanics (mod : AccountLockModule) (env : ScriptEnv) (script : ScriptData) (clause : Clause) (state : State) : Prop :=
  match script with
  | .undecodable _ => False
  | .auction body => AuctionPanics env body state
  | .other modID payload => modID = accountLockModuleID ∧
      ∃ ab, mod.decodeFromBytes payload = .ok ab ∧ LockPanics mod env ab clause.toAddr state

variable {rt : Runtime} {script : ScriptData} {clause : Clause}

theorem handleScriptData_returns (registered : rt.modules accountLockModuleID =
      some fun env payload to? gas => AccountLock.handle mod env gas payload to?)
    (ours : LockOrAuction rt script) (sound : Sound state) (free : ¬ ScriptPanics mod env script clause state) :
    Returns state (rt.handleScriptData env script clause gas) := by
  cases script with
  | undecodable err => exact SteadyHandler.ret.returns sound
  | auction body =>
    have refused {reason : String} : Returns state (pure (gas, some reason) : ScriptM Handled) := SteadyHandler.ret.returns sound
    refine .branch (fun _ => .branch (fun _ => refused) fun _ => startAuctionCB_steady.returns sound) fun _ => ?_
    refine .branch (fun stops => .branch (fun _ => refused) fun kblock => ?_) fun _ => .branch (fun _ => ?_) fun _ => refused
    · exact closeAuctionCB_returns sound fun divides => free ⟨stops, not_not.mp kblock, divides⟩
    · refine .branch (fun _ => .branch (fun _ => refused) fun _ => handleAuctionTx_steady.returns sound) fun _ => ?_
      exact .branch (fun _ => refused) fun _ => handleAuctionTx_steady.returns sound
  | other modID payload =>
    unfold Runtime.handleScriptData
    dsimp only
    split
    · exact SteadyHandler.ret.returns sound
    next handler found =>
      obtain rfl : modID = accountLockModuleID := ours.resolve_right (by simp [found])
      obtain rfl := Option.some.inj (registered.symm.trans found)
      exact accountLock_returns sound fun ab decoded trouble => free ⟨rfl, ab, decoded, trouble⟩

/-- The run of a clause's script ends in a panic. -/
def Panics (rt : Runtime) (env : ScriptEnv) (script : ScriptData) (clause : Clause) (gas : UInt64) (state : State) : Prop :=
  ∃ fault after, ((rt.handleScriptData env script clause gas).run {}).run StateMethod.handle state = .error fault after

theorem panics_of_scriptPanics (registered : rt.modules accountLockModuleID =
      some fun env payload to? gas => AccountLock.handle mod env gas payload to?)
    (sound : Sound state) (trouble : ScriptPanics mod env script clause state) : Panics rt env script clause gas state := by
  have fails : Fails (· = state) (rt.handleScriptData env script clause gas) := by
    cases script with
    | undecodable err => exact trouble.elim
    | auction body => exact auction_fails sound trouble
    | other modID payload =>
      obtain ⟨rfl, ab, decoded, panics⟩ := trouble
      unfold Runtime.handleScriptData
      dsimp only
      rw [registered]
      exact accountLock_fails sound decoded panics
  have stopped := fails
  have ended := stopped {} state rfl
  split at ended
  · exact ended.elim
  next fault after failed => exact ⟨fault, after, failed⟩

/-- From a state whose slots hold what their setters write, a clause for the auction or the account lock panics in three
cases of the account lock and in one of the auction, and returns in all others. -/
theorem script_panics_iff (rt : Runtime) (mod : AccountLockModule) (env : ScriptEnv) (script : ScriptData) (clause : Clause)
    (gas : UInt64) (state : State)
    (registered : rt.modules accountLockModuleID = some fun env payload to? gas => AccountLock.handle mod env gas payload to?)
    (ours : LockOrAuction rt script) (sound : Sound state) :
    Panics rt env script clause gas state ↔ ScriptPanics mod env script clause state := by
  constructor
  · rintro ⟨fault, after, failed⟩
    by_contra free
    have returned : Returns state (rt.handleScriptData env script clause gas) :=
      handleScriptData_returns registered ours sound free
    have ended := returned {} state rfl
    rw [failed] at ended
    exact ended
  · exact panics_of_scriptPanics registered sound

section

/-- Account 7 is locked, and an auction that released nothing has a bid. -/
def heldSource : MapGetter StateKey StateKey.Value
  | .account _ => ({}, true)
  | .code _ => ([], true)
  | .storage _ .profileList => (.profiles [⟨7, [], 0, 50, 0, 0⟩], true)
  | .storage _ .auctionCB => (.auctionCB { auctionID := 1, auctionTxs := [⟨1, 7, 10, 0, 0, 0⟩] }, true)
  | .storage _ _ => (.empty, true)

def heldState : State := ⟨.new heldSource, {}, false⟩

-- nothing has been put, so every slot is the source's
theorem heldState_get (key : StateKey) : heldState.get key = (heldSource key).1 := rfl

theorem heldState_sound : Sound heldState := by
  refine ⟨by decide, fun addr key => ?_⟩
  cases key <;> first | rfl | trivial

theorem heldState_profiles : storedProfiles heldState = some [⟨7, [], 0, 50, 0, 0⟩] := by
  unfold storedProfiles
  rw [heldState_get]
  simp [heldSource, AccountLock.decodeProfiles, AccountLock.newProfileList]

theorem heldState_hasProfile : hasProfile heldState 7 = true ∧ hasProfile heldState 8 = false := by
  simp [hasProfile, heldState_profiles, AccountLock.getProfile, getIn, indexIn, search]

def bestAtThree : AccountLockModule where
  decodeFromBytes payload :=
    match payload with
    | [opcode] => .ok { opcode := opcode.toNat, fromAddr := 7, toAddr := 8 }
    | _ => .error "rlp: expected input list"
  blake2b := fun _ => 0
  bestBlockEpoch := .ok 3

def lockRuntime : Runtime where
  forks := ⟨.mainnet, 0, 0, 0, 0, 0, 0⟩
  ctx := ⟨9, 100, 1000⟩
  auction :=
    { hashing := ⟨fun addr amount _ _ nonce => addr + amount + nonce, fun _ _ _ _ _ _ _ _ => 1⟩
      startEvent := fun _ _ _ _ _ => ⟨0, [], []⟩
      endEvent := fun _ _ _ _ => ⟨0, [], []⟩ }
  modules := fun modID =>
    if modID = accountLockModuleID then some fun env payload to? gas => AccountLock.handle bestAtThree env gas payload to? else none
  evm := fun _ _ gas _ => return (gas, none)

def sentBy (origin : Address) : ScriptEnv := ⟨lockRuntime.forks, lockRuntime.ctx, ⟨origin, 0, 5⟩, 0⟩

def sentTo (to? : Option Address) : Clause := ⟨to?, 0, mtr, [], none⟩

-- governing sent to the module itself
theorem governing_returns :
    ¬ Panics lockRuntime (sentBy 7) (.other 1002 [100]) (sentTo (some AccountLock.accountLockModuleAddr)) 1000 heldState := by
  rw [script_panics_iff lockRuntime bestAtThree _ (.other 1002 [100]) _ _ _ rfl (.inl rfl) heldState_sound]
  rintro ⟨-, ab, decoded, trouble⟩
  cases decoded
  simp [LockPanics, bestAtThree, sentTo, AccountLock.opTransfer, Except.isOk, Except.toBool] at trouble

/-- A destination left out, a transfer from a locked account, and an auction closed at the price zero. -/
theorem scripts_panic : Panics lockRuntime (sentBy 7) (.other 1002 [100]) (sentTo none) 1000 heldState ∧
    Panics lockRuntime (sentBy 7) (.other 1002 [3]) (sentTo none) 1000 heldState ∧
    Panics lockRuntime (sentBy 0) (.auction { opcode := Auction.opStop }) (sentTo none) 1000 heldState := by
  refine ⟨?_, ?_, ?_⟩
  · exact panics_of_scriptPanics rfl heldState_sound ⟨rfl, _, rfl, .inl ⟨rfl, .inl rfl⟩⟩
  · exact panics_of_scriptPanics rfl heldState_sound ⟨rfl, _, rfl, .inr ⟨rfl, rfl, heldState_hasProfile.2, heldState_hasProfile.1⟩⟩
  · refine panics_of_scriptPanics rfl heldState_sound ⟨rfl, rfl, _, rfl, by decide, by simp, rfl, .inl rfl⟩

end

end MeterPov.Execution
