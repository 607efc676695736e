import MeterPov.Execution.ScriptPanics

/-! The accounts of an auction: what its control block says it has received, the bids it lists and the
energy of the auction account.

What the handlers do to a state is followed on two things only, the control block that is read and the
energy of every account. -/

set_option autoImplicit false

namespace MeterPov.Auction

open Lib Accounts Script Lib.Action Lib.Program Execution List Option Action

/-- The control block and the energy of every account. -/
structure Standing where
  block : Option AuctionCB
  energy : Address → Int

def standing (state : State) : Standing where
  block := readAuctionCB state
  energy addr := (state.get (.account addr) : Account).energy

namespace Standing

def setEnergy (before : Standing) (addr : Address) (energy : Int) : Standing :=
  { before with energy := Function.update before.energy addr energy }

def move (before : Standing) (sender recipient : Address) (amount : Int) : Standing :=
  let sent := before.setEnergy sender (before.energy sender - amount)
  sent.setEnergy recipient (sent.energy recipient + amount)

variable (before : Standing) {sender recipient : Address}

theorem setEnergy_self (addr : Address) : before.setEnergy addr (before.energy addr) = before := by
  simp [setEnergy]

theorem move_zero (sender recipient : Address) : before.move sender recipient 0 = before := by
  simp [move, setEnergy]

variable {before : Standing}

theorem energy_move_recipient (apart : recipient ≠ sender) (amount : Int) :
    (before.move sender recipient amount).energy recipient = before.energy recipient + amount := by
  simp [move, setEnergy, apart]

theorem energy_move_sender (apart : sender ≠ recipient) (amount : Int) :
    (before.move sender recipient amount).energy sender = before.energy sender - amount := by
  simp [move, setEnergy, apart]

theorem energy_move_other {addr} (notSender : addr ≠ sender) (notRecipient : addr ≠ recipient) (amount : Int) :
    (before.move sender recipient amount).energy addr = before.energy addr := by
  simp [move, setEnergy, notSender, notRecipient]

end Standing

theorem standing_putAccount {state} (nonempty : state.sm.depth ≠ 0) (addr : Address) (account : Account) :
    standing { state with sm := state.sm.put (.account addr) account } = (standing state).setEnergy addr account.energy := by
  have block : readAuctionCB { state with sm := state.sm.put (.account addr) account } = readAuctionCB state := by
    unfold readAuctionCB
    rw [State.get_put_of_ne state (by simp [auctionCBKey])]
  have energy : (fun other => ({ state with sm := state.sm.put (.account addr) account }.get (.account other) : Account).energy) =
      Function.update (fun other => (state.get (.account other) : Account).energy) addr account.energy := by
    funext other
    by_cases same : other = addr
    · subst same
      rw [State.get_put_self nonempty, Function.update_self]
    · rw [State.get_put_of_ne state (by simpa using same), Function.update_of_ne same]
  unfold standing Standing.setEnergy
  rw [block, energy]

variable {key : StorageKey}

theorem standing_putStorage (state : State) {addr} (other : key ≠ .auctionCB) (raw : Raw) :
    standing { state with sm := state.sm.put (.storage addr key) raw } = standing state := by
  have block : readAuctionCB { state with sm := state.sm.put (.storage addr key) raw } = readAuctionCB state := by
    unfold readAuctionCB
    rw [State.get_put_of_ne state (by simp [auctionCBKey, Ne.symm other])]
  unfold standing
  rw [block]
  simp only [State.get_put_of_ne state (show StateKey.account _ ≠ .storage addr key by simp)]

/-- What is followed of a state. -/
class Observed (View : Type) where
  observe : State → View

open Observed

instance : Observed Standing := ⟨standing⟩

/-- A program of the state that returns with `post`, if it returns. -/
def Does {α View : Type} [Observed View] (before : View) (program : StateProgram α) (post : α → View → Prop) : Prop :=
  Triple (observe · = before) (program.run StateMethod.handle) (fun result state => post result (observe state)) fun _ => True

variable {α β View : Type} [Observed View]

namespace Does

variable {before : View} {post : α → View → Prop} {program : StateProgram α}

theorem ret {value : α} (holds : post value before) : Does before (pure value : StateProgram α) post :=
  fun state same => (same ▸ holds : post value (observe state))

theorem seq {next mid} {post : β → View → Prop}
    (first : Does before program mid) (second : ∀ value between, mid value between → Does between (next value) post) :
    Does before (program >>= next) post := by
  unfold Does
  rw [Program.run_bind]
  refine Ends.seq first fun value => .each fun start given => ?_
  exact (second value _ given).conseq (fun state same => same ▸ rfl) (fun _ _ known => known) fun _ _ => trivial

theorem conseq {post'} (known : Does before program post) (follows : ∀ value after, post value after → post' value after) : Does before program post' :=
  Triple.conseq known (fun _ same => same) (fun value _ given => follows value _ given) fun _ _ => trivial

end Does

theorem put_does {before after : View} {key value}
    (left : ∀ state, state.sm.depth ≠ 0 → observe state = before → observe { state with sm := state.sm.put key value } = after) :
    Does before (StateProgram.ask (.put key value)) fun _ later => later = after := by
  unfold Does StateProgram.ask
  rw [Program.run_ask]
  intro state same
  have ran : (StateMethod.put key value).handle state = _ := State.put_eq state key value
  rw [ran]
  by_cases empty : state.sm.depth = 0
  · rw [if_pos empty]
    trivial
  · rw [if_neg empty]
    exact left state empty same

variable (before : Standing)

variable (addr : Address)

theorem getAccount_does :
    Does before (StateProgram.getAccount addr) fun account after => after = before ∧ account.energy = before.energy addr := by
  intro state same
  exact ⟨same, same ▸ rfl⟩

theorem updateAccount_does (account : Account) :
    Does before (StateProgram.updateAccount addr account) fun _ after => after = before.setEnergy addr account.energy :=
  put_does fun _ nonempty same => same ▸ standing_putAccount nonempty addr account

theorem getEnergy_does : Does before (StateProgram.getEnergy addr) fun energy after => after = before ∧ energy = before.energy addr :=
  .seq (getAccount_does before addr) fun _ _ ⟨same, energy⟩ => .ret ⟨same, energy⟩

theorem setEnergy_does (energy : Int) :
    Does before (StateProgram.setEnergy addr energy) fun _ after => after = before.setEnergy addr energy :=
  .seq (getAccount_does before addr) fun _ _ ⟨same, _⟩ => same ▸ updateAccount_does _ addr _

theorem setBalance_does (balance : Int) : Does before (StateProgram.setBalance addr balance) fun _ after => after = before := by
  refine .seq (getAccount_does before addr) fun account between given => ?_
  obtain ⟨rfl, energy⟩ := given
  refine (updateAccount_does between addr _).conseq fun _ after left => ?_
  rw [left]
  exact energy ▸ between.setEnergy_self addr

theorem addEnergy_does (amount : Int) :
    Does before (StateProgram.addEnergy addr amount) fun _ after => after = before.setEnergy addr (before.energy addr + amount) := by
  unfold StateProgram.addEnergy
  split
  next zero =>
    subst zero
    exact .ret (by rw [add_zero, Standing.setEnergy_self])
  · refine .seq (getEnergy_does before addr) fun energy between given => ?_
    obtain ⟨rfl, rfl⟩ := given
    exact setEnergy_does between addr _

/-- The result is not looked at by the callers, who have checked the energy. -/
theorem subEnergy_does {before : Standing} {addr amount} (enough : ¬before.energy addr < amount) :
    Does before (StateProgram.subEnergy addr amount) fun _ after => after = before.setEnergy addr (before.energy addr - amount) := by
  unfold StateProgram.subEnergy
  split
  next zero =>
    subst zero
    exact .ret (by rw [Int.sub_zero, Standing.setEnergy_self])
  · refine .seq (getEnergy_does before addr) fun energy between given => ?_
    obtain ⟨rfl, rfl⟩ := given
    rw [if_neg enough]
    exact .seq (setEnergy_does between addr _) fun _ _ left => .ret left

theorem setRawStorage_does (other : key ≠ .auctionCB) (raw : Raw) :
    Does before (StateProgram.setRawStorage addr key raw) fun _ after => after = before :=
  put_does fun state _ same => (standing_putStorage state other raw).trans same

theorem decodeStorage_does (before : View) (addr : Address) (key : StorageKey) (dec : Raw → Option α) :
    Does before (StateProgram.decodeStorage addr key dec) fun _ after => after = before := by
  have read : Does before (StateProgram.getRawStorage addr key) fun _ after => after = before := fun state same => same
  refine .seq read fun raw between same => ?_
  subst same
  split
  · exact .ret rfl
  · intro state _
    trivial

theorem mintMeterGov_does (tracker addr : Address) (amount : Int) :
    Does before (mintMeterGov tracker addr amount) fun _ after => after = before := by
  unfold mintMeterGov
  split
  · exact .ret rfl
  · have read : Does before (StateProgram.getBalance addr) fun _ after => after = before :=
      .seq (getAccount_does before addr) fun _ _ given => .ret given.1
    refine .seq read fun gov _ same => ?_
    subst same
    refine .seq (decodeStorage_does _ _ _ _) fun total _ same => ?_
    subst same
    refine .seq (setRawStorage_does _ _ (by decide) _) fun _ _ same => ?_
    subst same
    exact setBalance_does _ _ _

theorem getAuctionCB_does : Does before (StateProgram.ask .getAuctionCB) fun block after => after = before ∧ block = before.block := by
  unfold Does StateProgram.ask
  rw [Program.run_ask]
  refine Ends.each fun state same => .readThen fun start alike => ?_
  subst same alike
  have block : (observe start : Standing).block = start.seCache.auctionCB.or (State.decodeAuctionCB (start.get auctionCBKey)) := rfl
  cases cached : start.seCache.auctionCB with
  | some cb =>
    refine Ends.ret fun _ alike => ?_
    subst alike
    exact ⟨rfl, by rw [block, cached]; rfl⟩
  | none =>
    rw [cached, none_or] at block
    cases stored : State.decodeAuctionCB (start.get auctionCBKey) with
    | some cb =>
      refine Ends.via (fun _ after => standing after = standing start) (.write fun _ alike => ?_) fun _ => ?_
      · subst alike
        unfold standing readAuctionCB
        rw [cached, stored]
        rfl
      · exact .ret fun _ left => ⟨left, by rw [block, stored]⟩
    | none =>
      refine Ends.via (fun _ after => standing after = standing start) (.write fun _ alike => ?_) fun _ => ?_
      · subst alike
        rfl
      · exact .ret fun _ left => ⟨left, by rw [block, stored]⟩

theorem setAuctionCB_does (cb : AuctionCB) :
    Does before (StateProgram.ask (.setAuctionCB cb)) fun _ after => after = { before with block := some cb } := by
  unfold Does StateProgram.ask
  refine Ends.write fun state same => ?_
  subst same
  rfl

theorem getSummaryList_does : Does before (StateProgram.ask .getSummaryList) fun _ after => after = before := by
  unfold Does StateProgram.ask
  rw [Program.run_ask]
  refine Ends.readThen fun state same => ?_
  split
  · exact .ret fun _ same => same
  · split
    · exact .seq (.write fun _ same => same) fun _ => .ret fun _ same => same
    · exact .seq (.write fun _ same => same) fun _ => .ret fun _ same => same

theorem setSummaryList_does (list : List AuctionSummary) :
    Does before (StateProgram.ask (.setSummaryList list)) fun _ after => after = before := by
  unfold Does StateProgram.ask
  exact Ends.write fun _ same => same

/-! ## Handlers -/

/-- The same for a handler, whatever it has logged before. -/
def Leads (before : View) (program : ScriptM α) (post : α → View → Prop) : Prop :=
  Logged StateMethod.handle (observe · = before) program (fun result state => post result (observe state)) fun _ => True

namespace Leads

variable {before : View} {post : α → View → Prop} {next : α → ScriptM β} {program : ScriptM α}

theorem ret {value : α} (holds : post value before) : Leads before (pure value : ScriptM α) post :=
  Logged.ret fun _ same => same ▸ holds

theorem seq {mid post} (first : Leads before program mid) (second : ∀ value between, mid value between → Leads between (next value) post) :
    Leads before (program >>= next) post := by
  refine Logged.seq first fun value => .each fun start given => ?_
  exact (second value _ given).conseq (fun state same => same ▸ rfl) fun _ _ known => known

theorem after {post} (first : Leads before program fun _ after => after = before) (second : ∀ value, Leads before (next value) post) : Leads before (program >>= next) post :=
  first.seq fun value _ same => same ▸ second value

theorem conseq {post'} (known : Leads before program post) (follows : ∀ value after, post value after → post' value after) : Leads before program post' :=
  Logged.conseq known (fun _ same => same) fun value _ given => follows value _ given

theorem of_does {program} (does : Does before program post) : Leads before (liftM program : ScriptM α) post :=
  Logged.lifted does

theorem log {update} : Leads before (modify update : ScriptM Unit) fun _ after => after = before :=
  Logged.write fun _ same => same

theorem forIn {Item : Type} {body} (items : List Item)
    (each : ∀ item acc, Leads before (body item acc) fun _ after => after = before) (init : β) :
    Leads before (forIn items init body) fun _ after => after = before :=
  Logged.forIn items each init

theorem computed {computation : Exec α} (returns : ∀ value, computation = .ok value → post value before) :
    Leads before (liftM computation : ScriptM α) post := by
  cases computation with
  | ok value => exact .ret (returns value rfl)
  | error fault => exact Logged.lifted (Ends.fault fun _ _ => trivial)

end Leads

theorem transferMTR_leads (before : Standing) (sender recipient : Address) (amount : Int) :
    Leads before (transferMTR sender recipient amount) fun moved after =>
      moved = true ∧ (amount ≠ 0 → amount ≤ before.energy sender) ∧ after = before.move sender recipient amount ∨
        moved = false ∧ before.energy sender < amount ∧ after = before := by
  unfold transferMTR
  split
  next zero =>
    subst zero
    exact .ret (.inl ⟨rfl, by simp, (before.move_zero _ _).symm⟩)
  next nonzero =>
    refine .seq (.of_does (getEnergy_does before sender)) fun energy between given => ?_
    obtain ⟨rfl, rfl⟩ := given
    split
    next poor => exact .ret (.inr ⟨rfl, poor, rfl⟩)
    next enough =>
      refine .seq (.of_does (subEnergy_does enough)) fun _ sent left => ?_
      subst left
      refine .seq (.of_does (addEnergy_does _ recipient amount)) fun _ moved left => ?_
      subst left
      exact .after .log fun _ => .ret (.inl ⟨rfl, fun _ => not_lt.mp enough, rfl⟩)

theorem mintMTRGToBidder_leads (env : ScriptEnv) (before : Standing) (addr : Address) (amount : Nat) :
    Leads before (mintMTRGToBidder env addr amount) fun _ after => after = before := by
  unfold mintMTRGToBidder
  split
  · exact .ret rfl
  · exact .after (.of_does (mintMeterGov_does _ _ _ _)) fun _ => .log

theorem auctionCBOfState_leads (before : Standing) :
    Leads before auctionCBOfState fun cb after => after = before ∧ before.block = some cb := by
  refine .seq (.of_does (getAuctionCB_does before)) fun block between given => ?_
  obtain ⟨rfl, rfl⟩ := given
  refine .computed fun cb read => ⟨rfl, ?_⟩
  cases block : between.block with
  | none =>
    rw [block] at read
    cases read
  | some found =>
    rw [block] at read
    cases read
    rfl

/-! ## The accounts of an auction -/

/-- The bids are sorted by their different identifiers, are of something, and add up to what was received. -/
structure AuctionCB.Totalled (cb : AuctionCB) : Prop where
  sorted : cb.auctionTxs.Pairwise fun first second => first.txID < second.txID
  total : cb.rcvdMTR = (cb.auctionTxs.map AuctionTx.amount).sum
  positive : ∀ tx ∈ cb.auctionTxs, 0 < tx.amount

theorem AuctionCB.Totalled.add {cb bid : AuctionCB} {tx} (totalled : cb.Totalled)
    (added : cb.addAuctionTx tx = some bid) (positive : 0 < tx.amount) :
    bid.Totalled ∧ bid.rcvdMTR = cb.rcvdMTR + tx.amount := by
  unfold addAuctionTx at added
  split at added
  · cases added
  next absent =>
    cases added
    let list : SortedList AuctionTx.txID := ⟨cb.auctionTxs, totalled.sorted⟩
    have missing : list.get tx.txID = none := not_isSome_iff_eq_none.mp absent
    have perm : (addIn AuctionTx.txID cb.auctionTxs tx).Perm (tx :: cb.auctionTxs) := by
      have perm := list.addIn_perm tx
      rwa [list.without_of_get missing] at perm
    refine ⟨⟨list.addIn_sorted tx, ?_, ?_⟩, rfl⟩
    · rw [(perm.map AuctionTx.amount).sum_nat, map_cons, sum_cons, totalled.total, add_comm]
    · intro other listed
      rcases mem_cons.mp (perm.mem_iff.mp listed) with rfl | listed
      · exact positive
      · exact totalled.positive other listed

theorem isActive_of_add {cb bid : AuctionCB} {tx} (added : cb.addAuctionTx tx = some bid) : bid.isActive = cb.isActive := by
  unfold AuctionCB.addAuctionTx at added
  split at added
  · cases added
  · cases added
    rfl

/-- While an auction is active its bids add up to what was received, and the auction account has at least that. -/
structure Standing.Accounted (state : Standing) : Prop where
  held : 0 ≤ state.energy auctionModuleAddr
  active : ∀ cb, state.block = some cb → cb.isActive = true → cb.Totalled ∧ (cb.rcvdMTR : Int) ≤ state.energy auctionModuleAddr

namespace Standing.Accounted

variable {before : Standing} {cb bid : AuctionCB} {tx : AuctionTx} {payer : Address}

theorem receive (accounted : before.Accounted) (block : before.block = some cb) (active : cb.isActive = true)
    (added : cb.addAuctionTx tx = some bid) (positive : 0 < tx.amount) (apart : payer ≠ auctionModuleAddr) :
    ({ before with block := some bid }.move payer auctionModuleAddr tx.amount).Accounted := by
  obtain ⟨totalled, enough⟩ := accounted.active cb block active
  obtain ⟨totalledBid, received⟩ := totalled.add added positive
  have energy : ({ before with block := some bid }.move payer auctionModuleAddr tx.amount).energy auctionModuleAddr =
      before.energy auctionModuleAddr + tx.amount := Standing.energy_move_recipient (Ne.symm apart) _
  constructor
  · omega
  · rintro _ ⟨⟩ -
    refine ⟨totalledBid, ?_⟩
    omega

theorem reward (accounted : before.Accounted) (recipient : Address) (amount : Nat) :
    (before.move validatorBenefitAddr recipient amount).Accounted := by
  have more : before.energy auctionModuleAddr ≤ (before.move validatorBenefitAddr recipient amount).energy auctionModuleAddr := by
    by_cases same : auctionModuleAddr = recipient
    · rw [← same, Standing.energy_move_recipient (by decide)]
      omega
    · exact (Standing.energy_move_other (by decide) same ..).ge
  constructor
  · exact le_trans accounted.held more
  · intro cb block active
    obtain ⟨totalled, enough⟩ := accounted.active cb block active
    exact ⟨totalled, le_trans enough more⟩

theorem start (accounted : before.Accounted) (received : cb.rcvdMTR = 0) (bids : cb.auctionTxs = []) :
    { before with block := some cb }.Accounted := by
  refine ⟨accounted.held, ?_⟩
  rintro _ ⟨⟩ -
  refine ⟨⟨?_, ?_, ?_⟩, ?_⟩
  · rw [bids]
    exact .nil
  · rw [received, bids]
    rfl
  · rw [bids]
    simp
  · rw [received]
    exact accounted.held

theorem close (held : 0 ≤ before.energy auctionModuleAddr) : { before with block := some {} }.Accounted := by
  refine ⟨held, ?_⟩
  rintro _ ⟨⟩ active
  cases active

end Standing.Accounted

/-! ## What the handlers keep -/

section

variable (mod : AuctionModule) (env : ScriptEnv) {ab : AuctionBody} {gas : UInt64} {before : Standing}

theorem getParam_leads (before : Standing) (key : Param) :
    Leads before (liftM (getParam key) : ScriptM Int) fun _ after => after = before :=
  .of_does (decodeStorage_does _ _ _ _)

theorem startAuctionCB_accounted (accounted : before.Accounted) :
    Leads before (startAuctionCB mod env ab gas) fun _ after => after.Accounted := by
  refine .seq (auctionCBOfState_leads before) fun cb between given => ?_
  obtain ⟨rfl, block⟩ := given
  dsimp only
  split
  · exact .ret accounted
  · refine .after (getParam_leads _ _) fun price => ?_
    split
    · refine .after .log fun _ => .seq (.of_does (setAuctionCB_does _ _)) fun _ _ left => .ret ?_
      subst left
      exact accounted.start rfl rfl
    · refine .seq (.of_does (setAuctionCB_does _ _)) fun _ _ left => .ret ?_
      subst left
      exact accounted.start rfl rfl

def AuctionBody.payer (ab : AuctionBody) : Address := if ab.option = autoBid then validatorBenefitAddr else ab.bidder

theorem refusal_leads (before : Standing) : Leads before (refusal ab) fun reason after => after = before ∧
      (reason = none → (ab.amount : Int) ≤ before.energy ab.payer ∧ (ab.option ≠ autoBid → 0 < ab.amount)) := by
  unfold refusal
  split
  next auto =>
    refine .seq (.of_does (getEnergy_does before _)) fun energy between given => ?_
    obtain ⟨rfl, rfl⟩ := given
    split
    · exact .ret ⟨rfl, nofun⟩
    next enough =>
      refine .ret ⟨rfl, fun _ => ⟨?_, fun user => absurd auto user⟩⟩
      rw [AuctionBody.payer, if_pos auto]
      exact not_lt.mp enough
  next user =>
    refine .seq (.of_does (getEnergy_does before _)) fun energy between given => ?_
    obtain ⟨rfl, rfl⟩ := given
    split
    · exact .ret ⟨rfl, nofun⟩
    next enough =>
      split
      · exact .ret ⟨rfl, nofun⟩
      next large =>
        refine .ret ⟨rfl, fun _ => ⟨?_, fun _ => ?_⟩⟩
        · rw [AuctionBody.payer, if_neg user]
          exact not_lt.mp enough
        · unfold minimumBidAmount at large
          omega

theorem receive_leads {cb bid tx payer} (accounted : before.Accounted)
    (block : before.block = some cb) (active : cb.isActive = true) (added : cb.addAuctionTx tx = some bid) (positive : 0 < tx.amount)
    (apart : payer ≠ auctionModuleAddr) (enough : (tx.amount : Int) ≤ before.energy payer) :
    Leads { before with block := some bid } (transferMTR payer auctionModuleAddr tx.amount) fun moved after =>
      moved = true ∧ after.block = some bid ∧ after.Accounted := by
  refine (transferMTR_leads _ _ _ _).conseq fun moved after given => ?_
  rcases given with ⟨rfl, -, rfl⟩ | ⟨-, poor, -⟩
  · exact ⟨rfl, rfl, accounted.receive block active added positive apart⟩
  · dsimp only at poor
    omega

/-- A bid by the auction account moves nothing, and an automatic bid may be of nothing. -/
def AuctionBody.Counts (ab : AuctionBody) : Prop :=
  if ab.option = autoBid then 0 < ab.amount else ab.bidder ≠ auctionModuleAddr

theorem AuctionBody.Counts.payer_ne (counts : ab.Counts) : ab.payer ≠ auctionModuleAddr := by
  unfold Counts at counts
  unfold payer
  split
  · decide
  next user => rwa [if_neg user] at counts

theorem handleAuctionTx_accounted (counts : ab.Counts) (accounted : before.Accounted) :
    Leads before (handleAuctionTx mod env ab gas) fun _ after => after.Accounted := by
  refine .seq (auctionCBOfState_leads before) fun cb between given => ?_
  obtain ⟨rfl, block⟩ := given
  split
  · exact .ret accounted
  next active =>
    refine .seq (refusal_leads between) fun reason _ given => ?_
    obtain ⟨rfl, checked⟩ := given
    cases reason with
    | some reason => exact .ret accounted
    | none =>
      obtain ⟨enough, user⟩ := checked rfl
      have positive : 0 < ab.amount := by
        by_cases auto : ab.option = autoBid
        · unfold AuctionBody.Counts at counts
          rwa [if_pos auto] at counts
        · exact user auto
      dsimp only
      split
      · exact .ret accounted
      next bid added =>
        have active : cb.isActive = true := by simpa using active
        refine .seq (.of_does (setAuctionCB_does _ _)) fun _ _ left => ?_
        subst left
        have paid := receive_leads accounted block active added positive counts.payer_ne enough
        have settled (moved : Bool) (after : Standing) (given : moved = true ∧ after.block = some bid ∧ after.Accounted) :
            Leads after (if (!moved) = true then pure (leftOverOf gas, some errNotEnoughMTR)
              else do
                liftM (StateProgram.ask (.setAuctionCB bid))
                pure (leftOverOf gas, none) : ScriptM Handled) fun _ later => later.Accounted := by
          obtain ⟨rfl, block, accounted⟩ := given
          refine .seq (.of_does (setAuctionCB_does _ _)) fun _ _ left => .ret ?_
          subst left
          rw [← block]
          exact accounted
        unfold AuctionBody.payer at paid
        split
        next auto =>
          rw [if_pos auto] at paid
          exact .seq paid settled
        next user =>
          rw [if_neg user] at paid
          exact .seq paid settled

theorem clearAuction_leads (held : 0 ≤ before.energy auctionModuleAddr) (cb : AuctionCB) (ratio : Int) :
    Leads before (clearAuction env cb ratio) fun _ after => 0 ≤ after.energy auctionModuleAddr := by
  have settle (price total : Nat) (dist : List DistMtrg) : Leads before (do
      mintMTRGToBidder env auctionLeftOverAccount cb.rsvdMTRG
      mintMTRGToBidder env auctionLeftOverAccount (cb.rlsdMTRG - total)
      let _ ← transferMTRToValidatorBenefit (cb.rcvdMTR * ratio / 10 ^ 18)
      pure (price, cb.rlsdMTRG - total, dist) : ScriptM (Nat × Nat × List DistMtrg))
      fun _ after => 0 ≤ after.energy auctionModuleAddr := by
    refine .after (mintMTRGToBidder_leads _ _ _ _) fun _ => .after (mintMTRGToBidder_leads _ _ _ _) fun _ => ?_
    refine .seq (transferMTR_leads _ _ _ _) fun moved after given => .ret ?_
    rcases given with ⟨-, enough, rfl⟩ | ⟨-, -, rfl⟩
    · rw [Standing.energy_move_sender (by decide)]
      by_cases zero : (cb.rcvdMTR : Int) * ratio / 10 ^ 18 = 0
      · omega
      · omega
    · exact held
  unfold clearAuction
  dsimp only
  split
  · refine .seq (.computed fun groups _ => rfl) fun groups _ same => ?_
    subst same
    refine .after (.forIn _ (fun group acc => ?_) _) fun paid => settle _ _ _
    exact .after (mintMTRGToBidder_leads _ _ _ _) fun _ => .ret rfl
  · refine .after (.forIn _ (fun tx acc => ?_) _) fun paid => settle _ _ _
    refine .seq (.computed fun amount _ => rfl) fun amount _ same => ?_
    subst same
    refine .after (mintMTRGToBidder_leads _ _ _ _) fun _ => ?_
    split
    · exact .ret rfl
    · exact .ret rfl

theorem closeAuctionCB_accounted (accounted : before.Accounted) :
    Leads before (closeAuctionCB mod env gas) fun _ after => after.Accounted := by
  refine .after (.of_does (getSummaryList_does _)) fun summaryList => ?_
  refine .seq (auctionCBOfState_leads before) fun cb between given => ?_
  obtain ⟨rfl, block⟩ := given
  dsimp only
  split
  · exact .ret accounted
  · refine .after (getParam_leads _ _) fun ratio => ?_
    refine .seq (clearAuction_leads env accounted.held cb ratio) fun cleared after held => ?_
    refine .seq (.computed fun summaries _ => rfl) fun summaries _ same => ?_
    subst same
    have finish (list : List AuctionSummary) : Leads after (do
        liftM (StateProgram.ask (.setSummaryList list))
        liftM (StateProgram.ask (.setAuctionCB {}))
        pure (leftOverOf gas, none) : ScriptM Handled) fun _ later => later.Accounted := by
      refine .after (.of_does (setSummaryList_does _ _)) fun _ => .seq (.of_does (setAuctionCB_does _ _)) fun _ _ left => .ret ?_
      subst left
      exact .close held
    split
    · exact .after .log fun _ => finish _
    · exact finish _

theorem distValidatorRewards_accounted (rewards : List RewardInfoV2) (accounted : before.Accounted) :
    Leads before (distValidatorRewards rewards) fun _ after => after.Accounted := by
  induction rewards generalizing before with
  | nil => exact .ret accounted
  | cons reward rest ih =>
    refine .seq (transferMTR_leads _ _ _ _) fun moved after given => ?_
    rcases given with ⟨-, -, rfl⟩ | ⟨-, -, rfl⟩
    · exact ih (accounted.reward _ _)
    · exact ih accounted

/-- The invariant of the loop: the block in hand is the cached one. -/
theorem autobidFrom_accounted (bids : List RewardInfoV2) (positive : ∀ bid ∈ bids, 0 < bid.autobidAmount) (number : Nat)
    {cb} (block : before.block = some cb) (active : cb.isActive = true) (accounted : before.Accounted) :
    Leads before (autobidFrom mod env cb number bids) fun _ after => after.Accounted := by
  induction bids generalizing before number cb with
  | nil =>
    refine (Leads.of_does (setAuctionCB_does _ _)).conseq fun _ _ left => ?_
    subst left
    rw [← block]
    exact accounted
  | cons bid rest ih =>
    refine .seq (.of_does (getEnergy_does before _)) fun energy between given => ?_
    obtain ⟨rfl, rfl⟩ := given
    split
    · exact .ret accounted
    next enough =>
      split
      · exact .ret accounted
      next added isAdded =>
        refine .seq (.of_does (setAuctionCB_does _ _)) fun _ _ left => ?_
        subst left
        have paid := receive_leads accounted block active isAdded (positive bid mem_cons_self)
          (show validatorBenefitAddr ≠ auctionModuleAddr by decide) (not_lt.mp enough)
        refine .seq paid fun moved after given => ?_
        obtain ⟨rfl, block, accounted⟩ := given
        have positiveRest := fun other listed => positive other (mem_cons_of_mem _ listed)
        exact ih positiveRest (number + 1) block ((isActive_of_add isAdded).trans active) accounted

theorem governing_accounted (extraData : Option (List RewardInfoV2)) (accounted : before.Accounted) :
    Leads before (distributeAndAutobidAfterTeslaFork6 mod env extraData) fun _ after => after.Accounted := by
  cases extraData with
  | none => exact .ret accounted
  | some rewards =>
    refine .seq (distValidatorRewards_accounted _ accounted) fun _ paid accounted => ?_
    refine .seq (auctionCBOfState_leads paid) fun cb between given => ?_
    obtain ⟨rfl, block⟩ := given
    split
    · exact .ret accounted
    next active =>
      refine autobidFrom_accounted mod env _ (fun bid listed => ?_) 0 block (by simpa using active) accounted
      simpa using (mem_filter.mp listed).2

/-- What happens to an auction. Between two blocks the cached objects are written to their slots, and the next state starts
with an empty cache. -/
inductive AuctionOp where
  | script (env : ScriptEnv) (ab : AuctionBody) (gas : UInt64)
  | governing (env : ScriptEnv) (extraData : Option (List RewardInfoV2))
  | nextBlock

def AuctionOp.run : AuctionOp → Action State Unit
  | .script env ab gas => do
    let _ ← ((handle mod env ab gas).run {}).run StateMethod.handle
  | .governing env extraData => do
    let _ ← ((distributeAndAutobidAfterTeslaFork6 mod env extraData).run {}).run StateMethod.handle
  | .nextBlock => do
    State.commitScriptEngineChanges
    modify fun state => { state with seCache := {} }

/-- The operations one after another; nothing is undone. -/
def AuctionOp.runAll : List AuctionOp → Action State Unit
  | [] => return ()
  | op :: rest => do
    op.run mod
    runAll rest

def AuctionOp.Counts : AuctionOp → Prop
  | .script _ ab _ => ab.opcode = opBid → ab.Counts
  | _ => True

theorem handle_accounted (counts : ab.opcode = opBid → ab.Counts) (accounted : before.Accounted) :
    Leads before (handle mod env ab gas) fun _ after => after.Accounted := by
  unfold handle
  split
  · split
    · exact .ret accounted
    · exact startAuctionCB_accounted mod env accounted
  · split
    · split
      · exact .ret accounted
      · exact closeAuctionCB_accounted mod env accounted
    · split
      next bids =>
        split
        · split
          · exact .ret accounted
          · exact handleAuctionTx_accounted mod env (counts bids) accounted
        · split
          · exact .ret accounted
          · exact handleAuctionTx_accounted mod env (counts bids) accounted
      · exact .ret accounted

theorem encodeCached_ok {state after cached done} (ran : State.encodeCached key cached state = .ok done after) :
    after.seCache = state.seCache ∧
      after.get (.storage auctionModuleAddr key) = cached.getD (state.get (.storage auctionModuleAddr key)) ∧
      ∀ other, other ≠ .storage auctionModuleAddr key → after.get other = state.get other := by
  cases cached with
  | none =>
    cases ran
    exact ⟨rfl, rfl, fun _ _ => rfl⟩
  | some raw =>
    change State.put (.storage auctionModuleAddr key) raw state = _ at ran
    rw [State.put_eq] at ran
    split at ran
    · cases ran
    next nonempty =>
      cases ran
      exact ⟨rfl, State.get_put_self nonempty (.storage auctionModuleAddr key) raw, fun other apart => State.get_put_of_ne state apart raw⟩

theorem nextBlock_standing {state after done} (ran : AuctionOp.run mod .nextBlock state = .ok done after) :
    standing after = standing state := by
  obtain ⟨_, committed, written, cleared⟩ := bind_eq_ok.mp ran
  cases cleared
  obtain ⟨_, _, read, written⟩ := bind_eq_ok.mp written
  cases read
  obtain ⟨_, middle, first, written⟩ := bind_eq_ok.mp written
  obtain ⟨_, _, read, second⟩ := bind_eq_ok.mp written
  cases read
  obtain ⟨-, block, othersFirst⟩ := encodeCached_ok first
  obtain ⟨-, -, others⟩ := encodeCached_ok second
  have energy (addr : Address) : committed.get (.account addr) = state.get (.account addr) :=
    (others _ (by simp)).trans (othersFirst _ (by simp))
  have stored : committed.get auctionCBKey = (state.seCache.auctionCB.map Raw.auctionCB).getD (state.get auctionCBKey) :=
    (others _ (by decide)).trans block
  have same : State.decodeAuctionCB (committed.get auctionCBKey) = readAuctionCB state := by
    rw [stored]
    unfold readAuctionCB
    cases state.seCache.auctionCB <;> rfl
  unfold standing
  congr 1
  funext addr
  exact congrArg Account.energy (energy addr)

theorem Leads.keeps {program : ScriptM α}
    (known : ∀ before : Standing, before.Accounted → Leads before program fun _ after => after.Accounted) :
    Triple (fun state => (standing state).Accounted) ((program.run {}).run StateMethod.handle)
      (fun _ state => (standing state).Accounted) fun _ => True :=
  Ends.each fun state accounted =>
    (known (standing state) accounted {}).conseq (fun _ same => same ▸ rfl) (fun _ _ kept => kept) fun _ _ => trivial

theorem op_accounted {op : AuctionOp} (counts : op.Counts) :
    Triple (fun state => (standing state).Accounted) (op.run mod) (fun _ state => (standing state).Accounted) fun _ => True := by
  cases op with
  | script env ab gas =>
    exact .seq (Leads.keeps fun _ accounted => handle_accounted mod env counts accounted) fun _ => .ret fun _ kept => kept
  | governing env extraData =>
    exact .seq (Leads.keeps fun _ accounted => governing_accounted mod env extraData accounted) fun _ => .ret fun _ kept => kept
  | nextBlock =>
    intro state accounted
    cases ran : AuctionOp.run mod .nextBlock state with
    | ok done after =>
      change (standing after).Accounted
      rw [nextBlock_standing mod ran]
      exact accounted
    | error fault after => trivial

/-- While an auction is active, the bids are sorted by different identifiers, each is of something, they add up to what is
recorded as received, and the auction account has at least that. -/
theorem auction_accounted {ops : List AuctionOp} {state after : State} {done : Unit} (counts : ∀ op ∈ ops, op.Counts)
    (accounted : (standing state).Accounted) (ran : AuctionOp.runAll mod ops state = .ok done after) :
    (standing after).Accounted := by
  induction ops generalizing state with
  | nil =>
    cases ran
    exact accounted
  | cons op rest ih =>
    obtain ⟨_, middle, first, ranRest⟩ := bind_eq_ok.mp ran
    have kept := op_accounted mod (counts op mem_cons_self) state accounted
    rw [first] at kept
    exact ih (fun other listed => counts other (mem_cons_of_mem _ listed)) kept ranRest

end

section

def plainAuction : AuctionModule where
  hashing := ⟨fun addr amount _ _ nonce => addr + amount + nonce, fun _ _ _ _ _ _ _ _ => 1⟩
  startEvent _ _ _ _ _ := ⟨0, [], []⟩
  endEvent _ _ _ _ := ⟨0, [], []⟩

/-- Account 7 and the auction account have 30 MTR each, the validators have 5. -/
def fundedState : State where
  sm := .new fun key =>
    match key with
    | .account addr =>
      if addr = 7 ∨ addr = auctionModuleAddr then ({ energy := 30 * 10 ^ 18 }, true)
      else if addr = validatorBenefitAddr then ({ energy := 5 * 10 ^ 18 }, true)
      else ({}, true)
    | .code _ => ([], true)
    | .storage _ _ => (.empty, true)
  seCache := {}
  err := false

def sentBy (origin : Address) (nonce : UInt64) : ScriptEnv where
  forks := ⟨.mainnet, 0, 0, 0, 0, 0, 0⟩
  blockCtx := ⟨9, 100, 1000⟩
  txCtx := ⟨origin, 0, nonce⟩
  clauseIndex := 0

def startOp : AuctionOp := .script (sentBy 0 0) { opcode := opStart, amount := 1000 } 0

def bidOp (bidder : Address) (nonce : UInt64) : AuctionOp :=
  .script (sentBy bidder nonce) { opcode := opBid, bidder := bidder, amount := 20 * 10 ^ 18 } 0

def countedOps : List AuctionOp := [startOp, bidOp 7 1, .nextBlock, .governing (sentBy 0 0) (some [⟨8, 10 ^ 18, 2 * 10 ^ 18⟩])]

theorem fundedState_sound : Execution.Sound fundedState := by
  refine ⟨by decide, fun addr key => ?_⟩
  cases key <;> trivial

theorem fundedState_accounted : (standing fundedState).Accounted := by
  refine ⟨by decide +kernel, fun cb block active => ?_⟩
  have idle : readAuctionCB fundedState = some {} := by decide +kernel
  cases idle.symm.trans block
  cases active

/-- A bid of 20 MTR and an automatic one of 2 MTR, in two blocks. -/
theorem two_bids_accounted :
    ∃ after cb, AuctionOp.runAll plainAuction countedOps fundedState = .ok () after ∧ readAuctionCB after = some cb ∧
      cb.rcvdMTR = 22 * 10 ^ 18 ∧ cb.Totalled ∧ (cb.rcvdMTR : Int) ≤ (standing after).energy auctionModuleAddr := by
  have counts : ∀ op ∈ countedOps, op.Counts := by
    simp [countedOps, startOp, bidOp, AuctionOp.Counts, AuctionBody.Counts, opStart, opBid, autoBid, auctionModuleAddr]
  have fine : (AuctionOp.runAll plainAuction countedOps).fault? fundedState = none := by decide +kernel
  obtain ⟨done, ran⟩ := ok_of_fault? fine
  have accounted := auction_accounted plainAuction counts fundedState_accounted ran
  have active := (any_eq_true (fun cb => cb.isActive && cb.rcvdMTR == 22 * 10 ^ 18)
    (readAuctionCB ((AuctionOp.runAll plainAuction countedOps).finalState fundedState))).mp (by decide +kernel)
  -- the state is not looked into from here on
  generalize (AuctionOp.runAll plainAuction countedOps).finalState fundedState = after at ran accounted active
  obtain ⟨cb, block, active⟩ := active
  simp only [Bool.and_eq_true, beq_iff_eq] at active
  obtain ⟨totalled, enough⟩ := accounted.active cb block active.1
  exact ⟨after, cb, ran, block, active.2, totalled, enough⟩

def emptyAutobidOp : AuctionOp := .script (sentBy 0 3) { opcode := opBid, option := autoBid, bidder := 8, amount := 0 } 0

def ownOps : List AuctionOp := [startOp, bidOp auctionModuleAddr 1, bidOp auctionModuleAddr 2]

/-- An automatic bid of nothing is listed, and what the auction account bids is counted though it does not move. -/
theorem uncounted_bids : (standing fundedState).Accounted ∧
      (∃ after cb, AuctionOp.runAll plainAuction [startOp, emptyAutobidOp] fundedState = .ok () after ∧
        readAuctionCB after = some cb ∧ cb.isActive = true ∧ ∃ tx ∈ cb.auctionTxs, tx.amount = 0) ∧
      ∃ after cb, AuctionOp.runAll plainAuction ownOps fundedState = .ok () after ∧
        readAuctionCB after = some cb ∧ cb.isActive = true ∧ (standing after).energy auctionModuleAddr < cb.rcvdMTR := by
  refine ⟨fundedState_accounted, ?_, ?_⟩
  · have fine : (AuctionOp.runAll plainAuction [startOp, emptyAutobidOp]).fault? fundedState = none := by decide +kernel
    obtain ⟨done, ran⟩ := ok_of_fault? fine
    have empty := (any_eq_true (fun cb => cb.isActive && cb.auctionTxs.any fun tx => tx.amount == 0)
      (readAuctionCB ((AuctionOp.runAll plainAuction [startOp, emptyAutobidOp]).finalState fundedState))).mp (by decide +kernel)
    generalize (AuctionOp.runAll plainAuction [startOp, emptyAutobidOp]).finalState fundedState = after at ran empty
    obtain ⟨cb, block, empty⟩ := empty
    simp only [Bool.and_eq_true, List.any_eq_true, beq_iff_eq] at empty
    exact ⟨after, cb, ran, block, empty⟩
  · have fine : (AuctionOp.runAll plainAuction ownOps).fault? fundedState = none := by decide +kernel
    obtain ⟨done, ran⟩ := Action.ok_of_fault? fine
    have short := (Option.any_eq_true (fun cb => cb.isActive && cb.rcvdMTR == 40 * 10 ^ 18)
      (readAuctionCB ((AuctionOp.runAll plainAuction ownOps).finalState fundedState))).mp (by decide +kernel)
    have energy : (standing ((AuctionOp.runAll plainAuction ownOps).finalState fundedState)).energy auctionModuleAddr =
        30 * 10 ^ 18 := by decide +kernel
    generalize (AuctionOp.runAll plainAuction ownOps).finalState fundedState = after at ran short energy
    obtain ⟨cb, block, short⟩ := short
    simp only [Bool.and_eq_true, beq_iff_eq] at short
    exact ⟨after, cb, ran, block, short.1, by rw [energy, short.2]; decide⟩

end

end MeterPov.Auction
