import MeterPov.Auction.Accounting
import MeterPov.Lib.Portions

/-! What clearing an auction mints (`script/auction/handler_close.go`).

The price is rounded down and every bid is divided by it, so more can be minted than was released: by less than the released
amount divided by the price. With nothing released, the bids are sold at the reserved price. -/

set_option autoImplicit false

namespace MeterPov.Auction

open Lib Accounts Script Execution List Function

/-- The MTRG of every account. -/
abbrev Balances := Address → Int

def balances (state : State) : Balances := fun addr => (state.get (.account addr) : Account).balance

instance : Observed Balances := ⟨balances⟩

/-! ## Programs and balances -/

section

variable (before : Balances) (addr : Address)

theorem getAccount_reads :
    Does before (StateProgram.getAccount addr) fun account after => after = before ∧ account.balance = before addr :=
  fun _ same => ⟨same, same ▸ rfl⟩

theorem updateAccount_sets (account : Account) :
    Does before (StateProgram.updateAccount addr account) fun _ after => after = Function.update before addr account.balance := by
  refine put_does fun state nonempty same => ?_
  subst same
  funext other
  change (State.get _ (.account other) : Account).balance = Function.update (balances state) addr account.balance other
  by_cases isAddr : other = addr
  · subst isAddr
    rw [State.get_put_self nonempty, update_self]
  · rw [State.get_put_of_ne state (by simpa using isAddr), update_of_ne isAddr]
    rfl

theorem setEnergy_idle (energy : Int) : Does before (StateProgram.setEnergy addr energy) fun _ after => after = before := by
  refine .seq (getAccount_reads before addr) fun account _ ⟨same, balance⟩ => ?_
  subst same
  refine (updateAccount_sets _ addr _).conseq fun _ after left => ?_
  rw [left]
  exact balance ▸ update_eq_self addr _

theorem getEnergy_idle : Does before (StateProgram.getEnergy addr) fun _ after => after = before :=
  .seq (getAccount_reads before addr) fun _ _ given => .ret given.1

theorem transferMTR_idle (recipient : Address) (amount : Int) :
    Leads before (transferMTR addr recipient amount) fun _ after => after = before := by
  have sub : Does before (StateProgram.subEnergy addr amount) fun _ after => after = before := by
    unfold StateProgram.subEnergy
    split
    · exact .ret rfl
    · refine .seq (getEnergy_idle before addr) fun energy _ same => ?_
      subst same
      split
      · exact .ret rfl
      · exact .seq (setEnergy_idle _ addr _) fun _ _ left => .ret left
  have add : Does before (StateProgram.addEnergy recipient amount) fun _ after => after = before := by
    unfold StateProgram.addEnergy
    split
    · exact .ret rfl
    · exact .seq (getEnergy_idle before recipient) fun _ _ same => same ▸ setEnergy_idle _ recipient _
  unfold transferMTR
  split
  · exact .ret rfl
  · refine .after (.of_does (getEnergy_idle before addr)) fun energy => ?_
    split
    · exact .ret rfl
    · exact .after (.of_does sub) fun _ => .after (.of_does add) fun _ => .after .log fun _ => .ret rfl

theorem mintMeterGov_credits (tracker : Address) (amount : Int) :
    Does before (mintMeterGov tracker addr amount) fun _ after => after = Function.update before addr (before addr + amount) := by
  unfold mintMeterGov
  split
  next zero => exact .ret (by simp [zero])
  next nonzero =>
    have read : Does before (StateProgram.getBalance addr) fun gov after => after = before ∧ gov = before addr :=
      .seq (getAccount_reads before addr) fun _ _ given => .ret given
    refine .seq read fun gov _ given => ?_
    obtain ⟨rfl, rfl⟩ := given
    refine .seq (decodeStorage_does _ _ _ _) fun total _ same => ?_
    subst same
    have stored {raw : Raw} (before : Balances) :
        Does before (StateProgram.setRawStorage tracker .meterGovTotalAddSub raw) fun _ after => after = before := by
      refine put_does fun state _ same => ?_
      subst same
      funext other
      exact congrArg Account.balance (State.get_put_of_ne state (by simp) _)
    refine .seq (stored _) fun _ _ same => ?_
    subst same
    exact .seq (getAccount_reads _ addr) fun _ _ given => given.1 ▸ updateAccount_sets _ addr _

theorem mintMTRGToBidder_credits (env : ScriptEnv) (amount : Nat) :
    Leads before (mintMTRGToBidder env addr amount) fun _ after => after = Function.update before addr (before addr + amount) := by
  unfold mintMTRGToBidder
  split
  next zero => exact .ret (by simp [zero])
  · exact .seq (.of_does (mintMeterGov_credits before addr _ _)) fun _ _ left => left ▸ .log

end

/-! ## Groups -/

/-- What the groups have for the addresses of a set. -/
def paidTo (among : Address → Bool) (groups : List DistMtrg) : Nat :=
  ((groups.filter fun group => among group.addr).map DistMtrg.amount).sum

def bidsOf (among : Address → Bool) (txs : List AuctionTx) : List AuctionTx := txs.filter fun tx => among tx.address

@[simp] theorem paidTo_cons (among : Address → Bool) (group : DistMtrg) (rest : List DistMtrg) :
    paidTo among (group :: rest) = (if among group.addr then group.amount else 0) + paidTo among rest := by
  unfold paidTo
  split <;> simp_all

/-- One more bid of an address. -/
def DistMtrg.raise (addr : Address) (amount : Nat) (group : DistMtrg) : DistMtrg :=
  if group.addr = addr then { group with amount := group.amount + amount } else group

theorem DistMtrg.raise_addr (addr : Address) (amount : Nat) (group : DistMtrg) : (group.raise addr amount).addr = group.addr := by
  unfold raise
  split <;> rfl

variable {groups : List DistMtrg}

theorem paidTo_raise (among : Address → Bool) {addr} (amount : Nat)
    (distinct : (groups.map DistMtrg.addr).Nodup) (listed : addr ∈ groups.map DistMtrg.addr) :
    paidTo among (groups.map (DistMtrg.raise addr amount)) = paidTo among groups + if among addr then amount else 0 := by
  induction groups with
  | nil => cases listed
  | cons group rest ih =>
    obtain ⟨absent, distinctRest⟩ := nodup_cons.mp distinct
    rw [map_cons, paidTo_cons, paidTo_cons, DistMtrg.raise_addr]
    by_cases same : group.addr = addr
    · -- no later group is of this address
      have others : rest.map (DistMtrg.raise addr amount) = rest := by
        refine (map_congr_left fun other found => if_neg ?_).trans (map_id _)
        rintro rfl
        exact absent (same ▸ mem_map_of_mem found)
      rw [others, DistMtrg.raise, if_pos same, same]
      cases among addr <;> simp
      omega
    · rw [ih distinctRest ((mem_cons.mp listed).resolve_left (Ne.symm same)), DistMtrg.raise, if_neg same]
      omega

theorem groupBids_paid {price} (positive : price ≠ 0) (txs : List AuctionTx) (groups : List DistMtrg)
    (distinct : (groups.map DistMtrg.addr).Nodup) :
    ∃ result, groupBids price txs groups = .ok result ∧ ∀ among, paidTo among result =
      paidTo among groups + ((bidsOf among txs).map fun tx => tx.amount * 10 ^ 18 / price).sum := by
  induction txs generalizing groups with
  | nil => exact ⟨groups, rfl, fun among => rfl⟩
  | cons tx rest ih =>
    simp only [groupBids, mtrgOf, positive, if_false, Exec.ok_bind]
    have counted (among : Address → Bool) : ((bidsOf among (tx :: rest)).map fun tx => tx.amount * 10 ^ 18 / price).sum =
        (if among tx.address then tx.amount * 10 ^ 18 / price else 0) +
          ((bidsOf among rest).map fun tx => tx.amount * 10 ^ 18 / price).sum := by
      unfold bidsOf
      split <;> simp_all
    split
    next known =>
      have listed : tx.address ∈ groups.map DistMtrg.addr := by
        obtain ⟨group, found, same⟩ := any_eq_true.mp known
        exact mem_map.mpr ⟨group, found, by simpa using same⟩
      have addrs : (groups.map (DistMtrg.raise tx.address (tx.amount * 10 ^ 18 / price))).map DistMtrg.addr = groups.map DistMtrg.addr := by
        simp [DistMtrg.raise_addr]
      obtain ⟨result, ran, paid⟩ := ih _ (addrs ▸ distinct)
      refine ⟨result, ran, fun among => ?_⟩
      rw [paid, paidTo_raise among _ distinct listed, counted]
      omega
    next new =>
      obtain ⟨result, ran, paid⟩ := ih (groups ++ [⟨tx.address, tx.amount * 10 ^ 18 / price⟩]) (by
        rw [map_append, map_singleton, nodup_append_comm]
        refine nodup_cons.mpr ⟨fun listed => new ?_, distinct⟩
        obtain ⟨group, found, same⟩ := mem_map.mp listed
        exact any_eq_true.mpr ⟨group, found, by simpa using same⟩)
      refine ⟨result, ran, fun among => ?_⟩
      rw [paid, counted]
      simp [paidTo, filter_cons]
      split <;> simp_all
      omega

theorem paidTo_perm {first second} (permuted : first.Perm second) (among : Address → Bool) :
    paidTo among first = paidTo among second :=
  ((permuted.filter _).map _).sum_eq

/-- Every bid is rounded down, by less than one unit. -/
theorem sum_bids {price} (positive : 0 < price) (txs : List AuctionTx) :
    (txs.map fun tx => tx.amount * 10 ^ 18 / price).sum * price ≤ (txs.map AuctionTx.amount).sum * 10 ^ 18 ∧
      (txs.map AuctionTx.amount).sum * 10 ^ 18 ≤ ((txs.map fun tx => tx.amount * 10 ^ 18 / price).sum + txs.length) * price := by
  induction txs with
  | nil => simp
  | cons tx rest ih =>
    have low := Nat.div_mul_le_self (tx.amount * 10 ^ 18) price
    have high := @Nat.lt_div_mul_add (tx.amount * 10 ^ 18) _ positive
    simp only [map_cons, sum_cons, length_cons, Nat.add_mul, one_mul] at ih ⊢
    omega

/-! ## Clearing -/

variable (env : ScriptEnv) (before : Balances)

theorem mintGroups_credits (groups dist : List DistMtrg) (total : Nat) : Leads before (forIn groups (total, dist) fun group acc => do
        mintMTRGToBidder env group.addr group.amount
        pure (ForInStep.yield (acc.1 + group.amount, acc.2 ++ [group])) : ScriptM (Nat × List DistMtrg)) fun acc after =>
      acc = (total + (groups.map DistMtrg.amount).sum, dist ++ groups) ∧ after = fun addr => before addr + paidTo (· == addr) groups := by
  induction groups generalizing before dist total with
  | nil => exact .ret (by simp [paidTo])
  | cons group rest ih =>
    have first : Leads before (do
        mintMTRGToBidder env group.addr group.amount
        pure (ForInStep.yield (total + group.amount, dist ++ [group])) : ScriptM _) fun step after =>
        step = .yield (total + group.amount, dist ++ [group]) ∧
          after = Function.update before group.addr (before group.addr + group.amount) :=
      .seq (mintMTRGToBidder_credits before group.addr env group.amount) fun _ _ left => .ret ⟨rfl, left⟩
    rw [forIn_cons]
    refine .seq first fun step _ given => ?_
    obtain ⟨rfl, rfl⟩ := given
    refine (ih _ _ _).conseq fun acc after given => ?_
    obtain ⟨rfl, rfl⟩ := given
    refine ⟨by simp [add_assoc], ?_⟩
    funext addr
    by_cases same : addr = group.addr
    · simp [same, add_assoc]
    · simp [same, Ne.symm same]

theorem clearAuction_credits (cb : AuctionCB) (ratio : Int) (fork3 : env.forks.isTeslaFork3 env.blockCtx.number = true)
    (grouped : groupBids (clearingPrice cb) cb.auctionTxs [] = .ok groups) :
    Leads before (clearAuction env cb ratio) fun result after =>
      let dist := groups.mergeSort fun first second => first.addr ≤ second.addr
      let leftOver := cb.rlsdMTRG - (dist.map DistMtrg.amount).sum
      result = (clearingPrice cb, leftOver, dist) ∧
        after = fun addr => before addr + paidTo (· == addr) dist + if addr = auctionLeftOverAccount then cb.rsvdMTRG + leftOver else 0 := by
  unfold clearAuction
  rw [if_pos fork3]
  change Leads before (liftM (groupBids (clearingPrice cb) cb.auctionTxs []) >>= _) _
  rw [grouped]
  have read : Leads before (liftM (.ok groups : Exec (List DistMtrg)) : ScriptM _) fun value after => value = groups ∧ after = before :=
    .computed fun value isGroups => ⟨(Except.ok.inj isGroups).symm, rfl⟩
  refine .seq read fun value _ given => ?_
  obtain ⟨rfl, rfl⟩ := given
  refine .seq (mintGroups_credits env _ _ _ _) fun acc _ given => ?_
  obtain ⟨rfl, rfl⟩ := given
  refine .seq (mintMTRGToBidder_credits _ _ _ _) fun _ _ left => .seq (mintMTRGToBidder_credits _ _ _ _) fun _ _ more => ?_
  refine .seq (transferMTR_idle _ _ _ _) fun _ _ same => .ret ⟨by simp [clearingPrice], ?_⟩
  subst left more same
  funext addr
  by_cases here : addr = auctionLeftOverAccount
  · simp [here, add_assoc]
  · simp [here]

theorem clearAuction_ran (cb : AuctionCB) (ratio : Int) (fork3 : env.forks.isTeslaFork3 env.blockCtx.number = true)
    (positive : clearingPrice cb ≠ 0) (grouped : groupBids (clearingPrice cb) cb.auctionTxs [] = .ok groups)
    {state} (sound : Sound state) (log : ScriptLog) :
    let dist := groups.mergeSort fun first second => first.addr ≤ second.addr
    let leftOver := cb.rlsdMTRG - (dist.map DistMtrg.amount).sum
    ∃ logged after, ((clearAuction env cb ratio).run log).run StateMethod.handle state =
        .ok ((clearingPrice cb, leftOver, dist), logged) after ∧
      ∀ addr, balances after addr = balances state addr + paidTo (· == addr) dist +
        (if addr = auctionLeftOverAccount then cb.rsvdMTRG + leftOver else 0 : Nat) := by
  have steady : SteadyHandler (clearAuction env cb ratio) := clearAuction_returns (.inr positive)
  have returned := steady log state sound
  have known := clearAuction_credits env (balances state) cb ratio fork3 grouped log state rfl
  cases ran : ((clearAuction env cb ratio).run log).run StateMethod.handle state with
  | error fault after =>
    rw [ran] at returned
    exact returned.elim
  | ok result after =>
    rw [ran] at known
    exact ⟨result.2, after, by rw [← known.1], congrFun known.2⟩

theorem rsvdPrice_le_clearingPrice (cb : AuctionCB) : cb.rsvdPrice ≤ clearingPrice cb := by
  unfold clearingPrice
  dsimp only
  generalize (if 0 < cb.rlsdMTRG then cb.rcvdMTR * 10 ^ 18 / cb.rlsdMTRG else cb.rsvdPrice) = bidPrice
  split <;> omega

theorem cleared_le {cb} (priced : 0 < cb.rsvdPrice) {total} (sold : total * clearingPrice cb ≤ cb.rcvdMTR * 10 ^ 18) :
    total + (cb.rlsdMTRG - total) ≤
      if cb.rlsdMTRG = 0 then cb.rcvdMTR * 10 ^ 18 / clearingPrice cb else cb.rlsdMTRG + cb.rlsdMTRG / clearingPrice cb := by
  have positive : 0 < clearingPrice cb := lt_of_lt_of_le priced (rsvdPrice_le_clearingPrice cb)
  split
  next none =>
    have sold := (Nat.le_div_iff_mul_le positive).mpr sold
    omega
  next some =>
    have receivedLt : cb.rcvdMTR * 10 ^ 18 < (clearingPrice cb + 1) * cb.rlsdMTRG := by
      have bid : cb.rcvdMTR * 10 ^ 18 / cb.rlsdMTRG ≤ clearingPrice cb := by
        unfold clearingPrice
        simp only [(pos_of_ne_zero some), if_true]
        split <;> omega
      exact (Nat.div_lt_iff_lt_mul (pos_of_ne_zero some)).mp (Nat.lt_succ_of_le bid)
    have short := receivedLt
    have rest := @Nat.lt_div_mul_add cb.rlsdMTRG _ positive
    have bounded : total < cb.rlsdMTRG + cb.rlsdMTRG / clearingPrice cb + 1 := by
      apply Nat.lt_of_mul_lt_mul_right (a := clearingPrice cb)
      rw [Nat.add_mul, one_mul] at short
      rw [Nat.add_mul, Nat.add_mul, one_mul, mul_comm cb.rlsdMTRG]
      omega
    generalize cb.rlsdMTRG / clearingPrice cb = excess at bounded ⊢
    omega

/-- An auction with a reserved price is cleared without a division by zero. What is minted exceeds what was released and reserved
by less than the rounding of the price, or is what the reserved price gives if nothing was released; and bidders of the same total
in as many bids get the same up to their number. -/
theorem clearing_within_rounding (env : ScriptEnv) (cb : AuctionCB) (ratio : Int)
    (fork3 : env.forks.isTeslaFork3 env.blockCtx.number = true) (priced : 0 < cb.rsvdPrice)
    (received : cb.rcvdMTR = (cb.auctionTxs.map AuctionTx.amount).sum) {state : State} (sound : Sound state) (log : ScriptLog) :
    ∃ leftOver dist logged after, ((clearAuction env cb ratio).run log).run StateMethod.handle state =
        .ok ((clearingPrice cb, leftOver, dist), logged) after ∧
      (∀ addr, balances after addr = balances state addr + paidTo (· == addr) dist +
        (if addr = auctionLeftOverAccount then cb.rsvdMTRG + leftOver else 0 : Nat)) ∧
      (dist.map DistMtrg.amount).sum + leftOver + cb.rsvdMTRG ≤ (if cb.rlsdMTRG = 0 then cb.rcvdMTR * 10 ^ 18 / clearingPrice cb
        else cb.rlsdMTRG + cb.rlsdMTRG / clearingPrice cb) + cb.rsvdMTRG ∧
      ∀ bidder other, ((bidsOf (· == bidder) cb.auctionTxs).map AuctionTx.amount).sum =
          ((bidsOf (· == other) cb.auctionTxs).map AuctionTx.amount).sum →
        (bidsOf (· == bidder) cb.auctionTxs).length = (bidsOf (· == other) cb.auctionTxs).length →
        paidTo (· == bidder) dist ≤ paidTo (· == other) dist + (bidsOf (· == bidder) cb.auctionTxs).length := by
  have positive : 0 < clearingPrice cb := lt_of_lt_of_le priced (rsvdPrice_le_clearingPrice cb)
  obtain ⟨groups, grouped, paid⟩ := groupBids_paid positive.ne' cb.auctionTxs [] nodup_nil
  obtain ⟨logged, after, ran, minted⟩ := clearAuction_ran env cb ratio fork3 positive.ne' grouped sound log
  have paid (among : Address → Bool) : paidTo among (groups.mergeSort fun first second => first.addr ≤ second.addr) =
      ((bidsOf among cb.auctionTxs).map fun tx => tx.amount * 10 ^ 18 / clearingPrice cb).sum := by
    rw [paidTo_perm (mergeSort_perm _ _), paid]
    exact zero_add _
  refine ⟨_, _, logged, after, ran, minted, ?_, fun bidder other total count => ?_⟩
  · have sold := (sum_bids positive cb.auctionTxs).1
    have all := paid fun _ => true
    simp only [paidTo, bidsOf, filter_true] at all
    rw [← all, ← received] at sold
    exact Nat.add_le_add_right (cleared_le priced sold) _
  · rw [paid, paid]
    have low := (sum_bids positive (bidsOf (· == bidder) cb.auctionTxs)).1
    have high := (sum_bids positive (bidsOf (· == other) cb.auctionTxs)).2
    rw [total] at low
    rw [count]
    exact Nat.le_of_mul_le_mul_right (low.trans high) positive

section

/-- Bids of 10 MTR in all, for 7 MTRG. -/
def soldAuction (txs : List AuctionTx) : AuctionCB :=
  { auctionID := 1, rlsdMTRG := 7 * 10 ^ 18, rsvdPrice := 1, rcvdMTR := 10 ^ 19, auctionTxs := txs }

def twoBids : List AuctionTx := [⟨1, 7, 5 * 10 ^ 18, 0, 0, 0⟩, ⟨2, 8, 5 * 10 ^ 18, 0, 0, 0⟩]

theorem two_bidders_alike :
    ∃ leftOver dist logged after, ((clearAuction (sentBy 0 0) (soldAuction twoBids) 0).run {}).run StateMethod.handle fundedState =
        .ok ((clearingPrice (soldAuction twoBids), leftOver, dist), logged) after ∧
      paidTo (· == 7) dist ≤ paidTo (· == 8) dist + 1 := by
  obtain ⟨leftOver, dist, logged, after, ran, -, -, alike⟩ := clearing_within_rounding (sentBy 0 0) (soldAuction twoBids) 0 (by decide)
    (by decide) (by decide) fundedState_sound {}
  exact ⟨leftOver, dist, logged, after, ran, alike 7 8 (by decide) (by decide)⟩

def oneBid : AuctionCB := soldAuction [⟨1, 7, 10 ^ 19, 0, 0, 0⟩]

/-- One bid of 10 MTR for 7 MTRG: the price is rounded down to 1.428571428571428571, and two units more than released are minted. -/
theorem more_than_released : ∃ dist logged after, ((clearAuction (sentBy 0 0) oneBid 0).run {}).run StateMethod.handle fundedState =
        .ok ((1428571428571428571, 0, dist), logged) after ∧ (dist.map DistMtrg.amount).sum = oneBid.rlsdMTRG + 2 ∧
      balances after 7 = balances fundedState 7 + (oneBid.rlsdMTRG + oneBid.rsvdMTRG + 2) := by
  have grouped : groupBids (clearingPrice oneBid) oneBid.auctionTxs [] = .ok [⟨7, 7 * 10 ^ 18 + 2⟩] := by decide
  obtain ⟨logged, after, ran, minted⟩ := clearAuction_ran (sentBy 0 0) oneBid 0 rfl (by decide) grouped fundedState_sound {}
  rw [mergeSort_singleton] at ran minted
  refine ⟨_, logged, after, ran, rfl, (minted 7).trans ?_⟩
  simp [paidTo, auctionLeftOverAccount, oneBid, soldAuction]

end

end MeterPov.Auction
