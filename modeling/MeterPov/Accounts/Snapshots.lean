import MeterPov.Lib.Undo
import MeterPov.Accounts.StateDB

/-! What a snapshot of `statedb` brings back.

The state and the repository are two stacked maps. A snapshot pushes a level on each of them and notes
the revision of the state in the level of the repository that was on top. The levels under the two new
ones are not written to until the snapshot is reverted to, so they keep what could be read then. -/

set_option autoImplicit false

namespace MeterPov.Accounts

open Lib Auction List StackedMap Action StateDB

/-- What can be read from a `StateDB`. -/
@[ext] structure View where
  content : (key : StateKey) → key.Value
  refund : UInt64
  suicided : Address → Bool
  events : List Event
  transfers : List Transfer

namespace View

def put (view : View) (key : StateKey) (value : key.Value) : View :=
  { view with content := Function.update view.content key value }

/-- What an entry of the repository changes. -/
def record (view : View) : (key : RepoKey) → key.Value → View
  | .suicideFlag addr, flag => { view with suicided := Function.update view.suicided addr flag }
  | .refund, gas => { view with refund := gas }
  | .event, log => { view with events := view.events ++ [log] }
  | .transfer, transfer => { view with transfers := view.transfers ++ [transfer] }
  | .preimage _, _ => view
  | .stateRev, _ => view

def exist (view : View) (addr : Address) : Bool := !(view.content (.account addr) : Account).isEmpty

end View

namespace StateDB

def view (db : StateDB) : View where
  content := db.state.get
  refund := db.getRefund
  suicided := db.hasSuicided
  events := db.events
  transfers := db.transfers

def putState (db : StateDB) (key : StateKey) (value : key.Value) : StateDB :=
  { db with state := { db.state with sm := db.state.sm.put key value } }

variable {db : StateDB}

theorem view_putState (nonempty : db.state.sm.mapStack ≠ []) (key : StateKey) (value : key.Value) :
    (db.putState key value).view = db.view.put key value := by
  have content : (db.putState key value).state.get = Function.update db.state.get key value := by
    funext other
    by_cases same : other = key
    · subst same
      rw [Function.update_self]
      exact State.get_put_self (by simpa [StackedMap.depth] using nonempty) other value
    · rw [Function.update_of_ne same]
      exact State.get_put_of_ne db.state same value
  unfold view View.put
  rw [content]
  rfl

theorem view_record (nonempty : db.repo.mapStack ≠ []) (key : RepoKey) (value : key.Value) :
    { db with repo := db.repo.put key value }.view = db.view.record key value := by
  have depth : db.repo.depth ≠ 0 := by simpa [StackedMap.depth] using nonempty
  apply View.ext
  · cases key <;> rfl
  · change ((db.repo.put key value).get .refund).1 = _
    by_cases same : RepoKey.refund = key
    · subst same
      rw [get_put_self depth]
      rfl
    · rw [get_put_of_ne same]
      cases key <;> first | rfl | exact absurd rfl same
  · funext addr
    change ((db.repo.put key value).get (.suicideFlag addr)).1 = _
    by_cases same : RepoKey.suicideFlag addr = key
    · subst same
      rw [get_put_self depth]
      simp [View.record]
    · rw [get_put_of_ne same]
      cases key with
      | suicideFlag other =>
        have apart : addr ≠ other := fun equal => same (by rw [equal])
        simp [View.record, apart, view, hasSuicided]
      | _ => rfl
  · cases key <;> simp [events, journal_put nonempty, View.record, view]
  · cases key <;> simp [transfers, journal_put nonempty, View.record, view]

def push (db : StateDB) : StateDB := ⟨{ db.state with sm := db.state.sm.push }, db.repo.push⟩

theorem view_push (db : StateDB) : db.push.view = db.view := by
  apply View.ext
  · funext key
    exact congrArg Prod.fst (db.state.sm.get_push key)
  · exact congrArg Prod.fst (db.repo.get_push _)
  · funext addr
    exact congrArg Prod.fst (db.repo.get_push _)
  · simp [view, events, push, StackedMap.journal, newLevel]
  · simp [view, transfers, push, StackedMap.journal, newLevel]

theorem snapshot_eq (nonempty : db.repo.depth ≠ 0) :
    snapshot db = .ok db.repo.depth { db with repo := db.repo.put .stateRev db.state.sm.depth }.push := by
  have checkpoint : onState State.newCheckpoint db = .ok db.state.sm.depth { db with state := { db.state with sm := db.state.sm.push } } :=
    rfl
  rw [snapshot, bind_eq, checkpoint]
  dsimp only
  rw [bind_eq, putRepo_eq, if_neg nonempty]
  have depth : (db.repo.put .stateRev db.state.sm.depth).push.depth - 1 = db.repo.depth :=
    db.repo.put_mapStack_length .stateRev db.state.sm.depth
  rw [← depth]
  rfl

theorem revertToSnapshot_eq {rev srev : Nat} (noted : (db.repo.popTo rev).get .stateRev = (srev, true)) : revertToSnapshot rev db =
      .ok () ⟨{ db.state with sm := db.state.sm.popTo srev }, db.repo.popTo rev⟩ := by
  have popped : (do modify fun db : StateDB => { db with repo := db.repo.popTo rev }; MonadState.get : Action StateDB StateDB) db =
      .ok { db with repo := db.repo.popTo rev } { db with repo := db.repo.popTo rev } := rfl
  rw [revertToSnapshot, ← bind_assoc, bind_eq, popped]
  dsimp only
  rw [noted]
  rfl

end StateDB

abbrev StateLevel := Level StateKey StateKey.Value

abbrev RepoLevel := Level RepoKey RepoKey.Value

/-- What is read from these levels. -/
def levelView (src : MapGetter StateKey StateKey.Value) (levels : List StateLevel) (repo : List RepoLevel) : View :=
  StateDB.view ⟨⟨.ofLevels src levels, {}, false⟩, .ofLevels repoGetter repo⟩

theorem StateDB.view_eq {db : StateDB} (getter : db.repo.src = repoGetter) :
    db.view = levelView db.state.sm.src db.state.sm.mapStack db.repo.mapStack := by
  unfold levelView
  rw [← getter, ofLevels_eq, ofLevels_eq]
  rfl

/-- The levels of a `StateDB` with live snapshots: under the levels made since a snapshot stand those it was made of. -/
inductive Stacked (src : MapGetter StateKey StateKey.Value) : List StateLevel → List RepoLevel → List View → Prop where
  | bottom {levels : List StateLevel} {top : RepoLevel} : levels ≠ [] → Stacked src levels [top] []
  | onto {above below : List StateLevel} {top level : RepoLevel} {under : List RepoLevel} {older : List View} :
      above ≠ [] → level.kvs .stateRev = some below.length → Stacked src below (level :: under) older →
      Stacked src (above ++ below) (top :: level :: under) (levelView src below (level :: under) :: older)

namespace Stacked

variable {src : MapGetter StateKey StateKey.Value} {levels : List StateLevel} {repo under : List RepoLevel} {saved : List View}
  {level level' : StateLevel} {top top' : RepoLevel}

theorem repo_length (stacked : Stacked src levels repo saved) : repo.length = saved.length + 1 := by
  induction stacked with
  | bottom _ => rfl
  | onto _ _ _ ih =>
    rw [length_cons, ih]
    rfl

theorem levels_ne_nil (stacked : Stacked src levels repo saved) : levels ≠ [] := by
  cases stacked with
  | bottom nonempty => exact nonempty
  | onto nonempty _ _ => exact append_ne_nil_of_left_ne_nil nonempty _

/-- Only the two levels on top are written to, and no snapshot reads them. -/
theorem write (stacked : Stacked src (level :: levels) (top :: under) saved) : Stacked src (level' :: levels) (top' :: under) saved := by
  generalize whole : level :: levels = all at stacked
  cases stacked with
  | bottom _ => exact .bottom (cons_ne_nil _ _)
  | @onto above below _ _ _ _ nonempty noted lower =>
    cases above with
    | nil => exact absurd rfl nonempty
    | cons first above =>
      cases whole
      exact .onto (cons_ne_nil level' above) noted lower

theorem under_snapshot (stacked : Stacked src levels repo saved) {newer older copy} (live : saved = newer ++ copy :: older) :
    ∃ above below aboveRepo level under, levels = above ++ below ∧ repo = aboveRepo ++ level :: under ∧
      level.kvs .stateRev = some below.length ∧ copy = levelView src below (level :: under) ∧
      Stacked src below (level :: under) older := by
  induction stacked generalizing newer with
  | bottom _ =>
    have length := congrArg List.length live
    simp at length
  | @onto above below top level under _ _ noted lower ih =>
    cases newer with
    | nil =>
      cases live
      exact ⟨above, below, [top], level, under, rfl, rfl, noted, rfl, lower⟩
    | cons _ newer =>
      obtain ⟨-, live⟩ := List.cons.inj live
      obtain ⟨higher, below, aboveRepo, level, under, rfl, repo, rest⟩ := ih live
      exact ⟨above ++ higher, below, top :: aboveRepo, level, under, by simp, by simp [repo], rest⟩

end Stacked

/-- A `StateDB` that reads as the current value and keeps the saved ones under it. -/
structure Follows (db : StateDB) (undo : Undo View) : Prop where
  getter : db.repo.src = repoGetter
  now : undo.now = db.view
  stacked : Stacked db.state.sm.src db.state.sm.mapStack db.repo.mapStack undo.saved

namespace Follows

variable {db : StateDB} {undo : Undo View} {view : View} {saved : List View}

theorem new {state} (levels : state.sm.depth ≠ 0) : Follows (.new state) ⟨(StateDB.new state).view, []⟩ where
  getter := rfl
  now := rfl
  stacked := .bottom fun (empty : state.sm.mapStack = []) => levels (by simp [StackedMap.depth, empty])

theorem levels (follows : Follows db undo) : ∃ level rest, db.state.sm.mapStack = level :: rest :=
  exists_cons_of_ne_nil follows.stacked.levels_ne_nil

theorem repo (follows : Follows db undo) : ∃ top under, db.repo.mapStack = top :: under := by
  apply exists_cons_of_ne_nil
  intro empty
  have length := follows.stacked.repo_length
  simp [empty] at length

theorem levels_depth (follows : Follows db undo) : db.state.sm.depth ≠ 0 := by
  simpa [StackedMap.depth] using follows.stacked.levels_ne_nil

theorem repo_depth (follows : Follows db undo) : db.repo.depth ≠ 0 := by
  obtain ⟨top, under, repo⟩ := follows.repo
  simp [StackedMap.depth, repo]

theorem putState (follows : Follows db ⟨view, saved⟩) (key : StateKey) (value : key.Value) :
    Follows (db.putState key value) ⟨view.put key value, saved⟩ := by
  obtain ⟨level, rest, levels⟩ := follows.levels
  obtain ⟨top, under, repo⟩ := follows.repo
  have stacked := follows.stacked
  refine ⟨follows.getter, ?_, ?_⟩
  · rw [view_putState follows.stacked.levels_ne_nil, ← follows.now]
  · unfold StateDB.putState
    rw [put_src, put_mapStack levels, repo]
    rw [levels, repo] at stacked
    exact stacked.write

theorem record (follows : Follows db ⟨view, saved⟩) (key : RepoKey) (value : key.Value) :
    Follows { db with repo := db.repo.put key value } ⟨view.record key value, saved⟩ := by
  obtain ⟨level, rest, levels⟩ := follows.levels
  obtain ⟨top, under, repo⟩ := follows.repo
  have stacked := follows.stacked
  refine ⟨(db.repo.put_src key value).trans follows.getter, ?_, ?_⟩
  · rw [view_record (by simp [repo]), ← follows.now]
  · rw [put_mapStack repo, levels]
    rw [levels, repo] at stacked
    exact stacked.write

end Follows

/-- The operations that write to one of the two maps, or to none. The control block and the summaries of the auctions are kept
beside the map of the state. -/
def DBMethod.Journaled : DBMethod → Prop
  | .state (.get _) | .state (.put _ _) => True
  | .state _ => False
  | .snapshot | .revertToSnapshot _ => False
  | _ => True

/-- What an operation does to what can be read. -/
def DBMethod.act : (method : DBMethod) → Action View method.Answer
  | .state (.get key) => do return (← (MonadState.get : Action View View)).content key
  | .state (.put key value) => modify fun view => view.put key value
  | .getRefund => do return (← (MonadState.get : Action View View)).refund
  | .addRefund gas => modify fun view => view.record .refund (view.refund + gas)
  | .hasSuicided addr => do return (← (MonadState.get : Action View View)).suicided addr
  | .suicide addr => do
    if (← (MonadState.get : Action View View)).exist addr then
      modify fun view => ((view.put (.code addr) []).put (.account addr) {}).record (.suicideFlag addr) true
      return true
    else return false
  | .addPreimage hash preimage => modify fun view => view.record (.preimage hash) preimage
  | .addLog log => modify fun view => view.record .event log
  | .addTransfer transfer => modify fun view => view.record .transfer transfer
  | _ => throw (.raised "not journaled")

namespace DBMethod

theorem handle_simulates {method : DBMethod} (journaled : method.Journaled) (saved : List View) :
    Program.Simulates (fun db view => Follows db ⟨view, saved⟩) method.handle method.act := by
  intro db view follows
  obtain rfl : view = db.view := follows.now
  have putRepo (key : RepoKey) (value : key.Value) : StateDB.putRepo key value db = .ok () { db with repo := db.repo.put key value } := by
    rw [putRepo_eq, if_neg follows.repo_depth]
  cases method with
  | state method =>
    cases method with
    | get key => exact ⟨rfl, follows⟩
    | put key value =>
      have ran : (DBMethod.state (.put key value)).handle db = .ok () (db.putState key value) := by
        unfold handle StateDB.onState Action.focus
        dsimp only [StateMethod.handle]
        rw [State.put_eq, if_neg follows.levels_depth]
        rfl
      rw [ran]
      exact ⟨rfl, follows.putState key value⟩
    | _ => exact journaled.elim
  | getRefund => exact ⟨rfl, follows⟩
  | addRefund gas =>
    have ran : (DBMethod.addRefund gas).handle db = StateDB.putRepo .refund (db.getRefund + gas) db := rfl
    rw [ran, putRepo]
    exact ⟨rfl, follows.record _ _⟩
  | hasSuicided addr => exact ⟨rfl, follows⟩
  | suicide addr =>
    have ran : (DBMethod.suicide addr).handle db = _ := suicide_eq follows.levels_depth follows.repo_depth addr
    have acted : (DBMethod.suicide addr).act db.view = if db.state.exist addr
        then .ok true (((db.view.put (.code addr) []).put (.account addr) {}).record (.suicideFlag addr) true)
        else .ok false db.view := by
      change (if db.state.exist addr then _ else _ : Action View Bool) db.view = _
      split <;> rfl
    rw [ran, acted]
    by_cases exist : db.state.exist addr
    · rw [if_pos exist, if_pos exist]
      exact ⟨rfl, ((follows.putState _ _).putState _ _).record _ _⟩
    · rw [if_neg exist, if_neg exist]
      exact ⟨rfl, follows⟩
  | addPreimage hash preimage =>
    have ran : (DBMethod.addPreimage hash preimage).handle db = StateDB.putRepo (.preimage hash) preimage db := rfl
    rw [ran, putRepo]
    exact ⟨rfl, follows.record _ _⟩
  | addLog log =>
    have ran : (DBMethod.addLog log).handle db = StateDB.putRepo .event log db := rfl
    rw [ran, putRepo]
    exact ⟨rfl, follows.record _ _⟩
  | addTransfer transfer =>
    have ran : (DBMethod.addTransfer transfer).handle db = StateDB.putRepo .transfer transfer db := rfl
    rw [ran, putRepo]
    exact ⟨rfl, follows.record _ _⟩
  | snapshot => exact journaled.elim
  | revertToSnapshot rev => exact journaled.elim

end DBMethod

/-- The calls that are made on a `StateDB`: operations, snapshots and reverts. -/
def StateDB.undoable (α : Type) : Undoable StateDB (DBProgram α) α where
  op program := program.run DBMethod.handle
  save := StateDB.snapshot
  back := StateDB.revertToSnapshot

theorem Follows.snapshot {db undo} (follows : Follows db undo) :
    ∃ after, StateDB.snapshot db = .ok (undo.saved.length + 1) after ∧ Follows after undo.save := by
  have noted : Follows { db with repo := db.repo.put .stateRev db.state.sm.depth } undo := follows.record .stateRev db.state.sm.depth
  obtain ⟨top, under, repo⟩ := follows.repo
  have levels := put_mapStack repo .stateRev db.state.sm.depth
  have depth : db.repo.depth = undo.saved.length + 1 := follows.stacked.repo_length
  refine ⟨_, depth ▸ snapshot_eq follows.repo_depth, ?_⟩
  refine ⟨noted.getter, ?_, ?_⟩
  · rw [view_push]
    exact noted.now
  · have stacked := noted.stacked
    have view := noted.now.trans (view_eq noted.getter)
    rw [levels] at stacked view
    unfold Undo.save
    rw [view]
    unfold StateDB.push
    rw [push_mapStack, push_mapStack, levels]
    exact .onto (cons_ne_nil _ []) (Level.record_kvs_self ..) stacked

theorem Follows.revertToSnapshot {db undo earlier rev} (follows : Follows db undo) (live : undo.back rev = some earlier) :
    ∃ after, StateDB.revertToSnapshot rev db = .ok () after ∧ Follows after earlier := by
  obtain ⟨rfl, newer, saved⟩ := Undo.back_eq_some live
  obtain ⟨above, below, aboveRepo, level, under, levels, repo, noted, copy, stacked⟩ := follows.stacked.under_snapshot saved
  have depth := stacked.repo_length.symm
  have popped : (db.repo.popTo (earlier.saved.length + 1)).mapStack = level :: under := by
    rw [depth]
    exact popTo_append repo
  have poppedState := popTo_append levels
  have getter : (db.repo.popTo (earlier.saved.length + 1)).src = repoGetter := (db.repo.popTo_src _).trans follows.getter
  have found : (db.repo.popTo (earlier.saved.length + 1)).get .stateRev = (below.length, true) := by
    rw [get_eq, popped]
    simp [lookup, noted]
  refine ⟨_, revertToSnapshot_eq found, getter, ?_, ?_⟩
  · rw [view_eq getter]
    rw [popped, poppedState, popTo_src]
    exact copy
  · rw [popped, poppedState, popTo_src]
    exact stacked

theorem StateDB.undoable_refines (α : Type) :
    (StateDB.undoable α).Refines (fun program => program.run DBMethod.act) (fun program => program.Within DBMethod.Journaled) Follows where
  op program journaled saved := journaled.simulates fun method allowed => method.handle_simulates allowed saved
  save := by
    intro db undo follows
    obtain ⟨after, ran, later⟩ := follows.snapshot
    have saved : (StateDB.undoable α).save db = .ok (undo.saved.length + 1) after := ran
    rw [saved]
    exact ⟨rfl, later⟩
  back db undo rev earlier follows live := follows.revertToSnapshot live

/-- Snapshots, reverts and operations that are journaled. -/
abbrev JournaledCalls {α : Type} (calls : List (UndoCall (DBProgram α))) : Prop :=
  ∀ call ∈ calls, Undoable.Allowed (fun program => program.Within DBMethod.Journaled) call

/-- A revert brings back what could be read when the snapshot was made, and every later call answers as if the calls since then
had not been made. A snapshot is live until it, or an older one, is reverted to. -/
theorem revert_forgets {α : Type} {state : State} {db : StateDB} {history : List (UndoCall (DBProgram α))}
    {replies : List (UndoReply α)} {count : Nat} (levels : state.sm.depth ≠ 0) (journaled : JournaledCalls history)
    (live : liveAfter 0 0 history = some count) (ran : (StateDB.undoable α).run history (.new state) = .ok replies db) :
    ∃ copied, StateDB.snapshot db = .ok (count + 1) copied ∧ copied.view = db.view ∧
      ∀ inside replies after, JournaledCalls inside → (liveAfter (count + 1) (count + 1) inside).isSome →
        (StateDB.undoable α).run inside copied = .ok replies after →
        ∃ reverted, StateDB.revertToSnapshot (count + 1) after = .ok () reverted ∧ reverted.view = db.view ∧
          ∀ later, JournaledCalls later → (liveAfter 0 count later).isSome →
            Undoable.Alike (fun db db' : StateDB => db.view = db'.view) ((StateDB.undoable α).run later reverted)
              ((StateDB.undoable α).run later db) := by
  have refines := undoable_refines α
  have someLive : (liveAfter 0 0 history).isSome := by
    rw [live]
    rfl
  have ranAlike := refines.run history journaled (.new levels) someLive
  rw [ran] at ranAlike
  obtain ⟨undo, ranModel, follows⟩ := ranAlike.ok_left
  have saved : [] <:+ undo.saved ∧ _ := Undoable.model_run_saved history ranModel someLive List.nil_suffix
  obtain rfl : count = undo.saved.length := Option.some.inj (live.symm.trans saved.2)
  obtain ⟨copied, saved, followsCopied⟩ := follows.snapshot
  refine ⟨copied, saved, followsCopied.now.symm.trans follows.now, ?_⟩
  intro inside replies after journaledInside liveInside ranInside
  obtain ⟨reverted, went, followsAgain⟩ := refines.back_after follows saved journaledInside liveInside ranInside
  refine ⟨reverted, went, followsAgain.now.symm.trans follows.now, ?_⟩
  intro later journaledLater liveLater
  -- both databases stand for one value with one list of saved values
  apply ((refines.run later journaledLater followsAgain liveLater).common (refines.run later journaledLater follows liveLater)).mono
  rintro db db' ⟨undo, known, known'⟩
  exact known.now.symm.trans known'.now

section

/-- A state in which nothing has been written. -/
def blankState : State where
  sm := .new fun key =>
    match key with
    | .account _ => ({}, true)
    | .code _ => ([], true)
    | .storage _ _ => (.empty, true)
  seCache := {}
  err := false

def refundCall (gas : UInt64) : UndoCall (DBProgram Unit) := .op (Program.call (.addRefund gas) fun _ => .done ())

def earlierCalls : List (UndoCall (DBProgram Unit)) := [refundCall 5, .save, refundCall 2]

/-- Two snapshots, a revert to the first of them, and a change of an account. -/
def forgottenCalls : List (UndoCall (DBProgram Unit)) :=
  [refundCall 1, .save, .op (.call (.addLog ⟨1, [], []⟩) fun _ => .done ()), .save, .back 3, refundCall 1,
    .op (.call (.state (.put (.account 1) { balance := 9 })) fun _ => .done ())]

def refundedDB : StateDB := ((StateDB.undoable Unit).run earlierCalls).finalState (.new blankState)

theorem refund_restored : ∃ copied reverted, StateDB.snapshot refundedDB = .ok 2 copied ∧
      StateDB.revertToSnapshot 2 (((StateDB.undoable Unit).run forgottenCalls).finalState copied) = .ok () reverted ∧
      reverted.view = refundedDB.view := by
  have journaled : JournaledCalls earlierCalls := by
    simp [JournaledCalls, earlierCalls, refundCall, Undoable.Allowed, Program.Within, DBMethod.Journaled]
  have journaledInside : JournaledCalls forgottenCalls := by
    simp [JournaledCalls, forgottenCalls, refundCall, Undoable.Allowed, Program.Within, DBMethod.Journaled]
  have fineEarlier : ((StateDB.undoable Unit).run earlierCalls).fault? (.new blankState) = none := by decide +kernel
  obtain ⟨replies, ran⟩ := ok_of_fault? fineEarlier
  obtain ⟨copied, saved, -, forgets⟩ := revert_forgets (by decide) journaled rfl ran
  have same : copied = StateDB.snapshot.finalState refundedDB := by
    unfold Action.finalState
    rw [refundedDB, saved]
  have fine : ((StateDB.undoable Unit).run forgottenCalls).fault? copied = none := by
    rw [same]
    decide +kernel
  obtain ⟨replies', ranInside⟩ := ok_of_fault? fine
  obtain ⟨reverted, went, restored, -⟩ := forgets forgottenCalls replies' _ journaledInside rfl ranInside
  exact ⟨copied, reverted, saved, went, restored⟩

end

end MeterPov.Accounts
