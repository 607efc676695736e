import MeterPov.Accounts.Snapshots

/-! Transient storage (`runtime/statedb/statedb.go`, `state/transient_storage.go`).

It stands beside the repository with the snapshots, and its setter leaves nothing in the journal. -/

set_option autoImplicit false

namespace MeterPov.Accounts

open Lib Lib.Action Auction

structure TransientDB where
  db : StateDB
  /-- An absent entry reads as zero. -/
  transientStorage : Address → Bytes32 → Bytes32

namespace TransientDB

def onDB {α : Type} : Action StateDB α → Action TransientDB α :=
  Action.focus TransientDB.db fun state db => { state with db := db }

def getTransientState (state : TransientDB) (addr : Address) (key : Bytes32) : Bytes32 := state.transientStorage addr key

def setTransientState (addr : Address) (key value : Bytes32) : Action TransientDB Unit :=
  modify fun state =>
    if state.getTransientState addr key = value then state
    else
      { state with
        transientStorage := Function.update state.transientStorage addr (Function.update (state.transientStorage addr) key value) }

end TransientDB

inductive TransientCall where
  | setTransientState (addr : Address) (key value : Bytes32)
  | snapshot
  | revertToSnapshot (rev : Nat)

namespace TransientCall

def handle : TransientCall → Action TransientDB Unit
  | .setTransientState addr key value => TransientDB.setTransientState addr key value
  | .snapshot => do
    let _ ← TransientDB.onDB StateDB.snapshot
  | .revertToSnapshot rev => TransientDB.onDB (StateDB.revertToSnapshot rev)

def handleAll : List TransientCall → Action TransientDB Unit
  | [] => return ()
  | call :: rest => do
    call.handle
    handleAll rest

def sets (call : TransientCall) (addr : Address) (key : Bytes32) : Option Bytes32 :=
  match call with
  | .setTransientState at_ slot value => if at_ = addr ∧ slot = key then some value else none
  | _ => none

/-- What the last of the calls that set an entry sets it to. -/
def lastSet (calls : List TransientCall) (addr : Address) (key : Bytes32) : Option Bytes32 :=
  calls.foldl (fun last call => (call.sets addr key).or last) none

variable (addr : Address) (key : Bytes32)

theorem onDB_transient {α} (action : Action StateDB α) (value : Bytes32) :
    Triple (fun state => state.getTransientState addr key = value) (TransientDB.onDB action)
      (fun _ state => state.getTransientState addr key = value) fun _ => True := by
  refine .focused fun state known => ?_
  intro db _
  cases action db with
  | ok result after => exact known
  | error fault after => trivial

theorem handle_transient (call : TransientCall) (value : Bytes32) :
    Triple (fun state => state.getTransientState addr key = value) call.handle
      (fun _ state => state.getTransientState addr key = (call.sets addr key).getD value) fun _ => True := by
  cases call with
  | setTransientState at_ slot written =>
    refine .write fun state known => ?_
    subst known
    unfold sets TransientDB.getTransientState
    by_cases here : at_ = addr ∧ slot = key
    · obtain ⟨rfl, rfl⟩ := here
      split
      next same => simpa using same
      · simp
    · simp only [if_neg here]
      split
      · rfl
      · by_cases same : addr = at_
        · subst same
          have other : key ≠ slot := fun same => here ⟨rfl, same.symm⟩
          simp [other]
        · simp [same]
  | snapshot => exact .seq (onDB_transient addr key _ _) fun _ => .ret fun _ known => known
  | revertToSnapshot rev => exact onDB_transient addr key _ _

/-- Nothing but a later call to the setter changes an entry. -/
theorem handleAll_transient (calls : List TransientCall) (last : Option Bytes32) (value : Bytes32) :
    Triple (fun state => state.getTransientState addr key = last.getD value) (handleAll calls)
      (fun _ state => state.getTransientState addr key =
        (calls.foldl (fun last call => (call.sets addr key).or last) last).getD value) fun _ => True := by
  induction calls generalizing last with
  | nil => exact .ret fun _ known => known
  | cons call rest ih =>
    refine .seq (handle_transient addr key call _) fun _ => (ih ((call.sets addr key).or last)).conseq ?_ (fun _ _ known => known) fun _ _ => trivial
    intro state known
    rw [known]
    cases call.sets addr key <;> rfl

/-- A revert brings the transient storage back when the calls since the snapshot have put every entry back, and only
then. -/
theorem reverted_iff_put_back {start copied inside after : TransientDB} {rev : Nat} {calls : List TransientCall}
    (taken : TransientDB.onDB StateDB.snapshot start = .ok rev copied) (ran : handleAll calls copied = .ok () inside)
    (reverted : TransientDB.onDB (StateDB.revertToSnapshot rev) inside = .ok () after) :
    (∀ addr key, after.getTransientState addr key = copied.getTransientState addr key) ↔
      ∀ addr key, ∀ value ∈ lastSet calls addr key, value = start.getTransientState addr key := by
  have known (addr : Address) (key : Bytes32) : copied.getTransientState addr key = start.getTransientState addr key ∧
      after.getTransientState addr key = (lastSet calls addr key).getD (start.getTransientState addr key) := by
    have same := (onDB_transient addr key StateDB.snapshot _).of_ok rfl taken
    have written := (handleAll_transient addr key calls none _).of_ok same ran
    exact ⟨same, (onDB_transient addr key (StateDB.revertToSnapshot rev) _).of_ok written reverted⟩
  refine forall_congr' fun addr => forall_congr' fun key => ?_
  rw [(known addr key).1, (known addr key).2]
  cases lastSet calls addr key with
  | none => simp
  | some value => simp

def blankDB : TransientDB := ⟨.new blankState, fun _ _ => 0⟩

def clearingCalls : List TransientCall := [.setTransientState 7 1 5, .snapshot, .setTransientState 7 1 0]

/-- An entry is set and cleared again in a frame that is reverted. -/
theorem cleared_entry_reverted :
    ∃ copied inside after, TransientDB.onDB StateDB.snapshot blankDB = .ok 1 copied ∧ handleAll clearingCalls copied = .ok () inside ∧
      TransientDB.onDB (StateDB.revertToSnapshot 1) inside = .ok () after ∧
      ∀ addr key, after.getTransientState addr key = copied.getTransientState addr key := by
  obtain ⟨copied, inside, after, taken, ran, reverted⟩ : ∃ copied inside after,
      TransientDB.onDB StateDB.snapshot blankDB = .ok 1 copied ∧ handleAll clearingCalls copied = .ok () inside ∧
        TransientDB.onDB (StateDB.revertToSnapshot 1) inside = .ok () after := ⟨_, _, _, rfl, rfl, rfl⟩
  refine ⟨copied, inside, after, taken, ran, reverted, (reverted_iff_put_back taken ran reverted).mpr fun addr key value set => ?_⟩
  by_cases here : 7 = addr ∧ 1 = key
  · have cleared : value = 0 := by simpa [lastSet, clearingCalls, sets, here, eq_comm] using set
    exact cleared
  · simp [lastSet, clearingCalls, sets, here] at set

/-- A lock that is set in a frame stays set when the frame is reverted. -/
theorem set_entry_not_reverted : ∃ copied inside after, TransientDB.onDB StateDB.snapshot blankDB = .ok 1 copied ∧
      handleAll [.setTransientState 7 1 5] copied = .ok () inside ∧
      TransientDB.onDB (StateDB.revertToSnapshot 1) inside = .ok () after ∧
      copied.getTransientState 7 1 = 0 ∧ after.getTransientState 7 1 = 5 := by
  refine ⟨_, _, _, rfl, rfl, rfl, rfl, rfl⟩

end TransientCall
end MeterPov.Accounts
