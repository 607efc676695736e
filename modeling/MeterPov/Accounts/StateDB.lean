import MeterPov.Accounts.State

/-! `statedb`: the state as the virtual machine sees it, with the refund counter, the logs and the
snapshots of one clause.

A clause cannot undo what happened before it. Whatever revision it reverts to, the checkpoint behind
that revision was made by the clause itself, so the levels below stay as they are. -/

set_option autoImplicit false

namespace MeterPov.Accounts

open Lib Auction

structure Event where
  address : Address
  topics : List Bytes32
  data : Bytes
  deriving DecidableEq, Repr

structure Transfer where
  sender : Address
  recipient : Address
  amount : Int
  token : Nat
  deriving DecidableEq, Repr

inductive RepoKey where
  | suicideFlag (addr : Address)
  | refund
  | preimage (hash : Bytes32)
  | event
  | transfer
  | stateRev
  deriving DecidableEq, Repr

abbrev RepoKey.Value : RepoKey → Type
  | .suicideFlag _ => Bool
  | .refund => UInt64
  | .preimage _ => Bytes
  | .event => Event
  | .transfer => Transfer
  | .stateRev => Nat

/-- The getter answers for two kinds of keys and panics for the others, which do not exist here. -/
def repoGetter : MapGetter RepoKey RepoKey.Value
  | .suicideFlag _ => (false, true)
  | .refund => (0, true)
  | .preimage _ => ([], false)
  | .event => (⟨0, [], []⟩, false)
  | .transfer => (⟨0, 0, 0, 0⟩, false)
  | .stateRev => (0, false)

structure StateDB where
  state : State
  repo : StackedMap RepoKey RepoKey.Value

namespace StateDB

def new (state : State) : StateDB where
  state := state
  repo := .new repoGetter

def onState {α : Type} : Action State α → Action StateDB α := Action.focus StateDB.state fun db state => { db with state := state }

def putRepo (key : RepoKey) (value : key.Value) : Action StateDB Unit := do
  let db ← (MonadState.get : Action StateDB StateDB)
  if db.repo.depth = 0 then throw .outOfRange
  set { db with repo := db.repo.put key value }

def getRefund (db : StateDB) : UInt64 := (db.repo.get .refund).1

def hasSuicided (db : StateDB) (addr : Address) : Bool := (db.repo.get (.suicideFlag addr)).1

def events (db : StateDB) : List Event :=
  db.repo.journal.filterMap fun entry =>
    match entry with
    | ⟨.event, log⟩ => some log
    | _ => none

def transfers (db : StateDB) : List Transfer :=
  db.repo.journal.filterMap fun entry =>
    match entry with
    | ⟨.transfer, transfer⟩ => some transfer
    | _ => none

def addRefund (gas : UInt64) : Action StateDB Unit := do
  putRepo .refund ((← (MonadState.get : Action StateDB StateDB)).getRefund + gas)

def snapshot : Action StateDB Nat := do
  let srev ← onState State.newCheckpoint
  putRepo .stateRev srev
  let db ← (MonadState.get : Action StateDB StateDB)
  set { db with repo := db.repo.push }
  return db.repo.push.depth - 1

def revertToSnapshot (rev : Nat) : Action StateDB Unit := do
  modify fun db => { db with repo := db.repo.popTo rev }
  match (← (MonadState.get : Action StateDB StateDB)).repo.get .stateRev with
  | (srev, true) => onState (State.revertTo srev)
  | (_, false) => throw (.raised "unknown type of key")

def suicide (addr : Address) : Action StateDB Bool := do
  if (← (MonadState.get : Action StateDB StateDB)).state.exist addr then
    onState (State.delete addr)
    putRepo (.suicideFlag addr) true
    return true
  else return false

theorem putRepo_eq (db : StateDB) (key : RepoKey) (value : key.Value) :
    putRepo key value db = if db.repo.depth = 0 then .error .outOfRange db
      else .ok () { db with repo := db.repo.put key value } := by
  unfold putRepo
  by_cases empty : db.repo.depth = 0
  · simp [empty, bind, EStateM.bind, MonadState.get, getThe, MonadStateOf.get, EStateM.get, throw, throwThe,
      MonadExceptOf.throw, EStateM.throw]
  · simp [empty, bind, EStateM.bind, MonadState.get, getThe, MonadStateOf.get, EStateM.get, set, EStateM.set]

theorem suicide_eq {db} (levels : db.state.sm.depth ≠ 0) (repo : db.repo.depth ≠ 0) (addr : Address) : suicide addr db =
      if db.state.exist addr then
        .ok true
          { state := { db.state with sm := (db.state.sm.put (.code addr) []).put (.account addr) {} }
            repo := db.repo.put (.suicideFlag addr) true }
      else .ok false db := by
  change (if db.state.exist addr then _ else _ : Action StateDB Bool) db = _
  split
  · rw [Action.bind_eq]
    have deleted : onState (State.delete addr) db = .ok ()
        { db with state := { db.state with sm := (db.state.sm.put (.code addr) []).put (.account addr) {} } } := by
      unfold onState Action.focus
      rw [State.delete_eq levels]
    rw [deleted]
    dsimp only
    rw [Action.bind_eq, putRepo_eq, if_neg repo]
    rfl
  · rfl
end StateDB

/-- The methods through which the virtual machine and the native calls reach a state. -/
inductive DBMethod where
  | state (method : StateMethod)
  | getRefund
  | addRefund (gas : UInt64)
  | hasSuicided (addr : Address)
  | suicide (addr : Address)
  | addPreimage (hash : Bytes32) (preimage : Bytes)
  | addLog (log : Event)
  | addTransfer (transfer : Transfer)
  | snapshot
  | revertToSnapshot (rev : Nat)

abbrev DBMethod.Answer : DBMethod → Type
  | .state method => method.Answer
  | .getRefund => UInt64
  | .hasSuicided _ => Bool
  | .suicide _ => Bool
  | .snapshot => Nat
  | _ => Unit

def DBMethod.handle : (method : DBMethod) → Action StateDB method.Answer
  | .state method => StateDB.onState method.handle
  | .getRefund => do return (← (MonadState.get : Action StateDB StateDB)).getRefund
  | .addRefund gas => StateDB.addRefund gas
  | .hasSuicided addr => do return (← (MonadState.get : Action StateDB StateDB)).hasSuicided addr
  | .suicide addr => StateDB.suicide addr
  | .addPreimage hash preimage => StateDB.putRepo (.preimage hash) preimage
  | .addLog log => StateDB.putRepo .event log
  | .addTransfer transfer => StateDB.putRepo .transfer transfer
  | .snapshot => StateDB.snapshot
  | .revertToSnapshot rev => StateDB.revertToSnapshot rev

abbrev DBProgram (α : Type) := Program DBMethod DBMethod.Answer α

/-- The clause is confined to levels above those of `base`: so are all checkpoints it can revert to. -/
structure StateDB.Confined (base : State) (db : StateDB) : Prop where
  beneath : base.Beneath db.state
  getter : db.repo.src = repoGetter
  revisions : ∀ level ∈ db.repo.mapStack, ∀ srev : Nat, level.kvs .stateRev = some srev → base.sm.depth < srev

namespace StateDB

variable {base : State}

theorem confined_new {state} (beneath : base.Beneath state) : (new state).Confined base where
  beneath := beneath
  getter := rfl
  revisions := by
    intro level listed srev held
    simp only [new, StackedMap.new, List.mem_singleton] at listed
    subst listed
    cases held

theorem onState_confined {α} {action : Action State α} (kept : Action.Always (State.Beneath base) action (State.Beneath base)) :
    Action.Always (Confined base) (onState action) (Confined base) := by
  refine .focused fun db confined => ?_
  intro state same
  subst same
  have result := kept db.state confined.beneath
  split at result
  · exact ⟨result, confined.getter, confined.revisions⟩
  · exact ⟨result, confined.getter, confined.revisions⟩

/-- A revision that is put has to lie above `base`; the other keys are free. -/
theorem putRepo_confined (key : RepoKey) (value : key.Value)
    (above : ∀ srev : Nat, (⟨key, value⟩ : (key : RepoKey) × key.Value) = ⟨.stateRev, srev⟩ → base.sm.depth < srev) :
    Action.Always (Confined base) (putRepo key value) (Confined base) := by
  refine .readThen fun db confined => ?_
  refine .branch (fun _ => .fault fun _ known => known) fun nonempty => ?_
  refine .put fun _ _ => ⟨confined.beneath, (db.repo.put_src key value).trans confined.getter, ?_⟩
  intro level listed srev held
  cases levels : db.repo.mapStack with
  | nil => exact absurd (by simp [StackedMap.depth, levels]) nonempty
  | cons top below =>
    have old := confined.revisions
    rw [levels] at old
    rw [StackedMap.put_mapStack levels] at listed
    cases listed with
    | tail _ later => exact old level (List.mem_cons_of_mem _ later) srev held
    | head =>
      by_cases same : key = .stateRev
      · subst same
        exact above srev (by rw [Option.some.inj held])
      · rw [Level.record_kvs_of_ne _ _ (Ne.symm same)] at held
        exact old top List.mem_cons_self srev held

theorem suicide_confined (addr : Address) : Action.Always (Confined base) (suicide addr) (Confined base) := by
  refine .readThen fun db _ => .branch (fun _ => ?_) fun _ => .ret fun _ known => known
  refine .seq (onState_confined (.seq (State.put_beneath _ _) fun _ => State.put_beneath _ _)) fun _ => ?_
  exact .seq (putRepo_confined _ _ fun _ same => by cases same) fun _ => .ret fun _ known => known

theorem snapshot_confined : Action.Always (Confined base) snapshot (Confined base) := by
  refine .via (fun srev db => base.sm.depth < srev ∧ db.Confined base) (.focused fun db confined => ?_) fun srev => ?_
  · intro state same
    subst same
    have result := State.newCheckpoint_beneath db.state confined.beneath
    split at result
    · exact ⟨result.1, result.2, confined.getter, confined.revisions⟩
    · exact ⟨result, confined.getter, confined.revisions⟩
  · refine .assuming fun above => ?_
    refine .seq (putRepo_confined _ _ fun other same => by cases same; exact above) fun _ => ?_
    refine .readThen fun db confined => .seq (.put fun _ _ => ?_) fun _ => .ret fun _ known => known
    refine ⟨confined.beneath, confined.getter, fun level listed => ?_⟩
    cases listed with
    | head => exact fun srev held => by cases held
    | tail _ later => exact confined.revisions level later

/-- Every revision the repository can return was put there by a snapshot of this clause. -/
theorem revertToSnapshot_confined (rev : Nat) : Action.Always (Confined base) (revertToSnapshot rev) (Confined base) := by
  refine .via (fun _ => Confined base) (.write fun db confined => ?_) fun _ => ?_
  · refine ⟨confined.beneath, (db.repo.popTo_src rev).trans confined.getter, fun level listed => ?_⟩
    rw [StackedMap.popTo_mapStack] at listed
    exact confined.revisions level (List.mem_of_mem_drop listed)
  · refine .readThen fun db confined => ?_
    split
    next srev found =>
      rw [StackedMap.get_eq, confined.getter] at found
      cases held : lookup db.repo.mapStack .stateRev with
      | none => simp [held, repoGetter] at found
      | some value =>
        obtain ⟨level, listed, holds⟩ := exists_level_of_lookup held
        rw [held] at found
        cases found
        exact onState_confined (State.revertTo_beneath (confined.revisions level listed srev holds))
    · exact .fault fun _ known => known

end StateDB

variable {base : State}

theorem DBMethod.handle_confined (method : DBMethod) : Action.Always (StateDB.Confined base) method.handle (StateDB.Confined base) := by
  cases method with
  | state method => exact StateDB.onState_confined method.handle_beneath
  | getRefund => exact .readThen fun _ _ => .ret fun _ known => known
  | addRefund gas => exact .readThen fun _ _ => StateDB.putRepo_confined _ _ fun _ same => by cases same
  | hasSuicided addr => exact .readThen fun _ _ => .ret fun _ known => known
  | suicide addr => exact StateDB.suicide_confined addr
  | addPreimage hash preimage => exact StateDB.putRepo_confined _ _ fun _ same => by cases same
  | addLog log => exact StateDB.putRepo_confined _ _ fun _ same => by cases same
  | addTransfer transfer => exact StateDB.putRepo_confined _ _ fun _ same => by cases same
  | snapshot => exact StateDB.snapshot_confined
  | revertToSnapshot rev => exact StateDB.revertToSnapshot_confined rev

theorem State.run_beneath {α} (program : StateProgram α) :
    Action.Always (Beneath base) (program.run StateMethod.handle) (Beneath base) :=
  program.within_any.run_keeps fun method _ => method.handle_beneath

end MeterPov.Accounts
