import MeterPov.Lib.Exec

/-! Stateful computations that may stop with a run-time panic.

A panic leaves the state as it was when it happened: what was written before it stays written. A
triple therefore has two postconditions, one for a return and one for a panic. -/

set_option autoImplicit false

namespace MeterPov.Lib

abbrev Action (State α : Type) := EStateM Fault State α

namespace Action

variable {State Part α β : Type}

def lift (computation : Exec α) : Action State α := fun state =>
  match computation with
  | .ok value => .ok value state
  | .error fault => .error fault state

instance : MonadLift Exec (Action State) := ⟨lift⟩

variable (action : Action State α)

theorem bind_eq (next : α → Action State β) (state : State) : (action >>= next) state = match action state with
      | .ok value after => next value after
      | .error fault after => .error fault after := by
  change EStateM.bind action next state = _
  unfold EStateM.bind
  cases action state <;> rfl

/-- An action on a part of the state. -/
def focus (view : State → Part) (put : State → Part → State) (action : Action Part α) : Action State α :=
  fun state =>
    match action (view state) with
    | .ok value part => .ok value (put state part)
    | .error fault part => .error fault (put state part)

section

variable (action : Action State α) (state : State)

def finalState : State :=
  match action state with
  | .ok _ after => after
  | .error _ after => after

def value? : Option α :=
  match action state with
  | .ok value _ => some value
  | .error _ _ => none

def fault? : Option Fault :=
  match action state with
  | .ok _ _ => none
  | .error fault _ => some fault

end

variable {state : State}

theorem ok_of_fault? {action : Action State α} (fine : action.fault? state = none) :
    ∃ value, action state = .ok value (action.finalState state) := by
  unfold fault? at fine
  unfold finalState
  cases ran : action state with
  | ok value after => exact ⟨value, rfl⟩
  | error fault after =>
    rw [ran] at fine
    cases fine

variable {next : α → Action State β}

theorem bind_eq_ok {action after} {result : β} : (action >>= next) state = .ok result after ↔
      ∃ value middle, action state = .ok value middle ∧ next value middle = .ok result after := by
  change EStateM.bind action next state = _ ↔ _
  unfold EStateM.bind
  cases action state with
  | ok value middle =>
    refine ⟨fun ran => ⟨value, middle, rfl, ran⟩, ?_⟩
    rintro ⟨_, _, same, ran⟩
    cases same
    exact ran
  | error fault middle => simp

section

variable (pre : State → Prop) (action : Action State α)

/-- From a state with `pre`, the action returns with `post`, or it panics for a reason and in a state with `fail`. -/
def Ends (post : α → State → Prop) (fail : Fault → State → Prop) : Prop :=
  ∀ state, pre state →
    match action state with
    | .ok value after => post value after
    | .error reason after => fail reason after

/-- The same where the reason of a panic does not matter. -/
abbrev Triple (post : α → State → Prop) (crash : State → Prop) : Prop :=
  Ends pre action post fun _ => crash

/-- From a state with `pre`, the action ends in one where this holds, with or without a panic. -/
abbrev Always (holds : State → Prop) : Prop :=
  Triple pre action (fun _ => holds) holds

end

/-- From a state with `pre`, the action returns with `post` or panics for another reason than the given one. -/
abbrev Avoids (bad : Fault) (pre : State → Prop) (action : Action State α) (post : α → State → Prop) : Prop :=
  Ends pre action post fun reason _ => reason ≠ bad

variable {other : Action State α}

namespace Ends

variable {pre pre' : State → Prop} {post post' : α → State → Prop} {fail fail' : Fault → State → Prop} {action : Action State α}

theorem ret {value : α} (holds : ∀ state, pre state → post value state) : Ends pre (pure value) post fail :=
  holds

theorem fault {reason} (holds : ∀ state, pre state → fail reason state) : Ends pre (throw reason : Action State α) post fail :=
  holds

theorem write {update post} (holds : ∀ state, pre state → post ⟨⟩ (update state)) : Ends pre (modify update) post fail :=
  holds

theorem put {after post} (holds : ∀ state, pre state → post ⟨⟩ after) : Ends pre (set after) post fail :=
  holds

theorem conseq (known : Ends pre' action post' fail') (before : ∀ state, pre state → pre' state)
    (after : ∀ value state, post' value state → post value state)
    (stopped : ∀ reason state, fail' reason state → fail reason state) : Ends pre action post fail := by
  intro state given
  have result := known state (before state given)
  split at result
  · exact after _ _ result
  · exact stopped _ _ result

theorem mono (known : Ends pre action post' fail) (after : ∀ value state, post' value state → post value state) :
    Ends pre action post fail :=
  known.conseq (fun _ given => given) after fun _ _ stopped => stopped

theorem start {start} (known : Ends pre action post fail) (given : pre start) : Ends (· = start) action post fail :=
  known.conseq (fun _ same => same ▸ given) (fun _ _ done => done) fun _ _ stopped => stopped

theorem here {start} {value : α} (holds : post value start) : Ends (· = start) (pure value) post fail :=
  fun _ same => same ▸ holds

theorem branch {condition} [Decidable condition]
    (holds : condition → Ends pre action post fail) (fails : ¬ condition → Ends pre other post fail) :
    Ends pre (if condition then action else other) post fail := by
  split
  · exact holds (by assumption)
  · exact fails (by assumption)

theorem focused {view put} {part : Action Part α}
    (holds : ∀ state, pre state → Ends (· = view state) part (fun value after => post value (put state after))
      (fun reason after => fail reason (put state after))) :
    Ends pre (focus view put part) post fail := by
  intro state given
  have result := holds state given _ rfl
  unfold focus
  cases ran : part (view state) with
  | ok value after =>
    rw [ran] at result
    exact result
  | error reason after =>
    rw [ran] at result
    exact result

theorem assuming {fact} (known : fact → Ends pre action post fail) : Ends (fun state => fact ∧ pre state) action post fail :=
  fun state given => known given.1 state given.2

/-- A precondition that does not hold of every state may be assumed of each of them in turn. -/
theorem each (holds : ∀ start, pre start → Ends (· = start) action post fail) : Ends pre action post fail :=
  fun state given => holds state given state rfl

theorem both (first : Ends pre action post fail) (second : Ends pre' action post' fail') :
    Ends (fun state => pre state ∧ pre' state) action (fun value state => post value state ∧ post' value state)
      (fun reason state => fail reason state ∧ fail' reason state) := by
  intro state given
  have left := first state given.1
  have right := second state given.2
  split at left <;> simp_all

theorem also (first : Ends pre action post fail) (second : Ends pre action post' fail') :
    Ends pre action (fun value state => post value state ∧ post' value state) fail :=
  (first.both second).conseq (fun _ given => ⟨given, given⟩) (fun _ _ given => given) fun _ _ stopped => stopped.1

/-- From one start, the state a return leaves is the final state. -/
theorem reached {start} (known : Ends (· = start) action post fail) :
    Ends (· = start) action (fun value state => post value state ∧ state = action.finalState start) fail := by
  rintro state rfl
  have result := known state rfl
  unfold finalState
  split at result <;> simp_all

/-- From one start, a return is what running the action comes to. -/
theorem ran {start} (known : Ends (· = start) action post fail) :
    Ends (· = start) action (fun value state => post value state ∧ action start = .ok value state) fail := by
  rintro state rfl
  have result := known state rfl
  split at result <;> simp_all

theorem of_ok (known : Ends pre action post fail) {after} {value : α} (given : pre state) (ran : action state = .ok value after) : post value after := by
  have result := known state given
  rwa [ran] at result

theorem lifted {computation} (returns : ∀ value, computation = .ok value → ∀ state, pre state → post value state)
    (stops : ∀ reason, computation = .error reason → ∀ state, pre state → fail reason state) :
    Ends pre (lift computation) post fail := by
  intro state given
  cases computation with
  | ok value => exact returns value rfl state given
  | error reason => exact stops reason rfl state given

variable {next : α → Action State β} {post : β → State → Prop}

theorem seq {mid} (first : Ends pre action mid fail) (second : ∀ value, Ends (mid value) (next value) post fail) : Ends pre (action >>= next) post fail := by
  intro state given
  have start := first state given
  change (match EStateM.bind action next state with
    | .ok value after => post value after
    | .error reason after => fail reason after)
  unfold EStateM.bind
  cases result : action state with
  | ok value after =>
    rw [result] at start
    exact second value after start
  | error reason after =>
    rw [result] at start
    exact start

theorem via (mid : α → State → Prop) (first : Ends pre action mid fail)
    (second : ∀ value, Ends (mid value) (next value) post fail) : Ends pre (action >>= next) post fail :=
  seq first second

theorem readThen {next} (second : ∀ state, pre state → Ends pre (next state) post fail) :
    Ends pre (get >>= next) post fail :=
  fun state given => second state given state given

theorem putThen {after next} (second : Ends (· = after) (next ⟨⟩) post fail) :
    Ends pre (set after >>= next) post fail :=
  fun _ _ => second after rfl

theorem writeThen {update next} (kept : ∀ state, pre state → pre (update state)) (second : Ends pre (next ⟨⟩) post fail) : Ends pre (modify update >>= next) post fail :=
  fun state given => second (update state) (kept state given)

theorem lifting {computation} (stops : ∀ reason, computation = .error reason → ∀ state, pre state → fail reason state)
    (returns : ∀ value, computation = .ok value → Ends pre (next value) post fail) :
    Ends pre (lift computation >>= next) post fail :=
  .via (fun value state => computation = .ok value ∧ pre state) (.lifted (fun _ ran _ given => ⟨ran, given⟩) stops)
    fun value state given => returns value given.1 state given.2

theorem deref {pointer} (stops : pointer = none → ∀ state, pre state → fail .nilDereference state)
    (found : ∀ value, pointer = some value → Ends pre (next value) post fail) :
    Ends pre (lift (Exec.deref pointer) >>= next) post fail := by
  cases pointer with
  | none => exact .lifting (fun reason failed => by cases failed; exact stops rfl) fun value ran => nomatch ran
  | some value => exact .lifting (fun reason failed => nomatch failed) fun other ran => found other (Exec.deref_eq_ok.mp ran)

end Ends

namespace Triple

variable {pre pre' : State → Prop} {post post' : α → State → Prop} {crash crash' : State → Prop} {action : Action State α}

theorem conseq (known : Triple pre' action post' crash') (before : ∀ state, pre state → pre' state)
    (after : ∀ value state, post' value state → post value state) (stopped : ∀ state, crash' state → crash state) :
    Triple pre action post crash :=
  Ends.conseq known before after fun _ => stopped

theorem finalState_of {invariant} (known : Triple pre action (fun _ => invariant) invariant) (given : pre state) : invariant (action.finalState state) := by
  have result := known state given
  unfold finalState
  split at result <;> simp_all

end Triple

namespace Avoids

variable {bad : Fault} {pre pre' : State → Prop} {post post' : α → State → Prop} {action : Action State α}

end Avoids

/-- Whether it returns or panics, the action stays within what the relation allows from any origin. -/
def Stays (relation : State → State → Prop) (action : Action State α) : Prop :=
  ∀ origin, Triple (relation origin) action (fun _ => relation origin) (relation origin)

namespace Stays

variable {relation : State → State → Prop} {action : Action State α}

theorem ret {value : α} : Stays relation (pure value) := fun _ => .ret fun _ known => known

theorem fault {reason} : Stays relation (throw reason : Action State α) := fun _ => .fault fun _ known => known

theorem seq (first : Stays relation action) (second : ∀ value, Stays relation (next value)) : Stays relation (action >>= next) :=
  fun origin => .seq (first origin) fun value => second value origin

theorem readThen {next : State → Action State β} (second : ∀ state, Stays relation (next state)) : Stays relation (get >>= next) :=
  fun origin => .readThen fun state _ => second state origin

theorem branch {condition} [Decidable condition] (holds : Stays relation action) (fails : Stays relation other) : Stays relation (if condition then action else other) :=
  fun origin => .branch (fun _ => holds origin) fun _ => fails origin

end Stays

/-- Whether it returns or panics, the action leaves the view at `value`. -/
def Keeps {View : Type} (view : State → View) (value : View) (action : Action State α) : Prop :=
  Triple (view · = value) action (fun _ after => view after = value) (view · = value)

namespace Keeps

variable {View : Type} {view : State → View} {value : View} {action : Action State α}

theorem within {crash} (kept : Keeps view value action) (stopped : ∀ state, view state = value → crash state) :
    Triple (view · = value) action (fun _ after => view after = value) crash :=
  Triple.conseq kept (fun _ known => known) (fun _ _ known => known) stopped

theorem along {View' view'} {value' : View'} (keeps : ∀ value, Keeps view value action)
    (reads : ∀ state other, view state = view other → view' state = view' other) : Keeps view' value' action :=
  fun start known => ((keeps (view start)).conseq (fun _ same => congrArg view same) (fun _ _ same => (reads _ _ same).trans known)
    fun _ same => (reads _ _ same).trans known : Triple (· = start) action _ _) start rfl

theorem ret {result : α} : Keeps view value (pure result) := fun _ known => known

theorem lifted {computation : Exec α} : Keeps view value (liftM computation : Action State α) :=
  Ends.lifted (fun _ _ _ known => known) fun _ _ _ known => known

theorem seq (first : Keeps view value action) (second : ∀ result, Keeps view value (next result)) : Keeps view value (action >>= next) :=
  Ends.seq first second

theorem readThen {next : State → Action State β} (second : ∀ state, view state = value → Keeps view value (next state)) :
    Keeps view value (get >>= next) :=
  fun state known => second state known state known

theorem put (known : view state = value) : Keeps view value (set state) := fun _ _ => known

theorem write {update} (same : ∀ state, view (update state) = view state) : Keeps view value (modify update) :=
  fun state known => (same state).trans known

theorem branch {condition} [Decidable condition] (holds : Keeps view value action) (fails : Keeps view value other) : Keeps view value (if condition then action else other) :=
  Ends.branch (fun _ => holds) fun _ => fails

theorem focused {look put} {part : Action Part α} (same : ∀ state after, view (put state after) = view state) : Keeps view value (focus look put part) := by
  refine Ends.focused fun state known => ?_
  intro start _
  split
  · exact (same _ _).trans known
  · exact (same _ _).trans known

end Keeps
end Action
end MeterPov.Lib
