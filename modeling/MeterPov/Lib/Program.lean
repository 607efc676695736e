import MeterPov.Lib.Action

/-! Programs that reach their state only through a fixed set of operations.

A program is a tree of operation calls, so what holds of every operation holds of every program. The
rules below carry an invariant, or a relation between two states, from the operations a program may
call to its whole run. -/

set_option autoImplicit false

namespace MeterPov.Lib

inductive Program (Op : Type) (Answer : Op → Type) (α : Type) where
  | done (result : α)
  | stop (reason : Fault)
  | call (op : Op) (next : Answer op → Program Op Answer α)

namespace Program

variable {Op : Type} {Answer : Op → Type} {State Other α β : Type}

protected def bind : Program Op Answer α → (α → Program Op Answer β) → Program Op Answer β
  | done result, rest => rest result
  | stop reason, _ => stop reason
  | call op next, rest => call op fun answer => (next answer).bind rest

instance : Monad (Program Op Answer) where
  pure := done
  bind := Program.bind

instance : MonadExceptOf Fault (Program Op Answer) where
  throw := stop
  -- a panic is not caught inside a program
  tryCatch program _ := program

def ask (op : Op) : Program Op Answer (Answer op) := call op done

def run (handle : (op : Op) → Action State (Answer op)) : Program Op Answer α → Action State α
  | done result => pure result
  | stop reason => throw reason
  | call op next => handle op >>= fun answer => run handle (next answer)

variable (handle : (op : Op) → Action State (Answer op))

theorem run_ask (op : Op) : (ask op).run handle = handle op := by
  funext state
  change EStateM.bind (handle op) EStateM.pure state = handle op state
  unfold EStateM.bind
  cases handle op state with
  | ok answer after => rfl
  | error reason after => rfl

theorem run_bind (program : Program Op Answer α) (rest : α → Program Op Answer β) :
    (program >>= rest).run handle = program.run handle >>= fun result => (rest result).run handle := by
  funext state
  induction program generalizing state with
  | done result => rfl
  | stop reason => rfl
  | call op next ih =>
    change EStateM.bind (handle op) (fun answer => ((next answer).bind rest).run handle) state =
      EStateM.bind (EStateM.bind (handle op) fun answer => (next answer).run handle)
        (fun result => (rest result).run handle) state
    unfold EStateM.bind
    cases handle op state with
    | ok answer middle => exact ih answer middle
    | error reason middle => rfl

/-- Every operation the program may call is allowed. -/
def Within (allowed : Op → Prop) : Program Op Answer α → Prop
  | done _ => True
  | stop _ => True
  | call op next => allowed op ∧ ∀ answer, Within allowed (next answer)

variable {rest : α → Program Op Answer β}

namespace Within

variable {allowed : Op → Prop}

theorem pure {result : α} : Within allowed (pure result : Program Op Answer α) := trivial

theorem ask {op : Op} (fine : allowed op) : Within allowed (Program.ask op : Program Op Answer (Answer op)) :=
  ⟨fine, fun _ => trivial⟩

theorem bind {program} (first : Within allowed program) (second : ∀ result, Within allowed (rest result)) : Within allowed (program >>= rest) := by
  induction program with
  | done result => exact second result
  | stop reason => trivial
  | call op next ih => exact ⟨first.1, fun answer => ih answer (first.2 answer)⟩

theorem ite {condition} [Decidable condition] {first second : Program Op Answer α}
    (holds : Within allowed first) (fails : Within allowed second) :
    Within allowed (if condition then first else second) := by
  split
  · exact holds
  · exact fails

end Within

theorem within_any (program : Program Op Answer α) : Within (fun _ => True) program := by
  induction program with
  | done result => trivial
  | stop reason => trivial
  | call op next ih => exact ⟨trivial, ih⟩

variable {handle : (op : Op) → Action State (Answer op)}

/-- What every allowed operation keeps, a run keeps, whether it returns or panics. -/
theorem Within.run_keeps {allowed invariant} {program : Program Op Answer α} (within : program.Within allowed)
    (kept : ∀ op, allowed op → Action.Always invariant (handle op) invariant) :
    Action.Always invariant (program.run handle) invariant := by
  induction program with
  | done result => exact .ret fun _ known => known
  | stop reason => exact .fault fun _ known => known
  | call op next ih => exact .seq (kept op within.1) fun answer => ih answer (within.2 answer)

/-- From related states the two actions end alike, in related states. -/
def Simulates (related : State → Other → Prop) (left : Action State α) (right : Action Other α) : Prop :=
  ∀ state other, related state other →
    match left state, right other with
    | .ok result after, .ok result' after' => result = result' ∧ related after after'
    | .error reason after, .error reason' after' => reason = reason' ∧ related after after'
    | _, _ => False

variable {related : State → Other → Prop} {left : Action State α} {right : Action Other α}

/-- The same with results that correspond to each other. -/
def Couples {α' : Type} (same : α → α' → Prop) (related : State → Other → Prop) (left : Action State α) (right : Action Other α') : Prop :=
  ∀ state other, related state other →
    match left state, right other with
    | .ok result after, .ok result' after' => same result result' ∧ related after after'
    | .error reason after, .error reason' after' => reason = reason' ∧ related after after'
    | _, _ => False

theorem Couples.seq {α' β' same same' right} {next : α → Action State β} {next' : α' → Action Other β'}
    (first : Couples same related left right)
    (second : ∀ result result', same result result' → Couples same' related (next result) (next' result')) :
    Couples same' related (left >>= next) (right >>= next') := by
  intro state other known
  have start := first state other known
  change (match EStateM.bind left next state, EStateM.bind right next' other with
    | .ok result after, .ok result' after' => same' result result' ∧ related after after'
    | .error reason after, .error reason' after' => reason = reason' ∧ related after after'
    | _, _ => False)
  unfold EStateM.bind
  split at start
  next result after result' after' ranLeft ranRight =>
    rw [ranLeft, ranRight]
    exact second result result' start.1 after after' start.2
  next reason after reason' after' ranLeft ranRight =>
    rw [ranLeft, ranRight]
    exact start
  · exact start.elim

theorem couples_eq_iff : Couples (· = ·) related left right ↔ Simulates related left right := by
  refine forall_congr' fun state => forall_congr' fun other => imp_congr_right fun _ => ?_
  cases left state <;> cases right other <;> exact Iff.rfl

theorem Simulates.seq {next} {next' : α → Action Other β} (first : Simulates related left right)
    (second : ∀ result, Simulates related (next result) (next' result)) :
    Simulates related (left >>= next) (right >>= next') := by
  refine couples_eq_iff.mp (.seq (couples_eq_iff.mpr first) fun result result' same => ?_)
  subst same
  exact couples_eq_iff.mpr (second result)

theorem Simulates.ret {result : α} :
    Simulates related (pure result : Action State α) (pure result : Action Other α) := fun _ _ known => ⟨rfl, known⟩

theorem Simulates.fault {reason} :
    Simulates related (throw reason : Action State α) (throw reason : Action Other α) := fun _ _ known => ⟨rfl, known⟩

theorem Simulates.readThen {next} {next' : Other → Action Other α}
    (each : ∀ state other, related state other → Simulates related (next state) (next' other)) :
    Simulates related (MonadState.get >>= next) (MonadState.get >>= next') :=
  fun state other known => each state other known state other known

theorem Simulates.write {update update'} (kept : ∀ state other, related state other → related (update state) (update' other)) :
    Simulates related (modify update : Action State PUnit) (modify update' : Action Other PUnit) :=
  fun state other known => ⟨rfl, kept state other known⟩

theorem Simulates.put {after after'} (alike : related after after') :
    Simulates related (set after : Action State PUnit) (set after' : Action Other PUnit) := fun _ _ _ => ⟨rfl, alike⟩

theorem Simulates.branch {condition} [Decidable condition] {left' right'}
    (holds : condition → Simulates related left right) (fails : ¬ condition → Simulates related left' right') :
    Simulates related (if condition then left else left') (if condition then right else right') := by
  split
  · exact holds (by assumption)
  · exact fails (by assumption)

/-- Two interpretations that agree on the allowed operations agree on the program. -/
theorem Within.simulates {allowed handle'} {program : Program Op Answer α} (within : program.Within allowed)
    (each : ∀ op, allowed op → Simulates related (handle op) (handle' op)) :
    Simulates related (program.run handle) (program.run handle') := by
  induction program with
  | done result => exact fun _ _ known => ⟨rfl, known⟩
  | stop reason => exact fun _ _ known => ⟨rfl, known⟩
  | call op next ih => exact .seq (each op within.1) fun answer => ih answer (within.2 answer)

/-- Every result the program may return is good. -/
def Returns (good : α → Prop) : Program Op Answer α → Prop
  | done result => good result
  | stop _ => True
  | call _ next => ∀ answer, Returns good (next answer)

theorem Returns.after {good} (program : Program Op Answer α) (each : ∀ result, Returns good (rest result)) : Returns good (program >>= rest) := by
  induction program with
  | done result => exact each result
  | stop reason => trivial
  | call op next ih => exact fun answer => ih answer

theorem Returns.run {good} {program : Program Op Answer α} (known : program.Returns good) (handle : (op : Op) → Action State (Answer op)) :
    Action.Triple (fun _ => True) (program.run handle) (fun result _ => good result) (fun _ => True) := by
  induction program with
  | done result => exact .ret fun _ _ => known
  | stop reason => exact .fault fun _ _ => trivial
  | call op next ih =>
    refine .via (fun _ _ => True) (fun state _ => ?_) fun answer => ih answer (known answer)
    split <;> trivial

/-! ## Programs with a log -/

section

open Lib.Action

variable {Log : Type}

/-- A program that keeps a log, whatever the log holds when it starts. -/
def Logged (handle : (op : Op) → Action State (Answer op)) (pre : State → Prop) (program : StateT Log (Program Op Answer) α)
    (post : α → State → Prop) (crash : State → Prop) : Prop :=
  ∀ log, Triple pre ((program.run log).run handle) (fun result => post result.1) crash

namespace Logged

variable {handle : (op : Op) → Action State (Answer op)} {pre : State → Prop} {crash : State → Prop}

variable {post : α → State → Prop}

theorem ret {value : α} (holds : ∀ state, pre state → post value state) :
    Logged handle pre (pure value : StateT Log (Program Op Answer) α) post crash :=
  fun _ => .ret holds

variable {program : StateT Log (Program Op Answer) α} {next : α → StateT Log (Program Op Answer) β}

theorem seq {mid post} (first : Logged handle pre program mid crash) (second : ∀ value, Logged handle (mid value) (next value) post crash) : Logged handle pre (program >>= next) post crash := by
  intro log
  rw [StateT.run_bind, run_bind]
  exact .seq (first log) fun result => second result.1 result.2

theorem via {post} (mid : α → State → Prop) (first : Logged handle pre program mid crash)
    (second : ∀ value, Logged handle (mid value) (next value) post crash) : Logged handle pre (program >>= next) post crash :=
  first.seq second

theorem lifted {program : Program Op Answer α} (known : Triple pre (program.run handle) post crash) :
    Logged handle pre (liftM program : StateT Log (Program Op Answer) α) post crash := by
  intro log
  have run : ((liftM program : StateT Log (Program Op Answer) α).run log) = program >>= fun value => pure (value, log) := rfl
  rw [run, run_bind]
  exact .seq known fun value => .ret fun _ holds => holds

theorem each (known : ∀ start, pre start → Logged handle (· = start) program post crash) : Logged handle pre program post crash :=
  fun log state given => known state given log state rfl

theorem conseq {pre' post'} (known : Logged handle pre' program post' crash) (before : ∀ state, pre state → pre' state)
    (after : ∀ value state, post' value state → post value state) : Logged handle pre program post crash :=
  fun log => (known log).conseq before (fun result => after result.1) fun _ stopped => stopped

theorem write {update} {post : Unit → State → Prop} (holds : ∀ state, pre state → post () state) :
    Logged handle pre (modify update : StateT Log (Program Op Answer) Unit) post crash :=
  fun _ => .ret holds

theorem branch {condition} [Decidable condition] {other} (holds : condition → Logged handle pre program post crash)
    (fails : ¬ condition → Logged handle pre other post crash) :
    Logged handle pre (if condition then program else other) post crash := by
  split
  · exact holds (by assumption)
  · exact fails (by assumption)

theorem forIn {Item : Type} {body : Item → β → StateT Log (Program Op Answer) (ForInStep β)} {invariant} (items : List Item)
    (each : ∀ item acc, Logged handle invariant (body item acc) (fun _ => invariant) crash) (init : β) :
    Logged handle invariant (forIn items init body) (fun _ => invariant) crash := by
  induction items generalizing init with
  | nil =>
    exact ret fun _ known => known
  | cons item rest ih =>
    rw [List.forIn_cons]
    refine seq (each item init) fun step => ?_
    cases step with
    | done acc => exact ret fun _ known => known
    | yield acc => exact ih acc
end Logged

end

end Program
end MeterPov.Lib
