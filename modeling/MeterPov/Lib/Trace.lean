import MeterPov.Lib.Exec

/-! Finite runs of a labelled transition relation.

The last step of a run is taken last, so that an induction over a run sees the labels already
taken as the history of the state it is in. -/

set_option autoImplicit false

namespace MeterPov.Lib

open List

variable {State Label : Type}

inductive Trace (step : State → Label → State → Prop) (start : State) : List Label → State → Prop where
  | nil : Trace step start [] start
  | snoc {labels : List Label} {state next : State} {label : Label} :
      Trace step start labels state → step state label next → Trace step start (labels ++ [label]) next

namespace Trace

variable {step : State → Label → State → Prop} {start state : State} {labels : List Label}

theorem invariant (holds : State → Prop) (initial : holds start)
    (kept : ∀ state label next, holds state → step state label next → holds next)
    (run : Trace step start labels state) : holds state := by
  induction run with
  | nil => exact initial
  | snoc _ taken ih => exact kept _ _ _ ih taken

theorem invariant_history (holds : List Label → State → Prop) (initial : holds [] start)
    (kept : ∀ labels state label next, Trace step start labels state → holds labels state →
      step state label next → holds (labels ++ [label]) next)
    (run : Trace step start labels state) : holds labels state := by
  induction run with
  | nil => exact initial
  | snoc earlier taken ih => exact kept _ _ _ _ earlier ih taken

theorem mono {weaker} (implies : ∀ state label next, step state label next → weaker state label next) (run : Trace step start labels state) : Trace weaker start labels state := by
  induction run with
  | nil => exact .nil
  | snoc _ taken ih => exact .snoc ih (implies _ _ _ taken)

theorem cons {first label} (taken : step start label first) (run : Trace step first labels state) : Trace step start (label :: labels) state := by
  induction run with
  | nil => exact .snoc .nil taken
  | snoc _ last ih => exact .snoc ih last

theorem eq_of_nil (run : Trace step start labels state) (empty : labels = []) : state = start := by
  cases run with
  | nil => rfl
  | snoc => simp at empty

theorem uncons {label} (run : Trace step start (label :: labels) state) :
    ∃ first, step start label first ∧ Trace step first labels state := by
  generalize all : label :: labels = given at run
  induction run generalizing labels with
  | nil => contradiction
  | @snoc taken _ next last earlier taking ih =>
    rcases cons_eq_append_iff.mp all with ⟨rfl, single⟩ | ⟨rest, rfl, rfl⟩
    · obtain ⟨rfl, rfl⟩ := List.cons.inj single
      obtain rfl := earlier.eq_of_nil rfl
      exact ⟨_, taking, .nil⟩
    · obtain ⟨first, starts, run⟩ := ih rfl
      exact ⟨first, starts, run.snoc taking⟩

theorem eq_foldl {next} {meets : State → Label → Prop}
    (run : Trace (fun state label after => meets state label ∧ next state label = after) start labels state) :
    state = labels.foldl next start := by
  induction run with
  | nil => rfl
  | snoc _ taken ih => rw [foldl_append, ← ih, foldl_cons, foldl_nil, taken.2]

end Trace

/-- Every label meets a condition on the state it finds, when a total step is taken at each of them. -/
def AllMeet (step : State → Label → State) (meets : State → Label → Prop) : State → List Label → Prop
  | _, [] => True
  | state, label :: rest => meets state label ∧ AllMeet step meets (step state label) rest

instance AllMeet.decidable {step : State → Label → State} {meets : State → Label → Prop} [∀ state label, Decidable (meets state label)] :
    ∀ (state : State) (labels : List Label), Decidable (AllMeet step meets state labels)
  | _, [] => .isTrue trivial
  | state, label :: rest =>
    @instDecidableAnd (meets state label) (AllMeet step meets (step state label) rest) _
      (AllMeet.decidable (step state label) rest)

theorem trace_of_allMeet {step meets} {labels : List Label} {start : State} (all : AllMeet step meets start labels) :
    Trace (fun state label next => meets state label ∧ step state label = next) start labels (labels.foldl step start) := by
  induction labels generalizing start with
  | nil => exact .nil
  | cons label rest ih => exact Trace.cons ⟨all.1, rfl⟩ (ih all.2)

end MeterPov.Lib
