import MeterPov.Lib.Program

/-! Systems that save copies of their state and go back to them.

The copies are numbered from one. A copy is live until the system goes back to it or to an older one,
and its number is then free for the next copy. The model is a value with a stack of saved values; a
system that refines it forgets what happened since a copy when it goes back to it. -/

set_option autoImplicit false

namespace MeterPov.Lib

open List Lib.Action

structure Undo (View : Type) where
  now : View
  saved : List View

namespace Undo

variable {View : Type}

def save (undo : Undo View) : Undo View := ⟨undo.now, undo.now :: undo.saved⟩

/-- The value and the copies there were when the copy with this number was made. -/
def back (undo : Undo View) (number : Nat) : Option (Undo View) :=
  if number ≤ undo.saved.length then
    match undo.saved.drop (undo.saved.length - number) with
    | [] => none
    | copy :: older => some ⟨copy, older⟩
  else none

theorem back_eq_some {undo earlier : Undo View} {number} (went : undo.back number = some earlier) :
    number = earlier.saved.length + 1 ∧ ∃ newer, undo.saved = newer ++ earlier.now :: earlier.saved := by
  unfold back at went
  split at went
  next listed =>
    split at went
    · cases went
    next copy older left =>
      cases went
      have length := congrArg List.length left
      rw [length_drop, length_cons] at length
      have split := take_append_drop (undo.saved.length - number) undo.saved
      rw [left] at split
      exact ⟨by dsimp only; omega, _, split.symm⟩
  · cases went

theorem back_append {undo : Undo View} {newer older copy} (saved : undo.saved = newer ++ copy :: older) :
    undo.back (older.length + 1) = some ⟨copy, older⟩ := by
  have length : undo.saved.length = newer.length + (older.length + 1) := by simp [saved]
  have position : undo.saved.length - (older.length + 1) = newer.length := by omega
  unfold back
  rw [if_pos (by omega), position, saved, drop_left]

theorem back_isSome {undo : Undo View} {number} (positive : 0 < number) (listed : number ≤ undo.saved.length) :
    ∃ earlier, undo.back number = some earlier ∧ earlier.saved.length = number - 1 := by
  unfold back
  rw [if_pos listed]
  cases left : undo.saved.drop (undo.saved.length - number) with
  | nil =>
    have length := congrArg List.length left
    rw [length_drop, length_nil] at length
    omega
  | cons copy older =>
    have length := congrArg List.length left
    rw [length_drop, length_cons] at length
    exact ⟨_, rfl, by dsimp only; omega⟩

end Undo

/-! ## Sequences of calls -/

inductive UndoCall (Op : Type) where
  | op (op : Op)
  | save
  | back (number : Nat)
  deriving DecidableEq

inductive UndoReply (α : Type) where
  | op (result : α)
  | saved (number : Nat)
  | back
  deriving DecidableEq

/-- The number of live copies after the calls. Nothing if one of them goes back to a copy that is not live, or to one of the
first `floor` copies. -/
def liveAfter {Op : Type} (floor : Nat) : Nat → List (UndoCall Op) → Option Nat
  | count, [] => some count
  | count, .op _ :: rest => liveAfter floor count rest
  | count, .save :: rest => liveAfter floor (count + 1) rest
  | count, .back number :: rest => if floor < number ∧ number ≤ count then liveAfter floor (number - 1) rest else none

structure Undoable (State Op α : Type) where
  op : Op → Action State α
  save : Action State Nat
  back : Nat → Action State Unit

namespace Undoable

variable {State Op View α : Type}

def call (system : Undoable State Op α) : UndoCall Op → Action State (UndoReply α)
  | .op op => return .op (← system.op op)
  | .save => return .saved (← system.save)
  | .back number => do
    system.back number
    return .back

def run (system : Undoable State Op α) : List (UndoCall Op) → Action State (List (UndoReply α))
  | [] => return []
  | call :: rest => do
    let reply ← system.call call
    return reply :: (← system.run rest)

theorem run_cons (system : Undoable State Op α) (call : UndoCall Op) (rest : List (UndoCall Op)) (state : State) :
    system.run (call :: rest) state = match system.call call state with
      | .ok reply middle =>
        match system.run rest middle with
        | .ok replies after => .ok (reply :: replies) after
        | .error fault after => .error fault after
      | .error fault after => .error fault after := by
  rw [run, bind_eq]
  cases system.call call state with
  | error fault after => rfl
  | ok reply middle =>
    dsimp only
    rw [bind_eq]
    cases system.run rest middle <;> rfl

/-- A value with its copies, for operations that see the value only. -/
def model (act : Op → Action View α) : Undoable (Undo View) Op α where
  op op := Action.focus Undo.now (fun undo view => { undo with now := view }) (act op)
  save undo := .ok (undo.saved.length + 1) undo.save
  back number undo :=
    match undo.back number with
    | some earlier => .ok () earlier
    | none => .error .outOfRange undo

variable {replies : List (UndoReply α)} {reply : UndoReply α}

variable {act : Op → Action View α}

theorem model_call_saved {call undo after} (ran : (model act).call call undo = .ok reply after) :
    match call with
    | .op _ => after.saved = undo.saved
    | .save => after.saved = undo.now :: undo.saved
    | .back number => number = after.saved.length + 1 ∧ ∃ newer, undo.saved = newer ++ after.now :: after.saved := by
  cases call with
  | op op =>
    obtain ⟨result, middle, ran, same⟩ := bind_eq_ok.mp ran
    cases same
    unfold model Action.focus at ran
    dsimp only at ran ⊢
    split at ran
    · cases ran
      rfl
    · cases ran
  | save =>
    cases ran
    rfl
  | back number =>
    obtain ⟨_, middle, ran, same⟩ := bind_eq_ok.mp ran
    cases same
    unfold model at ran
    dsimp only at ran ⊢
    split at ran
    next earlier went =>
      cases ran
      exact Undo.back_eq_some went
    · cases ran

theorem model_call_live {call undo after floor} (ran : (model act).call call undo = .ok reply after) (rest : List (UndoCall Op))
    (live : (liveAfter floor undo.saved.length (call :: rest)).isSome) :
    liveAfter floor undo.saved.length (call :: rest) = liveAfter floor after.saved.length rest := by
  have saved := model_call_saved ran
  cases call with
  | op op =>
    rw [saved, liveAfter]
  | save =>
    rw [saved, liveAfter, length_cons]
  | back number =>
    obtain ⟨rfl, newer, saved⟩ := saved
    rw [liveAfter] at live ⊢
    split at live
    next listed => rw [if_pos listed, Nat.add_sub_cancel]
    · cases live

theorem model_call_keeps {kept call undo after} (ran : (model act).call call undo = .ok reply after) {rest}
    (live : (liveAfter kept.length undo.saved.length (call :: rest)).isSome) (above : kept <:+ undo.saved) :
    kept <:+ after.saved := by
  have saved := model_call_saved ran
  cases call with
  | op op =>
    rwa [saved]
  | save =>
    rw [saved]
    exact above.trans (suffix_cons _ _)
  | back number =>
    obtain ⟨rfl, newer, saved⟩ := saved
    unfold liveAfter at live
    split at live
    next listed =>
      -- both lists of copies are ends of one list, and the kept one is the shorter
      apply suffix_of_suffix_length_le above
      · exact ⟨newer ++ [after.now], by simp [saved]⟩
      · omega
    · cases live

theorem model_run_saved {kept} (calls : List (UndoCall Op)) {undo after} (ran : (model act).run calls undo = .ok replies after)
    (live : (liveAfter kept.length undo.saved.length calls).isSome) (above : kept <:+ undo.saved) :
    kept <:+ after.saved ∧ liveAfter kept.length undo.saved.length calls = some after.saved.length := by
  induction calls generalizing undo replies with
  | nil =>
    cases ran
    exact ⟨above, rfl⟩
  | cons call rest ih =>
    rw [run_cons] at ran
    split at ran
    next reply middle called =>
      split at ran
      next ranRest =>
        cases ran
        have same := model_call_live called rest live
        rw [same]
        exact ih ranRest (same ▸ live) (model_call_keeps called live above)
      · cases ran
    · cases ran

/-! ## Refinement -/

/-- Two outcomes with the same reply and related states. -/
inductive Alike {Other Reply : Type} (related : State → Other → Prop) :
    EStateM.Result Fault State Reply → EStateM.Result Fault Other Reply → Prop where
  | ok {reply : Reply} {state : State} {other : Other} : related state other → Alike related (.ok reply state) (.ok reply other)
  | error {fault : Fault} {state : State} {other : Other} :
      related state other → Alike related (.error fault state) (.error fault other)

namespace Alike

variable {Other Reply : Type} {related : State → Other → Prop}

theorem of_simulates {left} {right : Action Other Reply} (simulates : Program.Simulates related left right)
    {state other} (known : related state other) : Alike related (left state) (right other) := by
  have ran := simulates state other known
  cases first : left state with
  | ok reply after =>
    cases second : right other with
    | ok reply' after' =>
      rw [first, second] at ran
      obtain ⟨rfl, same⟩ := ran
      exact .ok same
    | error fault' after' =>
      rw [first, second] at ran
      exact ran.elim
  | error fault after =>
    cases second : right other with
    | ok reply' after' =>
      rw [first, second] at ran
      exact ran.elim
    | error fault' after' =>
      rw [first, second] at ran
      obtain ⟨rfl, same⟩ := ran
      exact .error same

variable {second : EStateM.Result Fault Other Reply} {first : EStateM.Result Fault State Reply}

theorem ok_left {reply state} (alike : Alike related (.ok reply state) second) :
    ∃ other, second = .ok reply other ∧ related state other := by
  cases alike with
  | ok known => exact ⟨_, rfl, known⟩

theorem common {second middle} (left : Alike related first middle) (right : Alike related second middle) :
    Alike (fun state state' => ∃ other, related state other ∧ related state' other) first second := by
  cases left with
  | ok known =>
    cases right with
    | ok known' => exact .ok ⟨_, known, known'⟩
  | error known =>
    cases right with
    | error known' => exact .error ⟨_, known, known'⟩

theorem mono {weaker} (alike : Alike related first second) (follows : ∀ state other, related state other → weaker state other) : Alike weaker first second := by
  cases alike with
  | ok known => exact .ok (follows _ _ known)
  | error known => exact .error (follows _ _ known)

end Alike

theorem simulates_now {related Reply} {left : Action State Reply} {right : Action View Reply}
    (simulates : ∀ saved, Program.Simulates (fun state view => related state ⟨view, saved⟩) left right) :
    Program.Simulates related left (Action.focus Undo.now (fun undo view => { undo with now := view }) right) := by
  intro state undo known
  have ran := simulates undo.saved state undo.now known
  unfold Action.focus
  revert ran
  cases left state <;> cases right undo.now <;> exact id

/-- A system does what the model does. Only going back to a live copy is asked for. -/
structure Refines (system : Undoable State Op α) (act : Op → Action View α) (allowed : Op → Prop)
    (related : State → Undo View → Prop) : Prop where
  op : ∀ op, allowed op → ∀ saved, Program.Simulates (fun state view => related state ⟨view, saved⟩) (system.op op) (act op)
  save : Program.Simulates related system.save (model act).save
  back : ∀ state undo number earlier, related state undo → undo.back number = some earlier →
    ∃ after, system.back number state = .ok () after ∧ related after earlier

def Allowed (allowed : Op → Prop) : UndoCall Op → Prop
  | .op op => allowed op
  | _ => True

namespace Refines

variable {system : Undoable State Op α} {act : Op → Action View α} {allowed : Op → Prop} {related : State → Undo View → Prop}
  {state : State} {undo : Undo View} {floor : Nat} (refines : system.Refines act allowed related)

include refines

theorem call {call} (fine : Allowed allowed call) (known : related state undo) {rest}
    (live : (liveAfter floor undo.saved.length (call :: rest)).isSome) :
    Alike related (system.call call state) ((model act).call call undo) := by
  cases call with
  | op op => exact .of_simulates ((simulates_now (refines.op op fine)).seq fun _ => .ret) known
  | save => exact .of_simulates (refines.save.seq fun _ => .ret) known
  | back number =>
    unfold liveAfter at live
    split at live
    next listed =>
      obtain ⟨earlier, went, -⟩ := Undo.back_isSome (lt_of_le_of_lt (Nat.zero_le _) listed.1) listed.2
      obtain ⟨after, ran, same⟩ := refines.back state undo number earlier known went
      have ranModel : (model act).back number undo = .ok () earlier := by simp [model, went]
      simp only [Undoable.call, bind_eq, ran, ranModel]
      exact .ok same
    · cases live

theorem run (calls : List (UndoCall Op)) (fine : ∀ call ∈ calls, Allowed allowed call) (known : related state undo)
    (live : (liveAfter floor undo.saved.length calls).isSome) :
    Alike related (system.run calls state) ((model act).run calls undo) := by
  induction calls generalizing state undo with
  | nil => exact .ok known
  | cons call rest ih =>
    have fineRest := fun other listed => fine other (mem_cons_of_mem _ listed)
    have called := refines.call (fine call mem_cons_self) known live
    rw [run_cons, run_cons]
    cases ranModel : (model act).call call undo with
    | error fault after =>
      rw [ranModel] at called
      generalize system.call call state = outcome at called
      cases called with
      | error same => exact .error same
    | ok reply middle =>
      have liveRest := live
      rw [model_call_live ranModel rest live] at liveRest
      rw [ranModel] at called
      generalize system.call call state = outcome at called
      cases called with
      | ok same =>
        have ranRest := ih fineRest same liveRest
        dsimp only
        generalize system.run rest _ = first at ranRest
        generalize (model act).run rest middle = second at ranRest
        cases ranRest with
        | ok same => exact .ok same
        | error same => exact .error same

/-- Going back to a copy leaves what the model had when it was made. -/
theorem back_after {inside copied after number} (known : related state undo)
    (saved : system.save state = .ok number copied) (fine : ∀ call ∈ inside, Allowed allowed call)
    (live : (liveAfter number number inside).isSome) (ran : system.run inside copied = .ok replies after) :
    ∃ earlier, system.back number after = .ok () earlier ∧ related earlier undo := by
  have savedAlike := Alike.of_simulates refines.save known
  rw [saved] at savedAlike
  obtain ⟨_, made, knownCopied⟩ := savedAlike.ok_left
  cases made
  have ranAlike := refines.run inside fine knownCopied live
  rw [ran] at ranAlike
  obtain ⟨later, ranModel, knownAfter⟩ := ranAlike.ok_left
  have above : undo.now :: undo.saved <:+ later.saved ∧ _ := model_run_saved inside ranModel live (suffix_refl _)
  obtain ⟨⟨newer, saved⟩, -⟩ := above
  exact refines.back after later _ undo knownAfter (Undo.back_append saved.symm)

end Refines

end Undoable

end MeterPov.Lib
