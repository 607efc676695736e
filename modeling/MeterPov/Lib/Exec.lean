import Mathlib

/-! Computations that may stop with a run-time panic.

A Go function that can panic is modelled as an `Exec`. The error values a function returns are
ordinary results; only a panic leaves the computation. -/

set_option autoImplicit false

namespace MeterPov.Lib

inductive Fault where
  | nilDereference
  | outOfRange
  | raised (message : String)
  deriving DecidableEq, Repr

abbrev Exec (α : Type) := Except Fault α

namespace Exec

variable {α β : Type}

@[simp] theorem pure_eq (value : α) : (pure value : Exec α) = .ok value := rfl

@[simp] theorem ok_bind (value : α) (next : α → Exec β) : (Except.ok value >>= next) = next value := rfl

@[simp] theorem error_bind (fault : Fault) (next : α → Exec β) : ((Except.error fault : Exec α) >>= next) = .error fault := rfl

theorem bind_eq_ok {first : Exec α} {next} {result : β} :
    (first >>= next) = .ok result ↔ ∃ value, first = .ok value ∧ next value = .ok result := by
  cases first with
  | error fault => simp
  | ok value => simp

theorem bind_ne_error {first} {next : α → Exec β} {fault} (avoids : first ≠ .error fault)
    (then_avoids : ∀ value, first = .ok value → next value ≠ .error fault) : (first >>= next) ≠ .error fault := by
  cases first with
  | error other => simpa using avoids
  | ok value => exact then_avoids value rfl

/-- Reading through a pointer; nil faults. -/
def deref (pointer : Option α) : Exec α :=
  match pointer with
  | some value => .ok value
  | none => .error .nilDereference

@[simp] theorem deref_some (value : α) : deref (some value) = .ok value := rfl

@[simp] theorem deref_none : deref (none : Option α) = .error .nilDereference := rfl

theorem deref_eq_ok {pointer} {value : α} : deref pointer = .ok value ↔ pointer = some value := by
  cases pointer <;> simp

/-- Indexing a slice; an index past the end faults. -/
def index (slice : List α) (position : Nat) : Exec α :=
  match slice[position]? with
  | some value => .ok value
  | none => .error .outOfRange

/-- The sub-slice `[low, high)`; bounds out of order or past the end fault. -/
def slice (source : List α) (low high : Int) : Exec (List α) :=
  if 0 ≤ low ∧ low ≤ high ∧ high ≤ source.length then
    .ok ((source.take high.toNat).drop low.toNat)
  else .error .outOfRange

end Exec

/-! Computations that check what they need before they go on.

A check that fails ends the computation with its error. Each rule turns a computation that begins with
a check into what was checked and the rest of the computation. -/

universe u

variable {ε α β : Type u}

def require (condition : Prop) [Decidable condition] (otherwise : ε) : Except ε PUnit :=
  if condition then .ok ⟨⟩ else .error otherwise

def need (value : Option α) (otherwise : ε) : Except ε α :=
  match value with
  | some value => .ok value
  | none => .error otherwise

variable {next : α → Except ε β} {result : β} {otherwise : ε}

variable {condition : Prop}

theorem require_eq_ok [Decidable condition] {done} : require condition otherwise = .ok done ↔ condition := by
  unfold require
  split
  next holds => exact iff_of_true rfl holds
  next fails => exact iff_of_false nofun fails

theorem need_eq_ok {value} {found : α} : need value otherwise = .ok found ↔ value = some found := by
  cases value with
  | none => exact iff_of_false nofun nofun
  | some value => simp [need]

theorem check_bind_eq_ok {first} : (first >>= next) = .ok result ↔ ∃ value, first = .ok value ∧ next value = .ok result := by
  cases first with
  | error reason => exact iff_of_false nofun (by rintro ⟨_, ⟨⟩, _⟩)
  | ok value => exact ⟨fun ran => ⟨value, rfl, ran⟩, by rintro ⟨_, ⟨⟩, ran⟩; exact ran⟩

theorem guard_eq_ok [Decidable condition] {reason : ε} {rest} :
    (if condition then throw reason >>= next else rest) = .ok result ↔ ¬ condition ∧ rest = .ok result := by
  split
  next holds => exact iff_of_false nofun fun known => known.1 holds
  next fails => exact ⟨fun ran => ⟨fails, ran⟩, And.right⟩

theorem guard_eq_unit [Decidable condition] {reason : ε} :
    (if condition then throw reason else pure ⟨⟩ : Except ε PUnit) = .ok ⟨⟩ ↔ ¬ condition := by
  split
  next holds => exact iff_of_false nofun (not_not.mpr holds)
  next fails => exact iff_of_true rfl fails

theorem require_bind_eq_ok [Decidable condition] {next} :
    (require condition otherwise >>= next) = .ok result ↔ condition ∧ next ⟨⟩ = .ok result := by
  rw [check_bind_eq_ok]
  exact ⟨fun ⟨_, holds, ran⟩ => ⟨require_eq_ok.mp holds, ran⟩, fun ⟨holds, ran⟩ => ⟨⟨⟩, require_eq_ok.mpr holds, ran⟩⟩

theorem need_bind_eq_ok {value} :
    (need value otherwise >>= next) = .ok result ↔ ∃ found, value = some found ∧ next found = .ok result := by
  rw [check_bind_eq_ok]
  exact exists_congr fun found => and_congr_left fun _ => need_eq_ok

end MeterPov.Lib
