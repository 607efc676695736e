import Mathlib

/-! Counts by key. A tally is filled from one list of keys, and another list is taken from it; what is left says how the
two lists compare. -/

set_option autoImplicit false

namespace MeterPov.Lib

open List AList

abbrev Tally (Key : Type) := AList fun _ : Key => Int

namespace Tally

variable {Key : Type} [DecidableEq Key]

def add (tally : Tally Key) (key : Key) : Tally Key :=
  match tally.lookup key with
  | some count => tally.insert key (count + 1)
  | none => tally.insert key 1

/-- One less of a key that has an entry; the count may fall below zero. -/
def take (tally : Tally Key) (key : Key) : Option (Tally Key) :=
  match tally.lookup key with
  | some count => some (tally.insert key (count - 1))
  | none => none

/-- The tally was filled with some keys, and others have been taken from it. -/
def Holds (tally : Tally Key) (filled taken : List Key) : Prop :=
  ∀ key, tally.lookup key = if key ∈ filled then some ((filled.count key : Int) - taken.count key) else none

variable {tally : Tally Key} {filled taken : List Key} {key : Key}

theorem holds_empty : Holds (∅ : Tally Key) [] [] := by
  intro key
  simp

theorem Holds.add (holds : Holds tally filled []) (key : Key) : Holds (tally.add key) (filled ++ [key]) [] := by
  intro other
  have before := holds key
  unfold Tally.add
  by_cases listed : key ∈ filled
  · rw [if_pos listed] at before
    rw [before]
    by_cases same : other = key
    · subst same
      simp [listed, count_append]
    · have apart : [key].count other = 0 := count_eq_zero.mpr (by simpa using same)
      simp [lookup_insert_ne same, holds other, same, count_append, apart]
  · rw [if_neg listed] at before
    rw [before]
    by_cases same : other = key
    · subst same
      simp [count_append, count_eq_zero_of_not_mem listed]
    · have apart : [key].count other = 0 := count_eq_zero.mpr (by simpa using same)
      simp [lookup_insert_ne same, holds other, same, count_append, apart]

theorem Holds.take (holds : Holds tally filled taken) (listed : key ∈ filled) :
    ∃ after, tally.take key = some after ∧ Holds after filled (taken ++ [key]) := by
  have before := holds key
  rw [if_pos listed] at before
  refine ⟨_, by rw [Tally.take, before], fun other => ?_⟩
  by_cases same : other = key
  · subst same
    simp only [lookup_insert, if_pos listed, count_append, count_singleton_self]
    congr 1
    omega
  · have apart : [key].count other = 0 := count_eq_zero.mpr (by simpa using same)
    rw [lookup_insert_ne same, holds other, count_append, apart, add_zero]

theorem Holds.take_eq_none (holds : Holds tally filled taken) (absent : key ∉ filled) : tally.take key = none := by
  have before := holds key
  rw [if_neg absent] at before
  rw [Tally.take, before]

theorem Holds.all_iff (holds : Holds tally filled taken) (test : Int → Prop) :
    (∀ entry ∈ tally.entries, test entry.2) ↔ ∀ key ∈ filled, test ((filled.count key : Int) - taken.count key) := by
  constructor
  · intro tested key listed
    have entry := mem_lookup_iff.mp (by rw [holds key, if_pos listed]; rfl)
    exact tested _ entry
  · rintro tested ⟨key, count⟩ listed
    have found : count ∈ tally.lookup key := mem_lookup_iff.mpr listed
    rw [holds key, Option.mem_def] at found
    split at found
    next filledIn =>
      obtain rfl := Option.some.inj found
      exact tested key filledIn
    · cases found

theorem perm_iff_balanced (within : ∀ key ∈ taken, key ∈ filled) :
    (∀ key ∈ filled, (filled.count key : Int) - taken.count key = 0) ↔ taken.Perm filled := by
  constructor
  · intro balanced
    refine perm_iff_count.mpr fun key => ?_
    by_cases listed : key ∈ filled
    · have equal := balanced key listed
      omega
    · rw [count_eq_zero_of_not_mem listed, count_eq_zero_of_not_mem fun member => listed (within key member)]
  · intro perm key _
    rw [perm.count_eq key]
    omega

theorem subperm_iff_covered (within : ∀ key ∈ taken, key ∈ filled) :
    (∀ key ∈ filled, ¬ (filled.count key : Int) - taken.count key < 0) ↔ taken.Subperm filled := by
  rw [subperm_ext_iff]
  constructor
  · intro covered key member
    have kept := covered key (within key member)
    omega
  · intro covered key _
    by_cases member : key ∈ taken
    · have bounded := covered key member
      omega
    · rw [count_eq_zero_of_not_mem member]
      omega

end Tally

end MeterPov.Lib
