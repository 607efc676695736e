import Mathlib

/-! A set of bounded size that forgets its least recently added element.

Elements are kept in the order of their last addition, the latest first. -/

set_option autoImplicit false

namespace MeterPov.Lib

open List

structure Lru (Key : Type) (capacity : Nat) where
  entries : List Key
  nodup : entries.Nodup
  bounded : entries.length ≤ capacity

namespace Lru

variable {Key : Type} {capacity : Nat} [DecidableEq Key]

def empty : Lru Key capacity := ⟨[], nodup_nil, Nat.zero_le _⟩

def contains (cache : Lru Key capacity) (key : Key) : Bool := cache.entries.contains key

/-- A known key becomes the latest one; a new one pushes out the oldest when the cache is full. -/
def add (cache : Lru Key capacity) (key : Key) : Lru Key capacity where
  entries := (key :: cache.entries.erase key).take capacity
  nodup := by
    have fresh : key ∉ cache.entries.erase key := List.Nodup.not_mem_erase cache.nodup
    exact (nodup_cons.mpr ⟨fresh, cache.nodup.erase key⟩).sublist (take_sublist _ _)
  bounded := length_take_le _ _

@[simp] theorem contains_empty (key : Key) : (empty : Lru Key capacity).contains key = false := rfl

theorem contains_of_add {cache : Lru Key capacity} {key added} (found : (cache.add added).contains key = true) : key = added ∨ cache.contains key = true := by
  simp only [contains, add, contains_iff_mem] at found ⊢
  rcases mem_cons.mp (mem_of_mem_take found) with same | old
  · exact .inl same
  · exact .inr (mem_of_mem_erase old)

end Lru
end MeterPov.Lib
