import Mathlib

/-! Finite maps that are found again by the hash of their content.

A trie is known by what it answers. Two tries with different answers have different hashes, so a hash leads back to the
answers of the trie it is the hash of. -/

set_option autoImplicit false

namespace MeterPov.Lib

open List

structure Tries (Key Value Root : Type) where
  Trie : Type
  get : Trie → Key → Option Value
  /-- No value deletes the key. -/
  update : Trie → Key → Option Value → Trie
  hash : Trie → Root
  resolve : Root → Trie
  get_update_self : ∀ trie key value, get (update trie key value) key = value
  get_update_of_ne : ∀ trie key value other, other ≠ key → get (update trie key value) other = get trie other
  get_resolve : ∀ trie key, get (resolve (hash trie)) key = get trie key

namespace Tries

variable {Key Value Root Entry : Type} [DecidableEq Key]

theorem get_foldl (tries : Tries Key Value Root) (stored : Entry → Option Value) {entries : List (Sigma fun _ : Key => Entry)}
    (nodup : entries.NodupKeys) (trie : tries.Trie) (key : Key) :
    tries.get (entries.foldl (fun trie entry => tries.update trie entry.1 (stored entry.2)) trie) key =
      match entries.dlookup key with
      | some entry => stored entry
      | none => tries.get trie key := by
  induction entries generalizing trie with
  | nil => rfl
  | cons entry rest ih =>
    obtain ⟨first, value⟩ := entry
    have distinct := nodupKeys_cons.mp nodup
    rw [foldl_cons, ih distinct.2]
    by_cases same : key = first
    · subst same
      rw [dlookup_eq_none.mpr distinct.1, dlookup_cons_eq]
      exact tries.get_update_self trie key (stored value)
    · rw [dlookup_cons_ne rest ⟨first, value⟩ same]
      cases rest.dlookup key with
      | some later => rfl
      | none => exact tries.get_update_of_ne trie first (stored value) key same

end Tries

/-! ## Lists as tries -/

section

variable {Key Value : Type} [DecidableEq Key]

/-- The latest entry of a key decides. -/
def listGet : List (Key × Option Value) → Key → Option Value
  | [], _ => none
  | (first, value) :: rest, key => if key = first then value else listGet rest key

/-- A list of writes is its own hash. -/
def listTries : Tries Key Value (List (Key × Option Value)) where
  Trie := List (Key × Option Value)
  get := listGet
  update trie key value := (key, value) :: trie
  hash trie := trie
  resolve root := root
  get_update_self trie key value := by simp [listGet]
  get_update_of_ne trie key value other different := by simp [listGet, different]
  get_resolve _ _ := rfl

omit [DecidableEq Key] in
theorem exists_hash [Countable Key] [Countable Value] :
    ∃ hash : List (Key × Option Value) → List UInt8, Function.Injective hash ∧ ∀ trie, hash trie ≠ [] := by
  obtain ⟨number, injective⟩ := exists_injective_nat (List (Key × Option Value))
  refine ⟨fun trie => List.replicate (number trie + 1) 0, ?_, ?_⟩
  · intro first second same
    apply injective
    simpa using congrArg List.length same
  · intro trie
    simp

variable (Key Value)

/-- Lists as tries, with a hash into bytes. No bytes at all are the root of the empty list. -/
noncomputable def byteTries [Countable Key] [Countable Value] : Tries Key Value (List UInt8) where
  Trie := List (Key × Option Value)
  get := listGet
  update trie key value := (key, value) :: trie
  hash := exists_hash.choose
  resolve root := if root = [] then [] else Function.invFun exists_hash.choose root
  get_update_self trie key value := by simp [listGet]
  get_update_of_ne trie key value other different := by simp [listGet, different]
  get_resolve trie key := by
    have chosen := (@exists_hash Key Value _ _).choose_spec
    rw [if_neg (chosen.2 trie), Function.leftInverse_invFun chosen.1]

end
end MeterPov.Lib
