import Mathlib

/-! Entries of association lists after an update, and their number. -/

set_option autoImplicit false

namespace MeterPov.Lib

open List AList

variable {Name Value : Type} [DecidableEq Name] {map : AList fun _ : Name => Value} {name : Name} {value : Value}
  {entry : Sigma fun _ : Name => Value}

theorem mem_entries_insert (member : entry ∈ (map.insert name value).entries) : entry = ⟨name, value⟩ ∨ entry ∈ map.entries := by
  exact (mem_cons.mp member).imp_right fun old => (kerase_sublist _ _).subset old

theorem lookup_foldl_erase (names : List Name) (map : AList fun _ : Name => Value) (name : Name) :
    (names.foldl (fun left other => left.erase other) map).lookup name = if name ∈ names then none else map.lookup name := by
  induction names generalizing map with
  | nil => simp
  | cons other rest ih =>
    rw [foldl_cons, ih]
    by_cases later : name ∈ rest
    · simp [later]
    · by_cases same : name = other
      · subst same
        simp [later]
      · simp [later, same, lookup_erase_ne same]

theorem length_entries {map : AList fun _ : Nat => Value} {size : Nat} (inside : ∀ index, (map.lookup index).isSome → index < size) :
    map.entries.length = (List.range size).countP fun index => (map.lookup index).isSome := by
  have same : map.keys.Perm ((List.range size).filter fun index => (map.lookup index).isSome) := by
    apply (perm_ext_iff_of_nodup map.keys_nodup (nodup_range.filter _)).mpr
    intro index
    rw [List.mem_filter, List.mem_range, AList.lookup_isSome, AList.mem_keys]
    exact ⟨fun listed => ⟨inside index (AList.lookup_isSome.mpr (AList.mem_keys.mpr listed)), listed⟩, fun both => both.2⟩
  rw [List.countP_eq_length_filter, ← same.length_eq, AList.keys, List.keys, List.length_map]

end MeterPov.Lib
