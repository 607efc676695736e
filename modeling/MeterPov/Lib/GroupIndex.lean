import MeterPov.Lib.SortedMap

/-! Records that index the items of a sorted list by a group.

The record of a group lists the keys of the items in the group, each once, and the sum of their
weights. The lemmas say which change of a record follows which change of the list. -/

set_option autoImplicit false

namespace MeterPov.Lib

open List Option

variable {Item Key Group : Type} [LinearOrder Key] [DecidableEq Group] {key : Item → Key}

/-- What an item adds to the sum of a group. -/
def share (group : Item → Group) (weight : Item → Int) (g : Group) (item : Item) : Int :=
  if group item = g then weight item else 0

structure Recorded (group : Item → Group) (weight : Item → Int) (items : SortedList key) (g : Group) (ids : List Key)
    (sum : Int) : Prop where
  nodup : ids.Nodup
  mem_ids : ∀ k, k ∈ ids ↔ ∃ item, items.get k = some item ∧ group item = g
  sum_eq : sum = items.total (share group weight g)

variable {group : Item → Group} {weight : Item → Int} {items : SortedList key} {g : Group} {ids : List Key} {sum : Int}

variable {item : Item}

theorem share_of_eq (joins : group item = g) : share group weight g item = weight item := if_pos joins

theorem share_of_ne (apart : group item ≠ g) : share group weight g item = 0 := if_neg apart

theorem share_nonneg (nonneg : 0 ≤ weight item) : 0 ≤ share group weight g item := by
  unfold share
  split
  · exact nonneg
  · exact le_refl 0

theorem total_share_eq_zero (empty : ∀ k item, items.get k = some item → group item ≠ g) : items.total (share group weight g) = 0 := by
  apply sum_eq_zero
  intro entry listed
  obtain ⟨item, member, rfl⟩ := mem_map.mp listed
  exact share_of_ne (empty _ item (items.mem_items.mp member))

/-- One entry of a list changes, appears or goes. -/
structure Changes (items later : SortedList key) (k : Key) (before after : Option Item) : Prop where
  held : items.get k = before
  get : ∀ other, later.get other = if other = k then after else items.get other
  total : ∀ weight : Item → Int,
    later.total weight = items.total weight - (before.map weight).getD 0 + (after.map weight).getD 0

variable {later : SortedList key} {k : Key} {before after : Option Item} {old new : Item}

namespace Changes

theorem insert (fresh : items.get (key new) = none) : Changes items (items.add new) (key new) none (some new) where
  held := fresh
  get := items.get_add new
  total weight := by simp [items.total_add, items.weightAt_none fresh]

theorem erase (held : items.get k = some old) : Changes items (items.remove k) k (some old) none where
  held := held
  get := items.get_remove k
  total weight := by simp [items.total_remove, items.weightAt_of_get held]

theorem modify {update} (held : items.get k = some old) (keyed : key (update old) = key old) :
    Changes items (items.modify k update) k (some old) (some (update old)) where
  held := held
  get other := by rw [items.modify_of_get held, items.get_add, keyed, items.key_of_get held]
  total weight := by simp [items.total_modify held keyed]

end Changes

theorem shareOf_ne (apart : ∀ item ∈ before, group item ≠ g) : (before.map (share group weight g)).getD 0 = 0 := by
  cases before with
  | none => rfl
  | some item => exact share_of_ne (apart item rfl)

namespace Recorded

theorem empty (none : ∀ k item, items.get k = some item → group item ≠ g) : Recorded group weight items g [] 0 where
  nodup := .nil
  mem_ids k := by
    simp only [not_mem_nil, false_iff, not_exists, not_and]
    exact none k
  sum_eq := (total_share_eq_zero none).symm

variable (recorded : Recorded group weight items g ids sum)

include recorded

theorem other (changes : Changes items later k before after) (gone : ∀ item ∈ before, group item ≠ g)
    (come : ∀ item ∈ after, group item ≠ g) : Recorded group weight later g ids sum where
  nodup := recorded.nodup
  mem_ids other := by
    rw [recorded.mem_ids, changes.get]
    split
    next same =>
      rw [same, changes.held]
      exact iff_of_false (fun ⟨item, held, joins⟩ => gone item held joins) fun ⟨item, held, joins⟩ => come item held joins
    · rfl
  sum_eq := by
    rw [changes.total, shareOf_ne gone, shareOf_ne come, recorded.sum_eq]
    omega

theorem stay (changes : Changes items later k (some old) (some new)) (stays : group new = group old) :
    Recorded group weight later g ids (sum - share group weight g old + share group weight g new) where
  nodup := recorded.nodup
  mem_ids other := by
    rw [recorded.mem_ids, changes.get]
    by_cases same : other = k
    · simp [same, changes.held, stays]
    · simp [same]
  sum_eq := by rw [changes.total, recorded.sum_eq, map_some, map_some, getD_some, getD_some]

theorem leave (changes : Changes items later k (some old) after) (leaves : group old = g) (come : ∀ item ∈ after, group item ≠ g) :
    Recorded group weight later g (ids.erase k) (sum - weight old) where
  nodup := recorded.nodup.erase k
  mem_ids other := by
    rw [recorded.nodup.mem_erase_iff, recorded.mem_ids, changes.get]
    by_cases same : other = k
    · simpa [same] using come
    · simp [same]
  sum_eq := by
    rw [changes.total, shareOf_ne come, map_some, getD_some, share_of_eq leaves, recorded.sum_eq]
    omega

theorem join (changes : Changes items later k before (some new)) (gone : ∀ item ∈ before, group item ≠ g) (joins : group new = g) :
    Recorded group weight later g (ids ++ [k]) (sum + weight new) where
  nodup := by
    apply List.Nodup.append recorded.nodup (nodup_singleton _)
    intro other listed added
    obtain ⟨item, found, same⟩ := (recorded.mem_ids other).mp listed
    rw [mem_singleton.mp added, changes.held] at found
    exact gone item found same
  mem_ids other := by
    rw [mem_append, mem_singleton, recorded.mem_ids, changes.get]
    by_cases same : other = k
    · simp [same, joins]
    · simp [same]
  sum_eq := by
    rw [changes.total, shareOf_ne gone, map_some, getD_some, share_of_eq joins, recorded.sum_eq]
    omega

omit recorded

theorem none_of_nil (recorded : Recorded group weight items g [] sum) : ∀ k item, items.get k = some item → group item ≠ g := by
  intro k item held same
  have listed := (recorded.mem_ids k).mpr ⟨item, held, same⟩
  cases listed

theorem weight_le_sum (recorded : Recorded group weight items g ids sum)
    (nonneg : ∀ item ∈ items.items, 0 ≤ weight item) {k} (held : items.get k = some item) (joins : group item = g) : weight item ≤ sum := by
  rw [recorded.sum_eq, ← (share_of_eq joins : share group weight g item = weight item)]
  exact items.weight_le_total (fun other listed => share_nonneg (nonneg other listed)) held

end Recorded
end MeterPov.Lib
