import Mathlib

/-! Lists kept strictly sorted by a key and searched by halving.

A sorted list is a finite map from keys to items. Adding and removing are described by the items
with another key: everything counted or summed over the list follows from that. -/

set_option autoImplicit false

namespace MeterPov.Lib

open List

variable {Item Key : Type} [LinearOrder Key]

structure SortedList (key : Item → Key) where
  items : List Item
  sorted : items.Pairwise fun first second => key first < key second

/-- Where a key is, or where it would have to be inserted. -/
inductive Position where
  | found (index : Nat)
  | absent (insertIndex : Nat)
  deriving DecidableEq, Repr

/-- The search between `l` and `r`; the fuel bounds the number of halvings. -/
def search (key : Item → Key) (items : List Item) (target : Key) : Nat → Nat → Nat → Position
  | 0, _, r => .absent r
  | fuel + 1, l, r =>
    if l < r then
      match items[(l + r) / 2]? with
      | none => .absent r
      | some item =>
        if target < key item then search key items target fuel l ((l + r) / 2)
        else if key item < target then search key items target fuel ((l + r) / 2 + 1) r
        else .found ((l + r) / 2)
    else .absent r

section

variable (key : Item → Key) (items : List Item)

/-- The operations as the containers have them, on a list that need not be sorted. -/
def indexIn (target : Key) : Position :=
  search key items target items.length 0 items.length

def getIn (target : Key) : Option Item :=
  match indexIn key items target with
  | .found index => items[index]?
  | .absent _ => none

/-- `Add` replaces the item with the same key, if there is one. -/
def addIn (item : Item) : List Item :=
  match indexIn key items (key item) with
  | .found index => items.set index item
  | .absent insertIndex => items.take insertIndex ++ item :: items.drop insertIndex

def removeIn (target : Key) : List Item :=
  match indexIn key items target with
  | .found index => items.take index ++ items.drop (index + 1)
  | .absent _ => items

end

variable {key : Item → Key} {target : Key}

/-- All items before a position are smaller than the target and all from it on are larger. -/
structure Divides (key : Item → Key) (items : List Item) (target : Key) (l r : Nat) : Prop where
  below : ∀ (index : Nat) (item : Item), items[index]? = some item → index < l → key item < target
  above : ∀ (index : Nat) (item : Item), items[index]? = some item → r ≤ index → target < key item

/-- A position that tells the truth about the target. -/
def Position.Correct (key : Item → Key) (items : List Item) (target : Key) : Position → Prop
  | .found index => ∃ item, items[index]? = some item ∧ key item = target
  | .absent insertIndex => Divides key items target insertIndex insertIndex

theorem getElem?_lt_of_sorted {items : List Item}
    (sorted : items.Pairwise fun first second => key first < key second) {i j : Nat} {first second}
    (at_i : items[i]? = some first) (at_j : items[j]? = some second) (before : i < j) : key first < key second := by
  obtain ⟨inside_i, rfl⟩ := List.getElem?_eq_some_iff.mp at_i
  obtain ⟨inside_j, rfl⟩ := List.getElem?_eq_some_iff.mp at_j
  exact pairwise_iff_getElem.mp sorted i j inside_i inside_j before

theorem search_spec {items} (sorted : items.Pairwise fun first second => key first < key second)
    {fuel l r} (ordered : l ≤ r) (inside : r ≤ items.length) (enough : r - l ≤ fuel) (divides : Divides key items target l r) : (search key items target fuel l r).Correct key items target := by
  induction fuel generalizing l r with
  | zero =>
    have closed : l = r := by omega
    subst closed
    exact divides
  | succ fuel ih =>
    unfold search
    split
    next gap =>
      have middle : (l + r) / 2 < items.length := by omega
      rw [List.getElem?_eq_getElem middle]
      have here := List.getElem?_eq_getElem middle
      dsimp only
      split
      next smaller =>
        refine ih (by omega) (by omega) (by omega) ⟨divides.below, fun index item held after => ?_⟩
        rcases lt_or_eq_of_le after with later | rfl
        · exact smaller.trans (getElem?_lt_of_sorted sorted here held later)
        · cases held.symm.trans here
          exact smaller
      next notSmaller =>
        split
        next larger =>
          refine ih (by omega) (by omega) (by omega) ⟨fun index item held before => ?_, divides.above⟩
          rcases lt_or_eq_of_le (Nat.le_of_lt_succ before) with earlier | rfl
          · exact (getElem?_lt_of_sorted sorted held here earlier).trans larger
          · cases held.symm.trans here
            exact larger
        next notLarger =>
          exact ⟨_, here, le_antisymm (not_lt.mp notSmaller) (not_lt.mp notLarger)⟩
    next closed =>
      have same : l = r := by omega
      subst same
      exact divides

/-- The search is over after as many halvings as there are positions. -/
theorem search_more {items fuel l r} (enough : r - l ≤ fuel) (more : Nat) :
    search key items target (fuel + more) l r = search key items target fuel l r := by
  induction fuel generalizing l r with
  | zero =>
    have closed : ¬ l < r := by omega
    cases more <;> simp [search, closed]
  | succ fuel ih =>
    rw [Nat.succ_add, search, search]
    split
    next gap =>
      rw [ih (by omega), ih (by omega)]
    next closed => rfl

namespace SortedList

variable (list : SortedList key)

def empty : SortedList key := ⟨[], .nil⟩

theorem indexIn_spec (target : Key) : (indexIn key list.items target).Correct key list.items target :=
  search_spec list.sorted (Nat.zero_le _) (le_refl _) (Nat.sub_le _ _)
    ⟨fun _ _ _ before => absurd before (Nat.not_lt_zero _), fun index item held after => by
      have inside := (List.getElem?_eq_some_iff.mp held).1
      omega⟩

def without (target : Key) : List Item := list.items.filter fun item => key item ≠ target

variable {item : Item}

theorem mem_without : item ∈ list.without target ↔ item ∈ list.items ∧ key item ≠ target := by
  simp [without]

theorem split_of_found {index} (held : list.items[index]? = some item) :
    list.without (key item) = list.items.take index ++ list.items.drop (index + 1) ∧
      list.items = list.items.take index ++ item :: list.items.drop (index + 1) := by
  have parts : list.items = list.items.take index ++ item :: list.items.drop (index + 1) := by
    obtain ⟨inside, rfl⟩ := List.getElem?_eq_some_iff.mp held
    rw [← drop_eq_getElem_cons inside, take_append_drop]
  refine ⟨?_, parts⟩
  have sorted := list.sorted
  rw [parts, pairwise_append, pairwise_cons] at sorted
  obtain ⟨-, ⟨after, -⟩, across⟩ := sorted
  unfold without
  conv_lhs => rw [parts]
  rw [filter_append, filter_cons_of_neg (by simp)]
  congr 1
  · refine filter_eq_self.mpr fun other listed => ?_
    simpa using (across other listed _ mem_cons_self).ne
  · refine filter_eq_self.mpr fun other listed => ?_
    simpa using (after other listed).ne'

theorem without_of_absent {insertIndex} (divides : Divides key list.items target insertIndex insertIndex) :
    list.without target = list.items := by
  refine filter_eq_self.mpr fun item listed => ?_
  obtain ⟨index, held⟩ := mem_iff_getElem?.mp listed
  rcases lt_or_ge index insertIndex with before | after
  · simpa using (divides.below index item held before).ne
  · simpa using (divides.above index item held after).ne'

def get (target : Key) : Option Item := getIn key list.items target

theorem get_eq_some : list.get target = some item ↔ item ∈ list.items ∧ key item = target := by
  unfold get getIn
  have correct := list.indexIn_spec target
  split
  next index position =>
    rw [position] at correct
    obtain ⟨found, held, same⟩ := correct
    refine ⟨fun read => ?_, fun ⟨listed, other⟩ => ?_⟩
    · cases held.symm.trans read
      exact ⟨mem_of_getElem? held, same⟩
    · obtain ⟨index', held'⟩ := mem_iff_getElem?.mp listed
      rcases lt_trichotomy index index' with before | rfl | after
      · exact absurd (same.trans other.symm) (getElem?_lt_of_sorted list.sorted held held' before).ne
      · exact held'
      · exact absurd (other.trans same.symm) (getElem?_lt_of_sorted list.sorted held' held after).ne
  next insertIndex position =>
    rw [position] at correct
    refine iff_of_false (by simp) fun ⟨listed, same⟩ => ?_
    have kept : item ∈ list.without target := by
      rw [list.without_of_absent correct]
      exact listed
    exact (list.mem_without.mp kept).2 same

theorem removeIn_eq (target : Key) : removeIn key list.items target = list.without target := by
  unfold removeIn
  have correct := list.indexIn_spec target
  split
  next index position =>
    rw [position] at correct
    obtain ⟨item, held, rfl⟩ := correct
    exact (list.split_of_found held).1.symm
  next insertIndex position =>
    rw [position] at correct
    exact (list.without_of_absent correct).symm

theorem addIn_perm (item : Item) : (addIn key list.items item).Perm (item :: list.without (key item)) := by
  unfold addIn
  have correct := list.indexIn_spec (key item)
  split
  next index position =>
    rw [position] at correct
    obtain ⟨old, held, same⟩ := correct
    have inside := (List.getElem?_eq_some_iff.mp held).1
    rw [← same, (list.split_of_found held).1, set_eq_take_append_cons_drop, if_pos inside]
    exact perm_middle
  next insertIndex position =>
    rw [position] at correct
    rw [list.without_of_absent correct]
    exact perm_middle.trans (by rw [take_append_drop])

theorem addIn_sorted (item : Item) : (addIn key list.items item).Pairwise fun first second => key first < key second := by
  unfold addIn
  have correct := list.indexIn_spec (key item)
  have sorted := list.sorted
  split
  next index position =>
    rw [position] at correct
    obtain ⟨old, held, same⟩ := correct
    have inside := (List.getElem?_eq_some_iff.mp held).1
    rw [set_eq_take_append_cons_drop, if_pos inside]
    rw [(list.split_of_found held).2, pairwise_append, pairwise_cons] at sorted
    rw [pairwise_append, pairwise_cons]
    obtain ⟨front, ⟨after, back⟩, across⟩ := sorted
    rw [same] at after
    refine ⟨front, ⟨after, back⟩, fun first listed second later => ?_⟩
    cases later with
    | head => exact same ▸ across first listed old mem_cons_self
    | tail _ later => exact across first listed second (mem_cons_of_mem _ later)
  next insertIndex position =>
    rw [position] at correct
    rw [← take_append_drop insertIndex list.items, pairwise_append] at sorted
    rw [pairwise_append, pairwise_cons]
    obtain ⟨front, back, across⟩ := sorted
    refine ⟨front, ⟨fun second later => ?_, back⟩, fun first listed second later => ?_⟩
    · obtain ⟨offset, held⟩ := mem_iff_getElem?.mp later
      rw [List.getElem?_drop] at held
      exact correct.above _ _ held (Nat.le_add_right _ _)
    · cases later with
      | head =>
        obtain ⟨offset, held⟩ := mem_iff_getElem?.mp listed
        rw [List.getElem?_take] at held
        split at held
        next before => exact correct.below _ _ held before
        · cases held
      | tail _ later => exact across first listed second later

def add (item : Item) : SortedList key := ⟨addIn key list.items item, list.addIn_sorted item⟩

def remove (target : Key) : SortedList key :=
  ⟨removeIn key list.items target, by rw [list.removeIn_eq]; exact list.sorted.filter _⟩

theorem perm_of_get (held : list.get target = some item) : list.items.Perm (item :: list.without target) := by
  obtain ⟨listed, rfl⟩ := list.get_eq_some.mp held
  obtain ⟨index, found⟩ := mem_iff_getElem?.mp listed
  obtain ⟨others, parts⟩ := list.split_of_found found
  rw [others]
  conv_lhs => rw [parts]
  exact perm_middle

theorem without_of_get (missing : list.get target = none) : list.without target = list.items := by
  refine filter_eq_self.mpr fun item listed => ?_
  have other : key item ≠ target := fun same => by
    rw [list.get_eq_some.mpr ⟨listed, same⟩] at missing
    cases missing
  simpa using other

end SortedList
end MeterPov.Lib
