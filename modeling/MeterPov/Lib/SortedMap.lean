import MeterPov.Lib.SortedList

/-! A sorted list read as a finite map, and sums over it.

`get` determines everything: every update is described by what it does to `get`, and a sum over the
items changes by the weights of the items that left and came. -/

set_option autoImplicit false

namespace MeterPov.Lib.SortedList

open List Option

variable {Item Key : Type} [LinearOrder Key] {key : Item → Key} (list : SortedList key)

variable {item : Item}

theorem mem_items : item ∈ list.items ↔ list.get (key item) = some item := by
  rw [list.get_eq_some]
  exact ⟨fun listed => ⟨listed, rfl⟩, fun held => held.1⟩

theorem key_of_get {target} (held : list.get target = some item) : key item = target :=
  (list.get_eq_some.mp held).2

theorem get_congr {other : SortedList key} {target} (same : ∀ item, key item = target → (item ∈ other.items ↔ item ∈ list.items)) : other.get target = list.get target := by
  apply Option.ext
  intro item
  rw [other.get_eq_some, list.get_eq_some]
  exact and_congr_left fun keyed => same item keyed

theorem ext_get {first second : SortedList key} (same : ∀ target, first.get target = second.get target) : first = second := by
  have members (item : Item) : item ∈ first.items ↔ item ∈ second.items := by
    rw [mem_items, mem_items, same]
  have nodup (list : SortedList key) : list.items.Nodup := list.sorted.imp fun less equal => (ne_of_lt less) (congrArg key equal)
  have perm : first.items.Perm second.items := (perm_ext_iff_of_nodup (nodup first) (nodup second)).mpr members
  have equal : first.items = second.items :=
    perm.eq_of_pairwise (fun _ _ _ _ before after => absurd before (not_lt_of_gt after)) first.sorted second.sorted
  cases first
  cases second
  cases equal
  rfl

theorem mem_add {added} : item ∈ (list.add added).items ↔ item = added ∨ item ∈ list.items ∧ key item ≠ key added := by
  have members := (list.addIn_perm added).mem_iff (a := item)
  rw [mem_cons, list.mem_without] at members
  exact members

theorem mem_remove {removed} : item ∈ (list.remove removed).items ↔ item ∈ list.items ∧ key item ≠ removed := by
  change item ∈ removeIn key list.items removed ↔ _
  rw [list.removeIn_eq, list.mem_without]

theorem get_add (added : Item) (target : Key) :
    (list.add added).get target = if target = key added then some added else list.get target := by
  split
  next same =>
    rw [SortedList.get_eq_some, mem_add]
    exact ⟨.inl rfl, same.symm⟩
  next other =>
    apply get_congr
    intro item keyed
    rw [mem_add]
    constructor
    · rintro (rfl | ⟨listed, -⟩)
      · exact absurd keyed.symm other
      · exact listed
    · intro listed
      exact .inr ⟨listed, fun same => other (keyed.symm.trans same)⟩

theorem get_remove (removed target : Key) : (list.remove removed).get target = if target = removed then none else list.get target := by
  split
  next same =>
    apply eq_none_iff_forall_not_mem.mpr
    intro item held
    obtain ⟨listed, keyed⟩ := (list.remove removed).get_eq_some.mp held
    exact (list.mem_remove.mp listed).2 (keyed.trans same)
  next other =>
    apply get_congr
    intro item keyed
    rw [mem_remove]
    exact ⟨fun held => held.1, fun listed => ⟨listed, fun same => other (keyed.symm.trans same)⟩⟩

/-- An update through the pointer that `Get` returns; the key is not updated. -/
def modify (target : Key) (update : Item → Item) : SortedList key :=
  match list.get target with
  | none => list
  | some item => list.add (update item)

section

variable {update : Item → Item} (keyed : ∀ item, key (update item) = key item)

include keyed in
theorem get_modify (target other : Key) :
    (list.modify target update).get other = if other = target then (list.get other).map update else list.get other := by
  unfold modify
  cases held : list.get target with
  | none =>
    dsimp only
    split
    next same => rw [same, held, map_none]
    · rfl
  | some item =>
    have named : key (update item) = target := (keyed item).trans (list.key_of_get held)
    rw [get_add, named]
    split
    next same => rw [same, held, map_some]
    · rfl

include keyed in
theorem isSome_get_modify (target other : Key) : ((list.modify target update).get other).isSome = (list.get other).isSome := by
  rw [list.get_modify keyed]
  split
  · exact isSome_map
  · rfl

end

variable {target : Key}

theorem get_modify_none (absent : list.get target = none) (update : Item → Item) : list.modify target update = list := by
  simp [modify, absent]

theorem modify_of_get (held : list.get target = some item) (update : Item → Item) :
    list.modify target update = list.add (update item) := by
  simp [modify, held]

variable {update : Item → Item}

theorem get_modify_of_ne {other} (held : list.get target = some item) (keyed : key (update item) = key item) (apart : other ≠ target) : (list.modify target update).get other = list.get other := by
  rw [list.modify_of_get held, get_add, keyed, list.key_of_get held, if_neg apart]

theorem get_modify_fresh {fresh} (held : list.get target = some item) (keyed : key (update item) = key item)
    (absent : list.get fresh = none) : (list.modify target update).get fresh = none := by
  rw [list.get_modify_of_ne held keyed, absent]
  rintro rfl
  rw [held] at absent
  cases absent

theorem modify_eq_self (same : ∀ item, update item = item) : list.modify target update = list := by
  apply ext_get
  intro other
  rw [list.get_modify fun item => congrArg key (same item), funext same]
  simp

theorem modify_modify {first second} (keyed : ∀ item, key (first item) = key item) (keyed' : ∀ item, key (second item) = key item) :
    (list.modify target first).modify target second = list.modify target fun item => second (first item) := by
  apply ext_get
  intro other
  rw [get_modify _ keyed', get_modify _ keyed, get_modify _ fun item => (keyed' _).trans (keyed item)]
  split
  · rw [Option.map_map]
    rfl
  · rfl

theorem modify_remove_comm {removed} (keyed : ∀ item, key (update item) = key item) (apart : removed ≠ target) :
    (list.modify target update).remove removed = (list.remove removed).modify target update := by
  apply ext_get
  intro other
  rw [get_remove, get_modify _ keyed, get_modify _ keyed, get_remove]
  by_cases gone : other = removed
  · simp [gone, apart]
  · simp [gone]

theorem modify_remove_self (keyed : ∀ item, key (update item) = key item) :
    (list.modify target update).remove target = list.remove target := by
  apply ext_get
  intro other
  rw [get_remove, get_modify _ keyed, get_remove]
  split <;> rfl

/-- Every key of one list is a key of the other. -/
def Within (later earlier : SortedList key) : Prop := ∀ target, (later.get target).isSome → (earlier.get target).isSome

theorem Within.trans {first second third : SortedList key} (earlier : first.Within second) (later : second.Within third) :
    first.Within third :=
  fun target held => later target (earlier target held)

theorem within_modify (target : Key) (keyed : ∀ item, key (update item) = key item) : (list.modify target update).Within list := by
  intro other held
  rwa [list.isSome_get_modify keyed] at held

theorem within_remove (removed : Key) : (list.remove removed).Within list := by
  intro other held
  rw [list.get_remove] at held
  split at held
  · cases held
  · exact held

/-! ## Sums -/

variable (weight : Item → Int)

def total : Int := (list.items.map weight).sum

/-- What the item with a key weighs, if there is one. -/
def weightAt (target : Key) : Int := ((list.get target).map weight).getD 0

variable {weight}

theorem weightAt_of_get (held : list.get target = some item) : list.weightAt weight target = weight item := by
  simp [weightAt, held]

theorem weightAt_none (absent : list.get target = none) : list.weightAt weight target = 0 := by
  simp [weightAt, absent]

theorem total_eq_of_perm (weight : Item → Int) {items} (same : list.items.Perm items) :
    list.total weight = (items.map weight).sum :=
  (same.map weight).sum_eq

theorem total_without (target : Key) : ((list.without target).map weight).sum = list.total weight - list.weightAt weight target := by
  cases held : list.get target with
  | none =>
    rw [list.without_of_get held, list.weightAt_none held, Int.sub_zero]
    rfl
  | some item =>
    have split := list.total_eq_of_perm weight (list.perm_of_get held)
    rw [map_cons, sum_cons] at split
    rw [list.weightAt_of_get held, split]
    omega

theorem total_add (added : Item) :
    (list.add added).total weight = list.total weight - list.weightAt weight (key added) + weight added := by
  have split := (list.add added).total_eq_of_perm weight (list.addIn_perm added)
  rw [map_cons, sum_cons, total_without] at split
  omega

theorem total_remove (removed : Key) : (list.remove removed).total weight = list.total weight - list.weightAt weight removed := by
  rw [← total_without]
  change ((removeIn key list.items removed).map weight).sum = _
  rw [list.removeIn_eq]

theorem total_modify (held : list.get target = some item) (keyed : key (update item) = key item) :
    (list.modify target update).total weight = list.total weight - weight item + weight (update item) := by
  rw [list.modify_of_get held, total_add, keyed, list.key_of_get held, list.weightAt_of_get held]

theorem total_nonneg (nonneg : ∀ item ∈ list.items, 0 ≤ weight item) : 0 ≤ list.total weight := by
  apply sum_nonneg
  intro entry listed
  obtain ⟨item, member, rfl⟩ := mem_map.mp listed
  exact nonneg item member

theorem weight_le_total (nonneg : ∀ item ∈ list.items, 0 ≤ weight item) (held : list.get target = some item) :
    weight item ≤ list.total weight := by
  have rest : 0 ≤ (list.remove target).total weight :=
    total_nonneg _ fun other listed => nonneg other (list.mem_remove.mp listed).1
  rw [total_remove, list.weightAt_of_get held] at rest
  omega

end MeterPov.Lib.SortedList
