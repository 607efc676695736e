import Mathlib

/-! `stackedmap`: a stack of maps in which each map inherits the entries of the maps below it.

Stacks are lists with the top first. The revision map holds, for every key, the levels that have an
entry for it; a map whose revisions disagree with its levels cannot be built. -/

set_option autoImplicit false

namespace MeterPov.Accounts

open List Option Function

variable {Key : Type} {Value : Key → Type}

structure Level (Key : Type) (Value : Key → Type) where
  kvs : (key : Key) → Option (Value key)
  journal : List ((key : Key) × Value key)

def newLevel : Level Key Value := { kvs := fun _ => none, journal := [] }

/-- The levels with an entry for the key, as depths from the bottom. -/
def revisions : List (Level Key Value) → Key → List Nat
  | [], _ => []
  | top :: below, key => if (top.kvs key).isSome then below.length :: revisions below key else revisions below key

/-- What the highest level with an entry for the key holds. -/
def lookup : List (Level Key Value) → (key : Key) → Option (Value key)
  | [], _ => none
  | top :: below, key => (top.kvs key).or (lookup below key)

variable {key : Key}

theorem revisions_lt {levels : List (Level Key Value)} {revision} (listed : revision ∈ revisions levels key) : revision < levels.length := by
  induction levels with
  | nil => cases listed
  | cons top below ih =>
    unfold revisions at listed
    split at listed
    · cases listed with
      | head => simp
      | tail _ later => exact Nat.lt_succ_of_lt (ih later)
    · exact Nat.lt_succ_of_lt (ih listed)

variable {top : Level Key Value} {below : List (Level Key Value)}

theorem head?_revisions : (revisions (top :: below) key).head? = some below.length ↔ (top.kvs key).isSome := by
  unfold revisions
  split
  next held => simp [held]
  next absent =>
    refine iff_of_false (fun first => ?_) absent
    exact lt_irrefl _ (revisions_lt (mem_of_head? first))

section

variable [DecidableEq Key]

def Level.record (level : Level Key Value) (key : Key) (value : Value key) : Level Key Value where
  kvs := Function.update level.kvs key (some value)
  journal := level.journal ++ [⟨key, value⟩]

@[simp] theorem Level.record_kvs_self (level : Level Key Value) (key : Key) (value : Value key) :
    (level.record key value).kvs key = some value :=
  update_self ..

theorem Level.record_kvs_of_ne (level : Level Key Value) {other} (value : Value key) (different : other ≠ key) :
    (level.record key value).kvs other = level.kvs other :=
  update_of_ne different ..

theorem revisions_record_of_isSome {value} (held : (top.kvs key).isSome) (other : Key) :
    revisions (top.record key value :: below) other = revisions (top :: below) other := by
  by_cases same : other = key
  · subst same
    simp [revisions, held]
  · simp [revisions, Level.record_kvs_of_ne, same]

end

theorem exists_level_of_lookup {levels} {value : Value key} (held : lookup levels key = some value) : ∃ level ∈ levels, level.kvs key = some value := by
  induction levels with
  | nil => cases held
  | cons top below ih =>
    unfold lookup at held
    cases here : top.kvs key with
    | some found =>
      rw [here, some_or] at held
      exact ⟨top, mem_cons_self, here.trans held⟩
    | none =>
      rw [here, none_or] at held
      obtain ⟨level, listed, holds⟩ := ih held
      exact ⟨level, mem_cons_of_mem _ listed, holds⟩

/-- A value and whether it exists. -/
abbrev MapGetter (Key : Type) (Value : Key → Type) := (key : Key) → Value key × Bool

structure StackedMap (Key : Type) (Value : Key → Type) where
  src : MapGetter Key Value
  mapStack : List (Level Key Value)
  keyRevisionMap : Key → List Nat
  indexed : ∀ key, keyRevisionMap key = revisions mapStack key

namespace StackedMap

def new (src : MapGetter Key Value) : StackedMap Key Value where
  src := src
  mapStack := [newLevel]
  keyRevisionMap := fun _ => []
  indexed := fun _ => rfl

section

variable (sm : StackedMap Key Value)

def depth : Nat := sm.mapStack.length

def push : StackedMap Key Value where
  src := sm.src
  mapStack := newLevel :: sm.mapStack
  keyRevisionMap := sm.keyRevisionMap
  indexed := sm.indexed

/-- The revisions left when the top level goes. -/
def popRevisions (key : Key) : List Nat :=
  match sm.mapStack with
  | [] => sm.keyRevisionMap key
  | top :: _ => if (top.kvs key).isSome then (sm.keyRevisionMap key).tail else sm.keyRevisionMap key

def pop : StackedMap Key Value where
  src := sm.src
  mapStack := sm.mapStack.tail
  keyRevisionMap := sm.popRevisions
  indexed := by
    intro key
    unfold popRevisions
    rw [sm.indexed]
    cases sm.mapStack with
    | nil => rfl
    | cons top below =>
      simp only [revisions, tail_cons]
      split <;> rfl

/-- `PopTo` pops until the depth is reached. -/
def popTo (depth : Nat) : StackedMap Key Value :=
  Nat.iterate pop (sm.depth - depth) sm

def levelAt (revision : Nat) : Option (Level Key Value) :=
  sm.mapStack[sm.mapStack.length - 1 - revision]?

def get (key : Key) : Value key × Bool :=
  match sm.keyRevisionMap key with
  | [] => sm.src key
  | revision :: _ =>
    match (sm.levelAt revision).bind fun level => level.kvs key with
    | some value => (value, true)
    | none => sm.src key

end

variable (sm : StackedMap Key Value)

/-- The levels decide what is read; the revision map only finds the right one. -/
theorem get_eq (key : Key) : sm.get key = ((lookup sm.mapStack key).map fun value => (value, true)).getD (sm.src key) := by
  unfold get levelAt
  rw [sm.indexed]
  induction sm.mapStack with
  | nil => rfl
  | cons top below ih =>
    simp only [revisions, lookup]
    cases held : top.kvs key with
    | some value => simp [held]
    | none =>
      simp only [isSome_none, Bool.false_eq_true, if_false, none_or]
      rw [← ih]
      cases revised : revisions below key with
      | nil => rfl
      | cons revision rest =>
        have inside : revision < below.length := revisions_lt (by rw [revised]; exact mem_cons_self)
        have same : below.length - revision = (below.length - 1 - revision) + 1 := by omega
        simp [same]

theorem eq_of_levels {sm other : StackedMap Key Value} (source : sm.src = other.src) (levels : sm.mapStack = other.mapStack) : sm = other := by
  have revised : sm.keyRevisionMap = other.keyRevisionMap := by
    funext key
    rw [sm.indexed, other.indexed, levels]
  cases sm
  cases other
  cases source
  cases levels
  cases revised
  rfl

/-- The map with these levels. -/
def ofLevels (src : MapGetter Key Value) (levels : List (Level Key Value)) : StackedMap Key Value where
  src := src
  mapStack := levels
  keyRevisionMap := revisions levels
  indexed := fun _ => rfl

theorem ofLevels_eq : ofLevels sm.src sm.mapStack = sm := eq_of_levels rfl rfl

@[simp] theorem push_src : sm.push.src = sm.src := rfl

@[simp] theorem push_mapStack : sm.push.mapStack = newLevel :: sm.mapStack := rfl

theorem get_push (key : Key) : sm.push.get key = sm.get key := by
  rw [get_eq, get_eq]
  rfl

theorem iterate_pop_mapStack (count : Nat) :
    (Nat.iterate pop count sm).mapStack = sm.mapStack.drop count ∧ (Nat.iterate pop count sm).src = sm.src := by
  induction count generalizing sm with
  | zero => exact ⟨rfl, rfl⟩
  | succ count ih =>
    obtain ⟨levels, source⟩ := ih sm.pop
    refine ⟨?_, source⟩
    rw [iterate_succ_apply, levels]
    exact drop_tail

@[simp] theorem popTo_mapStack (depth : Nat) : (sm.popTo depth).mapStack = sm.mapStack.drop (sm.mapStack.length - depth) :=
  (sm.iterate_pop_mapStack _).1

@[simp] theorem popTo_src (depth : Nat) : (sm.popTo depth).src = sm.src :=
  (sm.iterate_pop_mapStack _).2

theorem popTo_append {sm : StackedMap Key Value} {above} (levels : sm.mapStack = above ++ below) :
    (sm.popTo below.length).mapStack = below := by
  rw [popTo_mapStack, levels, length_append, Nat.add_sub_cancel, drop_left]

/-- The entries `Journal` visits, oldest first. -/
def journal (sm : StackedMap Key Value) : List ((key : Key) × Value key) :=
  sm.mapStack.reverse.flatMap fun level => level.journal

section

variable [DecidableEq Key]

/-- A revision is recorded once for a level, however often the key is put there. -/
def putRevisions (sm : StackedMap Key Value) (key : Key) : Key → List Nat :=
  let rev := sm.mapStack.length - 1
  if (sm.keyRevisionMap key).head? = some rev then sm.keyRevisionMap
  else Function.update sm.keyRevisionMap key (rev :: sm.keyRevisionMap key)

/-- `Put` writes to the top level. On an empty stack there is none; the callers panic there. -/
def put (sm : StackedMap Key Value) (key : Key) (value : Value key) : StackedMap Key Value :=
  match levels : sm.mapStack with
  | [] => sm
  | top :: below =>
    { src := sm.src
      mapStack := top.record key value :: below
      keyRevisionMap := sm.putRevisions key
      indexed := by
        intro other
        unfold putRevisions
        rw [levels, length_cons, Nat.add_sub_cancel]
        have recorded : ((sm.keyRevisionMap key).head? = some below.length) ↔ (top.kvs key).isSome := by
          rw [sm.indexed, levels]
          exact head?_revisions
        split
        next again =>
          rw [sm.indexed, levels]
          exact (revisions_record_of_isSome (recorded.mp again) other).symm
        next first =>
          have absent : top.kvs key = none := by
            rw [recorded] at first
            simpa using first
          by_cases same : other = key
          · subst same
            simp [revisions, sm.indexed, levels, absent]
          · simp [revisions, Level.record_kvs_of_ne, sm.indexed, levels, same] }

@[simp] theorem put_src (key : Key) (value : Value key) : (sm.put key value).src = sm.src := by
  unfold put
  split <;> rfl

theorem put_mapStack {sm : StackedMap Key Value} (levels : sm.mapStack = top :: below) (key : Key) (value : Value key) :
    (sm.put key value).mapStack = top.record key value :: below := by
  unfold put
  split
  next empty => rw [levels] at empty; cases empty
  next top' below' levels' =>
    rw [levels] at levels'
    cases levels'
    rfl

theorem put_of_empty {sm : StackedMap Key Value} (empty : sm.mapStack = []) (key : Key) (value : Value key) : sm.put key value = sm := by
  unfold put
  split
  · rfl
  next top below levels => rw [empty] at levels; cases levels

theorem put_mapStack_length (key : Key) (value : Value key) : (sm.put key value).mapStack.length = sm.mapStack.length := by
  cases levels : sm.mapStack with
  | nil => simp [put_of_empty levels, levels]
  | cons top below => simp [put_mapStack levels]

theorem get_put_self {sm : StackedMap Key Value} (nonempty : sm.depth ≠ 0) (key : Key) (value : Value key) :
    (sm.put key value).get key = (value, true) := by
  cases levels : sm.mapStack with
  | nil => exact absurd (by simp [depth, levels]) nonempty
  | cons top below => simp [get_eq, put_mapStack levels, lookup]

theorem get_put_of_ne {sm : StackedMap Key Value} {other} (different : other ≠ key) (value : Value key) :
    (sm.put key value).get other = sm.get other := by
  cases levels : sm.mapStack with
  | nil => rw [put_of_empty levels]
  | cons top below => simp [get_eq, put_mapStack levels, lookup, Level.record_kvs_of_ne _ _ different, levels]

theorem journal_put {sm : StackedMap Key Value} (nonempty : sm.mapStack ≠ []) (key : Key) (value : Value key) :
    (sm.put key value).journal = sm.journal ++ [⟨key, value⟩] := by
  cases levels : sm.mapStack with
  | nil => exact absurd levels nonempty
  | cons top below => simp [journal, put_mapStack levels, levels, Level.record]

end

end StackedMap
end MeterPov.Accounts
