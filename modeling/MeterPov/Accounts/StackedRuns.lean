import MeterPov.Accounts.CommitView

/-! Runs of `stackedmap` against a stack of maps in which every map is the list of the puts made in it. -/

set_option autoImplicit false

namespace MeterPov.Accounts

open List Option

variable {Key : Type} {Value : Key → Type} [DecidableEq Key]

inductive StackOp (Key : Type) (Value : Key → Type) where
  | push
  | pop
  | popTo (depth : Int)
  | put (key : Key) (value : Value key)

/-- No value where the code panics: `Pop` and `Put` read the top of an empty stack, and `PopTo` pops an empty one when it
is given a negative depth. -/
def StackOp.apply (op : StackOp Key Value) (sm : StackedMap Key Value) : Option (StackedMap Key Value) :=
  match op with
  | .push => some sm.push
  | .pop => if sm.depth = 0 then none else some sm.pop
  | .popTo depth => if depth < 0 then none else some (sm.popTo depth.toNat)
  | .put key value => if sm.depth = 0 then none else some (sm.put key value)

/-- The surviving puts, map by map, the top first and each map's oldest put first. -/
abbrev PutStack (Key : Type) (Value : Key → Type) := List (List ((key : Key) × Value key))

namespace PutStack

/-- What an operation does to a stack of maps. -/
def apply (puts : PutStack Key Value) : StackOp Key Value → Option (PutStack Key Value)
  | .push => some ([] :: puts)
  | .pop => puts.head?.map fun _ => puts.tail
  | .popTo depth => if depth < 0 then none else some (puts.drop (puts.length - depth.toNat))
  | .put key value => puts.head?.map fun top => (top ++ [⟨key, value⟩]) :: puts.tail

/-- The puts in the order they were made. -/
def inOrder (puts : PutStack Key Value) : List ((key : Key) × Value key) := puts.reverse.flatten

/-- The latest put of the key, or what the source says. -/
def get (puts : PutStack Key Value) (src : MapGetter Key Value) (key : Key) : Value key × Bool :=
  ((replay puts.inOrder key).map fun value => (value, true)).getD (src key)

end PutStack

namespace StackedMap

variable {sm next : StackedMap Key Value}

def puts (sm : StackedMap Key Value) : PutStack Key Value := sm.mapStack.map Level.journal

/-- The levels hold what their journals say. -/
def Recorded (sm : StackedMap Key Value) : Prop := ∀ level ∈ sm.mapStack, level.Recorded

omit [DecidableEq Key] in
theorem journal_eq_inOrder : sm.journal = sm.puts.inOrder := by
  unfold journal PutStack.inOrder puts
  rw [flatMap_def, map_reverse]

theorem Recorded.get_eq (recorded : sm.Recorded) (key : Key) : sm.get key = sm.puts.get sm.src key := by
  rw [StackedMap.get_eq, lookup_eq_replay recorded]
  unfold PutStack.get
  rw [← journal_eq_inOrder]
  rfl

omit [DecidableEq Key] in
theorem depth_popTo (depth : Nat) : (sm.popTo depth).depth = min depth sm.depth := by
  unfold StackedMap.depth
  rw [popTo_mapStack, length_drop]
  omega

theorem apply_puts (op : StackOp Key Value) (sm : StackedMap Key Value) : (op.apply sm).map puts = sm.puts.apply op := by
  cases op with
  | push => rfl
  | pop => cases levels : sm.mapStack <;> simp [StackOp.apply, PutStack.apply, puts, depth, pop, levels]
  | popTo depth =>
    simp only [StackOp.apply, PutStack.apply]
    split
    · rfl
    · simp [puts]
  | put key value =>
    cases levels : sm.mapStack with
    | nil => simp [StackOp.apply, PutStack.apply, puts, depth, levels]
    | cons top below =>
      simp [StackOp.apply, PutStack.apply, puts, depth, levels, put_mapStack levels, Level.record]

theorem Recorded.apply (recorded : sm.Recorded) {op : StackOp Key Value} (applied : op.apply sm = some next) :
    next.Recorded ∧ next.src = sm.src := by
  cases op with
  | push =>
    cases applied
    exact ⟨forall_mem_cons.mpr ⟨newLevel_recorded, recorded⟩, rfl⟩
  | pop =>
    obtain ⟨-, same⟩ := ite_none_left_eq_some.mp applied
    cases same
    exact ⟨fun level listed => recorded level (mem_of_mem_tail listed), rfl⟩
  | popTo depth =>
    obtain ⟨-, same⟩ := ite_none_left_eq_some.mp applied
    cases same
    refine ⟨fun level listed => recorded level ?_, popTo_src ..⟩
    rw [popTo_mapStack] at listed
    exact mem_of_mem_drop listed
  | put key value =>
    obtain ⟨nonempty, same⟩ := ite_none_left_eq_some.mp applied
    cases same
    refine ⟨?_, put_src ..⟩
    cases levels : sm.mapStack with
    | nil => exact absurd (by simp [depth, levels]) nonempty
    | cons top below =>
      unfold Recorded at recorded ⊢
      rw [levels, forall_mem_cons] at recorded
      rw [put_mapStack levels, forall_mem_cons]
      exact ⟨recorded.1.record key value, recorded.2⟩

/-- A run of operations; a panic ends it. -/
def run (ops : List (StackOp Key Value)) (sm : StackedMap Key Value) : Option (StackedMap Key Value) :=
  ops.foldlM (fun sm op => op.apply sm) sm

theorem run_puts (ops : List (StackOp Key Value)) (sm : StackedMap Key Value) :
    (run ops sm).map puts = ops.foldlM PutStack.apply sm.puts := by
  induction ops generalizing sm with
  | nil => rfl
  | cons op rest ih =>
    unfold run
    rw [foldlM_cons, foldlM_cons, ← apply_puts]
    cases op.apply sm with
    | none => rfl
    | some next => exact ih next

theorem Recorded.run {ops} (recorded : sm.Recorded) (ran : run ops sm = some next) :
    next.Recorded ∧ next.src = sm.src := by
  induction ops generalizing sm with
  | nil =>
    cases ran
    exact ⟨recorded, rfl⟩
  | cons op rest ih =>
    obtain ⟨mid, applied, later⟩ := bind_eq_some_iff.mp (foldlM_cons.symm.trans ran)
    obtain ⟨kept, source⟩ := recorded.apply applied
    obtain ⟨known, same⟩ := ih kept later
    exact ⟨known, same.trans source⟩

/-- A map under any run of operations panics where the stack of maps has nothing to pop or to put into, and otherwise has
its depth, visits its puts in their order and answers with the latest one of a key. `PopTo` never pushes: it leaves the
smaller of the two depths. -/
theorem stackedMap_refines_stack (src : MapGetter Key Value) (ops : List (StackOp Key Value)) :
    (run ops (new src)).map (fun sm => (sm.depth, sm.journal, sm.get)) =
      (ops.foldlM PutStack.apply [[]]).map (fun puts => (puts.length, puts.inOrder, puts.get src)) ∧
    ∀ (sm : StackedMap Key Value) (depth : Nat),
      ((StackOp.popTo depth).apply sm).map StackedMap.depth = some (min depth sm.depth) := by
  have fresh : (new src).Recorded := forall_mem_singleton.mpr newLevel_recorded
  constructor
  · rw [show ([[]] : PutStack Key Value) = (new src).puts from rfl, ← run_puts]
    cases ran : run ops (new src) with
    | none => rfl
    | some sm =>
      obtain ⟨recorded, source⟩ := fresh.run ran
      have got : sm.get = sm.puts.get src := funext fun key => (recorded.get_eq key).trans (by rw [source]; rfl)
      simp [got, journal_eq_inOrder, StackedMap.depth, puts]
  · intro sm depth
    simp [StackOp.apply, depth_popTo]

/-- `PopTo` of a depth above the stack's own leaves the stack as it is. -/
theorem popTo_above_depth : ∃ sm : StackedMap Nat fun _ => Nat, run [.popTo 5] (new fun _ => (0, false)) = some sm ∧ sm.depth = 1 :=
  ⟨_, rfl, rfl⟩

end StackedMap
end MeterPov.Accounts
