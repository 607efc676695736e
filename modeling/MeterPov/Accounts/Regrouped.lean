import MeterPov.Accounts.StateDB

/-! Checkpoints do not change what a state holds.

Two states with the same entries, in other levels, answer alike. Their revisions differ by a constant, and code outside the
package sees revisions of its own only. -/

set_option autoImplicit false

namespace MeterPov.Accounts

open Lib Auction Program List StackedMap StateDB

/-! ## Levels -/

section

variable {Key : Type} {Value : Key → Type} {above base base' : List (Level Key Value)}

/-- The entries of levels, oldest first. -/
def entries (levels : List (Level Key Value)) : List ((key : Key) × Value key) := levels.reverse.flatMap fun level => level.journal

theorem entries_cons (top : Level Key Value) (below : List (Level Key Value)) : entries (top :: below) = entries below ++ top.journal := by
  simp [entries]

theorem entries_append (above below : List (Level Key Value)) : entries (above ++ below) = entries below ++ entries above := by
  simp [entries]

theorem lookup_append (above below : List (Level Key Value)) (key : Key) :
    lookup (above ++ below) key = (lookup above key).or (lookup below key) := by
  induction above with
  | nil => rfl
  | cons top rest ih => simp only [cons_append, lookup, ih, Option.or_assoc]

structure SameEntries (base base' : List (Level Key Value)) : Prop where
  held : base ≠ []
  held' : base' ≠ []
  lookup : ∀ key, lookup base key = lookup base' key
  entries : entries base = entries base'

theorem SameEntries.under (same : SameEntries base base') (above : List (Level Key Value)) :
    SameEntries (above ++ base) (above ++ base') where
  held := by simp [same.held]
  held' := by simp [same.held']
  lookup key := by rw [lookup_append, lookup_append, same.lookup]
  entries := by rw [entries_append, entries_append, same.entries]

theorem SameEntries.push (same : SameEntries base base') : SameEntries base (newLevel :: base') where
  held := same.held
  held' := cons_ne_nil _ _
  lookup key := same.lookup key
  entries := by
    rw [entries_cons, same.entries]
    exact (append_nil _).symm

theorem SameEntries.refl (held : base ≠ []) : SameEntries base base := ⟨held, held, fun _ => rfl, rfl⟩

variable [DecidableEq Key]

theorem SameEntries.record {top top' below below'} (same : SameEntries (top :: below) (top' :: below')) (key : Key) (value : Value key) :
    SameEntries (top.record key value :: below) (top'.record key value :: below') where
  held := cons_ne_nil _ _
  held' := cons_ne_nil _ _
  lookup other := by
    have known := same.lookup other
    unfold Accounts.lookup at known ⊢
    by_cases here : other = key
    · subst here
      simp
    · rw [Level.record_kvs_of_ne _ _ here, Level.record_kvs_of_ne _ _ here]
      exact known
  entries := by
    have known := same.entries
    rw [entries_cons, entries_cons] at known ⊢
    simp only [Level.record, ← append_assoc, known]

end

/-! ## States -/

/-- The levels above the given depths are the same on both sides, the entries below them are. -/
structure State.Regrouped (depth depth' : Nat) (state other : State) : Prop where
  source : state.sm.src = other.sm.src
  seCache : state.seCache = other.seCache
  err : state.err = other.err
  levels : ∃ above base base', state.sm.mapStack = above ++ base ∧ other.sm.mapStack = above ++ base' ∧
    base.length = depth ∧ base'.length = depth' ∧ SameEntries base base'

namespace State

variable {depth depth' : Nat} {state other : State}

theorem Regrouped.get_eq (known : Regrouped depth depth' state other) (key : StateKey) : state.get key = other.get key := by
  obtain ⟨above, base, base', levels, levels', -, -, same⟩ := known.levels
  unfold State.get
  rw [StackedMap.get_eq, StackedMap.get_eq, levels, levels', lookup_append, lookup_append, same.lookup, known.source]

theorem Regrouped.of_sameEntries (source : state.sm.src = other.sm.src) (seCache : state.seCache = other.seCache)
    (err : state.err = other.err) (same : SameEntries state.sm.mapStack other.sm.mapStack) :
    Regrouped state.sm.depth other.sm.depth state other :=
  ⟨source, seCache, err, [], _, _, rfl, rfl, rfl, rfl, same⟩

theorem Regrouped.sameEntries (known : Regrouped depth depth' state other) : SameEntries state.sm.mapStack other.sm.mapStack := by
  obtain ⟨above, base, base', levels, levels', -, -, same⟩ := known.levels
  rw [levels, levels']
  exact same.under above

theorem put_regrouped (key : StateKey) (value : key.Value) : Simulates (Regrouped depth depth') (put key value) (put key value) := by
  intro state other known
  obtain ⟨above, base, base', levels, levels', length, length', same⟩ := known.levels
  have held := known.sameEntries
  rw [put_eq, put_eq, if_neg (by simpa [StackedMap.depth] using held.held), if_neg (by simpa [StackedMap.depth] using held.held')]
  refine ⟨rfl, ?_, known.seCache, known.err, ?_⟩
  · simpa using known.source
  cases above with
  | cons top rest =>
    refine ⟨top.record key value :: rest, base, base', ?_, ?_, length, length', same⟩
    · exact put_mapStack levels key value
    · exact put_mapStack levels' key value
  | nil =>
    obtain ⟨top, below, rfl⟩ := exists_cons_of_ne_nil same.held
    obtain ⟨top', below', rfl⟩ := exists_cons_of_ne_nil same.held'
    refine ⟨[], top.record key value :: below, top'.record key value :: below', ?_, ?_, ?_, ?_, same.record key value⟩
    · exact put_mapStack levels key value
    · exact put_mapStack levels' key value
    · simpa using length
    · simpa using length'

theorem setError_regrouped : Simulates (Regrouped depth depth') setError setError :=
  .write fun _ _ known => { known with err := rfl }

theorem setAuctionCB_regrouped (cb : Auction.AuctionCB) : Simulates (Regrouped depth depth') (setAuctionCB cb) (setAuctionCB cb) :=
  .write fun _ _ known => { known with seCache := by rw [known.seCache] }

theorem setSummaryList_regrouped (summaries : List Auction.AuctionSummary) :
    Simulates (Regrouped depth depth') (setSummaryList summaries) (setSummaryList summaries) :=
  .write fun _ _ known => { known with seCache := by rw [known.seCache] }

theorem getAuctionCB_regrouped : Simulates (Regrouped depth depth') getAuctionCB getAuctionCB := by
  apply Simulates.readThen
  intro state other known
  rw [known.seCache, known.get_eq]
  split
  · exact .ret
  · split
    · exact .seq (setAuctionCB_regrouped _) fun _ => .ret
    · exact .seq setError_regrouped fun _ => .ret

theorem getSummaryList_regrouped : Simulates (Regrouped depth depth') getSummaryList getSummaryList := by
  apply Simulates.readThen
  intro state other known
  rw [known.seCache, known.get_eq]
  split
  · exact .ret
  · split
    · exact .seq (setSummaryList_regrouped _) fun _ => .ret
    · exact .seq setError_regrouped fun _ => .ret

/-- Revisions that stand for the same level above the given depths. -/
def SameRevision (depth depth' : Nat) (revision revision' : Nat) : Prop := ∃ height, revision = height + depth ∧ revision' = height + depth'

theorem newCheckpoint_regrouped : Couples (SameRevision depth depth') (Regrouped depth depth') newCheckpoint newCheckpoint := by
  intro state other known
  obtain ⟨above, base, base', levels, levels', length, length', same⟩ := known.levels
  refine ⟨⟨above.length, ?_, ?_⟩, known.source, known.seCache, known.err, newLevel :: above, base, base', ?_, ?_, length, length', same⟩
  · simp [StackedMap.depth, levels, length]
  · simp [StackedMap.depth, levels', length']
  · simp [levels]
  · simp [levels']

theorem revertTo_regrouped {revision revision'} (alike : SameRevision depth depth' revision revision') :
    Simulates (Regrouped depth depth') (revertTo revision) (revertTo revision') := by
  apply Simulates.write
  intro state other known
  obtain ⟨above, base, base', levels, levels', length, length', same⟩ := known.levels
  obtain ⟨height, rfl, rfl⟩ := alike
  refine ⟨by simpa using known.source, known.seCache, known.err, above.drop (above.length - height), base, base', ?_, ?_, length, length', same⟩
  · simp only [popTo_mapStack, levels, length_append, length]
    rw [Nat.add_sub_add_right, drop_append_of_le_length (Nat.sub_le _ _)]
  · simp only [popTo_mapStack, levels', length_append, length']
    rw [Nat.add_sub_add_right, drop_append_of_le_length (Nat.sub_le _ _)]

theorem encodeCached_regrouped (key : StorageKey) (cached : Option Raw) :
    Simulates (Regrouped depth depth') (encodeCached key cached) (encodeCached key cached) := by
  cases cached with
  | some raw => exact put_regrouped _ _
  | none => exact .ret

theorem commitScriptEngineChanges_regrouped : Simulates (Regrouped depth depth') commitScriptEngineChanges commitScriptEngineChanges := by
  apply Simulates.readThen
  intro state other known
  rw [known.seCache]
  refine .seq (encodeCached_regrouped _ _) fun _ => .readThen fun state other known => ?_
  rw [known.seCache]
  exact encodeCached_regrouped _ _

end State

theorem StateMethod.handle_regrouped {depth depth'} (method : StateMethod) :
    Simulates (State.Regrouped depth depth') method.handle method.handle := by
  cases method with
  | get key =>
    apply Simulates.readThen
    intro state other known
    rw [known.get_eq]
    exact .ret
  | put key value => exact State.put_regrouped key value
  | getAuctionCB => exact State.getAuctionCB_regrouped
  | setAuctionCB cb => exact State.setAuctionCB_regrouped cb
  | getSummaryList => exact State.getSummaryList_regrouped
  | setSummaryList summaries => exact State.setSummaryList_regrouped summaries
  | setError => exact State.setError_regrouped

/-! ## The repository of a clause -/

/-- A repository holds revisions of the state, counted from the given depth. -/
def shiftValue (depth : Nat) : (key : RepoKey) → key.Value → key.Value
  | .stateRev, height => height + depth
  | .suicideFlag _, value => value
  | .refund, value => value
  | .preimage _, value => value
  | .event, value => value
  | .transfer, value => value

def shiftLevel (depth : Nat) (level : Level RepoKey RepoKey.Value) : Level RepoKey RepoKey.Value where
  kvs key := (level.kvs key).map (shiftValue depth key)
  journal := level.journal.map fun entry => ⟨entry.1, shiftValue depth entry.1 entry.2⟩

theorem shiftLevel_record (depth : Nat) (level : Level RepoKey RepoKey.Value) (key : RepoKey) (value : key.Value) :
    shiftLevel depth (level.record key value) = (shiftLevel depth level).record key (shiftValue depth key value) := by
  unfold shiftLevel Level.record
  congr 1
  · funext other
    by_cases here : other = key
    · subst here
      simp
    · simp [Function.update_of_ne here]
  · simp

theorem lookup_shiftLevel (depth : Nat) (stack : List (Level RepoKey RepoKey.Value)) (key : RepoKey) :
    lookup (stack.map (shiftLevel depth)) key = (lookup stack key).map (shiftValue depth key) := by
  induction stack with
  | nil => rfl
  | cons top below ih =>
    simp only [map_cons, lookup, ih, shiftLevel]
    cases top.kvs key <;> simp

structure StateDB.Regrouped (depth depth' : Nat) (db other : StateDB) : Prop where
  state : db.state.Regrouped depth depth' other.state
  getter : db.repo.src = repoGetter
  getter' : other.repo.src = repoGetter
  repo : ∃ stack : List (Level RepoKey RepoKey.Value), db.repo.mapStack = stack.map (shiftLevel depth) ∧ other.repo.mapStack = stack.map (shiftLevel depth')

namespace StateDB

variable {depth depth' : Nat} {db other : StateDB}

/-- Keys other than the revision of the state are read alike. -/
theorem Regrouped.get_eq (known : Regrouped depth depth' db other) {key} (fixed : ∀ depth value, shiftValue depth key value = value) : db.repo.get key = other.repo.get key := by
  obtain ⟨stack, levels, levels'⟩ := known.repo
  have unmoved (depth : Nat) : shiftValue depth key = fun value => value := funext (fixed depth)
  rw [StackedMap.get_eq, StackedMap.get_eq, levels, levels', lookup_shiftLevel, lookup_shiftLevel, known.getter, known.getter', unmoved, unmoved]

theorem Regrouped.filterMap_journal {α : Type} (known : Regrouped depth depth' db other) {pick : ((key : RepoKey) × key.Value) → Option α}
    (fixed : ∀ depth entry, pick ⟨entry.1, shiftValue depth entry.1 entry.2⟩ = pick entry) :
    db.repo.journal.filterMap pick = other.repo.journal.filterMap pick := by
  obtain ⟨stack, levels, levels'⟩ := known.repo
  have plain (depth : Nat) : ((stack.map (shiftLevel depth)).reverse.flatMap fun level => level.journal).filterMap pick =
      (stack.reverse.flatMap fun level => level.journal).filterMap pick := by
    rw [← map_reverse, flatMap_map, filterMap_flatMap, filterMap_flatMap]
    congr 1
    funext level
    simp only [shiftLevel, filterMap_map]
    congr 1
    funext entry
    exact fixed depth entry
  unfold StackedMap.journal
  rw [levels, levels', plain, plain]

theorem Regrouped.events_eq (known : Regrouped depth depth' db other) : db.events = other.events := by
  apply known.filterMap_journal
  rintro depth ⟨key, value⟩
  cases key <;> rfl

theorem Regrouped.transfers_eq (known : Regrouped depth depth' db other) : db.transfers = other.transfers := by
  apply known.filterMap_journal
  rintro depth ⟨key, value⟩
  cases key <;> rfl

theorem onState_regrouped {α α' same} {action : Action State α} {action' : Action State α'}
    (alike : Couples same (State.Regrouped depth depth') action action') :
    Couples same (Regrouped depth depth') (onState action) (onState action') := by
  intro db other known
  have ran := alike db.state other.state known.state
  unfold onState Action.focus
  cases left : action db.state <;> cases right : action' other.state <;> rw [left, right] at ran
  · exact ⟨ran.1, ran.2, known.getter, known.getter', known.repo⟩
  · exact ran.elim
  · exact ran.elim
  · exact ⟨ran.1, ran.2, known.getter, known.getter', known.repo⟩

theorem putRepo_regrouped (key : RepoKey) (value : key.Value) :
    Simulates (Regrouped depth depth') (putRepo key (shiftValue depth key value)) (putRepo key (shiftValue depth' key value)) := by
  apply Simulates.readThen
  intro db other known
  obtain ⟨stack, levels, levels'⟩ := known.repo
  have depths : db.repo.depth = other.repo.depth := by simp [StackedMap.depth, levels, levels']
  rw [depths]
  refine .branch (fun _ _ _ known => ⟨rfl, known⟩) fun held => .put ?_
  cases stack with
  | nil => simp [StackedMap.depth, levels'] at held
  | cons top below =>
    refine ⟨known.state, by simpa using known.getter, by simpa using known.getter', top.record key value :: below, ?_, ?_⟩
    · rw [map_cons, shiftLevel_record]
      exact put_mapStack levels key _
    · rw [map_cons, shiftLevel_record]
      exact put_mapStack levels' key _

theorem putRepo_fixed {key} (fixed : ∀ depth value, shiftValue depth key value = value) (value : key.Value) :
    Simulates (Regrouped depth depth') (putRepo key value) (putRepo key value) := by
  have moved := @putRepo_regrouped depth depth' key value
  rwa [fixed, fixed] at moved

theorem suicide_regrouped (addr : Address) : Simulates (Regrouped depth depth') (suicide addr) (suicide addr) := by
  apply Simulates.readThen
  intro db other known
  have alike : db.state.exist addr = other.state.exist addr := by
    unfold State.exist
    rw [known.state.get_eq]
  rw [alike]
  refine .branch (fun _ => ?_) fun _ => .ret
  refine .seq (couples_eq_iff.mp (onState_regrouped (couples_eq_iff.mpr (.seq (State.put_regrouped _ _) fun _ => State.put_regrouped _ _)))) fun _ => ?_
  exact .seq (putRepo_fixed (fun _ _ => rfl) _) fun _ => .ret

theorem push_regrouped : Simulates (Regrouped depth depth')
      (do let db ← (MonadState.get : Action StateDB StateDB); set { db with repo := db.repo.push }; return db.repo.push.depth - 1)
      (do let db ← (MonadState.get : Action StateDB StateDB); set { db with repo := db.repo.push }; return db.repo.push.depth - 1) := by
  apply Simulates.readThen
  intro db other known
  obtain ⟨stack, levels, levels'⟩ := known.repo
  have depths : db.repo.push.depth = other.repo.push.depth := by simp [StackedMap.depth, levels, levels']
  rw [depths]
  refine .seq (.put ⟨known.state, known.getter, known.getter', newLevel :: stack, ?_, ?_⟩) fun _ => .ret
  · rw [push_mapStack, levels]
    rfl
  · rw [push_mapStack, levels']
    rfl

theorem snapshot_regrouped : Simulates (Regrouped depth depth') snapshot snapshot := by
  rw [← couples_eq_iff]
  refine .seq (onState_regrouped State.newCheckpoint_regrouped) ?_
  rintro _ _ ⟨height, rfl, rfl⟩
  rw [couples_eq_iff]
  exact .seq (putRepo_regrouped .stateRev height) fun _ => push_regrouped

theorem revertToSnapshot_regrouped (rev : Nat) : Simulates (Regrouped depth depth') (revertToSnapshot rev) (revertToSnapshot rev) := by
  refine .seq (.write fun db other known => ?_) fun _ => .readThen fun db other known => ?_
  · obtain ⟨stack, levels, levels'⟩ := known.repo
    refine ⟨known.state, by simpa using known.getter, by simpa using known.getter', stack.drop (stack.length - rev), ?_, ?_⟩
    · simp [levels]
    · simp [levels']
  · obtain ⟨stack, levels, levels'⟩ := known.repo
    rw [get_eq, get_eq, levels, levels', lookup_shiftLevel, lookup_shiftLevel, known.getter, known.getter']
    cases lookup stack .stateRev with
    | none => exact .fault
    | some height =>
      refine couples_eq_iff.mp (onState_regrouped (couples_eq_iff.mpr (State.revertTo_regrouped ?_)))
      exact ⟨height, rfl, rfl⟩

end StateDB

variable {depth depth' : Nat}

theorem DBMethod.handle_regrouped (method : DBMethod) : Simulates (StateDB.Regrouped depth depth') method.handle method.handle := by
  cases method with
  | state method => exact couples_eq_iff.mp (onState_regrouped (couples_eq_iff.mpr method.handle_regrouped))
  | getRefund =>
    apply Simulates.readThen
    intro db other known
    unfold StateDB.getRefund
    rw [known.get_eq fun _ _ => rfl]
    exact .ret
  | addRefund gas =>
    apply Simulates.readThen
    intro db other known
    unfold StateDB.getRefund
    rw [known.get_eq fun _ _ => rfl]
    exact putRepo_fixed (fun _ _ => rfl) _
  | hasSuicided addr =>
    apply Simulates.readThen
    intro db other known
    unfold StateDB.hasSuicided
    rw [known.get_eq fun _ _ => rfl]
    exact .ret
  | suicide addr => exact suicide_regrouped addr
  | addPreimage hash preimage => exact putRepo_fixed (fun _ _ => rfl) _
  | addLog log => exact putRepo_fixed (fun _ _ => rfl) _
  | addTransfer transfer => exact putRepo_fixed (fun _ _ => rfl) _
  | snapshot => exact snapshot_regrouped
  | revertToSnapshot rev => exact revertToSnapshot_regrouped rev

theorem State.run_regrouped {α} (program : StateProgram α) :
    Simulates (Regrouped depth depth') (program.run StateMethod.handle) (program.run StateMethod.handle) :=
  program.within_any.simulates fun method _ => method.handle_regrouped

end MeterPov.Accounts
