import MeterPov.Pruning.Pruner

/-! Which states stay readable while the loop prunes.

The filter holds the tries of the genesis, the snapshot and the best block. A node of a pruned trie that none of them has is
deleted, whoever else has it: what is kept is what no pruned trie shares with a retained one behind their back. -/

set_option autoImplicit false

namespace MeterPov.Pruning

open Lib List Function

variable {Blob Key Filter : Type} [DecidableEq Key]

/-- No retained state comes back to a node of a pruned one that the tries in the filter lack. -/
def Config.NoReturn (config : Config Blob Key Filter) (blocks : List (Block Blob Key)) (round : Round Blob Key) : Prop :=
  ∀ pruned ∈ blocks, round.pruneHead < pruned.number → pruned.number < round.snapNum →
    ∀ block ∈ blocks, round.snapNum ≤ block.number → ∀ key ∈ block.stateRoot.stateKeys config.trie,
      key ∈ pruned.stateRoot.stateVisits config.trie → ∃ root ∈ config.roots round, key ∈ root.stateVisits config.trie

def Phase.round? : Phase Blob Key Filter → Option (Round Blob Key)
  | .sleeping | .halted => none
  | .marking round .. | .scanning round _ | .pruning round .. => some round

/-- The condition on a step: a new retained block is built on a retained one, and while a round is on no node returns. -/
def State.Undisturbed (config : Config Blob Key Filter) (state : State Blob Key Filter) : Label Blob Key → Prop
  | .commit parent block _ => state.snapshotNum ≤ block.number → state.snapshotNum ≤ parent.number
  | .add .. => True
  | .next => ∀ round, state.phase.round? = some round → config.NoReturn state.blocks round

/-- Every node of every retained state is in the database. -/
def State.Readable (config : Config Blob Key Filter) (state : State Blob Key Filter) : Prop :=
  ∀ block ∈ state.blocks, state.snapshotNum ≤ block.number → ∀ key ∈ block.stateRoot.stateKeys config.trie, state.nodes key = true

structure State.Intact (config : Config Blob Key Filter) (state : State Blob Key Filter) : Prop where
  indexed : ∀ number block, state.index number = some block → block ∈ state.blocks ∧ block.number = number
  best : state.best ∈ state.blocks
  genesis : ∀ key ∈ config.geneRoot.stateKeys config.trie, state.nodes key = true
  readable : state.Readable config

section

variable (config : Config Blob Key Filter)

/-- The blocks of a round are retained ones. -/
structure Round.Known (state : State Blob Key Filter) (round : Round Blob Key) : Prop where
  snap : round.snap ∈ state.blocks
  best : round.best ∈ state.blocks
  number : round.snap.number = round.snapNum
  above : round.snapNum ≤ round.best.number

structure Round.Prunes (state : State Blob Key Filter) (round : Round Blob Key) (block : Block Blob Key) : Prop where
  known : block ∈ state.blocks
  above : round.pruneHead < block.number
  below : block.number < round.snapNum

/-- During the pruning of a round: its tries are in the filter, and what is to be deleted is in a pruned trie and in none of them. -/
structure Job.Sound (state : State Blob Key Filter) (round : Round Blob Key) (job : Job Key Filter) : Prop where
  snapshot : state.snapshotNum = round.snapNum
  height : round.pruneHead < job.height
  marked : ∀ root ∈ config.roots round, ∀ key ∈ root.stateVisits config.trie, config.sieve.contain job.pruner.bloom key = true
  doomed : ∀ key, .node key ∈ job.batch →
    (∀ root ∈ config.roots round, key ∉ root.stateVisits config.trie) ∧
      ∃ block, round.Prunes state block ∧ key ∈ block.stateRoot.stateVisits config.trie

/-- While the filter is filled: each trie is in it, before the walk, or still to come. -/
structure Round.Marking (state : State Blob Key Filter) (round : Round Blob Key) (bloom : Filter) (walk : Walk Blob Key)
    (rest : List (Node Blob)) : Prop where
  known : round.Known state
  snapshot : state.snapshotNum ≤ round.snapNum
  present : ∀ key, walk.Needs config.trie key → state.nodes key = true
  coming : ∀ root ∈ rest, root ∈ config.roots round
  covered : ∀ root ∈ config.roots round, root ∈ rest ∨
    ∀ key ∈ root.stateVisits config.trie, config.sieve.contain bloom key = true ∨ walk.Visits config.trie key

def State.PhaseSound (state : State Blob Key Filter) : Phase Blob Key Filter → Prop
  | .sleeping | .halted => True
  | .marking round pruner walk rest => round.Marking config state pruner.bloom walk rest
  | .scanning round job => job.Sound config state round
  | .pruning round job walk =>
    job.Sound config state round ∧
      ∃ block, round.Prunes state block ∧ ∀ key, walk.Visits config.trie key → key ∈ block.stateRoot.stateVisits config.trie

variable {config} {state : State Blob Key Filter} {round : Round Blob Key}

theorem State.PhaseSound.mono {phase} {after : State Blob Key Filter} (sound : state.PhaseSound config phase)
    (blocks : ∀ block ∈ state.blocks, block ∈ after.blocks) (nodes : ∀ key, state.nodes key = true → after.nodes key = true)
    (snapshot : after.snapshotNum = state.snapshotNum) : after.PhaseSound config phase := by
  have prunes (round : Round Blob Key) (block : Block Blob Key) (prunes : round.Prunes state block) : round.Prunes after block :=
    ⟨blocks _ prunes.known, prunes.above, prunes.below⟩
  have job_sound (round : Round Blob Key) (job : Job Key Filter) (sound : job.Sound config state round) : job.Sound config after round :=
    { snapshot := snapshot.trans sound.snapshot
      height := sound.height
      marked := sound.marked
      doomed := fun key member => (sound.doomed key member).imp_right fun ⟨block, pruned, visited⟩ => ⟨block, prunes _ _ pruned, visited⟩ }
  cases phase with
  | sleeping | halted => trivial
  | marking round pruner walk rest =>
    exact { known := ⟨blocks _ sound.known.snap, blocks _ sound.known.best, sound.known.number, sound.known.above⟩
            snapshot := snapshot ▸ sound.snapshot
            present := fun key needed => nodes key (sound.present key needed)
            coming := sound.coming
            covered := sound.covered }
  | scanning round job => exact job_sound _ _ sound
  | pruning round job walk =>
    obtain ⟨sound, block, pruned, visits⟩ := sound
    exact ⟨job_sound _ _ sound, block, prunes _ _ pruned, visits⟩

omit [DecidableEq Key] in
theorem State.Intact.roots_present (intact : state.Intact config) (known : round.Known state) (snapshot : state.snapshotNum ≤ round.snapNum)
    {root} (member : root ∈ config.roots round) {key} (needed : key ∈ root.stateKeys config.trie) :
    state.nodes key = true := by
  simp only [Config.roots, mem_append, mem_cons, not_mem_nil, or_false] at member
  rcases member with (rfl | rfl) | above
  · exact intact.genesis key needed
  · apply intact.readable round.snap known.snap _ key needed
    rw [known.number]
    exact snapshot
  · split at above
    · obtain rfl := mem_singleton.mp above
      exact intact.readable round.best known.best (snapshot.trans known.above) key needed
    · simp at above

variable {job : Job Key Filter} {walk : Walk Blob Key}

/-- What a batch of the round deletes is in no retained state. -/
theorem State.Intact.write (intact : state.Intact config) (sound : job.Sound config state round)
    (apart : config.NoReturn state.blocks round) : (state.write job.batch).Intact config := by
  have kept (key : Key) (present : state.nodes key = true) (spared : .node key ∉ job.batch) : (state.write job.batch).nodes key = true := by
    simp [State.write, present, spared]
  constructor
  · intro number block found
    simp only [State.write] at found
    split at found
    · simp at found
    · exact intact.indexed number block found
  · exact intact.best
  · intro key needed
    apply kept key (intact.genesis key needed)
    intro member
    exact (sound.doomed key member).1 _ (by simp [Config.roots]) (Node.stateKeys_visited needed)
  · intro block member retained key needed
    apply kept key (intact.readable block member retained key needed)
    intro deleted
    obtain ⟨outside, pruned, prunes, visited⟩ := sound.doomed key deleted
    obtain ⟨root, among, inside⟩ := apart pruned prunes.known prunes.above prunes.below block member (sound.snapshot ▸ retained) key needed visited
    exact outside root among inside

omit [DecidableEq Key] in
theorem Config.node_not_mem_pruneBlock {block key} : .node key ∉ config.pruneBlock block := by
  unfold pruneBlock
  split
  · simp
  · split
    · simp
    · split <;> simp

/-- The jobs of a round differ only in what the entries of blocks add to the batch. -/
theorem Job.Sound.advance {after : Job Key Filter} (sound : job.Sound config state round)
    (height : job.height ≤ after.height) (pruner : after.pruner = job.pruner)
    (batch : ∀ key, .node key ∈ after.batch → .node key ∈ job.batch) : after.Sound config state round :=
  { snapshot := sound.snapshot
    height := sound.height.trans_le height
    marked := pruner ▸ sound.marked
    doomed := fun key member => sound.doomed key (batch key member) }

structure State.Sound (config : Config Blob Key Filter) (state : State Blob Key Filter) : Prop where
  intact : state.Intact config
  phase : state.PhaseSound config state.phase

theorem State.Intact.moveTo (intact : state.Intact config) (phase : Phase Blob Key Filter) (sound : state.PhaseSound config phase) :
    ({ state with phase } : State Blob Key Filter).Sound config :=
  ⟨⟨intact.indexed, intact.best, intact.genesis, intact.readable⟩, sound.mono (fun _ member => member) (fun _ present => present) rfl⟩

theorem State.Intact.begin (intact : state.Intact config) : state.PhaseSound config (state.begin config) := by
  unfold State.begin
  dsimp only
  split
  · trivial
  · split
    · trivial
    · rename_i enough later
      split
      · trivial
      · split
        · trivial
        · rename_i snap found
          obtain ⟨member, number⟩ := intact.indexed _ snap found
          exact { known := ⟨member, intact.best, number, Nat.sub_le _ _⟩
                  snapshot := (Nat.lt_of_not_le later).le
                  present := fun key needed => by simp [Walk.Needs] at needed
                  coming := fun root among => among
                  covered := fun root among => .inl among }

theorem State.Intact.finishBlock (intact : state.Intact config) (sound : job.Sound config state round)
    (apart : config.NoReturn state.blocks round) : (state.finishBlock round job).Sound config := by
  unfold State.finishBlock
  split
  · have written := intact.write sound apart
    have emptied : ({ job with batch := [], height := job.height + 1 } : Job Key Filter).Sound config state round :=
      sound.advance (Nat.le_succ _) rfl (by simp)
    exact ⟨⟨written.indexed, written.best, written.genesis, written.readable⟩,
      { snapshot := emptied.snapshot, height := emptied.height, marked := emptied.marked, doomed := by simp }⟩
  · exact intact.moveTo (.scanning round { job with height := job.height + 1 }) (sound.advance (Nat.le_succ _) rfl fun _ member => member)

theorem State.Intact.scan (intact : state.Intact config) (sound : job.Sound config state round)
    (apart : config.NoReturn state.blocks round) : (state.scan config round job).Sound config := by
  unfold State.scan
  split
  · rename_i below
    split
    · exact intact.moveTo (.scanning round { job with height := job.height + 1 })
        (sound.advance (Nat.le_succ _) rfl fun _ member => member)
    · rename_i block found
      obtain ⟨member, number⟩ := intact.indexed _ block found
      -- the entries of the block are no nodes
      have nodes (key : Key) (deleted : .node key ∈ job.batch ++ config.pruneBlock block) : .node key ∈ job.batch := by
        rcases mem_append.mp deleted with old | own
        · exact old
        · exact absurd own Config.node_not_mem_pruneBlock
      dsimp only
      split
      · exact intact.moveTo (.scanning round _) (sound.advance (Nat.le_succ _) rfl nodes)
      · have queued : ({ job with batch := job.batch ++ config.pruneBlock block, lastRoot := config.trie.hash block.stateRoot } :
            Job Key Filter).Sound config state round := sound.advance (le_refl _) rfl nodes
        split
        · apply intact.moveTo (.pruning round _ _)
          have prunes : round.Prunes state block := ⟨member, number ▸ sound.height, number ▸ below⟩
          exact ⟨queued, block, prunes, fun key visited => Walk.visits_ofRoot.mp visited⟩
        · exact intact.finishBlock queued apart
  · split
    · exact intact.moveTo (.sleeping) trivial
    · have written := intact.write sound apart
      exact ⟨⟨written.indexed, written.best, written.genesis, written.readable⟩, trivial⟩

theorem State.Intact.mark (intact : state.Intact config) {pruner rest} (sound : round.Marking config state pruner.bloom walk rest)
    (at_phase : state.phase = .marking round pruner walk rest) : (state.next config).Sound config := by
  unfold State.next
  rw [at_phase]
  dsimp only
  split
  · rename_i ended
    have covered (root : Node Blob) (among : root ∈ config.roots round) : root ∈ rest ∨
        ∀ key ∈ root.stateVisits config.trie, config.sieve.contain pruner.bloom key = true := by
      refine (sound.covered root among).imp_right fun covered key visited => ?_
      exact (covered key visited).resolve_right (Walk.not_visits_of_done ended)
    cases rest with
    | nil =>
      -- the snapshot moves up, so fewer states are retained
      have fewer : ({ state with snapshotNum := round.snapNum } : State Blob Key Filter).Intact config :=
        ⟨intact.indexed, intact.best, intact.genesis, fun block member retained => intact.readable block member (sound.snapshot.trans retained)⟩
      apply fewer.moveTo (.scanning round ⟨pruner, [], round.pruneHead + 1, config.trie.zero⟩)
      exact { snapshot := rfl
              height := Nat.lt_succ_self _
              marked := fun root among => (covered root among).resolve_left (by simp)
              doomed := by simp }
    | cons root rest =>
      dsimp only
      split
      · apply intact.moveTo (.marking round _ _ rest)
        exact { known := sound.known
                snapshot := sound.snapshot
                present := fun key needed =>
                  intact.roots_present sound.known sound.snapshot (sound.coming root (by simp)) (Walk.needs_ofRoot needed)
                coming := fun other later => sound.coming other (by simp [later])
                covered := fun other among => by
                  rcases covered other among with later | marked
                  · rcases mem_cons.mp later with rfl | later
                    · exact .inr fun key visited => .inr (Walk.visits_ofRoot.mpr visited)
                    · exact .inl later
                  · exact .inr fun key visited => .inl (config.sieve.contain_mono _ _ _ (marked key visited)) }
      · exact intact.moveTo (.halted) trivial
  · obtain ⟨covers, fewer⟩ := @updateBloomNext_covers _ _ _ _ config.trie config.sieve walk pruner.bloom state.nodes sound.present
    apply intact.moveTo (.marking round _ _ rest)
    exact { known := sound.known
            snapshot := sound.snapshot
            present := fun key needed => sound.present key (fewer key needed)
            coming := sound.coming
            covered := fun root among => (sound.covered root among).imp_right fun covered key visited => covers key (covered key visited) }

theorem State.Intact.prune (intact : state.Intact config) (sound : state.PhaseSound config (.pruning round job walk))
    (apart : config.NoReturn state.blocks round) (at_phase : state.phase = .pruning round job walk) :
    (state.next config).Sound config := by
  obtain ⟨sound, block, prunes, inside⟩ := sound
  unfold State.next
  rw [at_phase]
  dsimp only
  split
  · exact intact.finishBlock sound apart
  · obtain ⟨grown, deleted, fewer⟩ := @pruneNext_spec _ _ _ _ config.trie config.sieve walk state.nodes job.batch job.pruner
    apply intact.moveTo (.pruning round _ _)
    refine ⟨?_, block, prunes, fun key visited => inside key (fewer key visited)⟩
    exact { snapshot := sound.snapshot
            height := sound.height
            marked := fun root among key visited => grown key (sound.marked root among key visited)
            doomed := fun key member => by
              rcases deleted key member with old | ⟨visited, missing⟩
              · exact sound.doomed key old
              · -- a key of the round's tries is in the filter
                refine ⟨fun root among inside => ?_, block, prunes, inside key visited⟩
                rw [sound.marked root among key inside] at missing
                contradiction }

theorem State.Sound.next (sound : state.Sound config) (undisturbed : state.Undisturbed config .next) : (state.next config).Sound config := by
  obtain ⟨intact, phase⟩ := sound
  have apart (round : Round Blob Key) (at_round : state.phase.round? = some round) : config.NoReturn state.blocks round := undisturbed round at_round
  cases at_phase : state.phase with
  | sleeping =>
    simp only [State.next, at_phase]
    exact intact.moveTo _ intact.begin
  | halted =>
    simp only [State.next, at_phase]
    exact ⟨intact, phase⟩
  | marking round pruner walk rest =>
    rw [at_phase] at phase
    exact intact.mark phase at_phase
  | scanning round job =>
    rw [at_phase] at phase apart
    simp only [State.next, at_phase]
    exact intact.scan phase (apart round rfl)
  | pruning round job walk =>
    rw [at_phase] at phase apart
    exact intact.prune phase (apart round rfl) at_phase

theorem State.Sound.step (sound : state.Sound config) {label} (allowed : state.Allows config label)
    (undisturbed : state.Undisturbed config label) : (state.step config label).Sound config := by
  cases label with
  | next => exact sound.next undisturbed
  | add block isTrunk =>
    refine ⟨⟨?_, ?_, sound.intact.genesis, sound.intact.readable⟩, sound.phase.mono (fun _ member => member) (fun _ present => present) rfl⟩
    · intro number found indexed
      simp only [State.step, update_apply] at indexed
      split at indexed
      · rename_i same
        obtain rfl := Option.some.inj indexed
        exact ⟨allowed, same.symm⟩
      · exact sound.intact.indexed number found indexed
    · change (if isTrunk then block else state.best) ∈ state.blocks
      split
      · exact allowed
      · exact sound.intact.best
  | commit parent block written =>
    obtain ⟨known, _, covered⟩ := allowed
    have grown (key : Key) (present : state.nodes key = true) : (state.step config (.commit parent block written)).nodes key = true := by
      simp [State.step, present]
    refine ⟨⟨?_, mem_cons_of_mem _ sound.intact.best, fun key needed => grown key (sound.intact.genesis key needed), ?_⟩,
      sound.phase.mono (fun _ member => mem_cons_of_mem _ member) grown rfl⟩
    · intro number found indexed
      exact (sound.intact.indexed number found indexed).imp_left fun member => mem_cons_of_mem _ member
    · intro other member retained key needed
      rcases mem_cons.mp member with rfl | member
      · rcases covered key needed with fresh | inherited
        · simp [State.step, fresh]
        · exact grown key (sound.intact.readable parent known (undisturbed retained) key inherited)
      · exact grown key (sound.intact.readable other member retained key needed)

end

/-- In every run whose steps are undisturbed, every node of every state at or above the snapshot is in the database. -/
theorem retained_states_readable (config : Config Blob Key Filter) {start state : State Blob Key Filter} {labels : List (Label Blob Key)}
    (intact : start.Intact config) (asleep : start.phase = .sleeping)
    (run : Trace (fun state label next => (state.Allows config label ∧ state.Undisturbed config label) ∧ state.step config label = next)
      start labels state) :
    state.Readable config := by
  have sound : state.Sound config := by
    apply run.invariant (fun state => state.Sound config)
    · exact ⟨intact, by rw [asleep]; trivial⟩
    · rintro state label next sound ⟨⟨allowed, undisturbed⟩, rfl⟩
      exact sound.step allowed undisturbed
  exact sound.intact.readable

section

/-- Keys as what they are the hash of. -/
inductive Digest where
  | zero
  | node (content : Node Nat)
  | leaf (path : List Nat)
  deriving DecidableEq

def balance (amount : Nat) : Node Nat := .short (List.replicate 64 0 ++ [16]) (.value amount)

def sampleConfig : Config Nat Digest (List Digest) where
  trie := ⟨.zero, .node, fun _ _ same => Digest.node.inj same, fun _ => 64, .leaf⟩
  sieve := ⟨[], fun filter key => key :: filter, fun filter key => filter.contains key, by simp, by simp +contextual⟩
  geneRoot := balance 0
  preserveBlocks := 2
  beforeFlattern := none
  pruneIndexHead := some 0

/-- The account has 1 in the first blocks, 2 up to the snapshot at 16273, and then what is given in the next block. -/
def amountAt (preserved number : Nat) : Nat :=
  if number = 0 then 0 else if number ≤ 2 then 1 else if number ≤ 16273 then 2 else if number = 16274 then preserved else 4

def sampleBlock (preserved number : Nat) : Block Nat Digest :=
  ⟨.leaf [number], number, List.replicate 1020 .zero, balance (amountAt preserved number)⟩

def sampleStart (preserved : Nat) : State Nat Digest (List Digest) where
  nodes
    | .node (.short _ (.value amount)) => amount < 5
    | _ => false
  blocks := (List.range 16276).map (sampleBlock preserved)
  index number := if number < 16276 then some (sampleBlock preserved number) else none
  best := sampleBlock preserved 16275
  snapshotNum := 0
  pruneHead := 0
  phase := .sleeping

variable {preserved : Nat}

theorem mem_sampleStart_blocks {block} :
    block ∈ (sampleStart preserved).blocks ↔ ∃ number < 16276, sampleBlock preserved number = block := by
  simp only [sampleStart, mem_map, mem_range]

theorem amountAt_lt {number} (known : preserved < 5) : amountAt preserved number < 5 := by
  unfold amountAt
  split_ifs <;> omega

theorem sampleStart_intact (known : preserved < 5) : (sampleStart preserved).Intact sampleConfig where
  indexed number block found := by
    simp only [sampleStart, Option.ite_none_right_eq_some, Option.some.injEq] at found
    obtain ⟨below, rfl⟩ := found
    exact ⟨mem_sampleStart_blocks.mpr ⟨number, below, rfl⟩, rfl⟩
  best := mem_sampleStart_blocks.mpr ⟨16275, by decide, rfl⟩
  genesis key needed := by
    obtain rfl : key = .node (balance 0) := mem_singleton.mp needed
    rfl
  readable block member _ key needed := by
    obtain ⟨number, _, rfl⟩ := mem_sampleStart_blocks.mp member
    obtain rfl := mem_singleton.mp needed
    exact decide_eq_true (amountAt_lt known)

variable {Blob Key Filter : Type} [DecidableEq Key] {config : Config Blob Key Filter}

theorem State.next_blocks (state : State Blob Key Filter) : (state.next config).blocks = state.blocks := by
  unfold State.next State.scan State.finishBlock
  dsimp only
  repeat' split
  all_goals rfl

theorem trace_next {meets : State Blob Key Filter → Label Blob Key → Prop} (start : State Blob Key Filter) (count : Nat)
    (met : ∀ earlier < count, meets ((State.next config)^[earlier] start) .next) :
    Trace (fun state label next => meets state label ∧ state.step config label = next) start (List.replicate count .next)
      ((State.next config)^[count] start) := by
  induction count with
  | zero => exact .nil
  | succ count ih =>
    rw [replicate_succ', iterate_succ_apply']
    exact .snoc (ih fun earlier less => met earlier (by omega)) ⟨met count (by omega), rfl⟩

theorem iterate_next_blocks (start : State Blob Key Filter) (count : Nat) : ((State.next config)^[count] start).blocks = start.blocks := by
  induction count with
  | zero => rfl
  | succ count ih => rw [iterate_succ_apply', State.next_blocks, ih]

/-- In the sample every round is the same, and no state but the snapshot's has the snapshot's amount and an earlier one. -/
theorem sample_undisturbed (earlier : Nat) (less : earlier < 15) :
    ((State.next sampleConfig)^[earlier] (sampleStart 3)).Undisturbed sampleConfig .next := by
  have rounds : ∀ count < 15, ∀ round ∈ (((State.next sampleConfig)^[count] (sampleStart 3)).phase.round?.map
      fun round => (round.snapNum, round.snap.stateRoot)).toList, round = (16273, balance 2) := by decide +kernel
  intro round at_round
  obtain ⟨snapNum, snapRoot⟩ : round.snapNum = 16273 ∧ round.snap.stateRoot = balance 2 := by
    simpa [at_round] using rounds earlier less
  rw [iterate_next_blocks]
  intro pruned member _ below block retained_member above key needed visited
  obtain ⟨old, _, rfl⟩ := mem_sampleStart_blocks.mp member
  obtain ⟨number, _, rfl⟩ := mem_sampleStart_blocks.mp retained_member
  obtain rfl : key = .node (balance (amountAt 3 number)) := mem_singleton.mp needed
  have same : amountAt 3 number = amountAt 3 old := by
    change _ ∈ [Digest.node (balance (amountAt 3 old)), .zero, .leaf (List.replicate 64 0 ++ [16]), .node (balance (amountAt 3 old))] at visited
    simpa [balance] using visited
  refine ⟨balance 2, by simp [Config.roots, snapRoot], ?_⟩
  have shared : amountAt 3 number = 2 := by
    rw [snapNum] at below above
    change old < 16273 at below
    change 16273 ≤ number at above
    unfold amountAt at same ⊢
    split_ifs at same ⊢ <;> omega
  rw [shared]
  exact mem_cons_self

/-- A round over the sample, with a state that no earlier one shares above the snapshot: the old state is pruned, the others stay. -/
theorem sample_states_readable : ((State.next sampleConfig)^[15] (sampleStart 3)).Readable sampleConfig ∧
      ((State.next sampleConfig)^[15] (sampleStart 3)).nodes (.node (balance 1)) = false :=
  ⟨retained_states_readable sampleConfig (sampleStart_intact (by decide)) rfl
    (trace_next _ 15 fun earlier less => ⟨trivial, sample_undisturbed earlier less⟩), by decide +kernel⟩

/-- The account comes back to its first amount right above the snapshot: with nothing committed meanwhile, the loop deletes
the root of that state when it prunes the second block. -/
theorem returned_state_deleted : (sampleStart 1).Intact sampleConfig ∧ (sampleStart 1).phase = .sleeping ∧
      ∃ labels state, Trace (fun state label next => state.Allows sampleConfig label ∧ state.step sampleConfig label = next)
          (sampleStart 1) labels state ∧
        ∃ block ∈ state.blocks, state.snapshotNum ≤ block.number ∧
          ∃ key ∈ block.stateRoot.stateKeys sampleConfig.trie, state.nodes key = false := by
  refine ⟨sampleStart_intact (by decide), rfl, _, _, trace_next (sampleStart 1) 15 fun _ _ => trivial, sampleBlock 1 16274, ?_, ?_, ?_⟩
  · rw [iterate_next_blocks]
    exact mem_sampleStart_blocks.mpr ⟨16274, by decide, rfl⟩
  · decide +kernel
  · exact ⟨.node (balance 1), mem_singleton.mpr rfl, by decide +kernel⟩

end

end MeterPov.Pruning
