import MeterPov.Pruning.Trie
import MeterPov.Lib.Lru
import MeterPov.Lib.Trace

/-! The pruner: the filter of visited keys, and the walks that fill it and that delete nodes. -/

set_option autoImplicit false

namespace MeterPov.Pruning

open Lib List

/-- A filter may take a key for one that was put, and never forgets one. -/
structure StateBloom (Filter Key : Type) where
  new : Filter
  put : Filter → Key → Filter
  contain : Filter → Key → Bool
  contain_put : ∀ filter key, contain (put filter key) key = true
  contain_mono : ∀ filter put_key key, contain filter key = true → contain (put filter put_key) key = true

/-- What a batch deletes. Nodes have keys of their own length, apart from the prefixed ones of the chain. -/
inductive Entry (Key : Type) where
  | node (key : Key)
  | block (id : Key)
  | txMeta (id : Key)
  | receipts (id : Key)
  | blockHash (number : Nat)
  deriving DecidableEq

/-- The iterator over the accounts, and the one over the storage of the account it is at. -/
structure Walk (Blob Key : Type) where
  accounts : List (Frame Blob Key)
  storage : List (Frame Blob Key)

def nodeCacheSize : Nat := 5120

structure Pruner (Filter Key : Type) where
  bloom : Filter
  cache : Lru Key nodeCacheSize

section

variable {Blob Key Filter : Type} [DecidableEq Key] (env : TrieEnv Blob Key) (sieve : StateBloom Filter Key)

namespace Walk

def ofRoot (root : Node Blob) : Walk Blob Key := ⟨[Frame.ofRoot env root], []⟩

def done (walk : Walk Blob Key) : Bool := walk.accounts.isEmpty && walk.storage.isEmpty

end Walk

/-- One round of the loops of `UpdateBloomWithTrie`: the next node of the storage iterator, or of the account iterator
when that one has ended. A node that is missing ends its iterator. -/
def updateBloomNext (present : Key → Bool) (bloom : Filter) (walk : Walk Blob Key) : Filter × Walk Blob Key :=
  match walk.storage with
  | frame :: rest =>
    if frame.resolves present then
      (sieve.put (sieve.put bloom (frame.key env)) frame.parent, ⟨walk.accounts, frame.children env ++ rest⟩)
    else (bloom, ⟨walk.accounts, []⟩)
  | [] =>
    match walk.accounts with
    | frame :: rest =>
      if frame.resolves present then
        (sieve.put (sieve.put bloom (frame.key env)) frame.parent, ⟨frame.children env ++ rest, frame.storage env present⟩)
      else (bloom, ⟨[], []⟩)
    | [] => (bloom, walk)

/-- A key that is not in the filter is deleted and put there. -/
def pruneAndMark (bloom : Filter) (batch : List (Entry Key)) (key : Key) : Filter × List (Entry Key) :=
  if sieve.contain bloom key then (bloom, batch) else (sieve.put bloom key, batch ++ [.node key])

def pruneFrame (bloom : Filter) (batch : List (Entry Key)) (frame : Frame Blob Key) : Filter × List (Entry Key) :=
  let (bloom, batch) := pruneAndMark sieve bloom batch (frame.key env)
  pruneAndMark sieve bloom batch frame.parent

/-- `resolveHash` of the prune iterator. -/
def loadOrGet (present : Key → Bool) (cache : Lru Key nodeCacheSize) (key : Key) : Option (Lru Key nodeCacheSize) :=
  if cache.contains key || present key then some (cache.add key) else none

/-- One round of the loops of `Prune`. The account iterator passes over a child whose hash is in the filter and reads
through the cache; the storage iterator does neither. -/
def pruneNext (present : Key → Bool) (pruner : Pruner Filter Key) (batch : List (Entry Key)) (walk : Walk Blob Key) :
    Pruner Filter Key × List (Entry Key) × Walk Blob Key :=
  match walk.storage with
  | frame :: rest =>
    if frame.resolves present then
      let (bloom, batch) := pruneFrame env sieve pruner.bloom batch frame
      ({ pruner with bloom }, batch, ⟨walk.accounts, frame.children env ++ rest⟩)
    else (pruner, batch, ⟨walk.accounts, []⟩)
  | [] =>
    match walk.accounts with
    | frame :: rest =>
      if frame.byHash && sieve.contain pruner.bloom frame.hash then (pruner, batch, ⟨rest, []⟩)
      else
        match if frame.byHash then loadOrGet present pruner.cache frame.hash else some pruner.cache with
        | none => (pruner, batch, ⟨[], []⟩)
        | some cache =>
          let (bloom, batch) := pruneFrame env sieve pruner.bloom batch frame
          (⟨bloom, cache⟩, batch, ⟨frame.children env ++ rest, frame.storage env present⟩)
    | [] => (pruner, batch, walk)

end

section

variable {Blob Key Filter : Type} [DecidableEq Key] {env : TrieEnv Blob Key} {sieve : StateBloom Filter Key}

/-- What a walk still has before it, when no node is missing. -/
def Walk.Visits (env : TrieEnv Blob Key) (walk : Walk Blob Key) (key : Key) : Prop :=
  (∃ frame ∈ walk.storage, key ∈ frame.visits env false) ∨ ∃ frame ∈ walk.accounts, key ∈ frame.visits env true

def Walk.Needs (env : TrieEnv Blob Key) (walk : Walk Blob Key) (key : Key) : Prop :=
  (∃ frame ∈ walk.storage, key ∈ frame.keys env false) ∨ ∃ frame ∈ walk.accounts, key ∈ frame.keys env true

theorem Walk.visits_ofRoot {root key} : (Walk.ofRoot env root).Visits env key ↔ key ∈ root.stateVisits env := by
  simp [Visits, ofRoot, Node.stateVisits]

omit [DecidableEq Key] in
theorem Walk.needs_ofRoot {root key} (needed : (Walk.ofRoot env root).Needs env key) : key ∈ root.stateKeys env := by
  simp only [Needs, ofRoot, not_mem_nil, false_and, exists_false, mem_singleton, exists_eq_left, false_or] at needed
  apply mem_append_right
  simpa [Frame.keys, Frame.ofRoot] using needed

variable {walk : Walk Blob Key}

theorem Walk.not_visits_of_done (ended : walk.done = true) {key} : ¬ walk.Visits env key := by
  simp only [done, Bool.and_eq_true, List.isEmpty_iff] at ended
  simp [Visits, ended]

variable {bloom : Filter}

omit [DecidableEq Key] in
theorem StateBloom.contain_put_put {first second key} (known : key = first ∨ key = second ∨ sieve.contain bloom key = true) :
    sieve.contain (sieve.put (sieve.put bloom first) second) key = true := by
  rcases known with rfl | rfl | known
  · exact sieve.contain_mono _ _ _ (sieve.contain_put _ _)
  · exact sieve.contain_put _ _
  · exact sieve.contain_mono _ _ _ (sieve.contain_mono _ _ _ known)

variable {present : Key → Bool}

omit [DecidableEq Key] in
theorem Frame.resolves_of_found {frame : Frame Blob Key} {accounts} (found : ∀ key ∈ frame.keys env accounts, present key = true) : frame.resolves present = true := by
  unfold resolves
  cases stored : frame.byHash with
  | false => rfl
  | true =>
    rw [found frame.hash (by simp [keys, stored])]
    rfl

/-- With every node present, a round of the loops loses nothing: what was in the filter or before the walk is so afterwards,
and the walk needs no node it did not need before. -/
theorem updateBloomNext_covers (found : ∀ key, walk.Needs env key → present key = true) :
    (∀ key, sieve.contain bloom key = true ∨ walk.Visits env key →
      sieve.contain (updateBloomNext env sieve present bloom walk).1 key = true ∨
        (updateBloomNext env sieve present bloom walk).2.Visits env key) ∧
    ∀ key, (updateBloomNext env sieve present bloom walk).2.Needs env key → walk.Needs env key := by
  obtain ⟨accounts, storage⟩ := walk
  cases storage with
  | cons frame rest =>
    have own (key : Key) (needed : key ∈ frame.keys env false) : present key = true := found key (.inl ⟨frame, by simp, needed⟩)
    have resolved : frame.resolves present = true := Frame.resolves_of_found own
    simp only [updateBloomNext, resolved, if_true]
    constructor
    · rintro key (known | (⟨at_frame, member, visited⟩ | later))
      · exact .inl (StateBloom.contain_put_put (.inr (.inr known)))
      · rcases mem_cons.mp member with rfl | member
        · rcases Frame.mem_visits_iff.mp visited with own_key | parent | ⟨impossible, _⟩ | ⟨child, below, visited⟩
          · exact .inl (StateBloom.contain_put_put (.inl own_key))
          · exact .inl (StateBloom.contain_put_put (.inr (.inl parent)))
          · simp at impossible
          · exact .inr (.inl ⟨child, mem_append_left _ below, visited⟩)
        · exact .inr (.inl ⟨at_frame, mem_append_right _ member, visited⟩)
      · exact .inr (.inr later)
    · rintro key (⟨at_frame, member, needed⟩ | later)
      · rcases mem_append.mp member with child | member
        · exact .inl ⟨frame, by simp, Frame.children_keys child needed⟩
        · exact .inl ⟨at_frame, by simp [member], needed⟩
      · exact .inr later
  | nil =>
    cases accounts with
    | nil => exact ⟨fun key known => known, fun key needed => needed⟩
    | cons frame rest =>
      have own (key : Key) (needed : key ∈ frame.keys env true) : present key = true := found key (.inr ⟨frame, by simp, needed⟩)
      have resolved : frame.resolves present = true := Frame.resolves_of_found own
      simp only [updateBloomNext, resolved, if_true]
      constructor
      · rintro key (known | (⟨at_frame, member, visited⟩ | ⟨at_frame, member, visited⟩))
        · exact .inl (StateBloom.contain_put_put (.inr (.inr known)))
        · simp at member
        · rcases mem_cons.mp member with rfl | member
          · rcases Frame.mem_visits_iff.mp visited with own_key | parent | ⟨_, opened, inside, visited⟩ | ⟨child, below, visited⟩
            · exact .inl (StateBloom.contain_put_put (.inl own_key))
            · exact .inl (StateBloom.contain_put_put (.inr (.inl parent)))
            · rw [← Frame.storage_opens own] at inside
              exact .inr (.inl ⟨opened, inside, visited⟩)
            · exact .inr (.inr ⟨child, mem_append_left _ below, visited⟩)
          · exact .inr (.inr ⟨at_frame, mem_append_right _ member, visited⟩)
      · rintro key (⟨opened, member, needed⟩ | ⟨at_frame, member, needed⟩)
        · exact .inr ⟨frame, by simp, Frame.storage_keys member needed⟩
        · rcases mem_append.mp member with child | member
          · exact .inr ⟨frame, by simp, Frame.children_keys child needed⟩
          · exact .inr ⟨at_frame, by simp [member], needed⟩

omit [DecidableEq Key] in
theorem Frame.storage_mono {frame opened : Frame Blob Key} (member : opened ∈ frame.storage env present) :
    opened ∈ frame.storage env fun _ => true := by
  unfold storage at member ⊢
  split at member
  · split at member
    · simpa using member
    · simp at member
  · simp at member

variable {batch : List (Entry Key)}

omit [DecidableEq Key] in
/-- The filter only grows, and what is deleted anew was not in it. -/
theorem pruneAndMark_spec {key} :
    (∀ other, sieve.contain bloom other = true → sieve.contain (pruneAndMark sieve bloom batch key).1 other = true) ∧
    ∀ other, .node other ∈ (pruneAndMark sieve bloom batch key).2 →
      .node other ∈ batch ∨ other = key ∧ sieve.contain bloom other = false := by
  unfold pruneAndMark
  split
  · exact ⟨fun _ known => known, fun _ member => .inl member⟩
  · rename_i missing
    constructor
    · exact fun other known => sieve.contain_mono _ _ _ known
    · intro other member
      rcases mem_append.mp member with old | new
      · exact .inl old
      · have same : other = key := by simpa using new
        subst same
        exact .inr ⟨rfl, by simpa using missing⟩

omit [DecidableEq Key] in
theorem pruneFrame_spec {frame} :
    (∀ other, sieve.contain bloom other = true → sieve.contain (pruneFrame env sieve bloom batch frame).1 other = true) ∧
    ∀ other, .node other ∈ (pruneFrame env sieve bloom batch frame).2 →
      .node other ∈ batch ∨ (other = frame.key env ∨ other = frame.parent) ∧ sieve.contain bloom other = false := by
  obtain ⟨grown, deleted⟩ := @pruneAndMark_spec _ _ sieve bloom batch (frame.key env)
  obtain ⟨grown', deleted'⟩ := @pruneAndMark_spec _ _ sieve (pruneAndMark sieve bloom batch (frame.key env)).1
    (pruneAndMark sieve bloom batch (frame.key env)).2 frame.parent
  constructor
  · exact fun other known => grown' other (grown other known)
  · intro other member
    rcases deleted' other member with earlier | ⟨same, missing⟩
    · rcases deleted other earlier with old | ⟨same, missing⟩
      · exact .inl old
      · exact .inr ⟨.inl same, missing⟩
    · -- the key of the frame is in the filter by now, so a key that is not was not there before
      have before : sieve.contain bloom other = false := by
        cases known : sieve.contain bloom other with
        | false => rfl
        | true => rw [grown other known] at missing; contradiction
      exact .inr ⟨.inr same, before⟩

/-- A round of the loops of `Prune`: the filter grows, what is deleted anew is before the walk and not in the filter, and
the walk comes to nothing it would not have come to before. -/
theorem pruneNext_spec {pruner} :
    (∀ key, sieve.contain pruner.bloom key = true → sieve.contain (pruneNext env sieve present pruner batch walk).1.bloom key = true) ∧
    (∀ key, .node key ∈ (pruneNext env sieve present pruner batch walk).2.1 →
      .node key ∈ batch ∨ walk.Visits env key ∧ sieve.contain pruner.bloom key = false) ∧
    ∀ key, (pruneNext env sieve present pruner batch walk).2.2.Visits env key → walk.Visits env key := by
  obtain ⟨accounts, storage⟩ := walk
  cases storage with
  | cons frame rest =>
    obtain ⟨grown, deleted⟩ := @pruneFrame_spec _ _ _ env sieve pruner.bloom batch frame
    simp only [pruneNext]
    split
    · constructor
      · exact grown
      · constructor
        · intro key member
          rcases deleted key member with old | ⟨own | parent, missing⟩
          · exact .inl old
          · exact .inr ⟨.inl ⟨frame, by simp, Frame.mem_visits_iff.mpr (.inl own)⟩, missing⟩
          · exact .inr ⟨.inl ⟨frame, by simp, Frame.mem_visits_iff.mpr (.inr (.inl parent))⟩, missing⟩
        · rintro key (⟨at_frame, member, visited⟩ | later)
          · rcases mem_append.mp member with child | member
            · exact .inl ⟨frame, by simp, Frame.mem_visits_iff.mpr (.inr (.inr (.inr ⟨at_frame, child, visited⟩)))⟩
            · exact .inl ⟨at_frame, by simp [member], visited⟩
          · exact .inr later
    · exact ⟨fun _ known => known, fun _ member => .inl member, fun key visited => by
        rcases visited with ⟨_, member, _⟩ | later
        · simp at member
        · exact .inr later⟩
  | nil =>
    cases accounts with
    | nil => exact ⟨fun _ known => known, fun _ member => .inl member, fun _ visited => visited⟩
    | cons frame rest =>
      obtain ⟨grown, deleted⟩ := @pruneFrame_spec _ _ _ env sieve pruner.bloom batch frame
      simp only [pruneNext]
      split
      · exact ⟨fun _ known => known, fun _ member => .inl member, fun key visited => by
          rcases visited with ⟨_, member, _⟩ | ⟨at_frame, member, visited⟩
          · simp at member
          · exact .inr ⟨at_frame, by simp [member], visited⟩⟩
      · split
        · exact ⟨fun _ known => known, fun _ member => .inl member, fun key visited => by simp [Walk.Visits] at visited⟩
        · constructor
          · exact grown
          · constructor
            · intro key member
              rcases deleted key member with old | ⟨own | parent, missing⟩
              · exact .inl old
              · exact .inr ⟨.inr ⟨frame, by simp, Frame.mem_visits_iff.mpr (.inl own)⟩, missing⟩
              · exact .inr ⟨.inr ⟨frame, by simp, Frame.mem_visits_iff.mpr (.inr (.inl parent))⟩, missing⟩
            · rintro key (⟨opened, member, visited⟩ | ⟨at_frame, member, visited⟩)
              · exact .inr ⟨frame, by simp, Frame.mem_visits_iff.mpr (.inr (.inr (.inl ⟨rfl, opened, Frame.storage_mono member, visited⟩)))⟩
              · rcases mem_append.mp member with child | member
                · exact .inr ⟨frame, by simp, Frame.mem_visits_iff.mpr (.inr (.inr (.inr ⟨at_frame, child, visited⟩)))⟩
                · exact .inr ⟨at_frame, by simp [member], visited⟩

end

/-! The state pruning loop, with blocks committed and added between any two of its steps. -/

structure Block (Blob Key : Type) where
  id : Key
  number : Nat
  txs : List Key
  stateRoot : Node Blob

/-- What the loop is started with. `beforeFlattern` is the number of the best block before the index was flattened. -/
structure Config (Blob Key Filter : Type) where
  trie : TrieEnv Blob Key
  sieve : StateBloom Filter Key
  geneRoot : Node Blob
  preserveBlocks : Nat
  beforeFlattern : Option Nat
  pruneIndexHead : Option Nat

def statePruningBatch : Nat := 1024

/-- `math.Ceil(8*3600/1.77)`. -/
def prunableBlocks : Nat := (8 * 3600 * 100 + 176) / 177

/-- One pass of the loop that prunes: the snapshot, the best block it began with, and the last block it leaves alone. -/
structure Round (Blob Key : Type) where
  snapNum : Nat
  snap : Block Blob Key
  best : Block Blob Key
  pruneHead : Nat

structure Job (Key Filter : Type) where
  pruner : Pruner Filter Key
  batch : List (Entry Key)
  height : Nat
  lastRoot : Key

/-- Where the loop is. A panic halts it. -/
inductive Phase (Blob Key Filter : Type) where
  | sleeping
  | marking (round : Round Blob Key) (pruner : Pruner Filter Key) (walk : Walk Blob Key) (rest : List (Node Blob))
  | scanning (round : Round Blob Key) (job : Job Key Filter)
  | pruning (round : Round Blob Key) (job : Job Key Filter) (walk : Walk Blob Key)
  | halted

/-- `blocks` are the blocks whose states were committed, `index` answers `GetTrunkBlock`, and `nodes` are the keys of the
trie nodes in the database. -/
structure State (Blob Key Filter : Type) where
  nodes : Key → Bool
  blocks : List (Block Blob Key)
  index : Nat → Option (Block Blob Key)
  best : Block Blob Key
  snapshotNum : Nat
  pruneHead : Nat
  phase : Phase Blob Key Filter

/-- A state is committed before its block is added to the chain. A commit writes the nodes it made on its parent's state,
and whatever else the block puts. -/
inductive Label (Blob Key : Type) where
  | commit (parent block : Block Blob Key) (written : List Key)
  | add (block : Block Blob Key) (isTrunk : Bool)
  | next

section

variable {Blob Key Filter : Type} [DecidableEq Key] (config : Config Blob Key Filter)

/-- The entries of the block, unless it is the one the index was flattened at. -/
def Config.pruneBlock (block : Block Blob Key) : List (Entry Key) :=
  if config.beforeFlattern = some block.number then []
  else
    .block block.id :: block.txs.map .txMeta ++ [.receipts block.id, .blockHash block.number] ++
      match config.pruneIndexHead with
      | none => []
      | some head =>
        if block.number ≤ head || config.beforeFlattern.any (· < block.number) then [.blockHash block.number] else []

/-- The tries put into the filter: `InitForStatePruning`, and the best block when it is above the snapshot. -/
def Config.roots (round : Round Blob Key) : List (Node Blob) :=
  [config.geneRoot, round.snap.stateRoot] ++ if round.snap.number < round.best.number then [round.best.stateRoot] else []

/-- Passes over blocks with the state root of the next one, at most as many as the first argument. -/
def Config.skipSameRoots (index : Nat → Option (Block Blob Key)) : Nat → Nat → Nat
  | 0, head => head
  | gap + 1, head =>
    match index head, index (head + 1) with
    | some cur, some nxt =>
      if config.trie.hash cur.stateRoot = config.trie.hash nxt.stateRoot then Config.skipSameRoots index gap (head + 1)
      else nxt.number
    | _, _ => head

variable (state : State Blob Key Filter)

/-- The top of the loop, up to the bloom filter. -/
def State.begin : Phase Blob Key Filter :=
  let bestNum := state.best.number
  if bestNum < config.preserveBlocks then .sleeping
  else
    let snapNum := bestNum - config.preserveBlocks
    if snapNum ≤ state.snapshotNum then .sleeping
    else
      let pruneHead := config.skipSameRoots state.index (min bestNum snapNum - state.pruneHead) state.pruneHead
      if snapNum < pruneHead || snapNum - pruneHead < prunableBlocks then .sleeping
      else
        match state.index snapNum with
        | none => .halted
        | some snap =>
          let round := ⟨snapNum, snap, state.best, pruneHead⟩
          .marking round ⟨config.sieve.new, Lru.empty⟩ ⟨[], []⟩ (config.roots round)

def State.write (batch : List (Entry Key)) : State Blob Key Filter :=
  { state with
    nodes := fun key => state.nodes key && !batch.contains (.node key)
    index := fun number => if batch.contains (.blockHash number) then none else state.index number }

/-- The end of the loop's body for one block: a full batch is written, and the last one. -/
def State.finishBlock (round : Round Blob Key) (job : Job Key Filter) : State Blob Key Filter :=
  if statePruningBatch ≤ job.batch.length || job.height = round.snapNum - 1 then
    { state.write job.batch with
      pruneHead := job.height
      phase := .scanning round { job with batch := [], height := job.height + 1 } }
  else { state with phase := .scanning round { job with height := job.height + 1 } }

/-- The loop's body for one block up to `Prune`, and what follows the loop. -/
def State.scan (round : Round Blob Key) (job : Job Key Filter) : State Blob Key Filter :=
  if job.height < round.snapNum then
    match state.index job.height with
    | none => { state with phase := .scanning round { job with height := job.height + 1 } }
    | some block =>
      let root := config.trie.hash block.stateRoot
      let job := { job with batch := job.batch ++ config.pruneBlock block }
      if root = job.lastRoot then { state with phase := .scanning round { job with height := job.height + 1 } }
      else
        let job := { job with lastRoot := root }
        if state.nodes root && !config.sieve.contain job.pruner.bloom root then
          { state with phase := .pruning round job (Walk.ofRoot config.trie block.stateRoot) }
        else state.finishBlock round job
  else if job.batch.isEmpty then { state with phase := .sleeping }
  else { state.write job.batch with pruneHead := round.snapNum - 1, phase := .sleeping }

/-- The next step of the loop: at most one node of a trie is read in it, or one batch written. -/
def State.next : State Blob Key Filter :=
  match state.phase with
  | .sleeping => { state with phase := state.begin config }
  | .halted => state
  | .marking round pruner walk rest =>
    if walk.done then
      match rest with
      | [] =>
        { state with
          snapshotNum := round.snapNum
          phase := .scanning round ⟨pruner, [], round.pruneHead + 1, config.trie.zero⟩ }
      | root :: rest =>
        if (root.rootKeys config.trie).all state.nodes then
          let bloom := config.sieve.put pruner.bloom (config.trie.hash root)
          { state with phase := .marking round { pruner with bloom } (Walk.ofRoot config.trie root) rest }
        else { state with phase := .halted }
    else
      let (bloom, walk) := updateBloomNext config.trie config.sieve state.nodes pruner.bloom walk
      { state with phase := .marking round { pruner with bloom } walk rest }
  | .scanning round job => state.scan config round job
  | .pruning round job walk =>
    if walk.done then state.finishBlock round job
    else
      let (pruner, batch, walk) := pruneNext config.trie config.sieve state.nodes job.pruner job.batch walk
      { state with phase := .pruning round { job with pruner, batch } walk }

/-- The index has the last block added at each number, on the trunk or not. -/
def State.step : Label Blob Key → State Blob Key Filter
  | .commit _ block written =>
    { state with nodes := fun key => state.nodes key || written.contains key, blocks := block :: state.blocks }
  | .add block isTrunk =>
    { state with
      index := Function.update state.index block.number (some block)
      best := if isTrunk then block else state.best }
  | .next => state.next config

/-- The parent of a committed block is known, and the nodes of its state that are not written are its parent's. -/
def State.Allows : Label Blob Key → Prop
  | .commit parent block written =>
    parent ∈ state.blocks ∧ parent.number + 1 = block.number ∧
      ∀ key ∈ block.stateRoot.stateKeys config.trie, key ∈ written ∨ key ∈ parent.stateRoot.stateKeys config.trie
  | .add block _ => block ∈ state.blocks
  | .next => True

end

end MeterPov.Pruning
