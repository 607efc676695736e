import MeterPov.Chains.Chain
import MeterPov.Lib.Trace

/-! The index from numbers to block IDs, compared with the tree of stored blocks, the choice of the best block and the forks from it. -/

set_option autoImplicit false

namespace MeterPov.Chains

open Blocks Lib Relation List Option

variable {Digest Address Tx : Type} [DecidableEq Digest]

def newChain (hashing : Hashing Digest Address) (genesis : Block Digest Address Tx) (bestQC : QuorumCert Digest) : Chain Digest Address Tx :=
  ⟨[genesis], [(genesis.number, genesis.id hashing)], genesis, bestQC⟩

namespace Chain

variable (chain : Chain Digest Address Tx) (hashing : Hashing Digest Address)

def getTrunkBlockID (number : Nat) : Option (BlockID Digest) := chain.blockHashes.lookup number

/-- The descendant is not used: every number has one entry. -/
def getAncestorBlockID (_descendantID : BlockID Digest) (ancestorNum : Nat) : Option (BlockID Digest) := chain.blockHashes.lookup ancestorNum

/-- The stored parent of a block. A block with number zero has none. -/
def HasParent (block parent : Block Digest Address Tx) : Prop :=
  block.number ≠ 0 ∧ chain.getBlock hashing block.parentID = some parent

/-- Every answer of the index is the ancestor it is asked for. -/
structure IndexMatches : Prop where
  trunk : ∀ number, number ≤ chain.bestBlock.number → ∃ ancestor, ReflTransGen (chain.HasParent hashing) chain.bestBlock ancestor ∧
    ancestor.number = number ∧ chain.getTrunkBlockID number = some (ancestor.id hashing)
  ancestors : ∀ id block, chain.getBlock hashing id = some block → ∀ number, number ≤ block.number →
    ∃ ancestor, ReflTransGen (chain.HasParent hashing) block ancestor ∧ ancestor.number = number ∧
      chain.getAncestorBlockID id number = some (ancestor.id hashing)

/-- What every run keeps: the parents of stored blocks are stored, and each entry of the index is the ID of a stored block. -/
structure Grown : Prop where
  best : chain.bestBlock ∈ chain.blocks
  linked : ∀ block ∈ chain.blocks, block.number ≠ 0 → ∃ parent, chain.getBlock hashing block.parentID = some parent
  entries : ∀ number id, chain.blockHashes.lookup number = some id → ∃ block ∈ chain.blocks, block.id hashing = id ∧ block.number = number
  indexed : ∀ block ∈ chain.blocks, (chain.blockHashes.lookup block.number).isSome

variable {chain hashing}

variable {idLess : BlockID Digest → BlockID Digest → Bool} {block : Block Digest Address Tx}
  {next : Chain Digest Address Tx}

theorem HasParent.number {parent} (up : chain.HasParent hashing block parent) :
    parent.number + 1 = block.number := by
  have same := congrArg BlockID.number (mem_of_getBlock up.2).2
  rw [Block.id_number] at same
  have positive := up.1
  have bound : parent.number < 2 ^ 32 := Nat.mod_lt _ (by decide)
  have number : block.number = (parent.number + 1) % 2 ^ 32 := by
    rw [same]
    rfl
  omega

theorem number_le_of_ancestor {ancestor} (path : ReflTransGen (chain.HasParent hashing) block ancestor) :
    ancestor.number ≤ block.number ∧ (ancestor.number = block.number → ancestor = block) := by
  induction path with
  | refl => exact ⟨le_refl _, fun _ => rfl⟩
  | tail _ up ih =>
    have lower := up.number
    refine ⟨by omega, fun same => ?_⟩
    omega

theorem Grown.exists_ancestor (grown : chain.Grown hashing) (stored : block ∈ chain.blocks) {number} (below : number ≤ block.number) :
    ∃ ancestor ∈ chain.blocks, ReflTransGen (chain.HasParent hashing) block ancestor ∧ ancestor.number = number := by
  obtain ⟨steps, high⟩ := Nat.exists_eq_add_of_le below
  induction steps generalizing block with
  | zero => exact ⟨block, stored, .refl, by omega⟩
  | succ steps ih =>
    obtain ⟨parent, found⟩ := grown.linked block stored (by omega)
    have up : chain.HasParent hashing block parent := ⟨by omega, found⟩
    have lower := up.number
    obtain ⟨ancestor, among, path, atNumber⟩ := ih (mem_of_getBlock found).1 (by omega) (by omega)
    exact ⟨ancestor, among, .head up path, atNumber⟩

/-- The index matches exactly when no number has two blocks. -/
theorem Grown.indexMatches_iff (grown : chain.Grown hashing) :
    chain.IndexMatches hashing ↔ ∀ first ∈ chain.blocks, ∀ second ∈ chain.blocks, first.number = second.number →
      first.id hashing = second.id hashing := by
  constructor
  · intro matched
    -- both are the entry of their number
    have entry : ∀ block ∈ chain.blocks, chain.blockHashes.lookup block.number = some (block.id hashing) := by
      intro block stored
      obtain ⟨found, known⟩ : ∃ found, chain.getBlock hashing (block.id hashing) = some found := by
        apply isSome_iff_exists.mp
        exact List.find?_isSome.mpr ⟨block, stored, by simp⟩
      have same := (mem_of_getBlock known).2
      have number : found.number = block.number := by
        rw [← Block.id_number found hashing, same, Block.id_number]
      obtain ⟨ancestor, path, atNumber, answer⟩ := matched.ancestors _ found known found.number (le_refl _)
      rw [(number_le_of_ancestor path).2 atNumber, same, number] at answer
      exact answer
    intro first firstStored second secondStored same
    have firstEntry := entry first firstStored
    rw [same, entry second secondStored] at firstEntry
    exact (Option.some.inj firstEntry).symm
  · intro single
    have entry : ∀ block ∈ chain.blocks, chain.blockHashes.lookup block.number = some (block.id hashing) := by
      intro block stored
      obtain ⟨id, held⟩ := isSome_iff_exists.mp (grown.indexed block stored)
      obtain ⟨other, among, rfl, number⟩ := grown.entries _ _ held
      rw [held, single other among block stored number]
    constructor
    · intro number below
      obtain ⟨ancestor, among, path, atNumber⟩ := grown.exists_ancestor grown.best below
      exact ⟨ancestor, path, atNumber, by rw [← atNumber]; exact entry ancestor among⟩
    · intro id block found number below
      obtain ⟨ancestor, among, path, atNumber⟩ := grown.exists_ancestor (mem_of_getBlock found).1 below
      exact ⟨ancestor, path, atNumber, by rw [← atNumber]; exact entry ancestor among⟩

/-! ## Runs -/

variable (hashing) in
/-- A call of `AddBlock` that returns without an error. -/
def Adds (idLess : BlockID Digest → BlockID Digest → Bool) (chain : Chain Digest Address Tx) (block : Block Digest Address Tx)
    (next : Chain Digest Address Tx) : Prop :=
  ∃ escortQC fork, chain.addBlock hashing idLess block escortQC = .ok (next, fork)

theorem Adds.cases (added : Adds hashing idLess chain block next) :
    next.blocks = block :: chain.blocks ∧ next.blockHashes = (block.number, block.id hashing) :: chain.blockHashes ∧
      (next.bestBlock = block ∨ next.bestBlock = chain.bestBlock) ∧ ∃ parent, chain.getBlock hashing block.parentID = some parent := by
  obtain ⟨escortQC, fork, ran⟩ := added
  unfold addBlock at ran
  split at ran
  · cases ran
  · split at ran
    · cases ran
    next parent found =>
      split at ran
      · split at ran
        · cases ran
        · cases ran
          exact ⟨rfl, rfl, .inl rfl, parent, found⟩
      · cases ran
        exact ⟨rfl, rfl, .inr rfl, parent, found⟩

theorem newChain_grown {genesis : Block Digest Address Tx} (bestQC : QuorumCert Digest) (zero : genesis.number = 0) :
    (newChain hashing genesis bestQC).Grown hashing where
  best := mem_singleton.mpr rfl
  linked block stored positive := by
    rw [mem_singleton.mp stored] at positive
    exact absurd zero positive
  entries number id held := by
    simp only [newChain, lookup_cons, lookup_nil] at held
    split at held
    next same =>
      cases held
      exact ⟨genesis, mem_singleton.mpr rfl, rfl, (beq_iff_eq.mp same).symm⟩
    · cases held
  indexed block stored := by
    rw [mem_singleton.mp stored]
    simp [newChain]

theorem Grown.adds (grown : chain.Grown hashing) (added : Adds hashing idLess chain block next) : next.Grown hashing := by
  obtain ⟨blocks, blockHashes, best, found⟩ := added.cases
  -- a block that was found is found, if not the same one
  have still : ∀ id, (∃ parent, chain.getBlock hashing id = some parent) → ∃ parent, next.getBlock hashing id = some parent := by
    rintro id ⟨parent, known⟩
    apply isSome_iff_exists.mp
    obtain ⟨stored, same⟩ := mem_of_getBlock known
    unfold getBlock
    rw [blocks]
    exact List.find?_isSome.mpr ⟨parent, mem_cons_of_mem _ stored, by simp [same]⟩
  constructor
  · rw [blocks]
    rcases best with new | old
    · rw [new]
      exact mem_cons_self
    · rw [old]
      exact mem_cons_of_mem _ grown.best
  · intro other stored positive
    rw [blocks] at stored
    rcases mem_cons.mp stored with rfl | earlier
    · exact still _ found
    · exact still _ (grown.linked other earlier positive)
  · intro number id held
    rw [blockHashes, lookup_cons] at held
    rw [blocks]
    split at held
    next same =>
      cases held
      exact ⟨block, mem_cons_self, rfl, (beq_iff_eq.mp same).symm⟩
    · obtain ⟨other, stored, rest⟩ := grown.entries number id held
      exact ⟨other, mem_cons_of_mem _ stored, rest⟩
  · intro other stored
    rw [blocks] at stored
    rw [blockHashes, lookup_cons]
    split
    · rfl
    next different =>
      rcases mem_cons.mp stored with rfl | earlier
      · simp at different
      · exact grown.indexed other earlier

/-- After every run of successful calls, the index answers with the ancestors of the best block and of every stored block
exactly when no two of the blocks have one number and different IDs. -/
theorem index_matches_iff (hashing : Hashing Digest Address) (idLess : BlockID Digest → BlockID Digest → Bool)
    {genesis : Block Digest Address Tx} {bestQC : QuorumCert Digest} (zero : genesis.number = 0)
    {blocks : List (Block Digest Address Tx)} {chain : Chain Digest Address Tx}
    (run : Trace (Adds hashing idLess) (newChain hashing genesis bestQC) blocks chain) :
    chain.IndexMatches hashing ↔ ∀ first ∈ genesis :: blocks, ∀ second ∈ genesis :: blocks, first.number = second.number →
      first.id hashing = second.id hashing := by
  have grown : chain.Grown hashing := run.invariant (Grown · hashing) (newChain_grown bestQC zero) fun _ _ _ known added => known.adds added
  have stored : ∀ block, block ∈ chain.blocks ↔ block ∈ genesis :: blocks := by
    intro block
    refine run.invariant_history (fun blocks chain => block ∈ chain.blocks ↔ block ∈ genesis :: blocks) Iff.rfl ?_
    intro earlier before added after _ known taken
    rw [taken.cases.1, mem_cons, known]
    simp only [mem_cons, mem_append, not_mem_nil, or_false]
    tauto
  rw [grown.indexMatches_iff]
  simp only [stored]

/-! ## The choice of the best block -/

variable (hashing idLess) in
/-- A higher total score or, at the same score, a smaller ID. -/
def Beats (block best : Block Digest Address Tx) : Prop :=
  best.header.totalScore < block.header.totalScore ∨
    best.header.totalScore = block.header.totalScore ∧ idLess (block.id hashing) (best.id hashing) = true

omit [DecidableEq Digest] in
theorem isTrunk_iff : chain.isTrunk hashing idLess block = true ↔ Beats hashing idLess block chain.bestBlock := by
  simp only [isTrunk, Beats]
  rcases lt_trichotomy block.header.totalScore chain.bestBlock.header.totalScore with below | level | above
  · simp [below, below.ne', below.le]
  · simp [level]
  · simp [above, above.not_gt]

theorem Adds.best (added : Adds hashing idLess chain block next) :
    next.bestBlock = block ∧ Beats hashing idLess block chain.bestBlock ∨
      next.bestBlock = chain.bestBlock ∧ ¬ Beats hashing idLess block chain.bestBlock := by
  obtain ⟨escortQC, fork, ran⟩ := added
  simp only [← isTrunk_iff]
  unfold addBlock at ran
  split at ran
  · cases ran
  · split at ran
    · cases ran
    · split at ran
      next trunk =>
        split at ran
        · cases ran
        · cases ran
          exact .inl ⟨rfl, trunk⟩
      next branch =>
        cases ran
        exact .inr ⟨rfl, branch⟩

variable (hashing idLess) in
/-- The block of a list that none of them beats. -/
def Chosen (blocks : List (Block Digest Address Tx)) (best : Block Digest Address Tx) : Prop :=
  best ∈ blocks ∧ ∀ block ∈ blocks, ¬ Beats hashing idLess block best

section

variable {genesis : Block Digest Address Tx} {bestQC bestQC' : QuorumCert Digest} {blocks blocks' : List (Block Digest Address Tx)}
  {chain' : Chain Digest Address Tx} (order : IsStrictTotalOrder (BlockID Digest) fun first second => idLess first second = true)

include order

theorem chosen_of_run (run : Trace (Adds hashing idLess) (newChain hashing genesis bestQC) blocks chain) :
    Chosen hashing idLess (genesis :: blocks) chain.bestBlock := by
  have notSelf (block : Block Digest Address Tx) : ¬ Beats hashing idLess block block := by
    rintro (above | ⟨-, less⟩)
    · exact lt_irrefl _ above
    · exact order.irrefl _ less
  refine run.invariant_history (fun blocks chain => Chosen hashing idLess (genesis :: blocks) chain.bestBlock) ?_ ?_
  · exact ⟨mem_cons_self, fun block only => mem_singleton.mp only ▸ notSelf genesis⟩
  · intro earlier before block after _ chosen added
    rw [← cons_append]
    rcases added.best with ⟨new, beats⟩ | ⟨old, beaten⟩
    · rw [new]
      refine ⟨mem_append_right _ mem_cons_self, fun other listed stronger => ?_⟩
      rcases mem_append.mp listed with known | only
      · apply chosen.2 other known
        -- what beats the new block beats the one before it
        rcases beats with above | ⟨level, less⟩ <;> rcases stronger with above' | ⟨level', less'⟩
        · exact .inl (above.trans above')
        · exact .inl (level' ▸ above)
        · exact .inl (level ▸ above')
        · exact .inr ⟨level.trans level', order.trans _ _ _ less' less⟩
      · rw [mem_singleton.mp only] at stronger
        exact notSelf block stronger
    · rw [old]
      refine ⟨mem_append_left _ chosen.1, fun other listed => ?_⟩
      rcases mem_append.mp listed with known | only
      · exact chosen.2 other known
      · exact mem_singleton.mp only ▸ beaten

/-- Two chains that were given the same blocks, in any two orders, have the same best block. No block has a higher total score. -/
theorem best_blocks_agree (run : Trace (Adds hashing idLess) (newChain hashing genesis bestQC) blocks chain)
    (other : Trace (Adds hashing idLess) (newChain hashing genesis bestQC') blocks' chain')
    (same : ∀ block, block ∈ genesis :: blocks ↔ block ∈ genesis :: blocks') :
    chain.bestBlock.id hashing = chain'.bestBlock.id hashing ∧
      ∀ block ∈ genesis :: blocks, block.header.totalScore ≤ chain.bestBlock.header.totalScore := by
  have chosen := chosen_of_run order run
  have chosen' := chosen_of_run order other
  have first := chosen.2 _ ((same _).mpr chosen'.1)
  have second := chosen'.2 _ ((same _).mp chosen.1)
  simp only [Beats, not_or, not_and, not_lt] at first second
  have level := le_antisymm second.1 first.1
  refine ⟨order.trichotomous _ _ (second.2 level.symm) (first.2 level), fun block listed => ?_⟩
  exact not_lt.mp fun above => chosen.2 block listed (.inl above)

end

/-! ## Forks -/

section

variable (chain hashing) (head1 head2 : Block Digest Address Tx)

/-- The blocks after the first one up to a head, each with its parent before it. -/
def Path (head first : Block Digest Address Tx) : List (Block Digest Address Tx) → Prop
  | [] => first = head
  | block :: rest => chain.HasParent hashing block first ∧ Path head block rest

/-- Two paths with no block in common. -/
structure Forking (b1 b2 : Block Digest Address Tx) (trunk branch : List (Block Digest Address Tx)) : Prop where
  left : chain.Path hashing head1 b1 trunk
  right : chain.Path hashing head2 b2 branch
  disjoint : ∀ first ∈ trunk, ∀ second ∈ branch, first.id hashing ≠ second.id hashing

/-- A block of number zero is the root, and every other one has a stored parent. -/
structure Standing (root : BlockID Digest) (block : Block Digest Address Tx) : Prop where
  zero : block.number = 0 → block.id hashing = root
  linked : block.number ≠ 0 → ∃ parent ∈ chain.blocks, chain.HasParent hashing block parent

end

section

variable {b1 b2 head1 head2 : Block Digest Address Tx} {trunk branch : List (Block Digest Address Tx)} {root : BlockID Digest}

theorem Path.number_lt (path : chain.Path hashing head1 b1 trunk) {later} (among : later ∈ trunk) : b1.number < later.number := by
  induction trunk generalizing b1 with
  | nil => cases among
  | cons block rest ih =>
    have above := path.1.number
    rcases mem_cons.mp among with rfl | further
    · omega
    · have higher := ih path.2 further
      omega

omit [DecidableEq Digest] in
theorem id_ne_of_number {first second : Block Digest Address Tx} (lower : first.number < second.number) :
    first.id hashing ≠ second.id hashing := by
  intro same
  have level := congrArg BlockID.number same
  rw [Block.id_number, Block.id_number] at level
  omega

/-- The path of the lower block is empty until the numbers are level. -/
theorem buildFork_spec (standing : ∀ block ∈ chain.blocks, chain.Standing hashing root block) {rounds : Nat}
    (first : chain.Standing hashing root b1) (second : chain.Standing hashing root b2)
    (forking : chain.Forking hashing head1 head2 b1 b2 trunk branch) (high : b2.number < b1.number → branch = [])
    (low : b1.number < b2.number → trunk = []) (enough : b1.number + b2.number < rounds) :
    ∃ fork, chain.buildFork hashing rounds b1 b2 trunk branch = some fork ∧
      ∃ other, other.id hashing = fork.ancestor.id hashing ∧ chain.Forking hashing head1 head2 fork.ancestor other fork.trunk fork.branch := by
  obtain ⟨left, right, disjoint⟩ := forking
  induction rounds generalizing b1 b2 trunk branch with
  | zero => omega
  | succ rounds ih =>
    unfold buildFork
    -- the higher block moves, and both of them once they are level
    rcases lt_trichotomy b2.number b1.number with above | level | below
    · obtain ⟨parent, stored, up⟩ := first.linked (by omega)
      obtain rfl := high above
      have lower := up.number
      simp only [if_pos above, up.2]
      exact ih (standing parent stored) second (fun _ => rfl) (fun _ => by omega) (by omega) ⟨up, left⟩ right (by simp)
    · simp only [level, lt_irrefl, if_false]
      split
      next same => exact ⟨_, rfl, b2, same.symm, left, right, disjoint⟩
      next different =>
        have positive : b1.number ≠ 0 := fun zero => different ((first.zero zero).trans (second.zero (level.trans zero)).symm)
        obtain ⟨parent1, stored1, up1⟩ := first.linked positive
        obtain ⟨parent2, stored2, up2⟩ := second.linked (level ▸ positive)
        have lower1 := up1.number
        have lower2 := up2.number
        simp only [up1.2, up2.2]
        refine ih (standing parent1 stored1) (standing parent2 stored2) (by omega) (by omega) (by omega) ⟨up1, left⟩ ⟨up2, right⟩ ?_
        -- what is further up on one side has a higher number than the new block of the other
        simp only [mem_cons, forall_eq_or_imp]
        refine ⟨⟨different, fun later among => ?_⟩, fun later among => ⟨?_, disjoint later among⟩⟩
        · exact id_ne_of_number (level ▸ right.number_lt among)
        · exact (id_ne_of_number (level ▸ left.number_lt among)).symm
    · obtain ⟨parent, stored, up⟩ := second.linked (by omega)
      obtain rfl := low below
      have lower := up.number
      simp only [if_neg (not_lt_of_gt below), if_pos below, up.2]
      exact ih first (standing parent stored) (by omega) (fun _ => rfl) (by omega) left ⟨up, right⟩ (by simp)

theorem standing_of_run {genesis : Block Digest Address Tx} {bestQC blocks} (grown : chain.Grown hashing)
    (run : Trace (Adds hashing idLess) (newChain hashing genesis bestQC) blocks chain) (later : ∀ block ∈ blocks, block.number ≠ 0) :
    ∀ stored ∈ chain.blocks, chain.Standing hashing (genesis.id hashing) stored := by
  have listed : ∀ stored ∈ chain.blocks, stored ∈ genesis :: blocks := by
    apply run.invariant_history (fun blocks chain => ∀ stored ∈ chain.blocks, stored ∈ genesis :: blocks) fun _ only => only
    intro earlier before added after _ known taken
    rw [taken.cases.1]
    grind
  intro stored among
  constructor
  · intro first
    rcases mem_cons.mp (listed stored among) with rfl | added
    · rfl
    · exact absurd first (later stored added)
  · intro positive
    obtain ⟨parent, found⟩ := grown.linked stored among positive
    exact ⟨parent, (mem_of_getBlock found).1, positive, found⟩

/-- The fork that `AddBlock` asks for is always found: the paths to the new block and to the best one from their latest common
ancestor. -/
theorem fork_of_run {genesis : Block Digest Address Tx} {bestQC blocks} (zero : genesis.number = 0)
    (run : Trace (Adds hashing idLess) (newChain hashing genesis bestQC) blocks chain) (later : ∀ block ∈ blocks, block.number ≠ 0)
    {parent} (up : chain.HasParent hashing block parent) :
    ∃ fork, chain.buildFork hashing (block.number + chain.bestBlock.number + 1) block chain.bestBlock [] [] = some fork ∧
      ∃ other, other.id hashing = fork.ancestor.id hashing ∧
        chain.Forking hashing block chain.bestBlock fork.ancestor other fork.trunk fork.branch := by
  have grown : chain.Grown hashing := run.invariant (Grown · hashing) (newChain_grown bestQC zero) fun _ _ _ known added => known.adds added
  have standing := standing_of_run grown run later
  -- the new block is not stored yet, but its parent is
  have new : chain.Standing hashing (genesis.id hashing) block :=
    ⟨fun first => absurd first up.1, fun _ => ⟨parent, (mem_of_getBlock up.2).1, up⟩⟩
  exact buildFork_spec standing new (standing _ grown.best) ⟨rfl, rfl, by simp⟩ (fun _ => rfl) (fun _ => rfl) (Nat.lt_succ_self _)

end

section

def forkBlock (parentID : BlockID (List Nat)) (totalScore : Nat) (signer : UInt8) : Block (List Nat) Nat Unit where
  header := ⟨parentID, 10, 0, 0, .mBlock, 0, 0, totalScore, [], [], [], [], [signer]⟩
  txs := []
  qc := ⟨0, 0, 0, [], [], []⟩
  committeeEpoch := 0
  kBlockNonce := 0
  magic := 0

def forkGenesis : Block (List Nat) Nat Unit := forkBlock ⟨2 ^ 32 - 1, []⟩ 0 1

def trunkBlock : Block (List Nat) Nat Unit := forkBlock (forkGenesis.id listHashing) 2 1

def sideBlock : Block (List Nat) Nat Unit := forkBlock (forkGenesis.id listHashing) 1 2

def chainAfter (blocks : List (Block (List Nat) Nat Unit)) : Chain (List Nat) Nat Unit :=
  blocks.foldl (fun chain block =>
    match chain.addBlock listHashing (fun _ _ => false) block ⟨0, 0, 0, [], [], []⟩ with
    | .ok (next, _) => next
    | .error _ => chain) (newChain listHashing forkGenesis ⟨0, 0, 0, [], [], []⟩)

theorem trunk_only_matches :
    Trace (Adds listHashing fun _ _ => false) (newChain listHashing forkGenesis ⟨0, 0, 0, [], [], []⟩) [trunkBlock] (chainAfter [trunkBlock]) ∧
      (chainAfter [trunkBlock]).IndexMatches listHashing := by
  have run : Trace (Adds listHashing fun _ _ => false) (newChain listHashing forkGenesis ⟨0, 0, 0, [], [], []⟩) ([] ++ [trunkBlock])
      (chainAfter [trunkBlock]) := .snoc .nil ⟨⟨0, 0, 0, [], [], []⟩, _, rfl⟩
  exact ⟨run, (index_matches_iff listHashing _ (by decide) run).mpr (by decide)⟩

/-- A block with a lower score takes over the entry of its number. -/
theorem side_block_in_index :
    Trace (Adds listHashing fun _ _ => false) (newChain listHashing forkGenesis ⟨0, 0, 0, [], [], []⟩) [trunkBlock, sideBlock]
        (chainAfter [trunkBlock, sideBlock]) ∧
      (chainAfter [trunkBlock, sideBlock]).bestBlock = trunkBlock ∧
      (chainAfter [trunkBlock, sideBlock]).getTrunkBlockID 1 = some (sideBlock.id listHashing) ∧
      (chainAfter [trunkBlock, sideBlock]).getAncestorBlockID (trunkBlock.id listHashing) 1 = some (sideBlock.id listHashing) ∧
      sideBlock.id listHashing ≠ trunkBlock.id listHashing := by
  have first : Trace (Adds listHashing fun _ _ => false) (newChain listHashing forkGenesis ⟨0, 0, 0, [], [], []⟩) ([] ++ [trunkBlock])
      (chainAfter [trunkBlock]) := .snoc .nil ⟨⟨0, 0, 0, [], [], []⟩, _, rfl⟩
  exact ⟨.snoc first ⟨⟨0, 0, 0, [], [], []⟩, _, rfl⟩, by decide, by decide, by decide, by decide⟩

/-- An ID starts with the four bytes of its number. -/
def bytesLess (first second : BlockID (List Nat)) : Bool := toLex (first.number, first.tail) < toLex (second.number, second.tail)

theorem bytesLess_order : IsStrictTotalOrder (BlockID (List Nat)) fun first second => bytesLess first second = true where
  irrefl id := by simp [bytesLess]
  trans first second third := by
    simp only [bytesLess, decide_eq_true_eq]
    exact lt_trans
  trichotomous first second notLess notMore := by
    simp only [bytesLess, decide_eq_true_eq, not_lt] at notLess notMore
    have same := Prod.mk.inj (toLex.injective (le_antisymm notMore notLess))
    exact BlockID.mk.injEq .. ▸ same

def noQC : QuorumCert (List Nat) := ⟨0, 0, 0, [], [], []⟩

theorem forks_agree : ∃ chain chain' : Chain (List Nat) Nat Unit, chain.blocks = [sideBlock, trunkBlock, forkGenesis] ∧
    chain'.blocks = [trunkBlock, sideBlock, forkGenesis] ∧ chain.bestBlock.id listHashing = chain'.bestBlock.id listHashing := by
  have run : Trace (Adds listHashing bytesLess) (newChain listHashing forkGenesis noQC) ([] ++ [trunkBlock] ++ [sideBlock]) _ :=
    .snoc (.snoc .nil ⟨noQC, _, rfl⟩) ⟨noQC, _, rfl⟩
  have other : Trace (Adds listHashing bytesLess) (newChain listHashing forkGenesis noQC) ([] ++ [sideBlock] ++ [trunkBlock]) _ :=
    .snoc (.snoc .nil ⟨noQC, _, rfl⟩) ⟨noQC, _, rfl⟩
  exact ⟨_, _, rfl, rfl, (best_blocks_agree bytesLess_order run other (by simp [or_comm])).1⟩

theorem side_block_forks : ∃ fork other, (chainAfter [trunkBlock]).buildFork listHashing 3 sideBlock trunkBlock [] [] = some fork ∧
    (chainAfter [trunkBlock]).Forking listHashing sideBlock trunkBlock fork.ancestor other fork.trunk fork.branch := by
  have run : Trace (Adds listHashing fun _ _ => false) (newChain listHashing forkGenesis noQC) ([] ++ [trunkBlock]) (chainAfter [trunkBlock]) :=
    .snoc .nil ⟨noQC, _, rfl⟩
  have up : (chainAfter [trunkBlock]).HasParent listHashing sideBlock forkGenesis := ⟨by decide, rfl⟩
  obtain ⟨fork, found, other, -, forking⟩ := fork_of_run (by decide) run (by decide) up
  exact ⟨fork, other, found, forking⟩

end

end Chain
end MeterPov.Chains
