import MeterPov.KBlock.Comparison

/-! For which local K-blocks every proposed block that passes has the same transactions.

Nothing in the three comparisons ties a clause to its transaction, to its place in it, or its script to its destination,
and clauses without a script may be left out or carry other data. What remains are local blocks that leave no choice. -/

set_option autoImplicit false

namespace MeterPov.KBlock

open Lib Blocks Consensus Auction Staking List

/-! ## What the hashes of one clause determine -/

namespace BuiltClause

variable (built : BuiltClause)

/-- The hash of the script covers all that is compared: the rewards of a governing body, or a lock. -/
def Covered : Prop :=
  built.value = 0 ∧
    match built.script with
    | some ⟨_, .staking body⟩ => body.opcode = Staking.opGoverning
    | some ⟨_, .accountLock _⟩ => True
    | _ => False

/-- Every clause with the same hashes is the same clause. -/
def Rigid : Prop :=
  ∀ clause : Clause, clause.WellFormed → clause.uniteHash = built.clause.uniteHash →
    clause.scriptKey? = built.clause.scriptKey? → clause.view = built.clause.view

variable {built}

theorem script_of_scriptKey? {clause : Clause} {key} (found : clause.scriptKey? = some key) :
    ∃ script, clause.data = .script script ∧ script.uniteHash = key := by
  unfold Clause.scriptKey? Clause.script? at found
  split at found
  next script isScript =>
    split at isScript
    · cases isScript
    · split at isScript
      · cases isScript
      next data =>
        cases isScript
        exact ⟨script, data, Option.some.inj found⟩
      · cases isScript
  · cases found

variable {script : ScriptData}

theorem clause_scriptKey? (free : built.value = 0) (isScript : built.script = some script) :
    built.clause.scriptKey? = some script.uniteHash := by
  simp [Clause.scriptKey?, Clause.script?, BuiltClause.clause, free, isScript]

theorem Covered.isSome_scriptKey? (covered : built.Covered) : (built.clause.scriptKey?).isSome := by
  obtain ⟨free, body⟩ := covered
  split at body
  next isScript => rw [clause_scriptKey? free isScript]; rfl
  next isScript => rw [clause_scriptKey? free isScript]; rfl
  · exact body.elim

theorem Covered.rigid (covered : built.Covered) : built.Rigid := by
  intro clause _ sameKey sameScript
  obtain ⟨free, body⟩ := covered
  split at body
  next version staking isScript =>
    rw [clause_scriptKey? free isScript] at sameScript
    obtain ⟨⟨version', payload⟩, data, key⟩ := script_of_scriptKey? sameScript
    obtain ⟨rfl, -, bodies⟩ : version' = version ∧ _ ∧ _ := by simpa [ScriptData.uniteHash] using key
    have local_ : built.clause.data = .script ⟨version', .staking staking⟩ := by simp [BuiltClause.clause, isScript]
    cases payload with
    | staking other =>
      obtain ⟨stripped, extra⟩ := staking_uniteHash_iff.mp bodies
      have opcode := opcode_of_stripStaking stripped
      unfold Clause.view
      rw [sameKey, data, local_]
      simp only [ClauseData.view, stripped, opcode, view_eq_of_extraKey body (extra (opcode.trans body))]
    | auction other => simp [Payload.uniteHash] at bodies
    | accountLock other => simp [Payload.uniteHash] at bodies
    | raw modID payload => simp [Payload.uniteHash] at bodies
  next version lock isScript =>
    rw [clause_scriptKey? free isScript] at sameScript
    obtain ⟨⟨version', payload⟩, data, key⟩ := script_of_scriptKey? sameScript
    obtain ⟨rfl, -, bodies⟩ : version' = version ∧ _ ∧ _ := by simpa [ScriptData.uniteHash] using key
    have local_ : built.clause.data = .script ⟨version', .accountLock lock⟩ := by simp [BuiltClause.clause, isScript]
    cases payload with
    | accountLock other =>
      simp only [Payload.uniteHash, Option.some.injEq, BodyKey.accountLock.injEq] at bodies
      unfold Clause.view
      rw [sameKey, data, local_, bodies]
    | staking other => simp [Payload.uniteHash] at bodies
    | auction other => simp [Payload.uniteHash] at bodies
    | raw modID payload => simp [Payload.uniteHash] at bodies
  · exact body.elim

theorem clause_wellFormed (built : BuiltClause) : built.clause.WellFormed := by
  intro reason
  unfold Clause.script? BuiltClause.clause
  by_cases paid : built.value = 0
  · cases built.script <;> simp [paid]
  · simp [paid]

/-- Data that is no script takes any other bytes. -/
theorem Rigid.isScript (rigid : built.Rigid) : built.value = 0 ∧ built.script ≠ none := by
  by_contra noScript
  have absent : built.clause.scriptKey? = none := by
    unfold Clause.scriptKey? Clause.script? BuiltClause.clause
    by_cases paid : built.value = 0
    · have none_ : built.script = none := by simpa [paid] using noScript
      simp [none_]
    · simp [paid]
  have other (data : ClauseData) (wellFormed : Clause.WellFormed ⟨built.toAddr, built.value, built.token, data⟩)
      (plain : Clause.scriptKey? ⟨built.toAddr, built.value, built.token, data⟩ = none) : data.view = built.clause.data.view :=
    congrArg ClauseView.data (rigid ⟨built.toAddr, built.value, built.token, data⟩ wellFormed rfl (plain.trans absent.symm))
  have bytes (value : UInt8) : Clause.WellFormed ⟨built.toAddr, built.value, built.token, .plain [value]⟩ := by
    intro reason
    simp [Clause.script?]
  have first := other (.plain [0]) (bytes 0) (by simp [Clause.scriptKey?, Clause.script?])
  have second := other (.plain [1]) (bytes 1) (by simp [Clause.scriptKey?, Clause.script?])
  have same := first.trans second.symm
  simp [ClauseData.view] at same

theorem Rigid.payload (rigid : built.Rigid) (isScript : built.script = some script) (payload : Payload)
    (sameModule : payload.modID = script.payload.modID) (sameHash : payload.uniteHash = script.payload.uniteHash) :
    (ClauseData.script ⟨script.version, payload⟩).view = (ClauseData.script script).view := by
  have free := rigid.isScript.1
  have sameKey : ScriptData.uniteHash ⟨script.version, payload⟩ = script.uniteHash := by
    simp [ScriptData.uniteHash, sameModule, sameHash]
  have same := rigid ⟨built.toAddr, built.value, built.token, .script ⟨script.version, payload⟩⟩
    (fun reason => by simp [Clause.script?, free]) rfl
    (by rw [clause_scriptKey? free isScript, ← sameKey]; simp [Clause.scriptKey?, Clause.script?, free])
  have data := congrArg ClauseView.data same
  simpa [Clause.view, BuiltClause.clause, isScript] using data

theorem rigid_iff_covered : built.Rigid ↔ built.Covered := by
  refine ⟨fun rigid => ?_, Covered.rigid⟩
  obtain ⟨free, some_⟩ := rigid.isScript
  obtain ⟨⟨version, payload⟩, isScript⟩ := Option.ne_none_iff_exists'.mp some_
  refine ⟨free, ?_⟩
  rw [isScript]
  cases payload with
  | staking body =>
    by_contra other
    -- the extra data of any other body is hashed into nothing
    have swapped (extra : Staking.ExtraData) : extra = body.extraData := by
      have same := rigid.payload isScript (.staking { body with extraData := extra }) rfl
        (by simp [Payload.uniteHash, stripStaking, other])
      simpa [ClauseData.view, stripStaking, extraView, other] using same
    have different := (swapped (.raw [])).trans (swapped (.raw [0])).symm
    simp at different
  | auction body =>
    have later := rigid.payload isScript (.auction { body with timestamp := body.timestamp + 1 }) rfl
      (by simp [Payload.uniteHash, stripAuction])
    simp only [ClauseData.view, DataView.other.injEq, ClauseData.script.injEq, ScriptData.mk.injEq, Payload.auction.injEq,
      true_and] at later
    have time := congrArg (fun script => script.timestamp) later
    simp at time
  | accountLock body => trivial
  | raw modID payload =>
    have longer := rigid.payload isScript (.raw modID (0 :: payload)) rfl rfl
    simp [ClauseData.view] at longer

end BuiltClause

/-! ## How the clauses may be arranged -/

section

variable (built : List Built)

def localRows : List (List Clause) := built.map fun tx => tx.clauses.map BuiltClause.clause

def views (rows : List (List Clause)) : List (List ClauseView) := rows.map (List.map Clause.view)

/-- One row for each local transaction, with clauses that the tallies let pass. -/
structure Arranged (rows : List (List Clause)) : Prop where
  length : rows.length = built.length
  wellFormed : ∀ row ∈ rows, ∀ clause ∈ row, clause.WellFormed
  clauses : (rows.flatten.map Clause.uniteHash).Subperm ((localRows built).flatten.map Clause.uniteHash)
  scripts : (rows.flatten.filterMap Clause.scriptKey?).Perm ((localRows built).flatten.filterMap Clause.scriptKey?)

/-- The local clauses leave no choice: there is none, there is one and its hashes determine it, or they all are in one
transaction, are determined and are equal. -/
def Determined : Prop :=
  built.flatMap Built.clauses = [] ∨
  (∃ clause : BuiltClause, built.flatMap Built.clauses = [clause] ∧ clause.Covered) ∨
  ∃ tx : Built, built = [tx] ∧ (∀ clause ∈ tx.clauses, clause.Covered) ∧
    ∃ view : ClauseView, ∀ clause ∈ tx.clauses, clause.clause.view = view

variable {built} {rows : List (List Clause)}

theorem flatten_localRows : (localRows built).flatten = (built.flatMap Built.clauses).map BuiltClause.clause := by
  unfold localRows
  rw [map_flatMap, flatMap_def]

theorem localRows_wellFormed : ∀ row ∈ localRows built, ∀ clause ∈ row, clause.WellFormed := by
  intro row listed clause among
  obtain ⟨tx, -, rfl⟩ := mem_map.mp listed
  obtain ⟨clause', -, rfl⟩ := mem_map.mp among
  exact clause'.clause_wellFormed

theorem views_flatten (rows : List (List Clause)) : (views rows).flatten = rows.flatten.map Clause.view := map_flatten.symm

variable {α : Type}

theorem eq_replicate_of_flatten_nil {rows : List (List α)} (flat : rows.flatten = []) : rows = List.replicate rows.length [] :=
  eq_replicate_iff.mpr ⟨rfl, flatten_eq_nil_iff.mp flat⟩

theorem perm_of_flatten_singleton {value : α} {rows : List (List α)} (flat : rows.flatten = [value]) :
    rows.Perm ([value] :: List.replicate (rows.length - 1) []) := by
  induction rows with
  | nil => cases flat
  | cons row rest ih =>
    cases row with
    | nil =>
      have many : rest.length ≠ 0 := by
        intro none_
        rw [length_eq_zero_iff.mp none_] at flat
        cases flat
      obtain ⟨size, length⟩ := Nat.exists_eq_succ_of_ne_zero many
      have others := ih flat
      simp only [length_cons, length, Nat.succ_eq_add_one, add_sub_cancel, replicate_succ] at others ⊢
      exact (others.cons []).trans (List.Perm.swap _ _ _)
    | cons head tail =>
      obtain ⟨rfl, others⟩ := List.cons.inj flat
      obtain ⟨rfl, others⟩ := append_eq_nil_iff.mp others
      rw [eq_replicate_of_flatten_nil others]
      simp

theorem flatten_views_localRows :
    (views (localRows built)).flatten = (built.flatMap Built.clauses).map fun clause => clause.clause.view := by
  rw [views_flatten, flatten_localRows, map_map]
  rfl

/-- Where all local clauses are covered, those of an arrangement are as many, and each has a local script. -/
theorem Arranged.of_covered (arranged : Arranged built rows) (covered : ∀ clause ∈ built.flatMap Built.clauses, clause.Covered) :
    rows.flatten.length = (built.flatMap Built.clauses).length ∧
    ∀ clause ∈ rows.flatten, ∃ local_ ∈ built.flatMap Built.clauses, clause.scriptKey? = local_.clause.scriptKey? := by
  have scripts := arranged.scripts
  have fewer := arranged.clauses.length_le
  rw [flatten_localRows] at scripts fewer
  rw [length_map, length_map, length_map] at fewer
  have all : (((built.flatMap Built.clauses).map BuiltClause.clause).filterMap Clause.scriptKey?).length
      = (built.flatMap Built.clauses).length := by
    rw [filterMap_map]
    exact filterMap_length_eq_length.mpr fun local_ listed => (covered local_ listed).isSome_scriptKey?
  have some_ := length_filterMap_le Clause.scriptKey? rows.flatten
  rw [scripts.length_eq, all] at some_
  have length := le_antisymm fewer some_
  refine ⟨length, fun clause listed => ?_⟩
  have isScript : (clause.scriptKey?).isSome :=
    filterMap_length_eq_length.mp (by rw [scripts.length_eq, all, length]) clause listed
  obtain ⟨key, found⟩ := Option.isSome_iff_exists.mp isScript
  have among := scripts.mem_iff.mp (mem_filterMap.mpr ⟨clause, listed, found⟩)
  obtain ⟨_, among, foundLocal⟩ := mem_filterMap.mp among
  obtain ⟨local_, known, rfl⟩ := mem_map.mp among
  exact ⟨local_, known, found.trans foundLocal.symm⟩

/-- If besides all local clauses have one hash, each clause of an arrangement is a local one. -/
theorem Arranged.view_of_covered (arranged : Arranged built rows) (covered : ∀ clause ∈ built.flatMap Built.clauses, clause.Covered)
    {view} (same : ∀ clause ∈ built.flatMap Built.clauses, clause.clause.view = view) :
    ∀ clause ∈ rows.flatten, clause.view = view := by
  intro clause listed
  obtain ⟨local_, known, sameScript⟩ := (arranged.of_covered covered).2 clause listed
  have among := arranged.clauses.subset (mem_map_of_mem listed)
  rw [flatten_localRows, map_map] at among
  obtain ⟨other, otherKnown, otherKey⟩ := mem_map.mp among
  have sameKey : clause.uniteHash = local_.clause.uniteHash := by
    calc clause.uniteHash = other.clause.view.key := otherKey.symm
      _ = view.key := by rw [same other otherKnown]
      _ = local_.clause.view.key := by rw [same local_ known]
  obtain ⟨row, row_mem, clause_mem⟩ := mem_flatten.mp listed
  have wellFormed := arranged.wellFormed row row_mem clause clause_mem
  exact ((covered local_ known).rigid clause wellFormed sameKey sameScript).trans (same local_ known)

theorem Determined.perm (determined : Determined built) (arranged : Arranged built rows) :
    (views rows).Perm (views (localRows built)) := by
  have lengths : (views rows).length = (views (localRows built)).length := by
    simp [views, arranged.length, localRows]
  rcases determined with empty | ⟨clause, single, covered⟩ | ⟨tx, rfl, covered, view, same⟩
  · have localEmpty : (views (localRows built)).flatten = [] := by rw [flatten_views_localRows, empty, map_nil]
    have noClause : rows.flatten = [] := by
      have fewer := arranged.clauses.length_le
      rw [flatten_localRows, empty, length_map] at fewer
      exact length_eq_zero_iff.mp (Nat.le_zero.mp fewer)
    have proposedEmpty : (views rows).flatten = [] := by rw [views_flatten, noClause, map_nil]
    rw [eq_replicate_of_flatten_nil proposedEmpty, eq_replicate_of_flatten_nil localEmpty, lengths]
  · have only : ∀ local_ ∈ built.flatMap Built.clauses, local_ = clause := fun local_ listed => by simpa [single] using listed
    have localSingle : (views (localRows built)).flatten = [clause.clause.view] := by rw [flatten_views_localRows, single]; rfl
    have covered' : ∀ local_ ∈ built.flatMap Built.clauses, local_.Covered := fun local_ listed => only local_ listed ▸ covered
    have all := arranged.view_of_covered covered' fun local_ listed => by rw [only local_ listed]
    have one := (arranged.of_covered covered').1
    rw [single] at one
    obtain ⟨proposed, flat⟩ := length_eq_one_iff.mp one
    have proposedSingle : (views rows).flatten = [clause.clause.view] := by
      rw [views_flatten, flat, map_singleton, all proposed (by simp [flat])]
    have perm := perm_of_flatten_singleton proposedSingle
    rw [lengths] at perm
    exact perm.trans (perm_of_flatten_singleton localSingle).symm
  · obtain ⟨row, rfl⟩ := length_eq_one_iff.mp arranged.length
    have clauses : [tx].flatMap Built.clauses = tx.clauses := by simp
    rw [← clauses] at covered same
    have all := arranged.view_of_covered covered same
    have length := (arranged.of_covered covered).1
    have rowViews : row.map Clause.view = List.replicate tx.clauses.length view := by
      rw [eq_replicate_iff]
      exact ⟨by simpa using length, by simpa using all⟩
    have localViews : (tx.clauses.map BuiltClause.clause).map Clause.view = List.replicate tx.clauses.length view := by
      rw [eq_replicate_iff]
      exact ⟨by simp, by simpa using same⟩
    simp only [views, localRows, map_cons, map_nil, rowViews, localViews]
    exact .refl _

/-! ## What an arrangement may change -/

theorem arranged_of_perm (length : rows.length = built.length) (perm : rows.flatten.Perm (localRows built).flatten) :
    Arranged built rows where
  length := length
  wellFormed row listed clause among := by
    have known := perm.mem_iff.mp (mem_flatten.mpr ⟨row, listed, among⟩)
    obtain ⟨row', listed', among'⟩ := mem_flatten.mp known
    exact localRows_wellFormed row' listed' clause among'
  clauses := (perm.map _).subperm
  scripts := perm.filterMap _

theorem perm_middle_inj {before after} {first second : α} (perm : (before ++ first :: after).Perm (before ++ second :: after)) : first = second := by
  have swapped := perm_middle.symm.trans (perm.trans perm_middle)
  have multisets : first ::ₘ (↑(before ++ after) : Multiset α) = second ::ₘ ↑(before ++ after) := Multiset.coe_eq_coe.mpr swapped
  exact (Multiset.cons_inj_left _).mp multisets

variable (fixed : ∀ rows, Arranged built rows → (views rows).Perm (views (localRows built)))

include fixed

/-- One clause may be put in the place of another with the same hashes. -/
theorem rigid_of_fixed {clause} (listed : clause ∈ built.flatMap Built.clauses) : clause.Rigid := by
  intro other wellFormed sameKey sameScript
  obtain ⟨tx, known, among⟩ := mem_flatMap.mp listed
  obtain ⟨before, after, rfl⟩ := append_of_mem known
  obtain ⟨front, back, split⟩ := append_of_mem among
  let row (clause : Clause) : List Clause := front.map BuiltClause.clause ++ clause :: back.map BuiltClause.clause
  have localSplit : localRows (before ++ tx :: after) = localRows before ++ row clause.clause :: localRows after := by
    simp [localRows, row, split]
  have arranged : Arranged (before ++ tx :: after) (localRows before ++ row other :: localRows after) := by
    have local_ := @localRows_wellFormed (before ++ tx :: after)
    rw [localSplit] at local_
    refine ⟨by simp [localRows], ?_, ?_, ?_⟩
    · simp only [row, forall_mem_append, forall_mem_cons] at local_ ⊢
      exact ⟨local_.1, ⟨local_.2.1.1, wellFormed, local_.2.1.2.2⟩, local_.2.2⟩
    · rw [localSplit]
      simp only [row, flatten_append, flatten_cons, map_append, map_cons, sameKey]
      exact List.Subperm.refl _
    · rw [localSplit]
      simp only [row, flatten_append, flatten_cons, filterMap_append, filterMap_cons, sameScript]
      exact List.Perm.refl _
  have perm := fixed _ arranged
  rw [localSplit] at perm
  simp only [views, map_append, map_cons] at perm
  have rowsEqual := perm_middle_inj perm
  simpa [row] using rowsEqual

/-- All clauses may be in the first transaction, and the last of them in the second. -/
theorem few_of_fixed : (built.flatMap Built.clauses).length ≤ 1 ∨ built.length ≤ 1 := by
  by_contra many
  push Not at many
  obtain ⟨manyClauses, manyTxs⟩ := many
  obtain ⟨size, length⟩ := Nat.exists_eq_add_of_le manyTxs
  have counted : (localRows built).flatten.length = (built.flatMap Built.clauses).length := by
    rw [flatten_localRows, length_map]
  rcases eq_nil_or_concat' (localRows built).flatten with none_ | ⟨front, last, split⟩
  · rw [none_, length_nil] at counted
    omega
  have together : Arranged built ((front ++ [last]) :: List.replicate (size + 1) []) := by
    refine arranged_of_perm (by simp [length]; omega) ?_
    simp [split]
  have apart : Arranged built (front :: [last] :: List.replicate size []) := by
    refine arranged_of_perm (by simp [length]; omega) ?_
    simp [split]
  have perm := (fixed _ together).trans (fixed _ apart).symm
  -- no row of the second is as long as the first row of the first
  have listed : (front ++ [last]).map Clause.view ∈ views (front :: [last] :: List.replicate size []) :=
    perm.mem_iff.mp (by simp [views])
  obtain ⟨row, row_mem, same⟩ := mem_map.mp listed
  have sameLength := congrArg List.length same
  rw [split, length_append] at counted
  simp only [length_map, length_append, length_cons, length_nil] at sameLength counted
  simp only [mem_cons, mem_replicate] at row_mem
  rcases row_mem with rfl | rfl | ⟨_, rfl⟩
  · omega
  · simp only [length_cons, length_nil] at sameLength
    omega
  · simp only [length_nil] at sameLength
    omega

/-- Clauses of one transaction may be in another order. -/
theorem equal_of_fixed {tx} (single : built = [tx]) : ∃ view : ClauseView, ∀ clause ∈ tx.clauses, clause.clause.view = view := by
  have rotated : Arranged built [(tx.clauses.map BuiltClause.clause).rotate 1] := by
    refine arranged_of_perm (by simp [single]) ?_
    simpa [single, localRows] using rotate_perm _ 1
  have perm := fixed _ rotated
  rw [single] at perm
  simp only [views, localRows, map_cons, map_nil, perm_singleton, List.cons.injEq, and_true, map_rotate] at perm
  cases clauses : tx.clauses with
  | nil => exact ⟨⟨⟨none, 0, 0⟩, .other (.plain [])⟩, nofun⟩
  | cons head tail =>
    have : Nonempty ClauseView := ⟨head.clause.view⟩
    obtain ⟨view, all⟩ := rotate_one_eq_self_iff_eq_replicate.mp perm
    have each := (eq_replicate_iff.mp all).2
    exact ⟨view, fun clause listed => each _ (by
      rw [map_map]
      exact mem_map.mpr ⟨clause, clauses ▸ listed, rfl⟩)⟩

theorem determined_of_fixed : Determined built := by
  have covered : ∀ clause ∈ built.flatMap Built.clauses, clause.Covered := fun clause listed =>
    BuiltClause.rigid_iff_covered.mp (rigid_of_fixed fixed listed)
  cases clauses : built.flatMap Built.clauses with
  | nil => exact .inl clauses
  | cons head tail =>
    rcases few_of_fixed fixed with few | few
    · rw [clauses] at few covered
      have none_ : tail = [] := by simpa using few
      rw [none_] at clauses
      exact .inr (.inl ⟨head, clauses, covered head mem_cons_self⟩)
    · have some_ : built ≠ [] := by
        rintro rfl
        cases clauses
      obtain ⟨tx, single⟩ := length_eq_one_iff.mp
        (le_antisymm few (length_pos_iff.mpr some_))
      refine .inr (.inr ⟨tx, single, ?_, equal_of_fixed fixed single⟩)
      simpa [single] using covered

end

/-! ## Blocks -/

section

variable {Digest : Type} (env : BodyEnv Digest) (built : List Built)

def localTxs : List Transaction := built.map (Built.transaction env.chainTag)

def proposeTx (entry : Built × List Clause) : Transaction :=
  { entry.1.transaction env.chainTag with clauses := entry.2, blockRef := 2 ^ 32 }

def propose (rows : List (List Clause)) : Block Digest Address Transaction :=
  let txs := (built.zip rows).map (proposeTx env)
  let root := env.txsRoot txs
  { header := ⟨⟨0, root⟩, 0, 0, 0, .kBlock, 0, 0, 0, root, root, root, root, []⟩
    txs := txs
    qc := ⟨0, 0, 0, [], root, []⟩
    committeeEpoch := 0
    kBlockNonce := 0
    magic := blockMagicVersion1 }

/-- What the hash of a local transaction fixes of it. -/
def builtView (clauses : List ClauseView) : TxView := ⟨env.chainTag, 0, none, [], clauses⟩

variable {env built} {rows : List (List Clause)}

theorem localTxs_readable : ∀ tx ∈ localTxs env built, ∀ clause ∈ tx.clauses, clause.Readable := by
  intro tx listed clause among
  obtain ⟨builtTx, -, rfl⟩ := mem_map.mp listed
  obtain ⟨builtClause, -, rfl⟩ := mem_map.mp among
  exact builtClause.readable

theorem localTxs_clauses : (localTxs env built).flatMap Transaction.clauses = (localRows built).flatten := by
  unfold localTxs localRows
  rw [flatMap_map, flatMap_def]
  rfl

theorem localTxs_views : (localTxs env built).map Transaction.view = (views (localRows built)).map (builtView env) := by
  simp [localTxs, views, localRows, Transaction.view, builtView, Built.transaction]

theorem proposeTx_admissible (entry : Built × List Clause) : Admissible env 1 (proposeTx env entry) where
  signed := ⟨0, rfl⟩
  ethTx := rfl
  reference := by
    have reached : (proposeTx env entry).refNumber = 1 := by simp [Transaction.refNumber, proposeTx]
    have valid : (proposeTx env entry).isExpired 1 = false := by simp [Transaction.isExpired, reached]
    unfold validateReference
    rw [if_neg (by simp [proposeTx, Built.transaction]), if_neg (by simp [reached]), valid]
    rfl

theorem propose_signerless : signerless env (propose env built rows).txs = (propose env built rows).txs := by
  refine filter_eq_self.mpr fun tx listed => ?_
  obtain ⟨entry, -, rfl⟩ := mem_map.mp listed
  rfl

theorem propose_clauses (length : rows.length = built.length) :
    (propose env built rows).txs.flatMap Transaction.clauses = rows.flatten := by
  change ((built.zip rows).map (proposeTx env)).flatMap Transaction.clauses = _
  rw [flatMap_map, flatMap_def]
  exact congrArg List.flatten (map_snd_zip length.le)

theorem propose_hashes (length : rows.length = built.length) :
    (propose env built rows).txs.map Transaction.uniteHash = (localTxs env built).map Transaction.uniteHash := by
  have firsts := map_fst_zip length.ge
  calc ((built.zip rows).map (proposeTx env)).map Transaction.uniteHash
      = ((built.zip rows).map Prod.fst).map fun tx => (tx.transaction env.chainTag).uniteHash := by
        rw [map_map, map_map]
        rfl
    _ = (localTxs env built).map Transaction.uniteHash := by
        rw [firsts, localTxs, map_map]
        rfl

variable [DecidableEq Digest]

theorem propose_accepted (arranged : Arranged built rows) :
    Accepts (validateBlockBody env (some (localTxs env built)) (propose env built rows)) () := by
  rw [validateBlockBody_accepts_iff rfl localTxs_readable, propose_signerless]
  have clauses := @propose_clauses _ env _ _ arranged.length
  refine ⟨⟨rfl, rfl⟩, ?_, ?_, ?_, ?_, ?_⟩
  · intro tx listed
    obtain ⟨entry, -, rfl⟩ := mem_map.mp listed
    exact proposeTx_admissible entry
  · intro tx listed clause among
    have known : clause ∈ rows.flatten := clauses ▸ mem_flatMap.mpr ⟨tx, listed, among⟩
    obtain ⟨row, row_mem, clause_mem⟩ := mem_flatten.mp known
    exact arranged.wellFormed row row_mem clause clause_mem
  · simp only [Keys.of, propose_hashes arranged.length]
    exact .refl _
  · simpa only [Keys.of, clauses, localTxs_clauses] using arranged.clauses
  · simpa only [Keys.of, clauses, localTxs_clauses] using arranged.scripts

variable {block : Block Digest Address Transaction}

theorem arranged_of_accepts (kblock : block.isKBlock = true)
    (accepted : Accepts (validateBlockBody env (some (localTxs env built)) block) ()) :
    Arranged built ((signerless env block.txs).map Transaction.clauses) := by
  rw [validateBlockBody_accepts_iff kblock localTxs_readable] at accepted
  obtain ⟨-, -, wellFormed, matched⟩ := accepted
  have clauses : ((signerless env block.txs).map Transaction.clauses).flatten
      = (signerless env block.txs).flatMap Transaction.clauses := flatMap_def.symm
  refine ⟨?_, ?_, ?_, ?_⟩
  · have lengths := matched.txs.length_eq
    simpa [Keys.of, localTxs] using lengths
  · intro row listed clause among
    obtain ⟨tx, known, rfl⟩ := mem_map.mp listed
    exact wellFormed tx known clause among
  · simpa only [Keys.of, clauses, localTxs_clauses] using matched.clauses
  · simpa only [Keys.of, clauses, localTxs_clauses] using matched.scripts

/-- Every K-block that passes against the local transactions has the same ones exactly if those are determined. -/
theorem accepted_kblocks_sound_iff (env : BodyEnv Digest) (built : List Built) :
    (∀ block : Block Digest Address Transaction, block.isKBlock = true →
      Accepts (validateBlockBody env (some (localTxs env built)) block) () →
      ((signerless env block.txs).map Transaction.view : Multiset TxView) = (localTxs env built).map Transaction.view) ↔
    Determined built := by
  simp only [Multiset.coe_eq_coe]
  constructor
  · intro sound
    refine determined_of_fixed fun rows arranged => ?_
    have same := sound (propose env built rows) rfl (propose_accepted arranged)
    have proposed : (propose env built rows).txs.map Transaction.clauses = rows := by
      change ((built.zip rows).map (proposeTx env)).map Transaction.clauses = rows
      rw [map_map]
      exact map_snd_zip arranged.length.le
    have clauses := same.map TxView.clauses
    rw [propose_signerless, localTxs_views, map_map, map_map] at clauses
    have first : (propose env built rows).txs.map (TxView.clauses ∘ Transaction.view) = views rows := by
      calc _ = ((propose env built rows).txs.map Transaction.clauses).map (List.map Clause.view) := by
            rw [map_map]
            rfl
        _ = views rows := by rw [proposed, views]
    rw [first] at clauses
    simpa [Function.comp_def, builtView] using clauses
  · intro determined block kblock accepted
    have signerlessViews : (signerless env block.txs).map Transaction.view = (views ((signerless env block.txs).map
        Transaction.clauses)).map (builtView env) := by
      rw [validateBlockBody_accepts_iff kblock localTxs_readable] at accepted
      have hashes := accepted.2.2.2.txs
      rw [views, map_map, map_map]
      refine map_congr_left fun tx listed => ?_
      have known := hashes.mem_iff.mp (mem_map_of_mem listed)
      obtain ⟨local_, among, same⟩ := mem_map.mp known
      obtain ⟨builtTx, -, rfl⟩ := mem_map.mp among
      simp only [Transaction.uniteHash, TxKey.mk.injEq, Built.transaction] at same
      obtain ⟨tag, -, coef, depends, -, reserved⟩ := same
      simp [Transaction.view, builtView, ← tag, ← coef, ← depends, ← reserved]
    rw [signerlessViews, localTxs_views]
    exact (determined.perm (arranged_of_accepts kblock accepted)).map _

end

/-! A reward of a miner that is left out. -/

def rewardEnv : BodyEnv Unit := ⟨1, fun _ => (), fun _ => .ok 1, fun _ => .ok ()⟩

def minerReward : Built := ⟨0, 320, 21000, 9, [⟨some 7, 100, 0, none⟩]⟩

theorem reward_left_out : (propose rewardEnv [minerReward] [[]]).isKBlock = true ∧
    Accepts (validateBlockBody rewardEnv (some (localTxs rewardEnv [minerReward])) (propose rewardEnv [minerReward] [[]])) () ∧
    ((signerless rewardEnv (propose rewardEnv [minerReward] [[]]).txs).map Transaction.view : Multiset TxView)
      ≠ (localTxs rewardEnv [minerReward]).map Transaction.view :=
  ⟨rfl, rfl, by decide +kernel⟩

end MeterPov.KBlock
