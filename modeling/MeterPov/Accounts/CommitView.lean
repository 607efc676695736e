import MeterPov.Accounts.Commit

/-! What a committed state answers, compared with the state it was committed from. -/

set_option autoImplicit false

namespace MeterPov.Accounts

open Lib Auction List Option AList StackedMap Action

/-! ## The journal -/

section

variable {Key : Type} {Value : Key → Type} [DecidableEq Key]

/-- The last entry of each key. -/
def replay (entries : List ((key : Key) × Value key)) : (key : Key) → Option (Value key) :=
  entries.foldl (fun kvs entry => Function.update kvs entry.1 (some entry.2)) fun _ => none

theorem replay_snoc (entries : List ((key : Key) × Value key)) (key : Key) (value : Value key) :
    replay (entries ++ [⟨key, value⟩]) = Function.update (replay entries) key (some value) := by
  simp [replay]

theorem replay_append (first second : List ((key : Key) × Value key)) (key : Key) :
    replay (first ++ second) key = (replay second key).or (replay first key) := by
  induction second using List.reverseRecOn with
  | nil => simp [replay]
  | append_singleton rest entry ih =>
    obtain ⟨last, value⟩ := entry
    rw [← append_assoc, replay_snoc, replay_snoc]
    by_cases same : key = last
    · subst same
      simp
    · simp [same, ih]

/-- A level holds what its journal says last. -/
def Level.Recorded (level : Level Key Value) : Prop := level.kvs = replay level.journal

theorem replay_isSome (entries : List ((key : Key) × Value key)) (key : Key) :
    (replay entries key).isSome = true ↔ key ∈ entries.map Sigma.fst := by
  induction entries using List.reverseRecOn with
  | nil => simp [replay]
  | append_singleton rest entry ih =>
    obtain ⟨last, value⟩ := entry
    rw [replay_snoc]
    by_cases same : key = last
    · subst same
      simp
    · simp [same, ih]

theorem newLevel_recorded : (newLevel : Level Key Value).Recorded := rfl

theorem Level.Recorded.record {level : Level Key Value} (known : level.Recorded) (key : Key) (value : Value key) :
    (level.record key value).Recorded := by
  unfold Level.Recorded Level.record
  rw [replay_snoc, ← known]

theorem lookup_eq_replay {levels : List (Level Key Value)} (recorded : ∀ level ∈ levels, level.Recorded) (key : Key) :
    lookup levels key = replay (entries levels) key := by
  induction levels with
  | nil => rfl
  | cons top below ih =>
    rw [entries_cons, replay_append, lookup, recorded top mem_cons_self]
    rw [ih fun level listed => recorded level (mem_cons_of_mem top listed)]

end

variable {Digest : Type} {env : CommitEnv Digest} {source : MapGetter StateKey StateKey.Value} {state next : State}

/-! ## Reachable states -/

/-- What holds of the accounts at every moment between operations: the code is the one of the code hash, and the storage
root is the original one or that of a deleted account. -/
structure Sane (env : CommitEnv Digest) (source : MapGetter StateKey StateKey.Value) (view : (key : StateKey) → key.Value) : Prop where
  code : ∀ addr, (view (.account addr) : Account).codeHash = codeHashOf env (view (.code addr))
  root : ∀ addr, (view (.account addr) : Account).storageRoot = ((source (.account addr)).1 : Account).storageRoot ∨
    (view (.account addr) : Account).storageRoot = []

def viewOf (source : MapGetter StateKey StateKey.Value) (levels : List (Level StateKey StateKey.Value)) (key : StateKey) : key.Value :=
  (lookup levels key).getD (source key).1

theorem State.get_eq_viewOf (state : State) (key : StateKey) : state.get key = viewOf state.sm.src state.sm.mapStack key := by
  unfold State.get viewOf
  rw [get_eq]
  cases lookup state.sm.mapStack key with
  | none => rfl
  | some value => rfl

/-- Everything but the top level, which an operation may be writing to. -/
structure Steady (env : CommitEnv Digest) (source : MapGetter StateKey StateKey.Value) (state : State) : Prop where
  src : state.sm.src = source
  recorded : ∀ level ∈ state.sm.mapStack, level.Recorded
  below : ∀ levels, levels <:+ state.sm.mapStack.tail → Sane env source (viewOf source levels)
  err : state.err = false

structure Consistent (env : CommitEnv Digest) (source : MapGetter StateKey StateKey.Value) (state : State) : Prop extends
    Steady env source state where
  sane : Sane env source state.get

theorem Consistent.suffix (known : Consistent env source state) {levels} (part : levels <:+ state.sm.mapStack) : Sane env source (viewOf source levels) := by
  have whole : viewOf source state.sm.mapStack = state.get := by
    funext key
    rw [state.get_eq_viewOf, known.src]
  cases stack : state.sm.mapStack with
  | nil =>
    rw [stack] at part whole
    rw [suffix_nil.mp part, whole]
    exact known.sane
  | cons top rest =>
    rw [stack] at part whole
    rcases suffix_cons_iff.mp part with rfl | lower
    · rw [whole]
      exact known.sane
    · exact known.below levels (by rw [stack]; exact lower)

/-- One `Put`: what is steady stays so, and only the key is read otherwise. -/
structure Puts (env : CommitEnv Digest) (source : MapGetter StateKey StateKey.Value) (state : State) (key : StateKey) (value : key.Value)
    (next : State) : Prop where
  steady : Steady env source next
  self : next.get key = value
  other : ∀ other, other ≠ key → next.get other = state.get other

theorem puts_of_put {key value} (known : Steady env source state) (ran : State.put key value state = .ok () next) :
    Puts env source state key value next := by
  rw [State.put_eq] at ran
  split at ran
  · cases ran
  next held =>
    cases ran
    obtain ⟨top, below, levels⟩ := exists_cons_of_ne_nil (ne_nil_of_length_pos (pos_of_ne_zero held))
    have written := put_mapStack levels key value
    refine ⟨⟨?_, ?_, ?_, known.err⟩, State.get_put_self held key value, fun _ different => State.get_put_of_ne state different value⟩
    · rw [put_src]
      exact known.src
    · intro level listed
      simp only [written, mem_cons] at listed
      rcases listed with rfl | lower
      · exact (known.recorded top (by simp [levels])).record key value
      · exact known.recorded level (by simp [levels, lower])
    · intro lower part
      apply known.below lower
      simpa [written, levels] using part

variable {change : Account → Account} {stage : Stage env} {addr : Address}

theorem updateAccount_ok (known : Steady env source state) (ran : updateAccount addr change state = .ok () next) :
    Puts env source state (.account addr) (change (state.get (.account addr))) next := by
  obtain ⟨_, _, read, ran⟩ := bind_eq_ok.mp ran
  cases read
  exact puts_of_put known ran

/-- Only one account, or its code, reads otherwise. -/
theorem Sane.of_entry {view later} (addr : Address) (sane : Sane env source view)
    (others : ∀ other, other ≠ addr → later (.account other) = view (.account other) ∧ later (.code other) = view (.code other))
    (code : (later (.account addr) : Account).codeHash = codeHashOf env (later (.code addr)))
    (root : (later (.account addr) : Account).storageRoot = ((source (.account addr)).1 : Account).storageRoot ∨
      (later (.account addr) : Account).storageRoot = []) : Sane env source later := by
  constructor
  · intro other
    by_cases same : other = addr
    · subst same
      exact code
    · rw [(others other same).1, (others other same).2]
      exact sane.code other
  · intro other
    by_cases same : other = addr
    · subst same
      exact root
    · rw [(others other same).1]
      exact sane.root other

theorem Consistent.updateAccount (known : Consistent env source state) (ran : Accounts.updateAccount addr change state = .ok () next)
    (codeHash : ∀ account, (change account).codeHash = account.codeHash)
    (storageRoot : ∀ account, (change account).storageRoot = account.storageRoot) : Consistent env source next := by
  have put := updateAccount_ok known.toSteady ran
  refine ⟨put.steady, known.sane.of_entry addr (fun other apart => ⟨put.other _ (by simpa using apart), put.other _ nofun⟩) ?_ ?_⟩
  · rw [put.self, put.other (.code addr) nofun, codeHash]
    exact known.sane.code addr
  · rw [put.self, storageRoot]
    exact known.sane.root addr

/-- The code of an account is put, and then the account with its hash. -/
theorem Consistent.recoded {code : Bytes} {written} {account : Account} (known : Consistent env source state)
    (coded : Puts env source state (.code addr) code written) (put : Puts env source written (.account addr) account next)
    (hash : account.codeHash = codeHashOf env code)
    (root : account.storageRoot = ((source (.account addr)).1 : Account).storageRoot ∨ account.storageRoot = []) :
    Consistent env source next := by
  refine ⟨put.steady, known.sane.of_entry addr (fun other apart => ⟨?_, ?_⟩) ?_ ?_⟩
  · exact (put.other _ (by simpa using apart)).trans (coded.other _ nofun)
  · exact (put.other (.code other) nofun).trans (coded.other _ (by simpa using apart))
  · rw [put.self, put.other (.code addr) nofun, coded.self]
    exact hash
  · rw [put.self]
    exact root

theorem Consistent.setCode {code} (known : Consistent env source state) (ran : Operation.run env (.setCode addr code) state = .ok () next) : Consistent env source next := by
  obtain ⟨_, written, first, ran⟩ := bind_eq_ok.mp ran
  have coded := puts_of_put known.toSteady first
  refine known.recoded coded (updateAccount_ok coded.steady ran) rfl ?_
  rw [coded.other (.account addr) nofun]
  exact known.sane.root addr

theorem Consistent.putStorage {key} {raw : Raw} (known : Consistent env source state)
    (ran : State.put (.storage addr key) raw state = .ok () next) : Consistent env source next := by
  have put := puts_of_put known.toSteady ran
  refine ⟨put.steady, fun other => ?_, fun other => ?_⟩
  · rw [put.other (.account other) nofun, put.other (.code other) nofun]
    exact known.sane.code other
  · rw [put.other (.account other) nofun]
    exact known.sane.root other

theorem Consistent.delete (known : Consistent env source state) (ran : State.delete addr state = .ok () next) :
    Consistent env source next := by
  obtain ⟨_, written, first, ran⟩ := bind_eq_ok.mp ran
  have coded := puts_of_put known.toSteady first
  exact known.recoded coded (puts_of_put coded.steady ran) rfl (.inr rfl)

theorem Consistent.push (known : Consistent env source state) : Consistent env source { state with sm := state.sm.push } where
  src := known.src
  recorded level listed := by
    rcases mem_cons.mp listed with rfl | lower
    · exact newLevel_recorded
    · exact known.recorded level lower
  below levels part := known.suffix part
  err := known.err
  sane := by
    have same : ({ state with sm := state.sm.push } : State).get = state.get := by
      funext key
      rw [State.get_eq_viewOf, State.get_eq_viewOf]
      rfl
    rw [same]
    exact known.sane

theorem Consistent.popTo (known : Consistent env source state) (revision : Nat) :
    Consistent env source { state with sm := state.sm.popTo revision } := by
  have part : (state.sm.popTo revision).mapStack <:+ state.sm.mapStack := by
    rw [popTo_mapStack]
    exact drop_suffix _ _
  refine ⟨⟨?_, ?_, ?_, known.err⟩, ?_⟩
  · rw [popTo_src]
    exact known.src
  · intro level listed
    exact known.recorded level (part.subset listed)
  · intro levels lower
    exact known.suffix ((lower.trans (tail_suffix _)).trans part)
  · have same : ({ state with sm := state.sm.popTo revision } : State).get = viewOf source (state.sm.popTo revision).mapStack := by
      funext key
      rw [State.get_eq_viewOf, popTo_src, known.src]
    rw [same]
    exact known.suffix part

theorem Consistent.step {operation : Operation} (known : Consistent env source state) (ran : operation.run env state = .ok () next) :
    Consistent env source next := by
  unfold Operation.run at ran
  cases operation with
  | setBalance addr balance => exact known.updateAccount ran (fun _ => rfl) fun _ => rfl
  | setEnergy addr energy => exact known.updateAccount ran (fun _ => rfl) fun _ => rfl
  | setBoundedBalance addr balance => exact known.updateAccount ran (fun _ => rfl) fun _ => rfl
  | setBoundedEnergy addr energy => exact known.updateAccount ran (fun _ => rfl) fun _ => rfl
  | setMaster addr master => exact known.updateAccount ran (fun _ => rfl) fun _ => rfl
  | setCode addr code => exact known.setCode ran
  | setStorage addr key value => exact known.putStorage ran
  | setRawStorage addr key raw => exact known.putStorage ran
  | delete addr => exact known.delete ran
  | newCheckpoint =>
    cases ran
    exact known.push
  | revertTo revision =>
    cases ran
    exact known.popTo revision

/-! ## Changes -/

/-- An object holds the last entries of its account. -/
structure Describes (source : MapGetter StateKey StateKey.Value) (entries : List ((key : StateKey) × key.Value)) (addr : Address)
    (obj : ChangedObject) : Prop where
  data : obj.data = (replay entries (.account addr)).getD (source (.account addr)).1
  code : obj.code = (replay entries (.code addr)).getD []
  storage : ∀ key, obj.storage.lookup key = replay entries (.storage addr key)

theorem getOrNewObj_insert (changes : Changes) (addr other : Address) (obj : ChangedObject) :
    getOrNewObj source (changes.insert addr obj) other = if other = addr then obj else getOrNewObj source changes other := by
  unfold getOrNewObj
  split
  next same =>
    rw [same, lookup_insert]
    rfl
  next different => rw [lookup_insert_ne different]

theorem Describes.recordChange {changes entries}
    (known : Describes source entries addr (getOrNewObj source changes addr)) (entry : (key : StateKey) × key.Value) :
    Describes source (entries ++ [entry]) addr (getOrNewObj source (recordChange source changes entry) addr) := by
  obtain ⟨key, value⟩ := entry
  cases key with
  | account other =>
    change Describes _ _ _ (getOrNewObj source (changes.insert other _) addr)
    rw [getOrNewObj_insert]
    split
    next same =>
      subst same
      exact ⟨by simp [replay_snoc], by simp [replay_snoc, known.code], fun key => by simp [replay_snoc, known.storage]⟩
    next other =>
      exact ⟨by simp [replay_snoc, known.data, other], by simp [replay_snoc, known.code], fun key => by simp [replay_snoc, known.storage]⟩
  | code other =>
    change Describes _ _ _ (getOrNewObj source (changes.insert other _) addr)
    rw [getOrNewObj_insert]
    split
    next same =>
      subst same
      exact ⟨by simp [replay_snoc, known.data], by simp [replay_snoc], fun key => by simp [replay_snoc, known.storage]⟩
    next other =>
      exact ⟨by simp [replay_snoc, known.data], by simp [replay_snoc, known.code, other], fun key => by simp [replay_snoc, known.storage]⟩
  | storage other slot =>
    change Describes _ _ _ (getOrNewObj source (changes.insert other _) addr)
    rw [getOrNewObj_insert]
    split
    next same =>
      subst same
      refine ⟨by simp [replay_snoc, known.data], by simp [replay_snoc, known.code], fun key => ?_⟩
      by_cases here : key = slot
      · subst here
        simp [replay_snoc]
      · simp [replay_snoc, known.storage, here]
    next other =>
      exact ⟨by simp [replay_snoc, known.data], by simp [replay_snoc, known.code], fun key => by simp [replay_snoc, known.storage, other]⟩

/-! ## Stages -/

theorem Account.eq_of_isEmpty {account : Account} (empty : account.isEmpty = true) : account = {} := by
  obtain ⟨balance, energy, boundBalance, boundEnergy, master, codeHash, storageRoot⟩ := account
  simp_all [Account.isEmpty]

theorem storedAccount_getD (account : Account) : (storedAccount account).getD {} = account := by
  unfold storedAccount
  split
  next empty => exact (Account.eq_of_isEmpty empty).symm
  · rfl

def codeEntry (entry : Sigma fun _ : Address => ChangedObject) : Option (Bytes × Bytes) :=
  if entry.2.code.length = 0 then none else some (entry.2.data.codeHash, entry.2.code)

theorem stageObject_ok {entry after} (ran : stageObject env stage entry = .ok after) :
    after.accountTrie = env.accounts.update stage.accountTrie entry.1 (storedAccount (entry.2.staged env)) ∧
      after.codes = stage.codes ++ (codeEntry entry).toList := by
  unfold stageObject at ran
  cases saved : saveAccount env stage.accountTrie entry.1 (entry.2.staged env) with
  | error reason => simp [saved, bind, Except.bind] at ran
  | ok trie =>
    simp only [saved, bind, Except.bind, pure, Except.pure, Except.ok.injEq] at ran
    subst ran
    unfold saveAccount at saved
    split at saved
    · cases saved
    · cases saved
      refine ⟨rfl, ?_⟩
      unfold codeEntry
      split
      · simp
      · rfl

variable {entries : List (Sigma fun _ : Address => ChangedObject)}

theorem foldlM_stageObject {final} (ran : entries.foldlM (stageObject env) stage = .ok final) :
    final.accountTrie = entries.foldl (fun trie entry => env.accounts.update trie entry.1 (storedAccount (entry.2.staged env)))
      stage.accountTrie ∧ final.codes = stage.codes ++ entries.filterMap codeEntry := by
  induction entries generalizing stage with
  | nil =>
    cases ran
    simp
  | cons entry rest ih =>
    rw [foldlM_cons] at ran
    cases staged : stageObject env stage entry with
    | error reason =>
      rw [staged] at ran
      cases ran
    | ok after =>
      rw [staged] at ran
      obtain ⟨trie, codes⟩ := stageObject_ok staged
      obtain ⟨tries, all⟩ := ih ran
      refine ⟨?_, ?_⟩
      · rw [tries, trie, foldl_cons]
      · rw [all, codes, append_assoc, filterMap_cons]
        cases codeEntry entry with
        | none => rfl
        | some code => rfl

theorem loadAccount_commit {kv root changes} (ran : newStage env root changes = .ok stage) (addr : Address) :
    loadAccount env (stage.commit env kv).2 addr = (getOrNewObj (cacheGetter env kv root) changes addr).staged env := by
  have tries := (foldlM_stageObject ran).1
  have found := env.accounts.get_foldl (fun obj : ChangedObject => storedAccount (obj.staged env)) changes.nodupKeys
    (env.accounts.resolve root) addr
  unfold loadAccount Stage.commit getOrNewObj
  rw [env.accounts.get_resolve, tries, found]
  cases known : changes.lookup addr with
  | some obj =>
    simp only [AList.lookup] at known
    rw [known]
    exact storedAccount_getD _
  | none =>
    simp only [AList.lookup] at known
    rw [known]
    rfl

theorem loadStorage_nil (key : StorageKey) : loadStorage env [] key = .empty := by
  unfold loadStorage
  rw [env.storages_nil]
  rfl

theorem loadStorage_staged (obj : ChangedObject) (key : StorageKey) :
    loadStorage env (obj.staged env).storageRoot key = (obj.storage.lookup key).getD (loadStorage env obj.data.storageRoot key) := by
  unfold ChangedObject.staged
  split
  next unwritten =>
    have absent : obj.storage.lookup key = none := by
      unfold AList.lookup
      rw [length_eq_zero_iff.mp unwritten]
      rfl
    rw [absent]
    rfl
  · have found := env.storages.get_foldl storedRaw obj.storage.nodupKeys (env.storages.resolve obj.data.storageRoot) key
    unfold loadStorage
    rw [env.storages.get_resolve, found]
    unfold AList.lookup
    cases obj.storage.entries.dlookup key with
    | some raw => cases raw <;> rfl
    | none => rfl

theorem staged_isEmpty (obj : ChangedObject) :
    (obj.staged env).isEmpty = true ↔ obj.data.isEmpty = true ∧ ∀ key, obj.storage.lookup key = none := by
  have unwritten : obj.storage.entries.length = 0 ↔ ∀ key, obj.storage.lookup key = none := by
    rw [length_eq_zero_iff]
    constructor
    · intro none key
      unfold AList.lookup
      rw [none]
      rfl
    · intro absent
      apply eq_nil_iff_forall_not_mem.mpr
      intro entry listed
      have held := dlookup_isSome.mpr (mem_keys_of_mem listed)
      have gone := absent entry.1
      unfold AList.lookup at gone
      rw [gone] at held
      cases held
  unfold ChangedObject.staged
  rw [← unwritten]
  split
  next none => simp [none]
  next written =>
    have rooted := env.storages_hash (obj.storage.entries.foldl
      (fun trie entry => env.storages.update trie entry.1 (storedRaw entry.2)) (env.storages.resolve obj.data.storageRoot))
    simp [Account.isEmpty, written, rooted]

/-! ## Committed states -/

/-- The code of every account at the root is in the database, under its hash. -/
def Sound (env : CommitEnv Digest) (kv : Codes) (root : Digest) : Prop :=
  ∀ addr, (loadAccount env root addr).codeHash = codeHashOf env (loadCode kv (loadAccount env root addr).codeHash)

theorem Sound.consistent {kv root} (sound : Sound env kv root) :
    Consistent env (cacheGetter env kv root) (State.new env kv root) where
  src := rfl
  recorded level listed := by
    rw [mem_singleton.mp listed]
    exact newLevel_recorded
  below levels part := by
    rw [suffix_nil.mp part]
    exact ⟨sound, fun _ => .inl rfl⟩
  err := rfl
  sane := ⟨sound, fun _ => .inl rfl⟩

def Written (state : State) (key : StateKey) : Prop := (lookup state.sm.mapStack key).isSome = true

theorem State.get_of_written {key} (absent : ¬ Written state key) : state.get key = (state.sm.src key).1 := by
  rw [state.get_eq_viewOf, viewOf, not_isSome_iff_eq_none.mp absent]
  rfl

/-- What is staged for an account that is read in the state. -/
structure Staged (state : State) (addr : Address) (obj : ChangedObject) : Prop where
  data : obj.data = state.get (.account addr)
  code : obj.code = (lookup state.sm.mapStack (.code addr)).getD []
  storage : ∀ key, obj.storage.lookup key = lookup state.sm.mapStack (.storage addr key)

theorem Steady.staged (known : Steady env source state) (addr : Address) : Staged state addr (getOrNewObj source state.changes addr) := by
  have foldl : Describes state.sm.src state.sm.journal addr (getOrNewObj state.sm.src (state.sm.journal.foldl (recordChange
      state.sm.src) ∅) addr) := by
    induction state.sm.journal using List.reverseRecOn with
    | nil => exact ⟨rfl, rfl, fun key => by simp [getOrNewObj, replay]⟩
    | append_singleton rest entry ih =>
      rw [foldl_append, foldl_cons, foldl_nil]
      exact ih.recordChange entry
  have described := foldl
  have last := lookup_eq_replay known.recorded
  rw [← known.src]
  refine ⟨?_, ?_, ?_⟩
  · rw [state.get_eq_viewOf, viewOf, last]
    exact described.data
  · rw [last]
    exact described.code
  · intro key
    rw [last]
    exact described.storage key

theorem codeHashOf_injective : Function.Injective (codeHashOf env) := by
  intro first second same
  unfold codeHashOf at same
  split at same
  next none =>
    split at same
    next none' => rw [length_eq_zero_iff.mp none, length_eq_zero_iff.mp none']
    · exact absurd same.symm (env.keccak256_ne_nil second)
  · split at same
    · exact absurd same (env.keccak256_ne_nil first)
    · exact env.keccak256_injective same

theorem putCodes_cases (kv : Codes) (batch : List (Bytes × Bytes)) (hash : Bytes) :
    (hash ∉ batch.map Prod.fst ∧ putCodes kv batch hash = kv hash) ∨ ∃ code, (hash, code) ∈ batch ∧ putCodes kv batch hash = some code := by
  induction batch using List.reverseRecOn with
  | nil => exact .inl ⟨not_mem_nil, rfl⟩
  | append_singleton rest entry ih =>
    have last : putCodes kv (rest ++ [entry]) = Function.update (putCodes kv rest) entry.1 (some entry.2) := by simp [putCodes]
    rw [last]
    by_cases same : hash = entry.1
    · subst same
      exact .inr ⟨entry.2, by simp, Function.update_self ..⟩
    · rw [Function.update_of_ne same]
      rcases ih with ⟨absent, old⟩ | ⟨code, listed, found⟩
      · exact .inl ⟨by simpa [same] using absent, old⟩
      · exact .inr ⟨code, mem_append_left _ listed, found⟩

section

variable {kv : Codes} {root : Digest} {stage : Stage env}

abbrev Stage.reopened (stage : Stage env) (kv : Codes) : State := .new env (stage.commit env kv).1 (stage.commit env kv).2

theorem codes_hashed (known : Consistent env (cacheGetter env kv root) state) (ran : newStage env root state.changes = .ok stage)
    {hash code} (listed : (hash, code) ∈ stage.codes) : hash = codeHashOf env code := by
  rw [(foldlM_stageObject ran).2, nil_append, mem_filterMap] at listed
  obtain ⟨⟨addr, obj⟩, changed, given⟩ := listed
  have found : getOrNewObj (cacheGetter env kv root) state.changes addr = obj := by
    unfold getOrNewObj
    rw [mem_lookup_iff.mpr changed]
    rfl
  have staged := known.staged addr
  rw [found] at staged
  unfold codeEntry at given
  split at given
  · cases given
  next held =>
    cases given
    have read : state.get (.code addr) = obj.code := by
      rw [state.get_eq_viewOf, viewOf, staged.code]
      cases written : lookup state.sm.mapStack (.code addr) with
      | some code => rfl
      | none =>
        rw [staged.code, written] at held
        exact absurd rfl held
    rw [staged.data, known.sane.code addr, read]

theorem mem_codes (known : Consistent env (cacheGetter env kv root) state)
    (ran : newStage env root state.changes = .ok stage) {code : Bytes}
    (written : lookup state.sm.mapStack (.code addr) = some code) (held : code.length ≠ 0) :
    (state.get (.account addr) : Account).codeHash ∈ stage.codes.map Prod.fst := by
  have staged := known.staged addr
  unfold getOrNewObj at staged
  rw [(foldlM_stageObject ran).2, nil_append]
  cases found : state.changes.lookup addr with
  | none =>
    have code_eq := staged.code
    rw [found, written] at code_eq
    exact absurd (congrArg List.length code_eq.symm) held
  | some obj =>
    rw [found, getD_some] at staged
    have code_eq := staged.code
    rw [written, Option.getD_some] at code_eq
    apply List.mem_map.mpr
    refine ⟨(obj.data.codeHash, obj.code), List.mem_filterMap.mpr ⟨⟨addr, obj⟩, AList.mem_lookup_iff.mp found, ?_⟩, ?_⟩
    · exact if_neg (by rwa [code_eq])
    · exact congrArg Account.codeHash staged.data

theorem loadCode_commit (sound : Sound env kv root) (known : Consistent env (cacheGetter env kv root) state)
    (ran : newStage env root state.changes = .ok stage) (addr : Address) :
    loadCode (putCodes kv stage.codes) (state.get (.account addr) : Account).codeHash = state.get (.code addr) := by
  have hashed := known.sane.code addr
  unfold loadCode
  split
  next none =>
    rw [hashed] at none
    have empty := length_eq_zero_iff.mp none
    exact (codeHashOf_injective empty).symm
  next held =>
    rcases putCodes_cases kv stage.codes (state.get (.account addr) : Account).codeHash with ⟨absent, old⟩ | ⟨code, listed, found⟩
    · rw [old]
      have unwritten : ¬ Written state (.code addr) := by
        intro written
        obtain ⟨code, here⟩ := isSome_iff_exists.mp written
        by_cases empty : code.length = 0
        · have read : state.get (.code addr) = code := by
            rw [state.get_eq_viewOf, viewOf, here]
            rfl
          rw [hashed, read, codeHashOf, if_pos empty] at held
          exact held rfl
        · exact absent (mem_codes known ran here empty)
      have read := State.get_of_written unwritten
      rw [known.src] at read
      have same : (state.get (.account addr) : Account).codeHash = (loadAccount env root addr).codeHash := by
        rw [hashed, read]
        exact (sound addr).symm
      rw [read, same]
      rw [same] at held
      exact (if_neg held).symm
    · rw [found]
      exact codeHashOf_injective ((codes_hashed known ran listed).symm.trans hashed)

/-! ## The comparison -/

/-- What the getters answer. -/
structure SameView (env : CommitEnv Digest) (state other : State) : Prop where
  balance : ∀ addr, (state.get (.account addr) : Account).balance = (other.get (.account addr) : Account).balance
  energy : ∀ addr, (state.get (.account addr) : Account).energy = (other.get (.account addr) : Account).energy
  boundBalance : ∀ addr, (state.get (.account addr) : Account).boundBalance = (other.get (.account addr) : Account).boundBalance
  boundEnergy : ∀ addr, (state.get (.account addr) : Account).boundEnergy = (other.get (.account addr) : Account).boundEnergy
  master : ∀ addr, (state.get (.account addr) : Account).master = (other.get (.account addr) : Account).master
  code : ∀ addr, (state.get (.code addr) : Bytes) = other.get (.code addr)
  codeHash : ∀ addr, (state.get (.account addr) : Account).codeHash = (other.get (.account addr) : Account).codeHash
  storage : ∀ addr key, env.word (state.get (.storage addr key)) = env.word (other.get (.storage addr key))
  exist : ∀ addr, state.exist addr = other.exist addr

/-- No slot of an account that does not exist was written, and a deleted account has no slots left but those written
since the state was opened. -/
structure Kept (env : CommitEnv Digest) (state : State) : Prop where
  exist : ∀ addr key, Written state (.storage addr key) → state.exist addr = true
  deleted : ∀ addr, (state.get (.account addr) : Account).storageRoot ≠ ((state.sm.src (.account addr)).1 : Account).storageRoot →
    ∀ key, ¬ Written state (.storage addr key) → env.word (state.get (.storage addr key)) = 0

theorem staged_fields (obj : ChangedObject) : (obj.staged env).balance = obj.data.balance ∧ (obj.staged env).energy = obj.data.energy ∧
    (obj.staged env).boundBalance = obj.data.boundBalance ∧ (obj.staged env).boundEnergy = obj.data.boundEnergy ∧
    (obj.staged env).master = obj.data.master ∧ (obj.staged env).codeHash = obj.data.codeHash := by
  unfold ChangedObject.staged
  split
  · exact ⟨rfl, rfl, rfl, rfl, rfl, rfl⟩
  · exact ⟨rfl, rfl, rfl, rfl, rfl, rfl⟩

variable (sound : Sound env kv root) (known : Consistent env (cacheGetter env kv root) state)
  (ran : newStage env root state.changes = .ok stage)

include known ran

variable (addr : Address)

theorem exists_staged : ∃ obj, Staged state addr obj ∧ loadAccount env (stage.commit env kv).2 addr = obj.staged env :=
  ⟨_, known.staged addr, loadAccount_commit ran addr⟩

theorem committed_slot (key : StorageKey) : (stage.reopened kv).get (.storage addr key) =
      (lookup state.sm.mapStack (.storage addr key)).getD (loadStorage env (state.get (.account addr) : Account).storageRoot key) := by
  obtain ⟨obj, staged, loaded⟩ := exists_staged known ran addr
  change loadStorage env (loadAccount env (stage.commit env kv).2 addr).storageRoot key = _
  rw [loaded, loadStorage_staged, staged.storage, staged.data]

theorem committed_exist : (stage.reopened kv).exist addr = true ↔ state.exist addr = true ∨ ∃ key, Written state (.storage addr key) := by
  obtain ⟨obj, staged, loaded⟩ := exists_staged known ran addr
  have empty := @staged_isEmpty _ env obj
  change (!(loadAccount env (stage.commit env kv).2 addr).isEmpty) = true ↔ (!(state.get (.account addr) : Account).isEmpty) = true ∨ _
  rw [loaded, ← staged.data, Bool.not_eq_true', Bool.not_eq_true', ← Bool.not_eq_true, ← Bool.not_eq_true, empty]
  simp only [Written, ← staged.storage, not_and_or, not_forall, isSome_iff_ne_none]

theorem committed_exist_iff : state.exist addr = (stage.reopened kv).exist addr ↔
      ∀ key, Written state (.storage addr key) → state.exist addr = true := by
  have committed := committed_exist known ran addr
  cases before : state.exist addr with
  | true =>
    rw [before] at committed
    simp [committed.mpr (.inl rfl)]
  | false =>
    rw [before] at committed
    constructor
    · intro same key written
      rw [same]
      exact committed.mpr (.inr ⟨key, written⟩)
    · intro unwritten
      cases after : (stage.reopened kv).exist addr with
      | false => rfl
      | true =>
        rcases committed.mp after with held | ⟨key, written⟩
        · cases held
        · cases unwritten key written

theorem committed_storage_iff : (∀ key, env.word (state.get (.storage addr key)) =
      env.word ((stage.reopened kv).get (.storage addr key))) ↔
    ((state.get (.account addr) : Account).storageRoot ≠ ((state.sm.src (.account addr)).1 : Account).storageRoot →
      ∀ key, ¬ Written state (.storage addr key) → env.word (state.get (.storage addr key)) = 0) := by
  have source : ∀ key, ((state.sm.src (.storage addr key)).1 : Raw) = loadStorage env ((state.sm.src (.account addr)).1 : Account).storageRoot key := by
    intro key
    rw [known.src]
    rfl
  constructor
  · intro same changed key unwritten
    have gone := (known.sane.root addr).resolve_left (by rw [← known.src]; exact changed)
    rw [same key, committed_slot known ran, not_isSome_iff_eq_none.mp unwritten, gone, getD_none, loadStorage_nil]
    exact env.word_empty
  · intro cleared key
    rw [committed_slot known ran]
    by_cases written : Written state (.storage addr key)
    · obtain ⟨raw, here⟩ := isSome_iff_exists.mp written
      rw [state.get_eq_viewOf, viewOf, here]
      rfl
    · rw [not_isSome_iff_eq_none.mp written, getD_none]
      by_cases same : (state.get (.account addr) : Account).storageRoot = ((state.sm.src (.account addr)).1 : Account).storageRoot
      · rw [State.get_of_written written, source, same]
      · have gone := (known.sane.root addr).resolve_left (by rw [← known.src]; exact same)
        rw [cleared same key written, gone, loadStorage_nil]
        exact env.word_empty.symm

include sound

theorem sameView_iff : SameView env state (stage.reopened kv) ↔ Kept env state := by
  constructor
  · intro same
    refine ⟨fun addr => (committed_exist_iff known ran addr).mp (same.exist addr), fun addr => ?_⟩
    exact (committed_storage_iff known ran addr).mp (same.storage addr)
  · intro kept
    have fields : ∀ addr, ∃ obj : ChangedObject, obj.data = state.get (.account addr) ∧
        (stage.reopened kv).get (.account addr) = obj.staged env := by
      intro addr
      obtain ⟨obj, staged, loaded⟩ := exists_staged known ran addr
      exact ⟨obj, staged.data, loaded⟩
    constructor
    case storage => exact fun addr => (committed_storage_iff known ran addr).mpr (kept.deleted addr)
    case exist => exact fun addr => (committed_exist_iff known ran addr).mpr (kept.exist addr)
    case code =>
      intro addr
      obtain ⟨obj, data, loaded⟩ := fields addr
      rw [← loadCode_commit sound known ran addr, ← data]
      exact congrArg _ ((staged_fields obj).2.2.2.2.2.symm.trans (congrArg Account.codeHash loaded.symm))
    all_goals
      intro addr
      obtain ⟨obj, data, loaded⟩ := fields addr
      rw [← data, loaded]
      simp [staged_fields obj]

theorem sound_commit : Sound env (stage.commit env kv).1 (stage.commit env kv).2 := by
  intro addr
  obtain ⟨obj, staged, loaded⟩ := exists_staged known ran addr
  have codeHash : (loadAccount env (stage.commit env kv).2 addr).codeHash = (state.get (.account addr) : Account).codeHash := by
    rw [loaded, (staged_fields obj).2.2.2.2.2, staged.data]
  rw [codeHash]
  exact (known.sane.code addr).trans (congrArg (codeHashOf env) (loadCode_commit sound known ran addr).symm)

end

/-! ## Runs -/

def Operates (env : CommitEnv Digest) (state : State) (operation : Operation) (next : State) : Prop := operation.run env state = .ok () next

/-- A root that was committed, in a database to which other roots were committed since. -/
inductive Committed (env : CommitEnv Digest) : Codes → Digest → Prop where
  | genesis : Committed env (fun _ => none) env.zeroRoot
  | commit {kv kv' : Codes} {root root' : Digest} {operations : List Operation} {state : State} :
      Committed env kv root → Trace (Operates env) (.new env kv root) operations state →
      state.commit env kv root = .ok (kv', root') → Committed env kv' root'
  | kept {kv kv' : Codes} {root root' other : Digest} {operations : List Operation} {state : State} :
      Committed env kv other → Committed env kv root → Trace (Operates env) (.new env kv root) operations state →
      state.commit env kv root = .ok (kv', root') → Committed env kv' other

section

variable {kv kv' : Codes} {root root' : Digest} {operations : List Operation}

theorem Sound.run (sound : Sound env kv root) (run : Trace (Operates env) (.new env kv root) operations state) :
    Consistent env (cacheGetter env kv root) state :=
  run.invariant (Consistent env (cacheGetter env kv root)) sound.consistent fun _ _ _ known ran => known.step ran

theorem State.commit_ok (committed : state.commit env kv root = .ok (kv', root')) :
    ∃ stage, newStage env root state.changes = .ok stage ∧ stage.commit env kv = (kv', root') := by
  unfold State.commit State.stage at committed
  split at committed
  · cases committed
  · cases staged : newStage env root state.changes with
    | error reason =>
      rw [staged] at committed
      cases committed
    | ok stage =>
      rw [staged] at committed
      exact ⟨stage, rfl, Except.ok.inj committed⟩

theorem Sound.kept {other} (sound : Sound env kv other)
    (known : Consistent env (cacheGetter env kv root) state) (ran : newStage env root state.changes = .ok stage) :
    Sound env (stage.commit env kv).1 other := by
  intro addr
  have held := sound addr
  have same : loadCode (stage.commit env kv).1 (loadAccount env other addr).codeHash = loadCode kv (loadAccount env other addr).codeHash := by
    unfold loadCode at held ⊢
    split
    · rfl
    next present =>
      rcases putCodes_cases kv stage.codes (loadAccount env other addr).codeHash with ⟨-, old⟩ | ⟨code, listed, found⟩
      · exact congrArg (Option.getD · []) old
      · rw [if_neg present] at held
        change (putCodes kv stage.codes _).getD [] = _
        rw [found]
        exact codeHashOf_injective ((codes_hashed known ran listed).symm.trans held)
  rw [same]
  exact held

theorem Committed.sound (reached : Committed env kv root) : Sound env kv root := by
  induction reached with
  | genesis =>
    intro addr
    unfold loadAccount
    rw [env.accounts_zeroRoot]
    rfl
  | commit _ run committed sound =>
    obtain ⟨stage, ran, result⟩ := State.commit_ok committed
    have again := sound_commit sound (sound.run run) ran
    rw [result] at again
    exact again
  | kept _ _ run committed sound base =>
    obtain ⟨stage, ran, result⟩ := State.commit_ok committed
    have again := sound.kept (base.run run) ran
    rw [result] at again
    exact again

/-- A state opened at the committed root answers like the state that was committed exactly when that state has kept its
storage and its accounts together. -/
theorem committed_view_iff (env : CommitEnv Digest) (reached : Committed env kv root)
    (run : Trace (Operates env) (.new env kv root) operations state) (committed : state.commit env kv root = .ok (kv', root')) :
    SameView env state (.new env kv' root') ↔ Kept env state := by
  obtain ⟨stage, ran, result⟩ := State.commit_ok committed
  have same := sameView_iff reached.sound (reached.sound.run run) ran
  rw [Stage.reopened, result] at same
  exact same

end

section

instance countableUInt8 : Countable UInt8 := (show Function.Injective UInt8.toNat from fun _ _ same => UInt8.toNat_inj.mp same).countable

deriving instance Countable for Auction.AuctionTx, Auction.AuctionCB, Auction.DistMtrg

deriving instance Countable for Auction.AuctionSummary, AccountLock.Profile, UserObject, CreditPlan, MeterGovTotalAddSub

deriving instance Countable for Param, StorageKey, Raw

noncomputable def sampleEnv : CommitEnv (List (Address × Option Account)) where
  accounts := listTries
  storages := byteTries StorageKey Raw
  zeroRoot := []
  accounts_zeroRoot _ := rfl
  storages_nil _ := by simp [byteTries, listGet]
  storages_hash := exists_hash.choose_spec.2
  keccak256 code := 0 :: code
  keccak256_injective _ _ same := (List.cons.inj same).2
  keccak256_ne_nil _ := cons_ne_nil _ _
  word
    | .number value => value.toNat
    | _ => 0
  word_empty := rfl

noncomputable def stateAfter (operations : List Operation) : State :=
  operations.foldl (fun state operation => (operation.run sampleEnv).finalState state) (.new sampleEnv (fun _ => none) [])

theorem stateAfter_trace (operations : List Operation) (all : AllMeet (fun state operation => (operation.run sampleEnv).finalState state)
      (fun state operation => (operation.run sampleEnv).fault? state = none) (.new sampleEnv (fun _ => none) []) operations) :
    Trace (Operates sampleEnv) (.new sampleEnv (fun _ => none) sampleEnv.zeroRoot) operations (stateAfter operations) := by
  refine (trace_of_allMeet all).mono ?_
  rintro state operation next ⟨fine, rfl⟩
  obtain ⟨value, ran⟩ := ok_of_fault? fine
  exact ran

theorem Steady.written_iff (known : Steady env source state) (key : StateKey) :
    Written state key ↔ key ∈ state.sm.journal.map Sigma.fst := by
  unfold Written
  rw [lookup_eq_replay known.recorded, replay_isSome]
  rfl

theorem foldlM_stageObject_isOk (fine : ∀ entry ∈ entries, entry.2.data.negative = false) (stage : Stage env) :
    ∃ final, entries.foldlM (stageObject env) stage = .ok final := by
  induction entries generalizing stage with
  | nil => exact ⟨stage, rfl⟩
  | cons entry rest ih =>
    obtain ⟨balance, energy, boundBalance, boundEnergy, -⟩ := @staged_fields _ env entry.2
    have nonnegative : (entry.2.staged env).negative = false := by
      rw [← fine entry mem_cons_self]
      unfold Account.negative
      rw [balance, energy, boundBalance, boundEnergy]
    have saved : saveAccount env stage.accountTrie entry.1 (entry.2.staged env) = .ok _ := if_neg (by simp [nonnegative])
    rw [foldlM_cons]
    unfold stageObject
    simp only [saved, bind, Except.bind, pure, Except.pure]
    exact ih (fun other listed => fine other (mem_cons_of_mem entry listed)) _

theorem State.commit_isOk {kv root} (err : state.err = false) (fine : ∀ entry ∈ state.changes.entries, entry.2.data.negative = false) :
    ∃ kv' root', state.commit env kv root = .ok (kv', root') := by
  obtain ⟨stage, ran⟩ := foldlM_stageObject_isOk fine (⟨env.accounts.resolve root, []⟩ : Stage env)
  refine ⟨(stage.commit env kv).1, (stage.commit env kv).2, ?_⟩
  unfold State.commit State.stage newStage
  rw [err, ran]
  rfl

/-- Account 7 gets a slot; what is done after the checkpoint is taken back. -/
def keptOperations : List Operation :=
  [.setBalance 7 10, .setStorage 7 (.word 1) 5, .newCheckpoint, .setCode 8 [1], .setStorage 9 (.word 1) 1, .revertTo 1]

theorem keptOperations_view : ∃ kv root, (stateAfter keptOperations).commit sampleEnv (fun _ => none) [] = .ok (kv, root) ∧
      SameView sampleEnv (stateAfter keptOperations) (.new sampleEnv kv root) := by
  have run : Trace (Operates sampleEnv) (.new sampleEnv (fun _ => none) sampleEnv.zeroRoot) keptOperations (stateAfter keptOperations) :=
    stateAfter_trace _ (by decide +kernel)
  have known := (show Committed sampleEnv _ _ from .genesis).sound.run run
  have keys : (stateAfter keptOperations).sm.journal.map Sigma.fst = [.account 7, .storage 7 (.word 1)] := by decide +kernel
  obtain ⟨kv, root, committed⟩ := State.commit_isOk known.err (by decide +kernel)
  refine ⟨kv, root, committed, (committed_view_iff sampleEnv .genesis run committed).mpr ⟨?_, ?_⟩⟩
  · intro addr key written
    rw [known.written_iff, keys] at written
    obtain ⟨rfl, rfl⟩ : addr = 7 ∧ key = .word 1 := by simpa using written
    decide +kernel
  · intro addr changed
    by_cases here : addr = 7
    · subst here
      exact absurd (by decide +kernel) changed
    · have unwritten : ¬ Written (stateAfter keptOperations) (.account addr) := by
        rw [known.written_iff, keys]
        simpa using here
      rw [State.get_of_written unwritten] at changed
      exact absurd rfl changed

/-- A slot of an account that does not exist makes it exist, and the slots of a deleted account are gone after the commit
only. -/
theorem committed_views_differ :
    (∃ kv root, (stateAfter [.setStorage 9 (.word 1) 5]).commit sampleEnv (fun _ => none) [] = .ok (kv, root) ∧
      (stateAfter [.setStorage 9 (.word 1) 5]).exist 9 = false ∧ (State.new sampleEnv kv root).exist 9 = true) ∧
    ∃ kv root, (stateAfter [.setBalance 7 10, .setStorage 7 (.word 1) 5]).commit sampleEnv (fun _ => none) [] = .ok (kv, root) ∧
      ∃ kv' root' state, Trace (Operates sampleEnv) (.new sampleEnv kv root) [.delete 7] state ∧
        state.commit sampleEnv kv root = .ok (kv', root') ∧ sampleEnv.word (state.get (.storage 7 (.word 1))) = 5 ∧
        sampleEnv.word ((State.new sampleEnv kv' root').get (.storage 7 (.word 1))) = 0 := by
  have empty : Committed sampleEnv (fun _ => none) [] := .genesis
  constructor
  · have known := empty.sound.run (stateAfter_trace [.setStorage 9 (.word 1) 5] (by decide +kernel))
    obtain ⟨kv, root, committed⟩ := State.commit_isOk known.err (by decide +kernel)
    obtain ⟨stage, ran, result⟩ := State.commit_ok committed
    have exists_after := (committed_exist known ran 9).mpr (.inr ⟨.word 1, by unfold Written; decide +kernel⟩)
    rw [Stage.reopened, result] at exists_after
    exact ⟨kv, root, committed, by decide +kernel, exists_after⟩
  · have run := stateAfter_trace [.setBalance 7 10, .setStorage 7 (.word 1) 5] (by decide +kernel)
    have known := empty.sound.run run
    obtain ⟨kv, root, committed⟩ := State.commit_isOk known.err (by decide +kernel)
    obtain ⟨stage, ran, result⟩ := State.commit_ok committed
    have slot := committed_slot known ran 7 (.word 1)
    rw [Stage.reopened, result] at slot
    have deleted : Trace (Operates sampleEnv) (.new sampleEnv kv root) ([] ++ [.delete 7])
        ((State.delete 7).finalState (.new sampleEnv kv root)) := .snoc .nil rfl
    have known' := (Committed.commit empty run committed).sound.run deleted
    obtain ⟨kv', root', committed'⟩ : ∃ kv' root', ((State.delete 7).finalState (.new sampleEnv kv root)).commit sampleEnv kv root = .ok (kv', root') := by
      apply State.commit_isOk known'.err
      intro entry listed
      cases mem_singleton.mp listed
      rfl
    obtain ⟨stage', ran', result'⟩ := State.commit_ok committed'
    have slot' := committed_slot known' ran' 7 (.word 1)
    rw [Stage.reopened, result'] at slot'
    refine ⟨kv, root, committed, kv', root', _, deleted, committed', ?_, ?_⟩
    · exact congrArg sampleEnv.word slot
    · refine (congrArg sampleEnv.word slot').trans ?_
      exact congrArg sampleEnv.word (@loadStorage_nil _ sampleEnv (.word 1))

end

end MeterPov.Accounts
