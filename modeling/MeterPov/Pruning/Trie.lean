import Mathlib

/-! Tries in a database that keeps nodes under their hashes, and the states of the two iterators over them. -/

set_option autoImplicit false

namespace MeterPov.Pruning

open List

/-- A node with all that is under it: a child stands for itself, also where its parent holds only its hash.
The storage of an account is the trie its `StorageRoot` names, and an account without one is a plain value. -/
inductive Node (Blob : Type) where
  | nil
  | value (blob : Blob)
  | account (blob : Blob) (storage : Node Blob)
  | short (key : List Nat) (val : Node Blob)
  | full (children : Fin 17 → Node Blob)

/-- A node is found by its hash, so a hash has one node. -/
structure TrieEnv (Blob Key : Type) where
  zero : Key
  hash : Node Blob → Key
  hash_injective : Function.Injective hash
  encodedLength : Node Blob → Nat
  hexToKeybytes : List Nat → Key

namespace Node

variable {Blob Key : Type} (env : TrieEnv Blob Key)

def decEq [DecidableEq Blob] : (left right : Node Blob) → Decidable (left = right)
  | .nil, .nil => .isTrue rfl
  | .value first, .value second => decidable_of_iff (first = second) (by simp)
  | .account first left, .account second right =>
    have : Decidable (left = right) := decEq left right
    decidable_of_iff (first = second ∧ left = right) (by simp)
  | .short first left, .short second right =>
    have : Decidable (left = right) := decEq left right
    decidable_of_iff (first = second ∧ left = right) (by simp)
  | .full left, .full right =>
    have (index : Fin 17) : Decidable (left index = right index) := decEq (left index) (right index)
    decidable_of_iff (∀ index, left index = right index) (by simp [funext_iff])
  | .nil, .value _ | .nil, .account .. | .nil, .short .. | .nil, .full _ => .isFalse nofun
  | .value _, .nil | .value _, .account .. | .value _, .short .. | .value _, .full _ => .isFalse nofun
  | .account .., .nil | .account .., .value _ | .account .., .short .. | .account .., .full _ => .isFalse nofun
  | .short .., .nil | .short .., .value _ | .short .., .account .. | .short .., .full _ => .isFalse nofun
  | .full _, .nil | .full _, .value _ | .full _, .account .. | .full _, .short .. => .isFalse nofun

instance [DecidableEq Blob] : DecidableEq (Node Blob) := decEq

def isNil : Node Blob → Bool
  | .nil => true
  | _ => false

def isLeaf : Node Blob → Bool
  | .value _ | .account .. => true
  | _ => false

/-- A child shorter than 32 bytes is stored inside its parent. -/
def byHash : Node Blob → Bool
  | .nil | .value _ | .account .. => false
  | node => 32 ≤ env.encodedLength node

/-- The root of a trie is stored by its hash whatever its length; an empty trie is not stored. -/
def rootKeys : Node Blob → List Key
  | .nil | .value _ | .account .. => []
  | node => [env.hash node]

def childKeys (node : Node Blob) : List Key := if node.byHash env then [env.hash node] else []

/-- The database keys under a node. The storage of accounts is followed in the trie of accounts only. -/
def keysBelow (accounts : Bool) : Node Blob → List Key
  | .nil | .value _ => []
  | .account _ storage => if accounts then storage.rootKeys env ++ storage.keysBelow false else []
  | .short _ val => val.childKeys env ++ val.keysBelow accounts
  | .full children => (List.finRange 17).flatMap fun index => (children index).childKeys env ++ (children index).keysBelow accounts

/-- Every trie and storage node reachable from a state root. -/
def stateKeys (root : Node Blob) : List Key := root.rootKeys env ++ root.keysBelow env true

end Node

/-- `nodeIteratorState` and `pruneIteratorState`. The hash is zero for a node inside its parent. -/
structure Frame (Blob Key : Type) where
  node : Node Blob
  hash : Key
  byHash : Bool
  parent : Key
  path : List Nat

namespace Frame

variable {Blob Key : Type} (env : TrieEnv Blob Key)

/-- The root is resolved when the trie is opened. -/
def ofRoot (root : Node Blob) : Frame Blob Key :=
  ⟨root, if root.isNil then env.zero else env.hash root, false, env.zero, []⟩

def ofChild (parent : Key) (path : List Nat) (child : Node Blob) : Frame Blob Key :=
  ⟨child, if child.byHash env then env.hash child else env.zero, child.byHash env, parent, path⟩

variable (frame : Frame Blob Key)

/-- `LeafKey` for a leaf and `Hash` for any other node. -/
def key : Key := if frame.node.isLeaf then env.hexToKeybytes frame.path else frame.hash

def ancestor [DecidableEq Key] : Key := if frame.hash = env.zero then frame.parent else frame.hash

/-- The states `nextChild` makes, in its order. -/
def children [DecidableEq Key] : List (Frame Blob Key) :=
  match frame.node with
  | .short key val => [ofChild env (frame.ancestor env) (frame.path ++ key) val]
  | .full children =>
    ((List.finRange 17).filter fun index => !(children index).isNil).map fun index =>
      ofChild env (frame.ancestor env) (frame.path ++ [index.val]) (children index)
  | _ => []

/-- The iterator over the storage of the account the frame is at, unless the trie cannot be opened. -/
def storage (present : Key → Bool) : List (Frame Blob Key) :=
  match frame.node with
  | .account _ storage => if (storage.rootKeys env).all present then [ofRoot env storage] else []
  | _ => []

/-- Whether `resolve` finds the node. -/
def resolves (present : Key → Bool) : Bool := !frame.byHash || present frame.hash

end Frame

section

variable {Blob Key : Type} [DecidableEq Key] (env : TrieEnv Blob Key)

/-- What an iterator that misses no node reads at a node with this hash, parent and path, and under it:
its key and the hash of its parent, and for the account trie the same over the storage of its accounts. -/
def Node.visits (accounts : Bool) (hash parent : Key) (path : List Nat) : Node Blob → List Key
  | .nil => [hash, parent]
  | .value _ => [env.hexToKeybytes path, parent]
  | .account _ storage =>
    env.hexToKeybytes path :: parent ::
      if accounts then storage.visits false (if storage.isNil then env.zero else env.hash storage) env.zero [] else []
  | .short key val =>
    hash :: parent :: val.visits accounts (if val.byHash env then env.hash val else env.zero)
      (if hash = env.zero then parent else hash) (path ++ key)
  | .full children =>
    hash :: parent :: ((List.finRange 17).filter fun index => !(children index).isNil).flatMap fun index =>
      (children index).visits accounts (if (children index).byHash env then env.hash (children index) else env.zero)
        (if hash = env.zero then parent else hash) (path ++ [index.val])

def Frame.visits (accounts : Bool) (frame : Frame Blob Key) : List Key :=
  frame.node.visits env accounts frame.hash frame.parent frame.path

/-- The keys the iterators over a state trie and the storage of its accounts read. -/
def Node.stateVisits (root : Node Blob) : List Key := (Frame.ofRoot env root).visits env true

variable {env} {accounts : Bool} {key : Key} {frame : Frame Blob Key}

theorem Frame.mem_visits_iff : key ∈ frame.visits env accounts ↔ key = frame.key env ∨ key = frame.parent ∨
      (accounts = true ∧ ∃ opened ∈ frame.storage env fun _ => true, key ∈ opened.visits env false) ∨
      ∃ child ∈ frame.children env, key ∈ child.visits env accounts := by
  obtain ⟨node, hash, byHash, parent, path⟩ := frame
  cases node with
  | nil => simp [visits, Node.visits, Frame.key, storage, children, Node.isLeaf]
  | value blob => simp [visits, Node.visits, Frame.key, storage, children, Node.isLeaf]
  | account blob stored =>
    cases accounts with
    | true => simp [visits, Node.visits, Frame.key, storage, children, Node.isLeaf, ofRoot]
    | false => simp [visits, Node.visits, Frame.key, children, Node.isLeaf]
  | short nibbles val => simp [visits, Node.visits, Frame.key, storage, children, Node.isLeaf, ofChild, ancestor]
  | full below => simp [visits, Node.visits, Frame.key, storage, children, Node.isLeaf, ofChild, ancestor]

end

section

variable {Blob Key : Type} {env : TrieEnv Blob Key}

/-- The database keys a frame and what is under it need. -/
def Frame.keys (env : TrieEnv Blob Key) (accounts : Bool) (frame : Frame Blob Key) : List Key :=
  (if frame.byHash then [frame.hash] else []) ++ frame.node.keysBelow env accounts

variable {present : Key → Bool} {accounts : Bool} {key : Key}

theorem Frame.ofChild_keys {parent path child} :
    (ofChild env parent path child).keys env accounts = child.childKeys env ++ child.keysBelow env accounts := by
  unfold keys ofChild Node.childKeys
  cases child.byHash env with
  | true => simp
  | false => simp

variable {accounts : Bool} {frame : Frame Blob Key}

theorem Frame.children_keys [DecidableEq Key] {child} (member : child ∈ frame.children env) (needed : key ∈ child.keys env accounts) : key ∈ frame.keys env accounts := by
  obtain ⟨node, hash, byHash, parent, path⟩ := frame
  apply mem_append_right
  cases node with
  | nil | value | account => simp [children] at member
  | short nibbles val =>
    simp only [children, mem_singleton] at member
    subst member
    rwa [ofChild_keys] at needed
  | full below =>
    simp only [children, mem_map] at member
    obtain ⟨index, _, rfl⟩ := member
    rw [ofChild_keys] at needed
    exact mem_flatMap.mpr ⟨index, mem_finRange index, needed⟩

theorem Frame.storage_keys {opened} (member : opened ∈ frame.storage env present) (needed : key ∈ opened.keys env false) : key ∈ frame.keys env true := by
  obtain ⟨node, hash, byHash, parent, path⟩ := frame
  apply mem_append_right
  cases node with
  | nil | value | short | full => simp [storage] at member
  | account blob stored =>
    simp only [storage] at member
    split at member
    · obtain rfl := mem_singleton.mp member
      simp only [keys, ofRoot, Bool.false_eq_true, if_false, nil_append] at needed
      simp [Node.keysBelow, needed]
    · simp at member

theorem Frame.storage_opens (found : ∀ key ∈ frame.keys env true, present key = true) :
    frame.storage env present = frame.storage env fun _ => true := by
  obtain ⟨node, hash, byHash, parent, path⟩ := frame
  cases node with
  | nil | value | short | full => rfl
  | account blob stored =>
    have opens : (stored.rootKeys env).all present = true := by
      apply all_eq_true.mpr
      intro key member
      exact found key (mem_append_right _ (by simp [Node.keysBelow, member]))
    simp [storage, opens]

theorem Node.keysBelow_visited [DecidableEq Key] {node : Node Blob} {hash parent path} (needed : key ∈ node.keysBelow env accounts) : key ∈ node.visits env accounts hash parent path := by
  induction node generalizing accounts hash parent path with
  | nil | value => simp [keysBelow] at needed
  | account blob storage ih =>
    cases accounts with
    | false => simp [keysBelow] at needed
    | true =>
      simp only [keysBelow, if_true, mem_append] at needed
      rcases needed with root | below
      · cases storage with
        | nil | value | account => simp [rootKeys] at root
        | short | full =>
          simp only [rootKeys, mem_singleton] at root
          simp [visits, isNil, root]
      · simp [visits, ih below]
  | short nibbles val ih =>
    simp only [keysBelow, mem_append] at needed
    rcases needed with own | below
    · cases val with
      | nil | value | account => simp [childKeys, byHash] at own
      | short | full =>
        simp only [childKeys] at own
        split at own
        · simp_all [visits]
        · simp at own
    · simp [visits, ih below]
  | full children ih =>
    simp only [keysBelow, mem_flatMap, mem_append] at needed
    obtain ⟨index, _, needed⟩ := needed
    have present : (children index).isNil = false := by
      cases at_index : children index with
      | nil => simp [at_index, childKeys, byHash, keysBelow] at needed
      | value | account | short | full => rfl
    have visited : key ∈ (children index).visits env accounts
        (if (children index).byHash env then env.hash (children index) else env.zero)
        (if hash = env.zero then parent else hash) (path ++ [index.val]) := by
      rcases needed with own | below
      · simp only [childKeys] at own
        split at own
        · rename_i stored
          obtain rfl := mem_singleton.mp own
          cases at_index : children index with
          | nil | value | account => simp [at_index, byHash] at stored
          | short | full => simp [visits, ← at_index, stored]
        · simp at own
      · exact ih index below
    simp only [visits, mem_cons, mem_flatMap, mem_filter, mem_finRange, true_and]
    exact .inr (.inr ⟨index, by simp [present], visited⟩)

theorem Node.stateKeys_visited [DecidableEq Key] {root : Node Blob} (needed : key ∈ root.stateKeys env) : key ∈ root.stateVisits env := by
  rcases mem_append.mp needed with own | below
  · cases root with
    | nil | value | account => simp [rootKeys] at own
    | short | full =>
      obtain rfl := mem_singleton.mp own
      simp [stateVisits, Frame.visits, Frame.ofRoot, visits, isNil]
  · exact keysBelow_visited below

end

end MeterPov.Pruning
