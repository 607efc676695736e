import Mathlib

/-! Chains of blocks that name their parents by identifier.

A block that is not on the chain yet can be compared with all that is below it: with those that are on the chain at once,
and with the others one by one. If all of them turn up on the chain, the block is apart from the whole chain. -/

set_option autoImplicit false

namespace MeterPov.Lib

open List

variable {Block ID : Type} (id parent : Block → ID) (height : ID → Nat)

/-- With the latest block first. -/
inductive Linked : List Block → Prop where
  | root (block : Block) : Linked [block]
  | child {block below : Block} {rest : List Block} : Linked (below :: rest) → parent block = id below →
      height (id block) = height (id below) + 1 → Linked (block :: below :: rest)

namespace Linked

variable {id parent height} {chain rest : List Block} {block other : Block}

theorem height_lt (linked : Linked id parent height (block :: rest)) (below : other ∈ rest) : height (id other) < height (id block) := by
  generalize whole : block :: rest = chain at linked
  induction linked generalizing block rest with
  | root =>
    obtain ⟨rfl, rfl⟩ := List.cons.inj whole
    cases below
  | child _ _ next ih =>
    obtain ⟨rfl, rfl⟩ := List.cons.inj whole
    rcases mem_cons.mp below with rfl | deeper
    · omega
    · have lower := ih deeper rfl
      omega

theorem tail (linked : Linked id parent height (other :: block :: rest)) : Linked id parent height (block :: rest) := by
  cases linked with
  | child earlier => exact earlier

theorem of_append {above} (linked : Linked id parent height (above ++ block :: rest)) :
    Linked id parent height (block :: rest) := by
  induction above with
  | nil => exact linked
  | cons first others ih =>
    apply ih
    cases others with
    | nil => exact linked.tail
    | cons second more => exact linked.tail

theorem eq_of_id {above above' rest'} (linked : Linked id parent height chain)
    (first : chain = above ++ block :: rest) (second : chain = above' ++ other :: rest') (same : id block = id other) :
    block = other ∧ rest = rest' := by
  subst first
  induction above generalizing above' with
  | nil =>
    cases above' with
    | nil => exact List.cons.inj second
    | cons head deeper =>
      obtain ⟨rfl, rfl⟩ := List.cons.inj second
      have lower := linked.height_lt (mem_append_right deeper mem_cons_self)
      rw [same] at lower
      omega
  | cons head deeper ih =>
    cases above' with
    | nil =>
      obtain ⟨rfl, rfl⟩ := List.cons.inj second
      have lower := linked.height_lt (mem_append_right deeper mem_cons_self)
      rw [same] at lower
      omega
    | cons head' deeper' =>
      obtain ⟨-, tails⟩ := List.cons.inj second
      refine ih ?_ tails
      cases deeper with
      | nil => exact linked.tail
      | cons next others => exact linked.tail

theorem eq_of_height (linked : Linked id parent height chain) (first : block ∈ chain) (second : other ∈ chain)
    (same : height (id block) = height (id other)) : block = other := by
  induction linked with
  | root only =>
    rw [mem_singleton.mp first, mem_singleton.mp second]
  | @child head below rest earlier link next ih =>
    have whole : Linked id parent height (head :: below :: rest) := .child earlier link next
    rcases mem_cons.mp first with atHead | deeper
    · rcases mem_cons.mp second with atHead' | deeper'
      · rw [atHead, atHead']
      · have lower := whole.height_lt deeper'
        rw [← atHead] at lower
        omega
    · rcases mem_cons.mp second with atHead' | deeper'
      · have lower := whole.height_lt deeper
        rw [← atHead'] at lower
        omega
      · exact ih deeper deeper'

end Linked

/-- What lies below an identifier has been compared, or can never be on the chain. -/
inductive Cleared (valid apart : Block → Prop) (chain : List Block) (head : Nat) : ID → Prop where
  | missing {name : ID} : (∀ block ∈ chain, id block ≠ name) → height name ≤ head → Cleared valid apart chain head name
  | onChain {above rest : List Block} {block : Block} : chain = above ++ block :: rest → (∀ lower ∈ block :: rest, apart lower) →
      Cleared valid apart chain head (id block)
  | pending {block : Block} : valid block → apart block → Cleared valid apart chain head (parent block) →
      Cleared valid apart chain head (id block)

namespace Cleared

variable {id parent height} {valid apart : Block → Prop} {chain : List Block} {head : Nat} {name : ID}

/-- What is missing stays missing, since the chain grows above its head only. -/
theorem extend {block} (cleared : Cleared id parent height valid apart chain head name) (next : height (id block) = head + 1) :
    Cleared id parent height valid apart (block :: chain) (head + 1) name := by
  induction cleared with
  | @missing name absent low =>
    apply Cleared.missing
    · intro other listed same
      rcases mem_cons.mp listed with rfl | known
      · rw [same] at next
        omega
      · exact absent other known same
    · omega
  | onChain split lower => exact .onChain (by rw [split, cons_append]) lower
  | pending isValid isApart _ ih => exact .pending isValid isApart ih

/-- Blocks with one identifier have one parent and the same contents. -/
theorem apart_of_split (linked : Linked id parent height chain)
    (agree : ∀ first second, valid first → second ∈ chain → id first = id second →
      parent first = parent second ∧ (apart first → apart second))
    (cleared : Cleared id parent height valid apart chain head name) {above rest block}
    (split : chain = above ++ block :: rest) (named : id block = name) : ∀ lower ∈ block :: rest, apart lower := by
  induction cleared generalizing above block rest with
  | @missing name absent _ =>
    have listed : block ∈ chain := by simp [split]
    exact absurd named (absent block listed)
  | onChain split' lower =>
    obtain ⟨rfl, rfl⟩ := linked.eq_of_id split split' named
    exact lower
  | @pending other isValid isApart _ ih =>
    have listed : block ∈ chain := by simp [split]
    obtain ⟨parents, contents⟩ := agree other block isValid listed named.symm
    have here : apart block := contents isApart
    cases rest with
    | nil =>
      intro lower only
      rw [mem_singleton.mp only]
      exact here
    | cons below deeper =>
      have tail : Linked id parent height (block :: below :: deeper) := (split ▸ linked).of_append
      have link : parent block = id below := by
        cases tail with
        | child _ link => exact link
      have deeperSplit : chain = (above ++ [block]) ++ below :: deeper := by simp [split]
      have others := ih deeperSplit (link.symm.trans parents.symm)
      intro lower mem
      rcases mem_cons.mp mem with rfl | mem
      · exact here
      · exact others lower mem

end Cleared

end MeterPov.Lib
