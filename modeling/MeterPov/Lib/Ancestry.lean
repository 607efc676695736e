import Mathlib

/-! Trees given by the parents of their nodes, and agreement on one branch of them.

`up child parent` is any relation in which a node has at most one parent. Some nodes are certified;
when certificates reach down to a floor and certified nodes of one height share their parent, what
lies below certified nodes lies on one branch. -/

set_option autoImplicit false

namespace MeterPov.Lib

open Relation

variable {Node : Type}

/-- One of two nodes is an ancestor of the other, or they are the same. -/
def OnOneChain (up : Node → Node → Prop) (first second : Node) : Prop :=
  ReflTransGen up first second ∨ ReflTransGen up second first

structure Certification (up : Node → Node → Prop) (height : Node → Nat) (certified : Node → Prop) (floor : Nat) :
    Prop where
  parent_unique : Relator.RightUnique up
  has_parent : ∀ {node}, certified node → ∃ parent, up node parent
  height_parent : ∀ {node parent}, certified node → up node parent → height node = height parent + 1
  parent_certified : ∀ {node parent}, certified node → up node parent → floor < height parent → certified parent
  parent_shared : ∀ {first second parent}, certified first → certified second → height first = height second →
    up first parent → up second parent

namespace Certification

variable {up : Node → Node → Prop} {height : Node → Nat} {certified : Node → Prop} {floor : Nat}

theorem exists_ancestor (tree : Certification up height certified floor) {level} (above : floor < level) (steps : Nat)
    {node} (isCertified : certified node) (high : height node = level + steps) :
    ∃ ancestor, certified ancestor ∧ height ancestor = level ∧ ReflTransGen up node ancestor := by
  induction steps generalizing node with
  | zero => exact ⟨node, isCertified, high, .refl⟩
  | succ steps ih =>
    obtain ⟨parent, isParent⟩ := tree.has_parent isCertified
    have lower := tree.height_parent isCertified isParent
    have parentCertified := tree.parent_certified isCertified isParent (by omega)
    obtain ⟨ancestor, ancestorCertified, atLevel, path⟩ := ih parentCertified (by omega)
    exact ⟨ancestor, ancestorCertified, atLevel, .head isParent path⟩

/-- The parent of a certified node is an ancestor of every certified node that is at least as high. -/
theorem parent_ancestor (tree : Certification up height certified floor) {lower higher parent}
    (lowerCertified : certified lower) (higherCertified : certified higher) (above : floor < height lower)
    (order : height lower ≤ height higher) (isParent : up lower parent) : ReflTransGen up higher parent := by
  obtain ⟨steps, high⟩ := Nat.exists_eq_add_of_le order
  obtain ⟨ancestor, ancestorCertified, sameHeight, path⟩ := tree.exists_ancestor above steps higherCertified high
  exact path.tail (tree.parent_shared lowerCertified ancestorCertified sameHeight.symm isParent)

/-- Ancestors of the parents of certified nodes lie on one chain. -/
theorem onOneChain (tree : Certification up height certified floor) {first second firstParent secondParent x y}
    (firstCertified : certified first) (secondCertified : certified second) (firstAbove : floor < height first)
    (secondAbove : floor < height second) (isFirstParent : up first firstParent) (isSecondParent : up second secondParent)
    (xBelow : ReflTransGen up firstParent x) (yBelow : ReflTransGen up secondParent y) : OnOneChain up x y := by
  rcases le_total (height first) (height second) with order | order
  · have toX := (tree.parent_ancestor firstCertified secondCertified firstAbove order isFirstParent).trans xBelow
    exact ReflTransGen.total_of_right_unique tree.parent_unique toX (.head isSecondParent yBelow)
  · have toY := (tree.parent_ancestor secondCertified firstCertified secondAbove order isSecondParent).trans yBelow
    exact ReflTransGen.total_of_right_unique tree.parent_unique (.head isFirstParent xBelow) toY

end Certification
end MeterPov.Lib
