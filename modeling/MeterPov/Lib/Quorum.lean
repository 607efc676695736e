import Mathlib

/-! Quorums of two thirds among members of which fewer than a third are faulty. -/

set_option autoImplicit false

namespace MeterPov.Lib

open Finset

variable {Member : Type} [Fintype Member]

structure Quorum (Member : Type) [Fintype Member] where
  members : Finset Member
  large : 2 * Fintype.card Member ≤ 3 * members.card

structure FaultySet (Member : Type) [Fintype Member] where
  members : Finset Member
  few : 3 * members.card < Fintype.card Member

namespace Quorum

/-- Two quorums meet in a member that is not faulty. -/
theorem exists_common [DecidableEq Member] (first second : Quorum Member) (faulty : FaultySet Member) :
    ∃ member, member ∈ first.members ∧ member ∈ second.members ∧ member ∉ faulty.members := by
  have union : (first.members ∪ second.members).card ≤ Fintype.card Member := card_le_univ _
  have inter := card_union_add_card_inter first.members second.members
  have large : faulty.members.card < (first.members ∩ second.members).card := by
    have := first.large
    have := second.large
    have := faulty.few
    omega
  obtain ⟨member, shared, correct⟩ := exists_mem_notMem_of_card_lt_card large
  obtain ⟨inFirst, inSecond⟩ := mem_inter.mp shared
  exact ⟨member, inFirst, inSecond, correct⟩

theorem exists_correct [DecidableEq Member] (quorum : Quorum Member) (faulty : FaultySet Member) :
    ∃ member, member ∈ quorum.members ∧ member ∉ faulty.members := by
  obtain ⟨member, inQuorum, -, correct⟩ := quorum.exists_common quorum faulty
  exact ⟨member, inQuorum, correct⟩

end Quorum
end MeterPov.Lib
